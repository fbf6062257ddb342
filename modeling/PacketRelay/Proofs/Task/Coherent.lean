import PacketRelay.Proofs.Task.Access

/-!
# Coherent tasks

The handle and the thread of a run see each other only through the context they share. What each of
them may rely on there is one invariant of the task, coherence: the phase tells where the thread is,
a thread that has not yet taken its target will find it, and a handle that is about to drop a target
does so for a thread that has let go of the context. The steps of the handle, of the threads and of
the targets keep it.

## Main definitions

* `Stage.phase`: the phase that belongs to a place of the thread
* `Context.Coherent`, `Task.Coherent`: the invariant

## Main results

* `Coherent.advance`, `Coherent.advanceThread`: the steps of the handle and of a thread keep it
* `Coherent.begin`, `Coherent.setTarget`, `Coherent.leave`, `Coherent.cancelRun`: so do the others
-/

namespace PacketRelay.Task

variable {τ : Type}

/-- The phase that belongs to a place of the thread. -/
def Stage.phase : Stage τ → Phase
  | .spawned | .holding => .starting
  | .up | .named | .executing _ | .returned => .running
  | .idle | .releasing _ | .exited => .idle

/-- Is the thread yet to take its target? -/
def Stage.isPending : Stage τ → Bool
  | .spawned | .holding | .up | .named => true
  | _ => false

/-- The target that a call is about to give to a new run. -/
def Position.target? : Position τ → Option τ
  | .checkStart target | .letGo (.spawn target) | .releasing _ (.spawn target) | .spawn target =>
    some target
  | _ => none

/-- The run whose thread a call has in hand. -/
def Position.run? : Position τ → Option Nat
  | .adopt run | .joining run _ => some run
  | _ => none

/-- Is the call about to drop the target of the context of the handle? -/
def Position.isDropping : Position τ → Bool
  | .releasing .mark _ | .releasing .dropTarget _ => true
  | _ => false

/-- The run has, or has had, a thread. -/
def HasThread (t : Task τ) (run : Nat) : Prop :=
  ∃ c stage, t.contexts[run]? = some c ∧ c.stage = some stage

/-- What the handle and the thread of a run may rely on in its context. -/
structure Context.Coherent (fresh : τ → Prop) (c : Context τ) : Prop where
  /-- The phase tells where the thread is. -/
  phase : c.phase = c.stage.elim .idle Stage.phase
  /-- A thread that is yet to take its target holds the context and finds a fresh target in it. -/
  pending : c.stage.any Stage.isPending →
    c.threadAlive ∧ ∃ target, c.target = some target ∧ fresh target

/-- What the handle and the threads of a task may rely on. -/
structure Coherent (fresh : τ → Prop) (t : Task τ) : Prop where
  /-- Every context is coherent. -/
  contexts : ∀ (run : Nat) (c : Context τ), t.contexts[run]? = some c → c.Coherent fresh
  /-- A target is dropped only if the thread has let go of the context. -/
  dropping : t.position.isDropping → t.context.threadAlive = false
  /-- A target on its way to a new run is fresh. -/
  target : ∀ target, t.position.target? = some target → fresh target
  /-- A run that is waited for, or can be, has a thread. -/
  thread : ∀ run, t.joinable = some run ∨ t.position.run? = some run → t.HasThread run

section Contexts

variable {fresh : τ → Prop} {c d : Context τ}

theorem Context.coherent_default : ({} : Context τ).Coherent fresh :=
  ⟨rfl, by simp⟩

theorem Context.coherent_ofTarget {target : τ} (new : fresh target) :
    (Context.ofTarget target).Coherent fresh :=
  ⟨rfl, fun _ => ⟨rfl, target, rfl, new⟩⟩

@[simp] theorem Release.step_stage (r : Release) : (r.step c).1.stage = c.stage := by
  cases r <;> simp only [Release.step]
  split <;> rfl

@[simp] theorem Release.step_threadAlive (r : Release) :
    (r.step c).1.threadAlive = c.threadAlive := by
  cases r <;> simp only [Release.step]
  split <;> rfl

@[simp] theorem Release.step_phase (r : Release) : (r.step c).1.phase = c.phase := by
  cases r <;> simp only [Release.step]
  split <;> rfl

/-- A step towards a release keeps the context coherent, provided that only the target of a thread
that has let go is dropped. -/
theorem Context.Coherent.release {r : Release} (coherent : c.Coherent fresh)
    (gone : r = .dropTarget → c.threadAlive = false) : (r.step c).1.Coherent fresh := by
  constructor
  · rw [Release.step_phase, Release.step_stage, coherent.phase]
  · rw [Release.step_stage, Release.step_threadAlive]
    intro pending
    obtain ⟨held, target, found, new⟩ := coherent.pending pending
    refine ⟨held, target, ?_, new⟩
    cases r <;> simp only [Release.step]
    case mark => split <;> exact found
    case dropTarget => simp [gone rfl] at held
    all_goals exact found

/-- A step of the thread keeps the context coherent. -/
theorem Context.Coherent.access (coherent : c.Coherent fresh) (last : c.Access d) :
    d.Coherent fresh := by
  obtain ⟨phase, pending⟩ := coherent
  cases last with
  | hold at_ | run at_ | name at_ | rest at_ | letGo at_ =>
    refine ⟨?_, ?_⟩ <;> simp_all [Stage.phase, Stage.isPending]
  | enter at_ => exact ⟨by simp [phase, at_, Stage.phase], by simp [Stage.isPending]⟩
  | skip at_ missing =>
    obtain ⟨-, target, found, -⟩ := pending (by simp [at_, Stage.isPending])
    simp [missing] at found
  | @release r at_ =>
    refine ⟨?_, ?_⟩ <;> cases (r.step c).2 <;> simp [phase, at_, Stage.phase, Stage.isPending]

/-- The thread never loses its stage, and marks itself only if it is marked already. -/
theorem Context.Coherent.keeps (coherent : c.Coherent fresh) (last : c.Access d) :
    d.stage.isSome ∧ (c.threadAlive = false → d.threadAlive = false) := by
  cases last with
  | hold at_ =>
    refine ⟨rfl, ?_⟩
    intro gone
    simp [(coherent.pending (by simp [at_, Stage.isPending])).1] at gone
  | letGo => exact ⟨rfl, fun _ => rfl⟩
  | run | name | enter | skip | rest => exact ⟨rfl, id⟩
  | release => exact ⟨rfl, fun gone => by simpa using gone⟩

end Contexts

/-- What is asked of a target may be changed as long as every target answers to it. -/
theorem Coherent.imp {fresh fresh' : τ → Prop} {t : Task τ} (coherent : t.Coherent fresh)
    (answers : ∀ target, fresh target → fresh' target) : t.Coherent fresh' where
  contexts run c found := by
    obtain ⟨phase, pending⟩ := coherent.contexts run c found
    refine ⟨phase, ?_⟩
    intro waits
    obtain ⟨held, target, there, new⟩ := pending waits
    exact ⟨held, target, there, answers target new⟩
  dropping := coherent.dropping
  target target found := answers target (coherent.target target found)
  thread := coherent.thread

/-- While no target is on its way, anything may be asked of a target. -/
theorem Coherent.of_none {fresh fresh' : τ → Prop} {t : Task τ} (coherent : t.Coherent fresh)
    (idle : ∀ (run : Nat) (c : Context τ), t.contexts[run]? = some c →
      c.stage.any Stage.isPending = false)
    (none : t.position.target? = none) : t.Coherent fresh' where
  contexts run c found := by
    refine ⟨(coherent.contexts run c found).phase, ?_⟩
    intro waits
    simp [idle run c found] at waits
  dropping := coherent.dropping
  target target found := by simp [none] at found
  thread := coherent.thread

section Modify

variable {fresh : τ → Prop} {t : Task τ} {run : Nat} {f : Context τ → Context τ}

theorem getElem?_modify_contexts (other : Nat) :
    (t.modify run f).contexts[other]? =
      if run = other then t.contexts[other]?.map f else t.contexts[other]? := by
  simp only [Task.modify, List.getElem?_modify]
  split <;> simp_all

theorem HasThread.modify {other : Nat}
    (keeps : ∀ c : Context τ, t.contexts[run]? = some c → c.stage.isSome → (f c).stage.isSome)
    (thread : t.HasThread other) : (t.modify run f).HasThread other := by
  obtain ⟨c, stage, found, at_⟩ := thread
  unfold HasThread
  rw [getElem?_modify_contexts]
  split
  · next here =>
    obtain ⟨stage', at'⟩ := Option.isSome_iff_exists.mp (keeps c (here ▸ found) (by simp [at_]))
    exact ⟨f c, stage', by simp [found], at'⟩
  · exact ⟨c, stage, found, at_⟩

theorem context_modify_threadAlive
    (keeps : ∀ c : Context τ, t.contexts[run]? = some c → c.threadAlive = false →
      (f c).threadAlive = false) (gone : t.context.threadAlive = false) :
    (t.modify run f).context.threadAlive = false := by
  simp only [context, List.getD_eq_getElem?_getD, getElem?_modify_contexts] at gone ⊢
  have same : (t.modify run f).current = t.current := rfl
  rw [same]
  split
  · next here =>
    rw [here] at keeps
    cases found : t.contexts[t.current]? with
    | none => rfl
    | some c => exact keeps c found (by simpa [found] using gone)
  · exact gone

/-- Changing one context to one that is coherent keeps the task coherent. -/
theorem Coherent.modify (coherent : t.Coherent fresh)
    (context : ∀ c, t.contexts[run]? = some c → (f c).Coherent fresh)
    (keepsStage : ∀ c : Context τ, t.contexts[run]? = some c → c.stage.isSome →
      (f c).stage.isSome)
    (keepsAlive : ∀ c : Context τ, t.contexts[run]? = some c → c.threadAlive = false →
      (f c).threadAlive = false) :
    (t.modify run f).Coherent fresh where
  contexts other d found := by
    rw [getElem?_modify_contexts] at found
    split at found
    · next here =>
      subst here
      obtain ⟨c, there, rfl⟩ := Option.map_eq_some_iff.mp found
      exact context c there
    · exact coherent.contexts other d found
  dropping at_ := context_modify_threadAlive keepsAlive (coherent.dropping at_)
  target := coherent.target
  thread other has := (coherent.thread other has).modify keepsStage

end Modify

section Steps

variable {fresh : τ → Prop} {t t' : Task τ} {run : Nat}

/-- A task that has not been started is coherent. -/
theorem coherent_ofName (name : String) : ({ name := name } : Task τ).Coherent fresh where
  contexts run c found := by
    obtain rfl := List.mem_singleton.mp (List.mem_of_getElem? found)
    exact Context.coherent_default
  dropping _ := rfl
  target := by simp [Position.target?]
  thread := by simp [Position.run?]

/-- A call goes on to another place. -/
theorem Coherent.moveTo (coherent : t.Coherent fresh) (position : Position τ)
    (dropping : position.isDropping = false)
    (target : ∀ target, position.target? = some target → fresh target)
    (thread : ∀ run, position.run? = some run → t.HasThread run) :
    ({ t with position := position } : Task τ).Coherent fresh where
  contexts := coherent.contexts
  dropping at_ := by simp [dropping] at at_
  target := target
  thread run has := has.elim (fun has => coherent.thread run (.inl has)) (thread run)

/-- Coherence does not depend on who calls. -/
theorem Coherent.begin {by_ : Caller} {call : Call τ} (coherent : t.Coherent fresh)
    (new : ∀ target, call = .start target → fresh target) : (t.begin by_ call).Coherent fresh := by
  have moved := coherent.moveTo call.entry (by cases call <;> rfl)
    (fun target found => new target (by
      cases call <;> simp_all [Call.entry, Position.target?]))
    (fun run found => by cases call <;> simp [Call.entry, Position.run?] at found)
  exact ⟨moved.contexts, moved.dropping, moved.target, moved.thread⟩

theorem Coherent.cancelRun (coherent : t.Coherent fresh) (run : Nat) : (t.cancelRun run).Coherent fresh :=
  coherent.modify (fun c found => ⟨(coherent.contexts run c found).phase,
    (coherent.contexts run c found).pending⟩) (fun _ _ at_ => at_) fun _ _ gone => gone

theorem target?_eq_some {target : τ} :
    t.target? run = some target ↔
      ∃ c, t.contexts[run]? = some c ∧ c.stage = some (.executing target) := by
  unfold Task.target?
  constructor
  · intro found
    split at found
    · next there => exact ⟨_, there, congrArg _ (congrArg _ (Option.some.inj found))⟩
    · simp at found
  · rintro ⟨⟨⟩, found, at_⟩
    obtain rfl := at_
    rw [found]

/-- A context whose thread is in its target stays coherent as the target goes on or ends. -/
theorem Coherent.modify_stage (coherent : t.Coherent fresh) {target : τ} {stage : Stage τ}
    (executing : t.target? run = some target) (phase : stage.phase = .running)
    (pending : stage.isPending = false) :
    (t.modify run fun c => { c with stage := some stage }).Coherent fresh := by
  obtain ⟨c, found, at_⟩ := target?_eq_some.mp executing
  refine coherent.modify (?_) (fun _ _ _ => rfl) fun _ _ gone => gone
  intro d there
  obtain rfl := Option.some.inj (found.symm.trans there)
  have before := (coherent.contexts run c found).phase
  rw [at_] at before
  exact ⟨before.trans phase.symm, by simp [pending]⟩

theorem Coherent.setTarget (coherent : t.Coherent fresh) {target next : τ}
    (executing : t.target? run = some target) : (t.setTarget run next).Coherent fresh :=
  coherent.modify_stage executing rfl rfl

theorem Coherent.leave (coherent : t.Coherent fresh) {target : τ}
    (executing : t.target? run = some target) : (t.leave run).Coherent fresh :=
  coherent.modify_stage executing rfl rfl

/-- A step of a thread keeps the task coherent. -/
theorem Coherent.advanceThread (coherent : t.Coherent fresh) (last : t.advanceThread run = some t') :
    t'.Coherent fresh := by
  obtain ⟨c, d, found, step, rfl⟩ := exists_access_of_advanceThread last
  have before := coherent.contexts run c found
  obtain ⟨staged, gone⟩ := before.keeps step
  apply coherent.modify (fun _ _ => before.access step) (fun _ _ _ => staged)
  intro e there
  obtain rfl := Option.some.inj (found.symm.trans there)
  exact gone

/-- The place that a call reaches once it has let go of a context. -/
theorem Coherent.afterLetGo (coherent : t.Coherent fresh) {next : AfterLetGo τ}
    (new : ∀ target, next = .spawn target → fresh target) : (t.afterLetGo next).Coherent fresh := by
  cases next with
  | spawn target =>
    exact coherent.moveTo _ rfl (fun other same => by
      obtain rfl : target = other := by simpa [Position.target?] using same
      exact new target rfl) (by simp [Position.run?])
  | detached => exact coherent.moveTo _ rfl (by simp [Position.target?]) (by simp [Position.run?])
  | dropped =>
    have moved := coherent.moveTo (.returned false) rfl (by simp [Position.target?])
      (by simp [Position.run?])
    exact ⟨moved.contexts, moved.dropping, moved.target, moved.thread⟩

theorem Coherent.moveTo_joined (coherent : t.Coherent fresh) {next : AfterJoin} :
    ({ t with position := next.position } : Task τ).Coherent fresh := by
  cases next <;>
    exact coherent.moveTo _ rfl (by simp [AfterJoin.position, Position.target?])
      (by simp [AfterJoin.position, Position.run?])

/-- An attempt to release goes on to drop the target only behind a thread that has let go. -/
theorem Coherent.gone_of_release {r r' : Release} {next : AfterLetGo τ} (coherent : t.Coherent fresh)
    (at_ : t.position = .releasing r next) (more : (r.step t.context).2 = some r')
    (drops : (Position.releasing r' next).isDropping) : t.context.threadAlive = false := by
  cases r with
  | readOwner =>
    simp only [Release.step] at more
    split at more
    · simp at more
    · obtain rfl := Option.some.inj more
      simp [Position.isDropping] at drops
  | readThread =>
    simp only [Release.step] at more
    split at more
    · simp at more
    · next gone => simpa using gone
  | mark => exact coherent.dropping (by simp [at_, Position.isDropping])
  | dropTarget => simp [Release.step] at more

/-- A new context and its thread are made. -/
theorem Coherent.spawn {target : τ} (coherent : t.Coherent fresh) (new : fresh target) :
    ({ t with
        contexts := t.contexts ++ [.ofTarget target]
        position := .adopt t.contexts.length } : Task τ).Coherent fresh where
  contexts run c found := by
    rcases List.mem_append.mp (List.mem_of_getElem? found) with old | last
    · obtain ⟨other, there⟩ := List.mem_iff_getElem?.mp old
      exact coherent.contexts other c there
    · obtain rfl := List.mem_singleton.mp last
      exact Context.coherent_ofTarget new
  dropping at_ := by simp [Position.isDropping] at at_
  target := by simp [Position.target?]
  thread run has := by
    rcases has with joinable | adopted
    · obtain ⟨c, stage, found, at_⟩ := coherent.thread run (.inl joinable)
      have old := (List.getElem?_eq_some_iff.mp found).1
      exact ⟨c, stage, (List.getElem?_append_left old).trans found, at_⟩
    · obtain rfl := Option.some.inj adopted
      exact ⟨.ofTarget target, .spawned, by simp, rfl⟩

/-- The handle takes one more step in an attempt to release its context. -/
theorem Coherent.release {r : Release} {next : AfterLetGo τ} (coherent : t.Coherent fresh)
    (at_ : t.position = .releasing r next) :
    (t.modify t.current fun _ => (r.step t.context).1).Coherent fresh := by
  have here : ∀ c, t.contexts[t.current]? = some c → t.context = c := fun c found => by
    simp [context, found]
  have dropping : r = .dropTarget → t.context.threadAlive = false := fun drops =>
    coherent.dropping (by simp [at_, drops, Position.isDropping])
  refine coherent.modify (?_) (?_) ?_
  · intro c found
    rw [here c found] at dropping ⊢
    exact (coherent.contexts _ c found).release dropping
  · intro c found staged
    simpa [here c found] using staged
  · intro c found gone
    simpa [here c found] using gone

/-- A step of the handle keeps the task coherent. -/
theorem Coherent.advance (coherent : t.Coherent fresh) (last : t.advance = some t') :
    t'.Coherent fresh := by
  cases access_of_advance last with
  | busy => exact coherent.moveTo _ rfl (by simp [Position.target?]) (by simp [Position.run?])
  | idle at_ =>
    have new := coherent.target _ (by rw [at_]; rfl)
    exact coherent.moveTo _ rfl (by simpa [Position.target?] using new) (by simp [Position.run?])
  | @letGo next at_ =>
    have let_go : (t.modify t.current fun c => { c with ownerAlive := false }).Coherent fresh :=
      coherent.modify (fun c found => ⟨(coherent.contexts _ c found).phase,
        (coherent.contexts _ c found).pending⟩) (fun _ _ staged => staged) fun _ _ gone => gone
    have moved := let_go.moveTo (.releasing .readOwner next) rfl
      (fun target found => coherent.target target (by
        cases next <;> simp_all [Position.target?])) (by simp [Position.run?])
    exact ⟨moved.contexts, moved.dropping, moved.target, by simp [Position.run?]⟩
  | @release r r' next at_ more =>
    have released := coherent.release at_
    refine ⟨released.contexts, ?_, ?_, ?_⟩
    · intro drops
      exact context_modify_threadAlive (fun c found gone => by simpa [context, found] using gone)
        (coherent.gone_of_release at_ more drops)
    · intro target found
      exact coherent.target target (by cases next <;> simp_all [Position.target?])
    · intro run has
      exact released.thread run (has.elim .inl (by simp [Position.run?]))
  | released at_ =>
    refine (coherent.release at_).afterLetGo ?_
    rintro target rfl
    exact coherent.target target (by rw [at_]; rfl)
  | spawn at_ => exact coherent.spawn (coherent.target _ (by rw [at_]; rfl))
  | @adopt run at_ =>
    have thread := coherent.thread run (.inr (by rw [at_]; rfl))
    refine ⟨coherent.contexts, by simp [Position.isDropping], by simp [Position.target?], ?_⟩
    rintro other (same | same)
    · exact Option.some.inj same ▸ thread
    · simp [Position.run?] at same
  | dropHeld => exact coherent.moveTo _ rfl (by simp [Position.target?]) (by simp [Position.run?])
  | dropGone => exact (coherent.afterLetGo (by simp) : (t.afterLetGo .dropped).Coherent fresh)
  | cancel =>
    exact (coherent.cancelRun t.current).moveTo _ rfl (by simp [Position.target?])
      (by simp [Position.run?])
  | @wait run next at_ running joinable =>
    refine ⟨coherent.contexts, by simp [Position.isDropping], by simp [Position.target?], ?_⟩
    rintro other (same | same)
    · simp at same
    · exact Option.some.inj same ▸ coherent.thread run (.inl joinable)
  | pass | joined => exact coherent.moveTo_joined

end Steps

end PacketRelay.Task
