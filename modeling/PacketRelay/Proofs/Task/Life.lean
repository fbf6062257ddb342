import PacketRelay.Proofs.Task.Handle

/-!
# The life of a run

What the threads of a task do is recorded here run by run: a start makes the run with its target,
the phase goes to running, the thread enters that target, the target ends, and the phase goes to
idle. Where the thread of a run is says exactly how much of this has happened. A start makes a run
if it finds the run before over, and otherwise makes none; a call that waits returns to other
threads only when the run of the handle is not live.

## Main definitions

* `Task.Event`, `Task.observe`: what a step shows of a run
* `Stage.life`: what a run has shown when its thread is at some place
* `Starting`, `Ending`: where a start is, and where a call is that waits for the thread

## Main results

* `Lives.step`: every step keeps every run to its life
* `exists_entered`: a thread that is yet to take its target enters it by its own steps
* `one_target_at_a_time`: a handle runs one target at a time, each exactly once
-/

namespace PacketRelay.Task

open Schedule

variable {τ : Type} {t t' : Task τ} {run : Nat}

/-- What a step shows. -/
inductive Event (τ : Type)
  -- A start looks at the phase of the run of the handle.
  | found (phase : Phase)
  -- A start makes a run with its target.
  | made (run : Nat) (target : τ)
  -- The phase of a run changes.
  | moved (run : Nat) (phase : Phase)
  -- The thread of a run enters the target.
  | entered (run : Nat) (target : τ)
  -- The target of a run returns or panics.
  | left (run : Nat)
deriving DecidableEq, Repr

/-- The run that an event is about. -/
def Event.run? : Event τ → Option Nat
  | .found _ => none
  | .made run _ | .moved run _ | .entered run _ | .left run => some run

/-- The phase that a start has found. -/
def Event.found? : Event τ → Option Phase
  | .found phase => some phase
  | _ => none

/-- The run that a start has made, with its target. -/
def Event.made? : Event τ → Option (Nat × τ)
  | .made run target => some (run, target)
  | _ => none

/-- What an access of the thread of a run shows, by the context before it and behind it. -/
def Context.shown (run : Nat) (c d : Context τ) : Option (Event τ) :=
  if d.phase ≠ c.phase then some (.moved run d.phase)
  else (d.stage.bind Stage.target?).map (.entered run)

/-- What a step shows. -/
def observe (t : Task τ) : Label τ → Option (Event τ)
  | .call =>
    match t.position with
    | .checkStart _ => some (.found t.phase)
    | .spawn target => some (.made t.contexts.length target)
    | _ => none
  | .thread run => do
    let c ← t.contexts[run]?
    let d ← c.advance
    c.shown run d
  | .leave run => some (.left run)
  | _ => none

/-- What a record tells of a run. -/
def lifeOf (run : Nat) (log : List (Event τ)) : List (Event τ) :=
  log.filter (·.run? = some run)

/-- What a run has shown when its thread is at some place. -/
def Stage.life (run : Nat) (target : τ) : Stage τ → List (Event τ)
  | .spawned | .holding => [.made run target]
  | .up | .named => [.made run target, .moved run .running]
  | .executing _ => [.made run target, .moved run .running, .entered run target]
  | .returned => [.made run target, .moved run .running, .entered run target, .left run]
  | .idle | .releasing _ | .exited =>
    [.made run target, .moved run .running, .entered run target, .left run, .moved run .idle]

/-- The record tells of a run what the place of its thread says. -/
def Context.Lives (log : List (Event τ)) (run : Nat) (c : Context τ) : Prop :=
  match c.stage with
  | none => lifeOf run log = []
  | some stage => ∃ target, lifeOf run log = stage.life run target ∧
      (stage.isPending → c.target = some target) ∧ ∀ other, stage = .executing other → other = target

/-- The record tells of every run what the place of its thread says. -/
structure Lives (log : List (Event τ)) (t : Task τ) : Prop where
  contexts : ∀ (run : Nat) (c : Context τ), t.contexts[run]? = some c → c.Lives log run
  beyond : ∀ run, t.contexts.length ≤ run → lifeOf run log = []

section Records

variable {log : List (Event τ)} {e : Event τ}

@[simp] theorem lifeOf_snoc (run : Nat) :
    lifeOf run (log ++ [e]) = lifeOf run log ++ if e.run? = some run then [e] else [] := by
  simp [lifeOf, List.filter_cons]

theorem lifeOf_snoc_of_ne (other : e.run? ≠ some run) :
    lifeOf run (log ++ [e]) = lifeOf run log := by
  simp [other]

/-- An event of another run, or of none, tells nothing of a run. -/
theorem lifeOf_append_toList {shown : Option (Event τ)} (run : Nat)
    (others : ∀ e, shown = some e → e.run? ≠ some run) :
    lifeOf run (log ++ shown.toList) = lifeOf run log := by
  cases shown with
  | none => simp
  | some e => exact lifeOf_snoc_of_ne (others e rfl)

theorem Context.Lives.congr {log' : List (Event τ)} {c d : Context τ} (lives : c.Lives log run)
    (same : lifeOf run log' = lifeOf run log) (stage : d.stage = c.stage)
    (target : c.stage.any Stage.isPending → d.target = c.target) : d.Lives log' run := by
  unfold Context.Lives at lives ⊢
  rw [stage, same]
  split
  · next none => simpa [none] using lives
  · next stage at_ =>
    simp only [at_] at lives
    obtain ⟨x, life, pending, own⟩ := lives
    exact ⟨x, life, fun waits => (target (by simpa [at_] using waits)).trans (pending waits), own⟩

/-- A step that is not of the thread takes no target out of the context of a thread that is yet to
take it. -/
theorem Turn.target {c d : Context τ} {attempt attempt' : Option Release}
    (last : Turn c attempt d attempt') (marked : c.Marked attempt) (stays : d.stage = c.stage)
    (pending : c.stage.any Stage.isPending) : d.target = c.target := by
  obtain ⟨stage, at_, waits⟩ := (Option.any_eq_true _ _).mp pending
  cases last with
  | stay | cancel | letGo => rfl
  | @release r tries =>
    cases r with
    | readOwner | readThread => rfl
    | mark =>
      simp only [Release.step]
      split <;> rfl
    | dropTarget =>
      -- The context has been released, but the thread holds it.
      have released : c.released = true := marked.handle _ tries
      have held := (marked.released released).2
      rw [marked.thread, at_] at held
      cases stage <;> simp_all [Stage.isPending, Stage.isHolding]
  | thread access =>
    cases access with
    | release there => simp [at_] at there; simp [there, Stage.isPending] at waits
    | _ there => simp [there] at stays
  | leave there => simp [there] at stays

/-- An access of the thread goes on in the life of its run. -/
theorem Context.Lives.access {fresh : τ → Prop} {c d : Context τ} (lives : c.Lives log run)
    (coherent : c.Coherent fresh) (last : c.Access d) :
    d.Lives (log ++ (c.shown run d).toList) run := by
  have phase := coherent.phase
  cases last with
  | skip at_ missing =>
    obtain ⟨-, target, found, -⟩ := coherent.pending (by simp [at_, Stage.isPending])
    simp [missing] at found
  | hold at_ | name at_ =>
    simp only [Context.Lives, at_] at lives
    obtain ⟨target, life, waits, -⟩ := lives
    exact ⟨target, by simp [shown, Stage.target?, life, Stage.life], fun _ => waits rfl, by simp⟩
  | run at_ =>
    simp only [Context.Lives, at_] at lives
    obtain ⟨target, life, waits, -⟩ := lives
    simp only [at_, Option.elim_some, Stage.phase] at phase
    exact ⟨target, by simp [shown, phase, life, Stage.life, Event.run?], fun _ => waits rfl, by simp⟩
  | @enter target at_ found =>
    simp only [Context.Lives, at_] at lives
    obtain ⟨made, life, waits, -⟩ := lives
    obtain rfl := Option.some.inj (found.symm.trans (waits rfl))
    exact ⟨target, by simp [shown, Stage.target?, life, Stage.life, Event.run?],
      by simp [Stage.isPending], fun _ same => (Stage.executing.inj same).symm⟩
  | rest at_ =>
    simp only [Context.Lives, at_] at lives
    obtain ⟨target, life, -⟩ := lives
    simp only [at_, Option.elim_some, Stage.phase] at phase
    exact ⟨target, by simp [shown, phase, life, Stage.life, Event.run?], by simp [Stage.isPending], by simp⟩
  | letGo at_ =>
    simp only [Context.Lives, at_] at lives
    obtain ⟨target, life, -⟩ := lives
    exact ⟨target, by simp [shown, Stage.target?, life, Stage.life], by simp [Stage.isPending], by simp⟩
  | @release r at_ =>
    simp only [Context.Lives, at_] at lives
    obtain ⟨target, life, -⟩ := lives
    cases (r.step c).2 <;>
      exact ⟨target, by simp [shown, Stage.target?, life, Stage.life], by simp [Stage.isPending], by simp⟩

/-- The end of the target goes on in the life of its run. -/
theorem Context.Lives.leave {c : Context τ} {target : τ} (lives : c.Lives log run)
    (at_ : c.stage = some (.executing target)) :
    ({ c with stage := some .returned } : Context τ).Lives (log ++ [.left run]) run := by
  simp only [Context.Lives, at_] at lives
  obtain ⟨made, life, -⟩ := lives
  exact ⟨made, by simp [life, Stage.life, Event.run?], by simp [Stage.isPending], by simp⟩

end Records

section Steps

variable {log : List (Event τ)} {l : Label τ}

theorem lives_ofName (name : String) : Lives [] ({ name := name } : Task τ) where
  contexts run c found := by
    obtain rfl := List.mem_singleton.mp (List.mem_of_getElem? found)
    rfl
  beyond _ _ := rfl

/-- An event of a step of a thread is about its run. -/
theorem run?_of_shown {c d : Context τ} {e : Event τ} (shown : c.shown run d = some e) :
    e.run? = some run := by
  unfold Context.shown at shown
  split at shown
  · exact Option.some.inj shown ▸ rfl
  · obtain ⟨target, -, rfl⟩ := Option.map_eq_some_iff.mp shown
    rfl

/-- A step of one context, which shows what the life of that run is to show. -/
theorem Lives.modify {f : Context τ → Context τ} {shown : Option (Event τ)} (lives : Lives log t)
    (own : ∀ e, shown = some e → e.run? = some run) (inside : run < t.contexts.length)
    (context : ∀ c, t.contexts[run]? = some c → c.Lives log run →
      (f c).Lives (log ++ shown.toList) run) :
    Lives (log ++ shown.toList) (t.modify run f) where
  contexts other d found := by
    rw [getElem?_modify_contexts] at found
    split at found
    · next here =>
      subst here
      obtain ⟨c, there, rfl⟩ := Option.map_eq_some_iff.mp found
      exact context c there (lives.contexts run c there)
    · next different =>
      refine (lives.contexts other d found).congr ?_ rfl fun _ => rfl
      refine lifeOf_append_toList other fun e same here => different ?_
      exact Option.some.inj ((own e same).symm.trans here)
  beyond other past := by
    rw [show (t.modify run f).contexts.length = t.contexts.length from List.length_modify ..] at past
    rw [lifeOf_append_toList other fun e same here => ?_]
    · exact lives.beyond other past
    · obtain rfl := Option.some.inj ((own e same).symm.trans here)
      exact absurd inside (Nat.not_lt.mpr past)

/-- A step that leaves the threads, and the targets that wait for them, alone, and shows nothing of
a run. -/
theorem Lives.aside {shown : Option (Event τ)} (lives : Lives log t) (move : t.Move l t')
    (marked : t.Marked) (length : t'.contexts.length = t.contexts.length)
    (stages : ∀ run, t'.stage? run = t.stage? run)
    (nothing : ∀ e, shown = some e → e.run? = none) :
    Lives (log ++ shown.toList) t' where
  contexts run d found := by
    have inside : run < t.contexts.length := length ▸ (List.getElem?_eq_some_iff.mp found).1
    have there := List.getElem?_eq_getElem inside
    obtain ⟨e, found', turn⟩ := move.exists_turn there
    obtain rfl := Option.some.inj (found.symm.trans found')
    have stage : d.stage = t.contexts[run].stage := by
      simpa [stage?, found, there] using stages run
    refine (lives.contexts run _ there).congr ?_ stage fun pending => ?_
    · exact lifeOf_append_toList run fun e same => by simp [nothing e same]
    · exact turn.target (marked run _ there) stage pending
  beyond run past := by
    rw [lifeOf_append_toList run fun e same => by simp [nothing e same]]
    exact lives.beyond run (length ▸ past)

/-- A start makes a run, whose life begins. -/
theorem Lives.spawn {target : τ} {position : Position τ} (lives : Lives log t) :
    Lives (log ++ [.made t.contexts.length target])
      ({ t with contexts := t.contexts ++ [.ofTarget target], position := position } : Task τ) where
  contexts run c found := by
    rcases getElem?_snoc_cases found with found | ⟨rfl, rfl⟩
    · refine (lives.contexts run c found).congr (lifeOf_snoc_of_ne ?_) rfl fun _ => rfl
      simpa [Event.run?] using Nat.ne_of_gt (List.getElem?_eq_some_iff.mp found).1
    · exact ⟨target, by simp [lives.beyond _ (Nat.le_refl _), Stage.life, Event.run?], fun _ => rfl,
        by simp⟩
  beyond run past := by
    rw [List.length_append, List.length_singleton] at past
    rw [lifeOf_snoc_of_ne (by simp only [Event.run?, ne_eq, Option.some.injEq]; omega)]
    exact lives.beyond run (by omega)

/-- **Every step keeps every run to its life.** -/
theorem Lives.step (lives : Lives log t) (coherent : t.Coherent fun _ => True) (marked : t.Marked)
    (last : t.step l = some t') : Lives (log ++ (observe t l).toList) t' := by
  have move := move_of_step last
  cases l with
  | begin by_ call =>
    cases move
    exact lives.aside (move_of_step last) marked rfl (fun _ => rfl) (by simp [observe])
  | call =>
    by_cases spawns : ∃ target, t.position = .spawn target
    · obtain ⟨target, at_⟩ := spawns
      have same : observe t .call = some (.made t.contexts.length target) := by simp [observe, at_]
      simp only [Task.step, advance, at_, Option.some.injEq] at last
      rw [same, ← last]
      exact lives.spawn
    · have length : t'.contexts.length = t.contexts.length := by
        rcases newRun?_advance last with ⟨-, -, length, -⟩ | ⟨target, at_, -⟩
        · exact length
        · exact absurd ⟨target, at_⟩ spawns
      have stages : ∀ run, t'.stage? run = t.stage? run := by
        rcases stage?_advance last with ⟨target, at_, -⟩ | ⟨-, stages⟩
        · exact absurd ⟨target, at_⟩ spawns
        · exact stages
      refine lives.aside move marked length stages fun e shown => ?_
      simp only [observe] at shown
      split at shown
      · exact Option.some.inj shown ▸ rfl
      · next target at_ => exact absurd ⟨target, at_⟩ spawns
      · simp at shown
  | thread run =>
    simp only [Task.step, advanceThread, Option.bind_eq_bind, Option.bind_eq_some_iff,
      Option.some.injEq] at last
    obtain ⟨c, found, d, step, rfl⟩ := last
    have same : observe t (.thread run) = c.shown run d := by simp [observe, found, step]
    rw [same]
    refine lives.modify (fun e => run?_of_shown) (List.getElem?_eq_some_iff.mp found).1 ?_
    intro e there life
    obtain rfl := Option.some.inj (found.symm.trans there)
    exact life.access (coherent.contexts run c found) (Context.access_of_advance step)
  | leave run =>
    cases move with
    | leave executing =>
      obtain ⟨c, found, at_⟩ := target?_eq_some.mp executing
      refine lives.modify (fun e same => ?_) (List.getElem?_eq_some_iff.mp found).1 ?_
      · obtain rfl := Option.some.inj same
        rfl
      · intro d there life
        obtain rfl := Option.some.inj (found.symm.trans there)
        exact life.leave at_
  | cancel =>
    cases move
    exact lives.aside (move_of_step last) marked (List.length_modify ..) (stage?_cancelRun _)
      (by simp [observe])
  | cancelRun run =>
    cases move
    exact lives.aside (move_of_step last) marked (List.length_modify ..) (stage?_cancelRun _)
      (by simp [observe])

/-- How many accesses a thread has yet to make before it is in its target. -/
def Stage.ahead : Stage τ → Nat
  | .spawned => 4
  | .holding => 3
  | .up => 2
  | .named => 1
  | _ => 0

/-- A thread that is yet to take its target can always go on, and comes closer to it. -/
theorem exists_step_of_pending {stage : Stage τ} (coherent : t.Coherent fun _ => True)
    (at_ : t.stage? run = some stage) (pending : stage.isPending) :
    ∃ u stage', t.step (.thread run) = some u ∧ u.stage? run = some stage' ∧
      stage.ahead = stage'.ahead + 1 ∧ (stage'.isPending ∨ (u.target? run).isSome) := by
  obtain ⟨c, found, at_⟩ := Option.bind_eq_some_iff.mp at_
  have go {d : Context τ} {stage' : Stage τ} (next : c.advance = some d) (there : d.stage = some stage') :
      t.step (.thread run) = some (t.modify run fun _ => d) ∧
        (t.modify run fun _ => d).stage? run = some stage' := by
    refine ⟨by simp [Task.step, advanceThread, found, next], ?_⟩
    rw [stage?_modify, if_pos rfl, found]
    exact there
  cases stage with
  | spawned =>
    obtain ⟨first, there⟩ := go (by simp [Context.advance, at_]; rfl) rfl
    exact ⟨_, _, first, there, rfl, .inl rfl⟩
  | holding =>
    obtain ⟨first, there⟩ := go (by simp [Context.advance, at_]; rfl) rfl
    exact ⟨_, _, first, there, rfl, .inl rfl⟩
  | up =>
    obtain ⟨first, there⟩ := go (by simp [Context.advance, at_]; rfl) rfl
    exact ⟨_, _, first, there, rfl, .inl rfl⟩
  | named =>
    obtain ⟨-, target, waits, -⟩ := (coherent.contexts run c found).pending (by simp [at_, Stage.isPending])
    obtain ⟨first, there⟩ := go (by simp [Context.advance, at_, waits]; rfl) rfl
    exact ⟨_, _, first, there, rfl, .inr (by
      rw [target?_eq_some_iff_stage?.mpr there]
      rfl)⟩
  | _ => simp [Stage.isPending] at pending

end Steps

/-- Does a call begin? -/
def Label.isBegin : Label τ → Bool
  | .begin .. => true
  | _ => false

section Runs

variable {name : String} {log : List (Event τ)} {l : Label τ}

theorem Label.isAttached_of_not_isBegin (aside : l.isBegin = false) : l.IsAttached := by
  rintro by_ rfl
  simp [isBegin] at aside

theorem coherent_of_reaches (reached : Reaches step { name := name } t) :
    t.Coherent fun _ => True := by
  induction reached with
  | refl => exact coherent_ofName name
  | tail _ last ih => exact ih.step last

theorem minds_of_records (recorded : Records step Label.IsAttached observe { name := name } log t) :
    t.Minds := by
  induction recorded with
  | refl => exact minds_ofName name
  | tail run admitted last ih => exact ih.step (coherent_of_reaches run.reaches) admitted last

theorem lives_of_records (recorded : Records step Label.IsAttached observe { name := name } log t) :
    Lives log t := by
  induction recorded with
  | refl => exact lives_ofName name
  | tail run _ last ih =>
    exact ih.step (coherent_of_reaches run.reaches) (marked_of_reaches run.reaches) last

/-- A thread that is yet to take its target enters it by its own steps, whatever the others do. -/
theorem exists_entered {stage : Stage τ}
    (recorded : Records step Label.IsAttached observe { name := name } log t)
    (at_ : t.stage? run = some stage) (pending : stage.isPending) :
    ∃ since u target, Records step (· = .thread run) observe t since u ∧
      u.target? run = some target ∧
      lifeOf run (log ++ since) = (Stage.executing target).life run target := by
  induction ahead : stage.ahead generalizing t log stage with
  | zero => cases stage <;> simp [Stage.ahead, Stage.isPending] at ahead pending
  | succ n ih =>
    obtain ⟨u, stage', first, there, closer, either⟩ :=
      exists_step_of_pending (coherent_of_reaches recorded.reaches) at_ pending
    have onward := recorded.tail (Label.isAttached_of_not_isBegin rfl) first
    have head : Records step (· = .thread run) observe t ([] ++ (observe t (.thread run)).toList) u :=
      (Records.refl t).tail rfl first
    rcases either with pending' | entered
    · obtain ⟨since, v, target, later, executing, life⟩ := ih onward there pending' (by omega)
      exact ⟨_, v, target, head.trans later, executing, by simpa using life⟩
    · obtain ⟨target, executing⟩ := Option.isSome_iff_exists.mp entered
      obtain ⟨c, found, inside⟩ := target?_eq_some.mp executing
      have lives := (lives_of_records onward).contexts run c found
      simp only [Context.Lives, inside] at lives
      obtain ⟨made, life, -, own⟩ := lives
      obtain rfl := own target rfl
      exact ⟨_, u, target, head, executing, life⟩

end Runs

/-- Where a start of a target is, with what it has found and the runs it has made; `n` runs have been
made before. -/
inductive Starting (target : τ) (n : Nat) (t : Task τ) : List Phase → List (Nat × τ) → Prop
  -- About to look at the phase
  | asked (at_ : t.position = .checkStart target) (length : t.contexts.length = n) :
      Starting target n t [] []
  -- Returned without a run
  | refused {phase : Phase} (at_ : t.position = .returned false) (busy : phase ≠ .idle) :
      Starting target n t [phase] []
  -- Letting go of the run before, or about to make the new one
  | granted (new : t.position = .letGo (.spawn target) ∨
      (∃ r, t.position = .releasing r (.spawn target)) ∨ t.position = .spawn target)
      (length : t.contexts.length = n) : Starting target n t [.idle] []
  -- About to take up the new run
  | made (at_ : t.position = .adopt n) : Starting target n t [.idle] [(n, target)]
  -- Returned with the new run
  | started (at_ : t.position = .returned true) (new : t.current = n) :
      Starting target n t [.idle] [(n, target)]

/-- Is a call about to wait for the thread, or waiting? -/
def Position.isWaiting : Position τ → Bool
  | .checkDrop | .cancel | .checkJoin _ | .joining .. => true
  | _ => false

/-- Is a call past waiting? -/
def Position.hasWaited : Position τ → Bool
  | .letGo .dropped | .releasing _ .dropped | .returned false => true
  | _ => false

/-- Where a call is that waits for the thread of the run of the handle, unless its target makes the
call. -/
inductive Ending (t : Task τ) : Prop
  -- About to wait, or waiting
  | waits (at_ : t.position.isWaiting) (stays : t.gone = false) : Ending t
  -- Past waiting, behind that thread
  | waited (at_ : t.position.hasWaited) (ended : t.isLive t.current = false) : Ending t

section Calls

variable {l : Label τ} {target : τ} {n : Nat} {finds : List Phase} {makes : List (Nat × τ)}

/-- A step that is not of the call leaves the handle alone, and shows nothing of a call. -/
theorem steady_of_step (last : t.step l = some t') (aside : l.isBegin = false) (other : l ≠ .call) :
    (t'.position = t.position ∧ t'.current = t.current ∧ t'.gone = t.gone ∧ t'.caller = t.caller ∧
      t'.contexts.length = t.contexts.length) ∧
    ∀ e, observe t l = some e → e.found? = none ∧ e.made? = none := by
  cases move_of_step last with
  | begin => simp [Label.isBegin] at aside
  | call => exact absurd rfl other
  | @thread run c d found access =>
    refine ⟨⟨rfl, rfl, rfl, rfl, List.length_modify ..⟩, fun e shown => ?_⟩
    simp only [observe, Option.bind_eq_bind, Option.bind_eq_some_iff] at shown
    obtain ⟨c, -, d, -, shown⟩ := shown
    unfold Context.shown at shown
    split at shown
    · exact Option.some.inj shown ▸ ⟨rfl, rfl⟩
    · obtain ⟨target, -, rfl⟩ := Option.map_eq_some_iff.mp shown
      exact ⟨rfl, rfl⟩
  | leave =>
    refine ⟨⟨rfl, rfl, rfl, rfl, List.length_modify ..⟩, fun e shown => ?_⟩
    exact Option.some.inj shown ▸ ⟨rfl, rfl⟩
  | cancel | cancelRun =>
    exact ⟨⟨rfl, rfl, rfl, rfl, List.length_modify ..⟩, by simp [observe]⟩

theorem filterMap_toList_eq_nil {α β : Type} {f : α → Option β} {o : Option α}
    (nothing : ∀ e, o = some e → f e = none) : o.toList.filterMap f = [] := by
  cases o with
  | none => rfl
  | some e => simp [nothing e rfl]

/-- The handle is as before, and so is the place of a start. -/
theorem Starting.congr (starting : Starting target n t finds makes)
    (position : t'.position = t.position) (current : t'.current = t.current)
    (length : t'.contexts.length = t.contexts.length) : Starting target n t' finds makes := by
  cases starting with
  | asked at_ same => exact .asked (position.trans at_) (length.trans same)
  | refused at_ busy => exact .refused (position.trans at_) busy
  | granted new same =>
    rw [← position] at new
    exact .granted new (length.trans same)
  | made at_ => exact .made (position.trans at_)
  | started at_ new => exact .started (position.trans at_) (current.trans new)

/-- A start goes on. -/
theorem Starting.advance (starting : Starting target n t finds makes) (last : t.advance = some t') :
    Starting target n t' (finds ++ (observe t .call).toList.filterMap Event.found?)
      (makes ++ (observe t .call).toList.filterMap Event.made?) := by
  have access := access_of_advance last
  cases starting with
  | asked at_ length =>
    have shows : observe t .call = some (.found t.phase) := by simp [observe, at_]
    rw [shows]
    cases access with
    | busy there running => exact .refused rfl (by simpa [isRunning] using running)
    | @idle other there idle =>
      obtain rfl := Position.checkStart.inj (at_.symm.trans there)
      have phase : t.phase = .idle := by simpa [isRunning] using idle
      rw [phase]
      exact .granted (.inl rfl) length
    | _ there => simp [at_] at there
  | refused at_ => simp [Task.advance, at_] at last
  | granted new length =>
    rcases new with at_ | ⟨r, at_⟩ | at_
    · have shows : observe t .call = none := by simp [observe, at_]
      rw [shows]
      cases access with
      | letGo there =>
        obtain rfl := Position.letGo.inj (at_.symm.trans there)
        exact .granted (.inr (.inl ⟨_, rfl⟩)) (List.length_modify .. |>.trans length)
      | _ there => simp [at_] at there
    · have shows : observe t .call = none := by simp [observe, at_]
      rw [shows]
      cases access with
      | release there =>
        obtain ⟨rfl, rfl⟩ := Position.releasing.inj (at_.symm.trans there)
        exact .granted (.inr (.inl ⟨_, rfl⟩)) (List.length_modify .. |>.trans length)
      | released there =>
        obtain ⟨rfl, rfl⟩ := Position.releasing.inj (at_.symm.trans there)
        exact .granted (.inr (.inr rfl)) (List.length_modify .. |>.trans length)
      | _ there => simp [at_] at there
    · have shows : observe t .call = some (.made n target) := by simp [observe, at_, length]
      rw [shows]
      cases access with
      | spawn there => exact .made (by simp [length])
      | _ there => simp [at_] at there
  | made at_ =>
    have shows : observe t .call = none := by simp [observe, at_]
    rw [shows]
    cases access with
    | adopt there => exact .started rfl (Position.adopt.inj (there.symm.trans at_))
    | _ there => simp [at_] at there
  | started at_ => simp [Task.advance, at_] at last

theorem Starting.step (starting : Starting target n t finds makes) (last : t.step l = some t')
    (aside : l.isBegin = false) :
    Starting target n t' (finds ++ (observe t l).toList.filterMap Event.found?)
      (makes ++ (observe t l).toList.filterMap Event.made?) := by
  by_cases call : l = .call
  · subst call
    exact starting.advance last
  · obtain ⟨⟨position, current, -, -, length⟩, nothing⟩ := steady_of_step last aside call
    rw [filterMap_toList_eq_nil fun e same => (nothing e same).1,
      filterMap_toList_eq_nil fun e same => (nothing e same).2, List.append_nil, List.append_nil]
    exact starting.congr position current length

/-- What a start has found, and the runs it has made, along any steps until the next call begins. -/
theorem starting_of_records {since : List (Event τ)}
    (starting : Starting target n t [] [])
    (later : Records step (·.isBegin = false) observe t since t') :
    Starting target n t' (since.filterMap Event.found?) (since.filterMap Event.made?) := by
  induction later with
  | refl => exact starting
  | tail _ aside last ih =>
    rw [List.filterMap_append, List.filterMap_append]
    exact ih.step last aside

/-- A call that is not to start a target makes no run, along any steps until the next call begins. -/
theorem makes_eq_nil_of_records {since : List (Event τ)} (idle : t.position.target? = none)
    (later : Records step (·.isBegin = false) observe t since t') :
    t'.position.target? = none ∧ since.filterMap Event.made? = [] := by
  induction later with
  | refl => exact ⟨idle, rfl⟩
  | @tail u v since l _ aside last ih =>
    obtain ⟨idle, nothing⟩ := ih
    by_cases call : l = .call
    · subst call
      have shows : ∀ e, observe u .call = some e → e.made? = none := fun e shown => by
        simp only [observe] at shown
        split at shown
        · exact Option.some.inj shown ▸ rfl
        · next target at_ => simp [at_, Position.target?] at idle
        · simp at shown
      refine ⟨?_, by rw [List.filterMap_append, nothing, filterMap_toList_eq_nil shows]; rfl⟩
      rcases target?_advance last with gone | same
      · exact gone
      · rw [same, idle]
    · obtain ⟨⟨position, -⟩, shows⟩ := steady_of_step last aside call
      refine ⟨position ▸ idle, ?_⟩
      rw [List.filterMap_append, nothing, filterMap_toList_eq_nil fun e same => (shows e same).2]
      rfl

/-- A call that waits for the thread goes on. -/
theorem Ending.advance (ending : t.Ending) (minds : t.Minds) (coherent : t.Coherent fun _ => True)
    (other : t.caller ≠ .target t.current) (last : t.advance = some t') :
    t'.Ending ∧ t'.current = t.current := by
  have same (nothing : ∀ target, t.position ≠ .spawn target) (run : Nat) :
      t'.isLive run = t.isLive run := by
    rcases stage?_advance last with ⟨target, at_, -⟩ | ⟨-, stages⟩
    · exact absurd at_ (nothing target)
    · exact isLive_of_stage? (stages run)
  have access := access_of_advance last
  cases ending with
  | waits at_ stays =>
    -- Behind the wait the run of the handle is not live.
    have past (next : AfterJoin) (ended : t.isLive t.current = false) :
        ({ t with position := next.position } : Task τ).Ending :=
      .waited (by cases next <;> rfl) ended
    cases access with
    | dropHeld | wait => exact ⟨.waits rfl stays, rfl⟩
    | cancel => exact ⟨.waits rfl stays, rfl⟩
    | dropGone there gone =>
      -- Only a handle that has been detached has let go of its context before it is dropped.
      have found := List.getElem?_eq_getElem minds.inside
      have held := minds.owner _ _ found (.inl ⟨rfl, stays, by simp [there, Position.hasLetGo]⟩)
      simp [context, found, held] at gone
    | @pass next there nobody =>
      refine ⟨past next ?_, rfl⟩
      by_cases running : t.isRunning
      · have joinable := minds.holding (by simp [there, Position.isHolding]) stays running
        exact absurd (nobody running _ joinable) other
      · exact isLive_current_of_idle coherent (by simpa using running)
    | @joined run next there exited =>
      refine ⟨past next ?_, rfl⟩
      rw [minds.joining run next there]
      exact isLive_eq_false_of_hasExited exited
    | _ there => simp [there, Position.isWaiting] at at_
  | waited at_ ended =>
    have still := (same (fun target there => by simp [there, Position.hasWaited] at at_)
      t.current).trans ended
    cases access with
    | @letGo next there | @release _ _ next there =>
      cases next with
      | dropped => exact ⟨.waited rfl still, rfl⟩
      | _ => simp [there, Position.hasWaited] at at_
    | @released _ next there =>
      cases next with
      | dropped => exact ⟨.waited rfl still, rfl⟩
      | _ => simp [there, Position.hasWaited] at at_
    | _ there => simp [there, Position.hasWaited] at at_

/-- No step but that of a call brings a run to life. -/
theorem isLive_of_step (coherent : t.Coherent fun _ => True) (last : t.step l = some t')
    (aside : l.isBegin = false) (other : l ≠ .call) (run : Nat) (live : t'.isLive run) :
    t.isLive run := by
  cases move_of_step last with
  | begin => simp [Label.isBegin] at aside
  | call => exact absurd rfl other
  | thread found access => exact (isLive_advanceThread coherent last run).symm.trans live
  | leave executing => exact isLive_of_modify_stage executing run live
  | cancel | cancelRun => exact (isLive_of_stage? (stage?_cancelRun _ run)).symm.trans live

theorem Ending.step (ending : t.Ending) (minds : t.Minds) (coherent : t.Coherent fun _ => True)
    (other : t.caller ≠ .target t.current) (last : t.step l = some t') (aside : l.isBegin = false) :
    t'.Ending ∧ t'.caller ≠ .target t'.current := by
  by_cases call : l = .call
  · subst call
    obtain ⟨ending', current⟩ := ending.advance minds coherent other last
    exact ⟨ending', by rwa [current, caller_advance last]⟩
  · obtain ⟨⟨position, current, gone, caller, -⟩, -⟩ := steady_of_step last aside call
    refine ⟨?_, by rwa [caller, current]⟩
    cases ending with
    | waits at_ stays => exact .waits (position ▸ at_) (gone.trans stays)
    | waited at_ ended =>
      refine .waited (position ▸ at_) ?_
      rw [← Bool.not_eq_true, current]
      intro live
      simp [isLive_of_step coherent last aside call t.current live] at ended

/-- Where a call is that waits for the thread, along any steps until the next call begins. -/
theorem ending_of_records {name : String} {log since : List (Event τ)}
    (recorded : Records Task.step Label.IsAttached observe { name := name } log t)
    (ending : t.Ending) (other : t.caller ≠ .target t.current)
    (later : Records Task.step (·.isBegin = false) observe t since t') :
    t'.Ending ∧ t'.caller ≠ .target t'.current := by
  induction later with
  | refl => exact ⟨ending, other⟩
  | tail run aside last ih =>
    have before := recorded.trans (run.mono fun _ => Label.isAttached_of_not_isBegin)
    exact ih.1.step (minds_of_records before) (coherent_of_reaches before.reaches) ih.2 last aside

end Calls

section Handles

variable {name : String} {log : List (Event τ)}

theorem Starting.returned {target : τ} {n : Nat} {finds : List Phase} {makes : List (Nat × τ)}
    (starting : Starting target n t finds makes) (free : t.isFree) :
    ∃ phase, finds = [phase] ∧ t.position = .returned (phase = .idle) ∧
      makes = (if phase = .idle then [(n, target)] else []) ∧ (phase = .idle → t.current = n) := by
  cases starting with
  | asked at_ | made at_ => simp [isFree, at_] at free
  | granted new => rcases new with at_ | ⟨r, at_⟩ | at_ <;> simp [isFree, at_] at free
  | @refused phase at_ busy => exact ⟨phase, rfl, by simp [at_, busy], by simp [busy], by simp [busy]⟩
  | started at_ new => exact ⟨.idle, rfl, by simp [at_], by simp, fun _ => new⟩

theorem Ending.returned (ending : t.Ending) (free : t.isFree) : t.isLive t.current = false := by
  cases ending with
  | waits at_ =>
    unfold isFree at free
    split at free
    · next there => simp [there, Position.isWaiting] at at_
    · simp at free
  | waited _ ended => exact ended

/-- **A handle runs one target at a time, each exactly once.** Of a handle that is never detached,
whoever calls and whatever the targets do:

* at most one target is executed at a time;
* what has happened of a run is what the place of its thread says: made with its target, phase to
  running, that target entered, the target over, phase to idle, each once and in this order;
* a thread that is yet to take its target enters it by its own steps;
* a start looks at the phase once; if it has found the run of the handle idle, it returns true and
  has made one run, of its target, which is that of the handle now; otherwise it returns false and
  has made none;
* any other call makes none;
* the run of the handle is not idle while its target is pending or executed;
* between calls the handle can wait for the thread of a run that is not idle;
* once a join or a drop has returned, the target of the run of the handle is neither pending nor
  executed, unless that target has made the call. -/
theorem one_target_at_a_time
    (recorded : Records step Label.IsAttached observe { name := name } log t) :
    (∀ i j, (t.target? i).isSome → (t.target? j).isSome → i = j) ∧
    (∀ run c, t.contexts[run]? = some c →
      (c.stage = none ∧ c.phase = .idle ∧ lifeOf run log = []) ∨
      ∃ stage target, c.stage = some stage ∧ c.phase = stage.phase ∧
        lifeOf run log = stage.life run target ∧
        ∀ other, stage = .executing other → other = target) ∧
    (∀ run stage, t.stage? run = some stage → stage.isPending →
      ∃ since u target, Records step (· = .thread run) observe t since u ∧
        u.target? run = some target ∧
        lifeOf run (log ++ since) = (Stage.executing target).life run target) ∧
    (∀ by_ target t₀ since u, t.step (.begin by_ (.start target)) = some t₀ →
      Records step (·.isBegin = false) observe t₀ since u → u.isFree →
        ∃ phase, since.filterMap Event.found? = [phase] ∧
          u.position = .returned (phase = .idle) ∧
          since.filterMap Event.made? =
            (if phase = .idle then [(t.contexts.length, target)] else []) ∧
          (phase = .idle → u.current = t.contexts.length)) ∧
    (∀ by_ call t₀ since u, (∀ target, call ≠ .start target) →
      t.step (.begin by_ call) = some t₀ →
      Records step (·.isBegin = false) observe t₀ since u → since.filterMap Event.made? = []) ∧
    (t.isLive t.current → t.phase ≠ .idle) ∧
    (t.isFree → t.gone = false → t.phase ≠ .idle → t.joinable = some t.current) ∧
    (∀ by_ call t₀ since u, call = .join ∨ call = .drop → t.step (.begin by_ call) = some t₀ →
      Records step (·.isBegin = false) observe t₀ since u → u.isFree →
        by_ ≠ .target t.current → u.isLive u.current = false) := by
  have minds := minds_of_records recorded
  have coherent := coherent_of_reaches recorded.reaches
  have begins {by_ : Caller} {call : Call τ} {t₀ : Task τ}
      (first : t.step (.begin by_ call) = some t₀) : t.gone = false ∧ t.begin by_ call = t₀ := by
    simp only [step, accepts, Option.ite_none_right_eq_some, Option.some.injEq, Bool.and_eq_true,
      Bool.not_eq_true'] at first
    exact ⟨first.1.1.1, first.2⟩
  refine ⟨?_, ?_, fun run stage at_ pending => exists_entered recorded at_ pending, ?_, ?_, ?_, ?_, ?_⟩
  · intro i j first second
    obtain ⟨x, first⟩ := Option.isSome_iff_exists.mp first
    obtain ⟨y, second⟩ := Option.isSome_iff_exists.mp second
    exact minds.eq_of_isLive (isLive_of_target? first) (isLive_of_target? second)
  · intro run c found
    have phase := (coherent.contexts run c found).phase
    have lives := (lives_of_records recorded).contexts run c found
    cases at_ : c.stage with
    | none =>
      simp only [at_, Context.Lives, Option.elim_none] at lives phase
      exact .inl ⟨rfl, phase, lives⟩
    | some stage =>
      simp only [at_, Context.Lives, Option.elim_some] at lives phase
      obtain ⟨target, life, -, own⟩ := lives
      exact .inr ⟨stage, target, rfl, phase, life, own⟩
  · intro by_ target t₀ since u first later free
    obtain ⟨-, rfl⟩ := begins first
    exact (starting_of_records (.asked rfl rfl) later).returned free
  · intro by_ call t₀ since u other first later
    obtain ⟨-, rfl⟩ := begins first
    refine (makes_eq_nil_of_records ?_ later).2
    cases call with
    | start target => exact absurd rfl (other target)
    | _ => rfl
  · intro live
    simpa [isRunning] using isRunning_of_isLive coherent live
  · intro free stays running
    exact minds.joinable_of_free free stays (by simpa [isRunning] using running)
  · intro by_ call t₀ since u waits first later free other
    obtain ⟨stays, rfl⟩ := begins first
    have attached : (Label.begin by_ call).IsAttached := by
      rcases waits with rfl | rfl <;> simp [Label.IsAttached]
    have ending : (t.begin by_ call).Ending := by
      rcases waits with rfl | rfl <;> exact .waits rfl stays
    exact (ending_of_records (recorded.tail attached first) ending other later).1.returned free

/-- A start that is refused while a run is pending, a join, and another run. -/
theorem one_target_at_a_time_of_two_runs : ∃ (log : List (Event Nat)) (t : Task Nat),
    Records step Label.IsAttached observe { name := "worker" } log t ∧
    log = [.found .idle, .made 1 7, .found .starting, .moved 1 .running, .entered 1 7, .left 1,
      .moved 1 .idle, .found .idle, .made 2 9, .moved 2 .running, .entered 2 9] ∧
    t.target? 2 = some 9 ∧ t.joinable = some 2 ∧ ∀ run, (t.target? run).isSome → run = 2 := by
  let labels : List (Label Nat) :=
    List.flatten [[.begin .outside (.start 7)], List.replicate 8 .call,
      [.begin .outside (.start 8), .call], List.replicate 4 (.thread 1),
      [.begin .outside .join, .call, .leave 1], List.replicate 3 (.thread 1),
      [.call, .begin .outside (.start 9)], List.replicate 8 .call, List.replicate 4 (.thread 2)]
  have attached : ∀ l ∈ labels, l.IsAttached := by
    intro l there by_ same
    subst same
    simp [labels] at there
  have ran : (record? step observe ({ name := "worker" } : Task Nat) labels).any (fun x =>
      x.1 = [.found .idle, .made 1 7, .found .starting, .moved 1 .running, .entered 1 7, .left 1,
        .moved 1 .idle, .found .idle, .made 2 9, .moved 2 .running, .entered 2 9] ∧
      x.2.target? 2 = some 9 ∧ x.2.current = 2 ∧ x.2.isFree = true ∧ x.2.gone = false ∧
      x.2.phase = .running) := by
    decide +kernel
  obtain ⟨log, t, recorded, shown⟩ := exists_records_of_any attached ran
  obtain ⟨events, executing, current, free, stays, phase⟩ := of_decide_eq_true shown
  obtain ⟨alone, -, -, -, -, -, joinable, -⟩ := one_target_at_a_time recorded
  refine ⟨log, t, recorded, events, executing, ?_, fun run other => ?_⟩
  · rw [joinable free stays (by simp [phase]), current]
  · exact alone run 2 other (by rw [executing]; rfl)

end Handles

end PacketRelay.Task
