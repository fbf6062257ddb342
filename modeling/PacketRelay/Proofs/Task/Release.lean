import PacketRelay.Proofs.Record
import PacketRelay.Proofs.Task.Threads

/-!
# Releasing contexts

The handle and the thread of a run each clear their mark in the context before they attempt to
release it, and each attempt looks at both marks. Whichever of the two clears its mark last finds
both cleared, and of two attempts that do, the one that marks the context first is the only one to
release it. What an attempt has found so far stays true, since no mark is set again: the thread sets
its mark a second time only while it still holds the context.

## Main definitions

* `Task.Move`: what a step of a task is
* `Task.attempt?`: the attempt of the handle to release the context of a run
* `Turn`: what a step does to one context and to the attempt of the handle at it
* `Context.Marked`: what the marks of a context tell about the handle and the thread
* `Task.HasLetGo`: the handle is past its attempt to release the context

## Main results

* `Context.Marked.turn`: every step keeps what the marks tell
* `released_exactly_once`: every context is released once, not early, and in the end
* `isReleased_of_gone`: a handle that is gone leaves no context unreleased behind the last thread
-/

namespace PacketRelay.Task

open Schedule

variable {τ : Type} {t t' : Task τ} {run : Nat}

/-- What a step of a task is. -/
inductive Move (t : Task τ) : Label τ → Task τ → Prop
  -- A call begins.
  | begin {by_ : Caller} {call : Call τ} (accepted : t.accepts by_ = true) :
      t.Move (.begin by_ call) (t.begin by_ call)
  -- The call in progress makes an access.
  | call {t' : Task τ} (access : t.Access t') : t.Move .call t'
  -- The thread of a run makes one.
  | thread {run : Nat} {c d : Context τ} (found : t.contexts[run]? = some c) (access : c.Access d) :
      t.Move (.thread run) (t.modify run fun _ => d)
  -- The target of a run ends.
  | leave {run : Nat} {target : τ} (executing : t.target? run = some target)
      (free : t.isFree ∨ t.caller ≠ .target run) : t.Move (.leave run) (t.leave run)
  -- The token of the current run is set.
  | cancel (accepted : t.accepts .outside = true) : t.Move .cancel t.cancel
  -- The token of some run is set.
  | cancelRun {run : Nat} : t.Move (.cancelRun run) (t.cancelRun run)

/-- Every step is one of these. -/
theorem move_of_step {l : Label τ} (last : t.step l = some t') : t.Move l t' := by
  cases l with
  | begin by_ call =>
    simp only [step, Option.ite_none_right_eq_some, Option.some.injEq] at last
    exact last.2 ▸ .begin last.1
  | call => exact .call (access_of_advance last)
  | thread run =>
    obtain ⟨c, d, found, access, rfl⟩ := exists_access_of_advanceThread last
    exact .thread found access
  | leave run =>
    simp only [step, mayLeave, Option.ite_none_right_eq_some, Option.some.injEq, Bool.and_eq_true,
      Bool.or_eq_true, bne_iff_ne] at last
    obtain ⟨⟨executing, free⟩, rfl⟩ := last
    obtain ⟨target, executing⟩ := Option.isSome_iff_exists.mp executing
    exact .leave executing free
  | cancel =>
    simp only [step, Option.ite_none_right_eq_some, Option.some.injEq] at last
    exact last.2 ▸ .cancel last.1
  | cancelRun run =>
    simp only [step, Option.ite_none_right_eq_some, Option.some.injEq] at last
    exact last.2 ▸ .cancelRun

/-- The attempt of the handle to release the context of a run. -/
def attempt? (t : Task τ) (run : Nat) : Option Release :=
  match t.position with
  | .releasing r _ => if run = t.current then some r else none
  | _ => none

/-- Does the thread hold the context? -/
def Stage.isHolding : Stage τ → Bool
  | .releasing _ | .exited => false
  | _ => true

/-- What a step does to one context and to the attempt of the handle to release it. -/
inductive Turn (c : Context τ) (attempt : Option Release) : Context τ → Option Release → Prop
  -- Nothing
  | stay : Turn c attempt c attempt
  -- The token of the run is set.
  | cancel : Turn c attempt { c with cancelled := true } attempt
  -- The handle clears its mark and begins an attempt.
  | letGo (fresh : attempt = none) :
      Turn c attempt { c with ownerAlive := false } (some .readOwner)
  -- The attempt of the handle goes on, or is over.
  | release {r : Release} (at_ : attempt = some r) : Turn c attempt (r.step c).1 (r.step c).2
  -- The thread makes an access.
  | thread {d : Context τ} (access : c.Access d) : Turn c attempt d attempt
  -- The target ends.
  | leave {target : τ} (at_ : c.stage = some (.executing target)) :
      Turn c attempt { c with stage := some .returned } attempt

section Turns

theorem attempt?_eq_none (other : ∀ r next, t.position ≠ .releasing r next) :
    t.attempt? run = none := by
  unfold attempt?
  split
  · next r next at_ => exact absurd at_ (other r next)
  · rfl

theorem attempt?_current {r : Release} {next : AfterLetGo τ} (at_ : t.position = .releasing r next) :
    t.attempt? t.current = some r := by
  simp [attempt?, at_]

theorem attempt?_afterLetGo (next : AfterLetGo τ) : (t.afterLetGo next).attempt? run = none := by
  cases next <;> rfl

/-- A step that leaves all contexts alone, and neither begins nor ends an attempt. -/
theorem exists_turn_of_contexts_eq {k : Nat} {c : Context τ} (found : t.contexts[k]? = some c)
    (contexts : t'.contexts = t.contexts) (before : t.attempt? k = none)
    (behind : t'.attempt? k = none) :
    ∃ c', t'.contexts[k]? = some c' ∧ Turn c (t.attempt? k) c' (t'.attempt? k) := by
  rw [contexts, before, behind]
  exact ⟨c, found, .stay⟩

/-- A step that changes one context leaves the others alone. -/
theorem exists_turn_of_modify {k : Nat} {c : Context τ} {f : Context τ → Context τ}
    (attempt : Option Release) (found : t.contexts[k]? = some c)
    (contexts : t'.contexts = (t.modify run f).contexts)
    (behind : t'.attempt? k = if run = k then attempt else t.attempt? k)
    (here : run = k → Turn c (t.attempt? k) (f c) attempt) :
    ∃ c', t'.contexts[k]? = some c' ∧ Turn c (t.attempt? k) c' (t'.attempt? k) := by
  rw [contexts, getElem?_modify_contexts, behind]
  split
  · next same => exact ⟨f c, by rw [found, Option.map_some], here same⟩
  · exact ⟨c, found, .stay⟩

/-- What an access of the call in progress does to a context. -/
theorem Access.exists_turn {k : Nat} {c : Context τ} (last : t.Access t')
    (found : t.contexts[k]? = some c) :
    ∃ c', t'.contexts[k]? = some c' ∧ Turn c (t.attempt? k) c' (t'.attempt? k) := by
  have own : t.current = k → t.context = c := by
    rintro rfl
    simp [context, found]
  cases last with
  | letGo at_ =>
    refine exists_turn_of_modify (some .readOwner) found rfl ?_ fun _ => ?_
    · simp [attempt?, at_, eq_comm, Task.modify]
    · exact .letGo (attempt?_eq_none (by simp [at_]))
  | @release r r' next at_ more =>
    refine exists_turn_of_modify (some r') found rfl ?_ ?_
    · simp +contextual [attempt?, at_, eq_comm, Task.modify]
    · rintro rfl
      rw [attempt?_current at_, ← more, own rfl]
      exact .release rfl
  | @released r next at_ done =>
    refine exists_turn_of_modify none (f := fun _ => (r.step t.context).1) found
      (by cases next <;> rfl) ?_ ?_
    · rw [attempt?_afterLetGo]
      simp [attempt?, at_, eq_comm]
    · rintro rfl
      rw [attempt?_current at_, ← done, own rfl]
      exact .release rfl
  | spawn at_ =>
    refine ⟨c, ?_, ?_⟩
    · have inside := (List.getElem?_eq_some_iff.mp found).1
      exact (List.getElem?_append_left inside).trans found
    · rw [attempt?_eq_none (t := t) (by simp [at_]), attempt?_eq_none (by simp)]
      exact .stay
  | cancel at_ =>
    have none : t.attempt? k = none := attempt?_eq_none (by simp [at_])
    refine exists_turn_of_modify (t.attempt? k) found rfl ?_ fun _ => .cancel
    rw [none, ite_self]
    exact attempt?_eq_none (by simp)
  | @pass next at_ | @joined _ next at_ =>
    exact exists_turn_of_contexts_eq found rfl (attempt?_eq_none (by simp [at_]))
      (attempt?_eq_none (by cases next <;> simp [AfterJoin.position]))
  | busy at_ | idle at_ | adopt at_ | dropHeld at_ | dropGone at_ | wait at_ =>
    exact exists_turn_of_contexts_eq found rfl (attempt?_eq_none (by simp [at_]))
      (attempt?_eq_none (by simp))

/-- What a step does to a context. -/
theorem Move.exists_turn {l : Label τ} {k : Nat} {c : Context τ} (last : t.Move l t')
    (found : t.contexts[k]? = some c) :
    ∃ c', t'.contexts[k]? = some c' ∧ Turn c (t.attempt? k) c' (t'.attempt? k) := by
  cases last with
  | @begin by_ call accepted =>
    have free : t.isFree = true := by
      simp only [accepts, Bool.and_eq_true] at accepted
      exact accepted.1.2
    refine exists_turn_of_contexts_eq found rfl (attempt?_eq_none ?_) (attempt?_eq_none ?_)
    · intro r next at_
      simp [isFree, at_] at free
    · cases call <;> simp [Task.begin, Call.entry]
  | call access => exact access.exists_turn found
  | @thread run d e there access =>
    refine exists_turn_of_modify (t.attempt? k) found rfl (ite_self _).symm ?_
    rintro rfl
    obtain rfl := Option.some.inj (there.symm.trans found)
    exact .thread access
  | leave executing =>
    refine exists_turn_of_modify (t.attempt? k) found rfl (ite_self _).symm ?_
    rintro rfl
    obtain ⟨d, there, at_⟩ := target?_eq_some.mp executing
    obtain rfl := Option.some.inj (there.symm.trans found)
    exact .leave at_
  | cancel | cancelRun =>
    exact exists_turn_of_modify (t.attempt? k) found rfl (ite_self _).symm fun _ => .cancel

/-- A context is there before a step, unless the step has made it. -/
theorem Move.getElem?_or_ofTarget {l : Label τ} {k : Nat} {c : Context τ} (last : t.Move l t')
    (found : t'.contexts[k]? = some c) : (∃ d, t.contexts[k]? = some d) ∨
      t.contexts.length = k ∧ ∃ target, c = .ofTarget target ∧ t'.position = .adopt k := by
  have of_length {u : Task τ} (same : u.contexts.length = t.contexts.length)
      (there : u.contexts[k]? = some c) : ∃ d, t.contexts[k]? = some d := by
    have inside := (List.getElem?_eq_some_iff.mp there).1
    exact ⟨_, List.getElem?_eq_getElem (same ▸ inside)⟩
  cases last with
  | call access =>
    cases access with
    | @spawn target at_ =>
      rcases getElem?_snoc_cases found with before | ⟨rfl, rfl⟩
      · exact .inl ⟨_, before⟩
      · exact .inr ⟨rfl, target, rfl, rfl⟩
    | @released _ next =>
      exact .inl (of_length (by cases next <;> exact List.length_modify ..) found)
    | letGo | release | cancel => exact .inl (of_length (List.length_modify ..) found)
    | _ => exact .inl ⟨c, found⟩
  | begin => exact .inl ⟨c, found⟩
  | _ => exact .inl (of_length (List.length_modify ..) found)

end Turns

/-- What an attempt to release a context relies on, by what it has found so far. -/
def Release.Relies (c : Context τ) : Release → Prop
  | .readOwner => True
  | .readThread => c.ownerAlive = false
  | .mark => c.ownerAlive = false ∧ c.threadAlive = false
  | .dropTarget => c.released = true

/-- What the marks of a context tell about the handle, its attempt to release the context, and the
thread. -/
structure Context.Marked (c : Context τ) (attempt : Option Release) : Prop where
  /-- The thread is marked as long as it holds the context. -/
  thread : c.threadAlive = c.stage.any Stage.isHolding
  /-- The handle lets go of the context before it attempts to release it. -/
  owner : attempt.isSome → c.ownerAlive = false
  /-- The attempt of the handle has found what it relies on. -/
  handle : ∀ r, attempt = some r → r.Relies c
  /-- So has the attempt of the thread. -/
  own : ∀ r, c.stage = some (.releasing r) → r.Relies c
  /-- A context that has been released is held by nobody. -/
  released : c.released → c.ownerAlive = false ∧ c.threadAlive = false
  /-- A context that the handle has let go of and that has not been released will be attempted to
  be released by the handle or by the thread. -/
  bound : c.ownerAlive = false → c.released = false →
    attempt.isSome ∨ ∃ stage, c.stage = some stage ∧ stage ≠ .exited

section Marks

variable {c d : Context τ} {attempt attempt' : Option Release} {r r' : Release}

@[simp] theorem Release.step_ownerAlive (r : Release) : (r.step c).1.ownerAlive = c.ownerAlive := by
  cases r <;> simp only [Release.step]
  split <;> rfl

/-- A step of an attempt releases the context or leaves it as it is. -/
theorem Release.released_step (r : Release) :
    (r.step c).1.released = (c.released || r == .mark) := by
  cases r <;> simp only [Release.step] <;> try simp
  split <;> simp_all

/-- An attempt that goes on has found what it relies on. -/
theorem Release.Relies.step (relies : r.Relies c) (more : (r.step c).2 = some r') :
    r'.Relies (r.step c).1 := by
  cases r <;> simp only [Release.step] at more ⊢
  case dropTarget => simp at more
  all_goals
    split at more
    · simp at more
    · next found =>
      obtain rfl := Option.some.inj more
      simp_all [Release.Relies]

/-- An attempt to release a context that nobody holds ends when the context is released. -/
theorem Release.Relies.done (relies : r.Relies c) (owner : c.ownerAlive = false)
    (thread : c.threadAlive = false) (done : (r.step c).2 = none) :
    (r.step c).1.released = true := by
  cases r with
  | readOwner | readThread => simp [Release.step, owner, thread] at done
  | mark =>
    simp only [Release.step] at done ⊢
    split at done
    · next already => rw [if_pos already, already]
    · simp at done
  | dropTarget => exact relies

theorem Release.Relies.mono (relies : r.Relies c)
    (owner : c.ownerAlive = false → d.ownerAlive = false)
    (thread : c.threadAlive = false → d.threadAlive = false)
    (released : c.released = true → d.released = true) : r.Relies d := by
  cases r with
  | readOwner => trivial
  | readThread => exact owner relies
  | mark => exact ⟨owner relies.1, thread relies.2⟩
  | dropTarget => exact released relies

/-- The context of a handle or of a run that begins. -/
theorem Context.marked_default : ({} : Context τ).Marked none := by
  constructor <;> simp

theorem Context.marked_ofTarget (target : τ) : (Context.ofTarget target).Marked none := by
  constructor <;> simp [Context.ofTarget, Stage.isHolding]

/-- A context is released by an attempt only if nobody holds it. -/
theorem Release.Relies.released (relies : r.Relies c)
    (before : c.released → c.ownerAlive = false ∧ c.threadAlive = false)
    (released : (r.step c).1.released) : c.ownerAlive = false ∧ c.threadAlive = false := by
  rw [Release.released_step, Bool.or_eq_true, beq_iff_eq] at released
  rcases released with already | rfl
  · exact before already
  · exact relies

/-- A thread that goes on and still holds the context changes nothing in the marks. -/
theorem Context.Marked.onward {stage stage' : Stage τ} (marked : c.Marked attempt)
    (before : c.stage = some stage) (behind : d.stage = some stage') (holding : stage.isHolding)
    (holding' : stage'.isHolding)
    (owner : d.ownerAlive = c.ownerAlive) (thread : d.threadAlive = c.threadAlive)
    (released : d.released = c.released) : d.Marked attempt where
  thread := by rw [thread, marked.thread, before, behind, Option.any_some, Option.any_some, holding,
    holding']
  owner tries := owner.trans (marked.owner tries)
  handle r tries := (marked.handle r tries).mono (owner.trans ·) (thread.trans ·) (released.trans ·)
  own r at_ := by
    obtain rfl := Option.some.inj (behind.symm.trans at_)
    simp [Stage.isHolding] at holding'
  released := by
    rw [owner, thread, released]
    exact marked.released
  bound _ _ := by
    refine .inr ⟨stage', behind, ?_⟩
    rintro rfl
    simp [Stage.isHolding] at holding'

/-- A thread that attempts to release the context keeps what the marks tell. -/
theorem Context.Marked.release_thread (marked : c.Marked attempt) (at_ : c.stage = some (.releasing r)) :
    ({ (r.step c).1 with stage := some ((r.step c).2.elim .exited .releasing) } : Context τ).Marked
      attempt := by
  have relies := marked.own r at_
  have thread : c.threadAlive = false := by simp [marked.thread, at_, Stage.isHolding]
  have owner : (r.step c).1.ownerAlive = c.ownerAlive := r.step_ownerAlive
  have same : (r.step c).1.threadAlive = c.threadAlive := r.step_threadAlive
  exact {
    thread := by cases (r.step c).2 <;> simp [thread, Stage.isHolding]
    owner := fun tries => owner.trans (marked.owner tries)
    handle := fun other tries => (marked.handle other tries).mono (owner.trans ·) (same.trans ·)
      fun released => by simp [Release.released_step, released]
    own := fun other there => by
      cases more : (r.step c).2 with
      | none => simp [more] at there
      | some next =>
        obtain rfl : next = other := by simpa [more] using there
        exact (relies.step more).mono id id id
    released := fun released => by
      simpa using relies.released marked.released released
    bound := fun gone unreleased => by
      cases more : (r.step c).2 with
      | none => simp [relies.done (owner.symm.trans gone) thread more] at unreleased
      | some next => exact .inr ⟨.releasing next, rfl, by simp⟩ }

/-- A handle that attempts to release the context keeps what the marks tell. -/
theorem Context.Marked.release_handle (marked : c.Marked attempt) (at_ : attempt = some r) :
    (r.step c).1.Marked (r.step c).2 := by
  have relies := marked.handle r at_
  have gone : c.ownerAlive = false := marked.owner (by simp [at_])
  have owner : (r.step c).1.ownerAlive = c.ownerAlive := r.step_ownerAlive
  have same : (r.step c).1.threadAlive = c.threadAlive := r.step_threadAlive
  exact {
    thread := by rw [same, r.step_stage, marked.thread]
    owner := fun _ => owner.trans gone
    handle := fun _ more => relies.step more
    own := fun other there => (marked.own other (r.step_stage.symm.trans there)).mono
      (owner.trans ·) (same.trans ·) fun released => by simp [Release.released_step, released]
    released := fun released => by
      simpa using relies.released marked.released released
    bound := fun _ unreleased => by
      cases more : (r.step c).2 with
      | some next => exact .inl rfl
      | none =>
        -- The thread holds the context, or else this attempt would have released it.
        right
        rw [r.step_stage]
        cases thread : c.threadAlive with
        | false => simp [relies.done gone thread more] at unreleased
        | true =>
          obtain ⟨stage, at_, holding⟩ := (Option.any_eq_true _ _).mp (marked.thread.symm.trans thread)
          exact ⟨stage, at_, by rintro rfl; simp [Stage.isHolding] at holding⟩ }

/-- A step of the thread keeps what the marks tell. -/
theorem Context.Marked.access (marked : c.Marked attempt) (last : c.Access d) : d.Marked attempt := by
  cases last with
  | hold at_ =>
    refine marked.onward at_ rfl rfl rfl rfl ?_ rfl
    simp [marked.thread, at_, Stage.isHolding]
  | run at_ | name at_ | enter at_ | skip at_ | rest at_ =>
    exact marked.onward at_ rfl rfl rfl rfl rfl rfl
  | letGo at_ =>
    have held : c.threadAlive = true := by simp [marked.thread, at_, Stage.isHolding]
    exact {
      thread := rfl
      owner := marked.owner
      handle := fun r tries => (marked.handle r tries).mono id (fun _ => rfl) id
      own := fun r there => by
        obtain rfl : .readOwner = r := by simpa using there
        trivial
      released := fun released => ⟨(marked.released released).1, rfl⟩
      bound := fun _ _ => .inr ⟨_, rfl, by simp⟩ }
  | release at_ => exact marked.release_thread at_

/-- Every step keeps what the marks tell. -/
theorem Context.Marked.turn (marked : c.Marked attempt) (last : Turn c attempt d attempt') :
    d.Marked attempt' := by
  cases last with
  | stay => exact marked
  | cancel => exact ⟨marked.thread, marked.owner, fun r tries => (marked.handle r tries).mono id id id,
      fun r at_ => (marked.own r at_).mono id id id, marked.released, marked.bound⟩
  | letGo fresh =>
    exact {
      thread := marked.thread
      owner := fun _ => rfl
      handle := fun r tries => by
        obtain rfl := Option.some.inj tries
        trivial
      own := fun r at_ => (marked.own r at_).mono (fun _ => rfl) id id
      released := fun released => ⟨rfl, (marked.released released).2⟩
      bound := fun _ _ => .inl rfl }
  | release at_ => exact marked.release_handle at_
  | thread access => exact marked.access access
  | leave at_ => exact marked.onward at_ rfl rfl rfl rfl rfl rfl

end Marks

/-- What the marks of all contexts tell. -/
def Marked (t : Task τ) : Prop :=
  ∀ (run : Nat) (c : Context τ), t.contexts[run]? = some c → c.Marked (t.attempt? run)

/-- Is the handle about to take up another context, or about to be gone? -/
def Position.hasLetGo : Position τ → Bool
  | .releasing .. | .spawn _ | .adopt _ => true
  | _ => false

/-- The contexts that a handle may hold: its own until it lets go of that, and the one that it is
about to take up. -/
structure Held (t : Task τ) : Prop where
  /-- It holds no other. -/
  sole : ∀ (run : Nat) (c : Context τ), t.contexts[run]? = some c → c.ownerAlive →
    (run = t.current ∧ t.gone = false ∧ t.position.hasLetGo = false) ∨ t.position = .adopt run
  /-- No call is in progress on a handle that is gone. -/
  gone : t.gone → t.isFree

section Steps

variable {l : Label τ}

theorem marked_ofName (name : String) : ({ name := name } : Task τ).Marked := by
  intro run c found
  obtain rfl := List.mem_singleton.mp (List.mem_of_getElem? found)
  exact Context.marked_default

theorem Marked.step (marked : t.Marked) (last : t.step l = some t') : t'.Marked := by
  intro run c found
  have move := move_of_step last
  rcases move.getElem?_or_ofTarget found with ⟨d, before⟩ | ⟨-, target, rfl, adopts⟩
  · obtain ⟨c', found', turn⟩ := move.exists_turn before
    obtain rfl := Option.some.inj (found.symm.trans found')
    exact (marked run d before).turn turn
  · rw [attempt?_eq_none (by simp [adopts])]
    exact Context.marked_ofTarget target

theorem held_ofName (name : String) : ({ name := name } : Task τ).Held where
  sole run c found _ := by
    have inside : run < 1 := (List.getElem?_eq_some_iff.mp found).1
    exact .inl ⟨Nat.lt_one_iff.mp inside, rfl, rfl⟩
  gone := by simp

theorem Context.Access.ownerAlive {c d : Context τ} (last : c.Access d) :
    d.ownerAlive = c.ownerAlive := by
  cases last with
  | release => exact Release.step_ownerAlive _
  | _ => rfl

/-- A step that changes a context, but not the mark of the handle in it. -/
theorem Held.modify {f : Context τ → Context τ} (held : t.Held)
    (same : ∀ c, t.contexts[run]? = some c → (f c).ownerAlive = c.ownerAlive) :
    (t.modify run f).Held where
  sole other c found alive := by
    rw [getElem?_modify_contexts] at found
    split at found
    · next here =>
      subst here
      obtain ⟨d, there, rfl⟩ := Option.map_eq_some_iff.mp found
      exact held.sole run d there (same d there ▸ alive)
    · exact held.sole other c found alive
  gone := held.gone

/-- A call goes on without having let go of the context. -/
theorem Held.moveTo (held : t.Held) (position : Position τ) (busy : t.isFree = false)
    (before : t.position.hasLetGo = false) (behind : position.hasLetGo = false) :
    ({ t with position := position } : Task τ).Held where
  sole run c found alive := by
    rcases held.sole run c found alive with ⟨here, there, -⟩ | adopts
    · exact .inl ⟨here, there, behind⟩
    · simp [adopts, Position.hasLetGo] at before
  gone gone := by simp [held.gone gone] at busy

/-- Between letting go of a context and taking up the next one, a handle holds nothing. -/
theorem Held.nothing (held : t.Held) (past : t.position.hasLetGo) (adopts : t.position.run? = none)
    {c : Context τ} (found : t.contexts[run]? = some c) : c.ownerAlive = false := by
  rw [← Bool.not_eq_true]
  intro alive
  rcases held.sole run c found alive with ⟨-, -, before⟩ | at_
  · simp [past] at before
  · simp [at_, Position.run?] at adopts

/-- A handle that holds nothing may go anywhere. -/
theorem Held.of_nothing
    (nothing : ∀ (run : Nat) (c : Context τ), t.contexts[run]? = some c → c.ownerAlive = false)
    (gone : t.gone → t.isFree) : t.Held where
  sole run c found alive := by simp [nothing run c found] at alive
  gone := gone

theorem Held.not_gone (held : t.Held) (busy : t.isFree = false) : t.gone = false := by
  rw [← Bool.not_eq_true]
  intro gone
  simp [held.gone gone] at busy

/-- An attempt to release the context changes no mark of the handle. -/
theorem Held.release (held : t.Held) (r : Release) :
    (t.modify t.current fun _ => (r.step t.context).1).Held := by
  refine held.modify fun c found => ?_
  simp [context, found]

/-- An access of the call in progress leaves the handle holding no other context. -/
theorem Held.access (held : t.Held) (last : t.Access t') : t'.Held := by
  cases last with
  | busy at_ | idle at_ | dropHeld at_ =>
    exact held.moveTo _ (by simp [isFree, at_]) (by simp [at_, Position.hasLetGo]) rfl
  | cancel at_ =>
    have cancelled : t.cancel.Held := held.modify fun _ _ => rfl
    exact cancelled.moveTo _ (by simp [isFree, at_, Task.cancel, cancelRun, Task.modify])
      (by simp [at_, Task.cancel, cancelRun, Task.modify, Position.hasLetGo]) rfl
  | @pass next at_ | @joined _ next at_ =>
    exact held.moveTo _ (by simp [isFree, at_]) (by simp [at_, Position.hasLetGo])
      (by cases next <;> rfl)
  | @wait joined next at_ =>
    have moved := held.moveTo (.joining joined next) (by simp [isFree, at_])
      (by simp [at_, Position.hasLetGo]) rfl
    exact ⟨moved.sole, moved.gone⟩
  | letGo at_ =>
    have stays := held.not_gone (by simp [isFree, at_])
    refine .of_nothing (fun run c found => ?_) fun gone => by simp [stays, Task.modify] at gone
    rw [getElem?_modify_contexts] at found
    split at found
    · obtain ⟨d, -, rfl⟩ := Option.map_eq_some_iff.mp found
      rfl
    · next other =>
      rw [← Bool.not_eq_true]
      intro alive
      rcases held.sole run c found alive with ⟨here, -⟩ | adopts
      · exact other here.symm
      · simp [at_] at adopts
  | @release r _ _ at_ =>
    have stays := held.not_gone (by simp [isFree, at_])
    refine .of_nothing (fun run c found => ?_) fun gone => by simp [stays, Task.modify] at gone
    exact (held.release r).nothing (by simp [Task.modify, at_, Position.hasLetGo])
      (by simp [Task.modify, at_, Position.run?]) found
  | @released r next at_ =>
    have stays := held.not_gone (by simp [isFree, at_])
    refine .of_nothing (fun run c found => ?_) fun gone => ?_
    · have there : (t.modify t.current fun _ => (r.step t.context).1).contexts[run]? = some c := by
        cases next <;> exact found
      exact (held.release r).nothing (by simp [Task.modify, at_, Position.hasLetGo])
        (by simp [Task.modify, at_, Position.run?]) there
    · cases next <;> simp_all [afterLetGo, isFree, Task.modify]
  | spawn at_ =>
    have stays := held.not_gone (by simp [isFree, at_])
    refine ⟨fun run c found alive => .inr ?_, fun gone => by simp [stays] at gone⟩
    rcases Nat.lt_or_ge run t.contexts.length with old | beyond
    · rw [List.getElem?_append_left old] at found
      simp [held.nothing (by simp [at_, Position.hasLetGo]) (by simp [at_, Position.run?]) found]
        at alive
    · have inside := (List.getElem?_eq_some_iff.mp found).1
      rw [List.length_append, List.length_singleton] at inside
      rw [show t.contexts.length = run by omega]
  | adopt at_ =>
    have stays := held.not_gone (by simp [isFree, at_])
    refine ⟨fun run c found alive => ?_, fun _ => rfl⟩
    rcases held.sole run c found alive with ⟨-, -, past⟩ | adopts
    · simp [at_, Position.hasLetGo] at past
    · rw [at_] at adopts
      exact .inl ⟨by simpa using adopts.symm, stays, rfl⟩
  | dropGone at_ gone =>
    refine .of_nothing (fun run c found => ?_) fun _ => rfl
    rw [← Bool.not_eq_true]
    intro alive
    rcases held.sole run c found alive with ⟨rfl, -⟩ | adopts
    · simp [context, show t.contexts[t.current]? = some c from found, alive] at gone
    · simp [at_] at adopts

theorem Held.step (held : t.Held) (last : t.step l = some t') : t'.Held := by
  cases move_of_step last with
  | @begin by_ call accepted =>
    simp only [accepts, Bool.and_eq_true, Bool.not_eq_true'] at accepted
    refine ⟨fun run c found alive => ?_, fun gone => ?_⟩
    · rcases held.sole run c found alive with ⟨here, there, -⟩ | adopts
      · exact .inl ⟨here, there, by cases call <;> rfl⟩
      · simp [isFree, adopts] at accepted
    · simp [Task.begin, accepted.1.1] at gone
  | call access => exact held.access access
  | thread found access =>
    refine held.modify fun e there => ?_
    obtain rfl := Option.some.inj (found.symm.trans there)
    exact access.ownerAlive
  | leave | cancel | cancelRun => exact held.modify fun _ _ => rfl

end Steps

/-- The step, if it turns the released mark of the context of a run from false to true. -/
def releasedBy (run : Nat) (t : Task τ) (l : Label τ) : Option (Label τ) :=
  if !t.isReleased run && (t.step l).any (·.isReleased run) then some l else none

/-- The call that has let go of the context of a run is past its attempt to release it. -/
def HasLetGo (t : Task τ) (run : Nat) : Prop :=
  (∃ c, t.contexts[run]? = some c ∧ c.ownerAlive = false) ∧ t.attempt? run = none

section Runs

variable {l : Label τ} {name : String}

theorem isReleased_eq_true_iff :
    t.isReleased run = true ↔ ∃ c, t.contexts[run]? = some c ∧ c.released = true := by
  rw [isReleased, List.getD_eq_getElem?_getD]
  cases t.contexts[run]? <;> simp

theorem Turn.released {c d : Context τ} {attempt attempt' : Option Release}
    (last : Turn c attempt d attempt') (before : c.released = true) : d.released = true := by
  cases last with
  | release => simp [Release.released_step, before]
  | thread access =>
    cases access with
    | release => simp [Release.released_step, before]
    | _ => exact before
  | _ => exact before

/-- A context that has been released stays so. -/
theorem isReleased_step (last : t.step l = some t') (before : t.isReleased run = true) :
    t'.isReleased run = true := by
  obtain ⟨c, found, released⟩ := isReleased_eq_true_iff.mp before
  obtain ⟨d, found', turn⟩ := (move_of_step last).exists_turn found
  exact isReleased_eq_true_iff.mpr ⟨d, found', turn.released released⟩

theorem isReleased_of_reaches {u : Task τ} (run_ : Reaches step t u)
    (before : t.isReleased run = true) : u.isReleased run = true := by
  induction run_ with
  | refl => exact before
  | tail _ last ih => exact isReleased_step last ih

theorem marked_of_reaches (reached : Reaches step { name := name } t) : t.Marked := by
  induction reached with
  | refl => exact marked_ofName name
  | tail _ last ih => exact ih.step last

theorem held_of_reaches (reached : Reaches step { name := name } t) : t.Held := by
  induction reached with
  | refl => exact held_ofName name
  | tail _ last ih => exact ih.step last

/-- As many steps have released a context as its mark says. -/
theorem length_releasedBy {log : List (Label τ)}
    (recorded : Records step (fun _ => True) (releasedBy run) { name := name } log t) :
    log.length = (t.isReleased run).toNat := by
  induction recorded with
  | refl =>
    have unreleased : ({ name := name } : Task τ).isReleased run = false := by
      rw [← Bool.not_eq_true, isReleased_eq_true_iff]
      rintro ⟨c, found, released⟩
      obtain rfl := List.mem_singleton.mp (List.mem_of_getElem? found)
      simp at released
    rw [unreleased]
    rfl
  | @tail t u log l _ _ last ih =>
    rw [List.length_append, ih, releasedBy, last, Option.any_some]
    cases before : t.isReleased run with
    | true => rw [isReleased_step last before]; rfl
    | false => cases u.isReleased run <;> rfl

/-- A context that the handle and the thread are both through with has been released. -/
theorem Context.Marked.isReleased {c : Context τ} (marked : c.Marked none)
    (owner : c.ownerAlive = false) (thread : ∀ stage, c.stage = some stage → stage = .exited) :
    c.released = true := by
  rw [← Bool.not_eq_false]
  intro unreleased
  rcases marked.bound owner unreleased with tries | ⟨stage, at_, inside⟩
  · simp at tries
  · exact inside (thread stage at_)

/-- **Every context is released exactly once.** At most one step turns its released mark on, and
none turns it off; it is on only if the handle has let go of the context and the thread, if there
has been one, has left its target and cleared its own mark; and it is on as soon as the call that
has let go of the context is past its attempt to release it and the thread, if there has been one,
has exited. -/
theorem released_exactly_once {log : List (Label τ)} {c : Context τ}
    (recorded : Records step (fun _ => True) (releasedBy run) { name := name } log t)
    (found : t.contexts[run]? = some c) :
    log.length = (if c.released then 1 else 0) ∧
    (c.released → ∀ u, Reaches step t u → u.isReleased run) ∧
    (c.released → c.ownerAlive = false ∧
      ∀ stage, c.stage = some stage → stage.isLive = false ∧ c.threadAlive = false) ∧
    (t.HasLetGo run → (∀ stage, c.stage = some stage → stage = .exited) → c.released) := by
  have marked := marked_of_reaches recorded.reaches run c found
  have mark : t.isReleased run = c.released := by simp [isReleased, found]
  refine ⟨?_, fun released u later => ?_, fun released => ?_, fun letGo exited => ?_⟩
  · rw [length_releasedBy recorded, mark]
    cases c.released <;> rfl
  · exact isReleased_of_reaches later (mark.trans released)
  · obtain ⟨owner, thread⟩ := marked.released released
    refine ⟨owner, fun stage at_ => ⟨?_, thread⟩⟩
    rw [marked.thread, at_, Option.any_some] at thread
    cases stage <;> simp_all [Stage.isHolding, Stage.isLive]
  · obtain ⟨⟨d, there, owner⟩, past⟩ := letGo
    obtain rfl := Option.some.inj (found.symm.trans there)
    rw [past] at marked
    exact marked.isReleased owner exited

/-- A target drops the handle of its own run, so that its thread is the last to let go. -/
theorem released_exactly_once_of_self_drop : ∃ (log : List (Label Unit)) (t : Task Unit),
    Records step (fun _ => True) (releasedBy 1) { name := "worker" } log t ∧
    log = [.thread 1] ∧ t.gone = true ∧ t.HasLetGo 1 ∧ t.isReleased 1 = true ∧
    ∀ u, Reaches step t u → u.isReleased 1 = true := by
  let ended : Context Unit :=
    { ownerAlive := false, released := true, isNamed := true, cancelled := true, stage := some .exited }
  have ran : (record? step (releasedBy 1) ({ name := "worker" } : Task Unit)
      (List.flatten [[.begin .outside (.start ())], List.replicate 8 .call,
        List.replicate 4 (.thread 1), [.begin (.target 1) .drop], List.replicate 6 .call, [.leave 1],
        List.replicate 6 (.thread 1)])).any
      (fun x => x.1 = [.thread 1] ∧ x.2.gone = true ∧ x.2.isFree = true ∧
        x.2.contexts[1]? = some ended) := by
    decide +kernel
  obtain ⟨log, t, recorded, shown⟩ := exists_records_of_any (fun _ _ => trivial) ran
  obtain ⟨once, gone, free, found⟩ := of_decide_eq_true shown
  have letGo : t.HasLetGo 1 :=
    ⟨⟨ended, found, rfl⟩, attempt?_eq_none fun r next at_ => by simp [isFree, at_] at free⟩
  obtain ⟨-, stays, -, last⟩ := released_exactly_once recorded found
  have released := last letGo fun stage at_ => (Option.some.inj at_).symm
  exact ⟨log, t, recorded, once, gone, letGo, by simp [isReleased, found, released], stays released⟩

/-- A handle that is gone leaves no context unreleased behind the last thread. -/
theorem isReleased_of_gone (reached : Reaches step { name := name } t) (gone : t.gone)
    (exited : ∀ run stage, t.stage? run = some stage → stage = .exited)
    (inside : run < t.contexts.length) : t.isReleased run := by
  have held := held_of_reaches reached
  have found := List.getElem?_eq_getElem inside
  have free : t.attempt? run = none := attempt?_eq_none fun r next at_ => by
    simpa [isFree, at_] using held.gone gone
  have marked := marked_of_reaches reached run _ found
  rw [free] at marked
  refine isReleased_eq_true_iff.mpr ⟨_, found, marked.isReleased ?_ fun stage at_ => ?_⟩
  · rw [← Bool.not_eq_true]
    intro alive
    rcases held.sole run _ found alive with ⟨-, stays, -⟩ | adopts
    · simp [gone] at stays
    · simpa [isFree, adopts] using held.gone gone
  · exact exited run stage (by simp [stage?, found, at_])

end Runs

end PacketRelay.Task
