import PacketRelay.Proofs.Record
import PacketRelay.Proofs.Task.Threads

/-!
# Tasks at rest

A task is at rest while every thread that it has made has exited. A call on a task at rest waits for
nobody: by its own steps a call that joins returns, and a call that starts makes a new run.

## Main definitions

* `Task.IsAtRest`: every thread has exited
* `Task.Advances`: what a call reaches by its own steps

## Main results

* `IsAtRest.exists_joined`, `IsAtRest.exists_launched`: how the calls return
-/

namespace PacketRelay.Task

open Schedule

variable {τ : Type} {fresh : τ → Prop} {t t' : Task τ}

/-- Every thread that there has been has exited. -/
def IsAtRest (t : Task τ) : Prop :=
  ∀ c ∈ t.contexts, c.stage = none ∨ c.stage = some .exited

/-- The call in progress leads from the first task to the second by its own steps. -/
def Advances (t t' : Task τ) : Prop :=
  Reaches (fun (t : Task τ) (_ : Unit) => t.advance) t t'

theorem Advances.head {u : Task τ} (first : t.advance = some t') (later : t'.Advances u) :
    t.Advances u :=
  Reaches.head (l := ()) first later

theorem IsAtRest.isRunning_eq_false (rest : t.IsAtRest) (coherent : t.Coherent fresh) :
    t.isRunning = false := by
  have idle : t.context.phase = .idle := by
    unfold context
    rw [List.getD_eq_getElem?_getD]
    cases found : t.contexts[t.current]? with
    | none => rfl
    | some c =>
      have phase := (coherent.contexts t.current c found).phase
      rcases rest c (List.mem_of_getElem? found) with never | exited
      · simpa [never] using phase
      · simpa [exited, Stage.phase] using phase
  simp [isRunning, Task.phase, idle]

theorem IsAtRest.hasExited (rest : t.IsAtRest) {run : Nat} (thread : t.HasThread run) :
    t.hasExited run = true := by
  obtain ⟨⟨⟩, stage, found, at_⟩ := thread
  obtain rfl := at_
  have exited : some stage = some .exited :=
    (rest _ (List.mem_of_getElem? found)).resolve_left (by simp)
  obtain rfl := Option.some.inj exited
  simp [Task.hasExited, found]

/-- A call that joins returns. -/
theorem IsAtRest.exists_joined (rest : t.IsAtRest) (coherent : t.Coherent fresh)
    (joining : t.position.isJoining) :
    ∃ begun, t.Advances { t with position := .returned begun } := by
  cases at_ : t.position with
  | returned begun => exact ⟨begun, by rw [← at_]; exact .refl t⟩
  | checkJoin next =>
    cases next with
    | letGo => simp [at_, Position.isJoining] at joining
    | done =>
      refine ⟨false, .head ?_ (.refl _)⟩
      simp [advance, at_, afterJoinCheck, rest.isRunning_eq_false coherent, AfterJoin.position]
  | joining run next =>
    cases next with
    | letGo => simp [at_, Position.isJoining] at joining
    | done =>
      have thread := coherent.thread run (.inr (by simp [at_, Position.run?]))
      refine ⟨false, .head ?_ (.refl _)⟩
      simp [advance, at_, rest.hasExited thread, AfterJoin.position]
  | _ => simp [at_, Position.isJoining] at joining

/-- What a start has reached once it has made the thread of the new run. -/
def Launched (t : Task τ) (target : τ) (t' : Task τ) : Prop :=
  t'.position = .returned true ∧ t'.current = t.contexts.length ∧
    t'.contexts.length = t.contexts.length + 1 ∧
    t'.contexts[t.contexts.length]? = some (.ofTarget target)

theorem exists_launched_of_spawn {target : τ} (at_ : t.position = .spawn target) :
    ∃ t', t.Advances t' ∧ t.Launched target t' := by
  refine ⟨_, .head (by rw [advance, at_]) (.head rfl (.refl _)), rfl, rfl, ?_, ?_⟩
  · simp
  · simp

theorem exists_launched_of_advance {target : τ} (first : t.advance = some t')
    (length : t'.contexts.length = t.contexts.length)
    (later : ∃ u, t'.Advances u ∧ t'.Launched target u) : ∃ u, t.Advances u ∧ t.Launched target u := by
  obtain ⟨u, path, launched⟩ := later
  rw [Launched, length] at launched
  exact ⟨u, path.head first, launched⟩

/-- An attempt of a start to release the context before comes to an end, in whatever way. -/
theorem exists_launched_of_releasing {target : τ} (r : Release)
    (at_ : t.position = .releasing r (.spawn target)) :
    ∃ u, t.Advances u ∧ t.Launched target u := by
  induction r using Release.induction τ generalizing t with
  | back r later =>
    cases more : (r.step t.context).2 with
    | none =>
      have first : t.advance = some { t.modify t.current fun _ => (r.step t.context).1 with
          position := .spawn target } := by
        simp [advance, at_, more, afterLetGo]
      exact exists_launched_of_advance first (by simp [Task.modify]) (exists_launched_of_spawn rfl)
    | some r' =>
      have first : t.advance = some { t.modify t.current fun _ => (r.step t.context).1 with
          position := .releasing r' (.spawn target) } := by
        simp [advance, at_, more]
      exact exists_launched_of_advance first (by simp [Task.modify]) (later t.context r' more rfl)

/-- A start makes a new run. -/
theorem IsAtRest.exists_launched (rest : t.IsAtRest) (coherent : t.Coherent fresh) {target : τ}
    (at_ : t.position = .checkStart target) : ∃ u, t.Advances u ∧ t.Launched target u := by
  have first : t.advance = some { t with position := .letGo (.spawn target) } := by
    simp [advance, at_, rest.isRunning_eq_false coherent]
  apply exists_launched_of_advance first rfl
  apply exists_launched_of_advance rfl (by simp [Task.modify])
  exact exists_launched_of_releasing .readOwner rfl

end PacketRelay.Task
