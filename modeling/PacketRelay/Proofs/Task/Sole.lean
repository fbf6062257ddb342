import PacketRelay.Proofs.Task.Threads

/-!
# One thread at a time

A handle begins a run only when the run before is over, and it lets go of the thread of a run only
after that. So there is at most one thread that has not left its target, and it is the one that the
handle can wait for, is about to take up, or is waiting for. Once a call that joins has returned
there is none. This is for handles that are called from outside: the target of a run that joined its
own handle would not be waited for.

## Main definitions

* `Task.IsQuiet`: every thread has left its target
* `Task.Sole`: the handle knows the only thread that has not

## Main results

* `Sole.advance`: the calls keep this
* `Sole.isQuiet_of_joined`: a call that joins returns to a quiet task
* `IsQuiet.advance`: a task stays quiet as long as nothing is started
-/

namespace PacketRelay.Task

variable {τ : Type} {fresh : τ → Prop} {t t' : Task τ} {run : Nat}

/-- Has the thread of a run not left its target? -/
def isLive (t : Task τ) (run : Nat) : Bool :=
  (t.stage? run).any Stage.isLive

/-- Every thread that there has been has left its target. -/
def IsQuiet (t : Task τ) : Prop :=
  ∀ run, t.isLive run = false

/-- May the handle have a thread that it neither waits for nor has let go of? -/
def Position.isHolding : Position τ → Bool
  | .checkStart _ | .checkDrop | .cancel | .checkJoin _ | .returned _ => true
  | _ => false

/-- The only thread that has not left its target is the one that the handle can wait for, is about
to take up, or is waiting for. -/
def Sole (t : Task τ) : Prop :=
  ∀ run, t.isLive run →
    (t.position.isHolding ∧ t.current = run ∧ t.joinable = some run) ∨
      t.position = .adopt run ∨
      t.current = run ∧ ∃ next, t.position = .joining run next

section Live

theorem isLive_of_stage? (same : t'.stage? run = t.stage? run) : t'.isLive run = t.isLive run := by
  rw [isLive, isLive, same]

theorem isLive_of_target? {target : τ} (executing : t.target? run = some target) :
    t.isLive run = true := by
  rw [isLive, target?_eq_some_iff_stage?.mp executing]
  rfl

theorem IsQuiet.target?_eq_none (quiet : t.IsQuiet) (run : Nat) : t.target? run = none := by
  cases executing : t.target? run with
  | none => rfl
  | some target => simpa [quiet run] using isLive_of_target? executing

/-- The thread of the handle has left its target if the phase says so. -/
theorem isLive_current_of_idle (coherent : t.Coherent fresh) (idle : t.isRunning = false) :
    t.isLive t.current = false := by
  have phase : t.context.phase = .idle := by simpa [isRunning, Task.phase] using idle
  cases found : t.contexts[t.current]? with
  | none => simp [isLive, stage?, found]
  | some c =>
    have here : t.context = c := by simp [context, found]
    have same := (coherent.contexts t.current c found).phase
    rw [← here, phase, here] at same
    cases at_ : c.stage with
    | none => simp [isLive, stage?, found, at_]
    | some stage =>
      have idle : stage.phase = .idle := by
        rw [at_] at same
        exact same.symm
      have dead : stage.isLive = false := by cases stage <;> first | rfl | cases idle
      simp [isLive, stage?, found, at_, dead]

theorem isLive_eq_false_of_hasExited (exited : t.hasExited run = true) : t.isLive run = false := by
  unfold hasExited at exited
  split at exited
  · next found => simp [isLive, stage?, found, Stage.isLive]
  · simp at exited

end Live

section Calls

/-- A handle that has let go of its thread, and has not made another, is that of a quiet task. -/
theorem Sole.isQuiet (sole : t.Sole) (holding : t.position.isHolding = false)
    (run? : t.position.run? = none) : t.IsQuiet := by
  intro run
  by_contra live
  rcases sole run (by simpa using live) with ⟨holds, -⟩ | at_ | ⟨-, next, at_⟩
  · simp [holding] at holds
  · simp [at_, Position.run?] at run?
  · simp [at_, Position.run?] at run?

/-- There is no other thread that has not left its target. -/
theorem Sole.eq_of_isLive (sole : t.Sole) {i j : Nat} (first : t.isLive i) (second : t.isLive j) :
    i = j := by
  rcases sole i first with ⟨holds, current, -⟩ | at_ | ⟨current, next, at_⟩
  · rcases sole j second with ⟨-, same, -⟩ | there | ⟨same, -⟩
    · exact current.symm.trans same
    · simp [there, Position.isHolding] at holds
    · exact current.symm.trans same
  · rcases sole j second with ⟨holds, -⟩ | there | ⟨-, next, there⟩
    · simp [at_, Position.isHolding] at holds
    · exact Position.adopt.inj (at_.symm.trans there)
    · simp [at_] at there
  · rcases sole j second with ⟨-, same, -⟩ | there | ⟨same, -⟩
    · exact current.symm.trans same
    · simp [at_] at there
    · exact current.symm.trans same

theorem Sole.of_isQuiet (quiet : t.IsQuiet) : t.Sole := by
  intro run live
  simp [quiet run] at live

/-- A handle that only looks at its thread goes on to another place. -/
theorem Sole.moveTo (sole : t.Sole) (position : Position τ) (before : t.position.isHolding)
    (after : position.isHolding) : ({ t with position := position } : Task τ).Sole := by
  intro run live
  rcases sole run live with ⟨-, current, joinable⟩ | at_ | ⟨-, next, at_⟩
  · exact .inl ⟨after, current, joinable⟩
  · simp [at_, Position.isHolding] at before
  · simp [at_, Position.isHolding] at before

/-- A run that is over leaves the task quiet. -/
theorem Sole.isQuiet_of_idle (sole : t.Sole) (coherent : t.Coherent fresh)
    (holding : t.position.isHolding) (idle : t.isRunning = false) : t.IsQuiet := by
  intro run
  by_contra live
  rcases sole run (by simpa using live) with ⟨-, rfl, -⟩ | at_ | ⟨-, next, at_⟩
  · exact live (isLive_current_of_idle coherent idle)
  · simp [at_, Position.isHolding] at holding
  · simp [at_, Position.isHolding] at holding

/-- A call from outside that finds nothing to wait for finds the task quiet. -/
theorem Sole.isQuiet_of_pass (sole : t.Sole) (coherent : t.Coherent fresh)
    (outside : t.caller = .outside) {next : AfterJoin} (at_ : t.position = .checkJoin next)
    (nobody : t.isRunning = true → ∀ run, t.joinable = some run → t.caller = .target run) :
    t.IsQuiet := by
  have holding : t.position.isHolding := by rw [at_]; rfl
  by_cases running : t.isRunning
  · intro run
    by_contra live
    rcases sole run (by simpa using live) with ⟨-, -, joinable⟩ | there | ⟨-, next, there⟩
    · have own := nobody running run joinable
      simp [outside] at own
    · simp [at_] at there
    · simp [at_] at there
  · exact sole.isQuiet_of_idle coherent holding (by simpa using running)

/-- Once its thread has exited a call that waits for it finds the task quiet. -/
theorem Sole.isQuiet_of_hasExited (sole : t.Sole) {next : AfterJoin}
    (at_ : t.position = .joining run next) (exited : t.hasExited run = true) : t.IsQuiet := by
  intro other
  by_contra live
  rcases sole other (by simpa using live) with ⟨holds, -⟩ | there | ⟨-, next', there⟩
  · simp [at_, Position.isHolding] at holds
  · simp [at_] at there
  · obtain ⟨rfl, rfl⟩ := Position.joining.inj (at_.symm.trans there)
    exact live (isLive_eq_false_of_hasExited exited)

/-- **The calls keep the only thread known to the handle.** -/
theorem Sole.advance (sole : t.Sole) (coherent : t.Coherent fresh) (outside : t.caller = .outside)
    (last : t.advance = some t') : t'.Sole := by
  have stays : (∀ run, t'.stage? run = t.stage? run) → t.IsQuiet → t'.Sole := fun stages quiet =>
    .of_isQuiet fun run => (isLive_of_stage? (stages run)).trans (quiet run)
  have stages := stage?_advance last
  cases access_of_advance last with
  | busy at_ | dropHeld at_ | dropGone at_ => exact sole.moveTo _ (by rw [at_]; rfl) rfl
  | idle at_ idle => exact .of_isQuiet (sole.isQuiet_of_idle coherent (by rw [at_]; rfl) idle)
  | letGo at_ | release at_ | released at_ =>
    have quiet := sole.isQuiet (by rw [at_]; rfl) (by rw [at_]; rfl)
    rcases stages with ⟨target, there, -⟩ | ⟨-, same⟩
    · simp [at_] at there
    · exact stays same quiet
  | spawn at_ =>
    have quiet := sole.isQuiet (by rw [at_]; rfl) (by rw [at_]; rfl)
    rcases stages with ⟨-, -, -, same⟩ | ⟨same, -⟩
    · intro run live
      right
      left
      by_cases new : run = t.contexts.length
      · rw [new]
      · rw [isLive, same run, if_neg new, ← isLive, quiet run] at live
        simp at live
    · simp [at_, Position.hasSpawned] at same
  | @adopt run at_ =>
    intro other live
    rcases sole other live with ⟨holds, -⟩ | there | ⟨-, next, there⟩
    · simp [at_, Position.isHolding] at holds
    · obtain rfl := Position.adopt.inj (at_.symm.trans there)
      exact .inl ⟨rfl, rfl, rfl⟩
    · simp [at_] at there
  | cancel at_ =>
    intro run live
    have before : t.isLive run := by
      rw [← isLive_of_stage? (t := t) (stage?_cancelRun t.current run)]
      exact live
    exact sole.moveTo (.checkJoin .letGo) (by rw [at_]; rfl) rfl run before
  | @wait run next at_ running joinable =>
    intro other live
    rcases sole other live with ⟨-, current, same⟩ | there | ⟨-, next, there⟩
    · obtain rfl := Option.some.inj (joinable.symm.trans same)
      exact .inr (.inr ⟨current, next, rfl⟩)
    · simp [at_] at there
    · simp [at_] at there
  | pass at_ nobody => exact .of_isQuiet (sole.isQuiet_of_pass coherent outside at_ nobody)
  | joined at_ exited => exact .of_isQuiet (sole.isQuiet_of_hasExited at_ exited)

/-- A call that joins returns to a quiet task. -/
theorem Sole.isQuiet_of_joined (sole : t.Sole) (coherent : t.Coherent fresh)
    (outside : t.caller = .outside) (joining : t.position.isJoining) (last : t.advance = some t')
    (returned : t'.isFree) : t'.IsQuiet := by
  cases access_of_advance last with
  | wait => simp [isFree] at returned
  | pass at_ nobody => exact sole.isQuiet_of_pass coherent outside at_ nobody
  | joined at_ exited => exact sole.isQuiet_of_hasExited at_ exited
  | _ at_ => simp [at_, Position.isJoining] at joining

/-- A call begins that does not let go of the thread at once. -/
theorem Sole.begin {by_ : Caller} {call : Call τ} (sole : t.Sole) (free : t.isFree)
    (keeps : call.entry.isHolding) : (t.begin by_ call).Sole := by
  have holding : t.position.isHolding := by
    unfold isFree at free
    split at free
    · next at_ => rw [at_]; rfl
    · simp at free
  exact sole.moveTo call.entry holding keeps

/-- A call does not change who makes it. -/
theorem caller_advance (last : t.advance = some t') : t'.caller = t.caller := by
  cases access_of_advance last with
  | @released _ next => cases next <;> rfl
  | _ => rfl

/-- A task stays quiet as long as nothing is started. -/
theorem IsQuiet.advance (quiet : t.IsQuiet) (nothing : t.position.target? = none)
    (last : t.advance = some t') : t'.IsQuiet ∧ t'.position.target? = none := by
  constructor
  · intro run
    rcases stage?_advance last with ⟨target, at_, -⟩ | ⟨-, stages⟩
    · simp [at_, Position.target?] at nothing
    · exact (isLive_of_stage? (stages run)).trans (quiet run)
  · rcases target?_advance last with none | same
    · exact none
    · rw [same, nothing]

end Calls

section Others

/-- Steps that leave the handle alone, and bring no thread to life, keep its only thread known. -/
theorem Sole.of_isLive (sole : t.Sole) (fewer : ∀ run, t'.isLive run → t.isLive run)
    (same : t'.position = t.position ∧ t'.current = t.current ∧ t'.joinable = t.joinable) :
    t'.Sole := by
  intro run live
  rw [same.1, same.2.1, same.2.2]
  exact sole run (fewer run live)

/-- A target that goes on or ends leaves no more threads alive. -/
theorem isLive_of_modify_stage {stage : Option (Stage τ)} {target : τ}
    (executing : t.target? run = some target)
    (other : Nat) (live : (t.modify run fun c => { c with stage := stage }).isLive other) :
    t.isLive other := by
  rw [isLive, stage?_modify_stage stage executing] at live
  split at live
  · next here =>
    subst here
    exact isLive_of_target? executing
  · exact live

end Others

end PacketRelay.Task
