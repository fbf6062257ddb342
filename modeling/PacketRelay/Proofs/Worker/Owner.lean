import PacketRelay.Proofs.Task.Sole
import PacketRelay.Worker

/-!
# The owner of a worker and its task

The owner of a worker uses the handle of its task for one call after the other, so that what holds
of a handle holds of the worker: at most one drain thread is alive, and when the owner clears the
queue for the second time there is none. A worker that has been stopped has no drain thread until it
is started again.

## Main definitions

* `Worker.OwnerMove`: what an access of the owner does
* `Ownership.Fits`: the place of the owner and the call on the task belong together
* `Worker.Sound`: the owner knows the only drain thread
* `Worker.IsRetired`: there is no drain thread, and none is to come

## Main results

* `ownerMove_of_ownerStep`: an access of the owner is one of these
* `Sound.step`: the steps of a worker keep it sound
* `IsRetired.step`: a retired worker stays retired and leaves its subscriber alone
-/

namespace PacketRelay

/-- The place of the owner and the call on the task belong together. -/
def Ownership.Fits {η : Type} (t : Task (Drain η)) : Ownership η → Prop
  | .free _ | .checkActive _ | .cancel _ | .terminate _ | .clear _ => t.isFree
  | .joining _ => t.position.isJoining ∧ (t.isFree → t.IsQuiet)
  | .clearAgain _ => t.isFree ∧ t.IsQuiet
  | .starting | .dropping => True

namespace Worker

variable {ω η ι : Type}

/-- What an access of the owner does. -/
inductive OwnerMove [DecidableEq ι] (w : Worker ω η) (s : Subscriber ι) :
    Worker ω η → Subscriber ι → Prop
  -- A start finds the subscriber terminated, and returns.
  | refuse {handler : η} (at_ : w.owner = .checkActive handler) (terminated : s.isTerminated) :
      OwnerMove w s (w.goTo (.free false)) s
  -- A start begins the call on the task.
  | launch {handler : η} (at_ : w.owner = .checkActive handler) :
      OwnerMove w s ((w.beginTask (.start { handler := handler })).goTo .starting) s
  -- A start returns, as the task has answered.
  | launched (at_ : w.owner = .starting) (free : w.task.isFree) :
      OwnerMove w s (w.goTo (.free w.hasStartedTask)) s
  -- A stop cancels the run.
  | cancel {next : AfterStop} (at_ : w.owner = .cancel next) :
      OwnerMove w s ({ w with task := w.task.cancel }.goTo (.terminate next)) s
  -- A stop terminates the subscriber.
  | terminate {next : AfterStop} (at_ : w.owner = .terminate next) :
      OwnerMove w s (w.goTo (.clear next)) (s.act .terminate)
  -- A stop clears the queue, and begins to wait for the thread.
  | clear {next : AfterStop} (at_ : w.owner = .clear next) :
      OwnerMove w s ((w.beginTask .join).goTo (.joining next)) (s.act .clear)
  -- A stop has waited for the thread.
  | joined {next : AfterStop} (at_ : w.owner = .joining next) (free : w.task.isFree) :
      OwnerMove w s (w.goTo (.clearAgain next)) s
  -- A stop clears the queue again.
  | clearAgain {next : AfterStop} (at_ : w.owner = .clearAgain next) :
      OwnerMove w s (w.afterStop next) (s.act .clear)
  -- The task has been dropped.
  | dropped (at_ : w.owner = .dropping) (free : w.task.isFree) :
      OwnerMove w s ({ w with gone := true }.goTo (.free false)) s
  -- The owner waits for a call on the task, which goes on.
  | advance {t : Task (Drain η)}
      (at_ : w.owner = .starting ∨ (∃ next, w.owner = .joining next) ∨ w.owner = .dropping)
      (last : w.task.advance = some t) : OwnerMove w s { w with task := t } s

/-- The owner knows the only drain thread. -/
structure Sound (w : Worker ω η) : Prop where
  coherent : w.task.Coherent fun _ => True
  outside : w.task.caller = .outside
  sole : w.task.Sole
  owner : w.owner.Fits w.task

/-- There is no drain thread, and none is to come. -/
structure IsRetired (w : Worker ω η) : Prop where
  coherent : w.task.Coherent fun _ => True
  quiet : w.task.IsQuiet
  nothing : w.task.position.target? = none
  owner : (∃ b, w.owner = .free b) ∨ w.owner = .dropping

section Steps

variable [DecidableEq ι] {h : Handler ω η} {w w' : Worker ω η} {s s' : Subscriber ι}

/-- The owner waits for a call on the task, or goes on behind it. -/
theorem ownerMove_of_taskStep {atEnd : Worker ω η}
    (waits : w.owner = .starting ∨ (∃ next, w.owner = .joining next) ∨ w.owner = .dropping)
    (ended : w.task.isFree → OwnerMove w s atEnd s)
    (last : (w.taskStep atEnd).map (·, s) = some (w', s')) : OwnerMove w s w' s' := by
  obtain ⟨v, step, same⟩ := Option.map_eq_some_iff.mp last
  obtain ⟨rfl, rfl⟩ := Prod.mk.inj same
  unfold taskStep at step
  split at step
  · next free => exact Option.some.inj step ▸ ended free
  · obtain ⟨t, advanced, rfl⟩ := Option.map_eq_some_iff.mp step
    exact .advance waits advanced

/-- An access of the owner is one of these. -/
theorem ownerMove_of_ownerStep (last : w.ownerStep s = some (w', s')) : OwnerMove w s w' s' := by
  cases at_ : w.owner with
  | free started => simp [ownerStep, at_] at last
  | checkActive handler =>
    simp only [ownerStep, at_] at last
    obtain ⟨rfl, rfl⟩ := Prod.mk.inj (Option.some.inj last)
    split
    · next terminated => exact .refuse at_ terminated
    · exact .launch at_
  | starting =>
    simp only [ownerStep, at_] at last
    exact ownerMove_of_taskStep (.inl at_) (.launched at_) last
  | cancel next =>
    simp only [ownerStep, at_] at last
    obtain ⟨rfl, rfl⟩ := Prod.mk.inj (Option.some.inj last)
    exact .cancel at_
  | terminate next =>
    simp only [ownerStep, at_] at last
    obtain ⟨rfl, rfl⟩ := Prod.mk.inj (Option.some.inj last)
    exact .terminate at_
  | clear next =>
    simp only [ownerStep, at_] at last
    obtain ⟨rfl, rfl⟩ := Prod.mk.inj (Option.some.inj last)
    exact .clear at_
  | joining next =>
    simp only [ownerStep, at_] at last
    exact ownerMove_of_taskStep (.inr (.inl ⟨next, at_⟩)) (.joined at_) last
  | clearAgain next =>
    simp only [ownerStep, at_] at last
    obtain ⟨rfl, rfl⟩ := Prod.mk.inj (Option.some.inj last)
    exact .clearAgain at_
  | dropping =>
    simp only [ownerStep, at_] at last
    exact ownerMove_of_taskStep (.inr (.inr at_)) (.dropped at_) last

theorem sound_ofSettings {subscriber : Nat} {settings : DrainSettings} {world : ω} :
    (ofSettings subscriber settings world : Worker ω η).Sound where
  coherent := Task.coherent_ofName _
  outside := rfl
  sole := by
    apply Task.Sole.of_isQuiet
    intro run
    cases run <;> rfl
  owner := rfl

/-- A drain loop goes on in its target or leaves it. -/
theorem exists_of_drainStep {run pick : Nat} (last : w.drainStep h s run pick = some (w', s')) :
    w'.owner = w.owner ∧ (∃ d, w.task.target? run = some d) ∧
      ((∃ d, w'.task = w.task.setTarget run d) ∨ w'.task = w.task.leave run) ∧
      (s' = s ∨ s' = s.act (.dequeue pick)) := by
  simp only [drainStep, Option.bind_eq_bind, Option.bind_eq_some_iff] at last
  obtain ⟨⟨handler, at_⟩, executing, last⟩ := last
  cases at_ with
  | conclude p =>
    simp only [Option.bind_eq_some_iff] at last
    obtain ⟨⟨world, handler, verdict⟩, -, same⟩ := last
    obtain ⟨rfl, rfl⟩ := Prod.mk.inj (Option.some.inj same)
    cases verdict with
    | panicked => exact ⟨rfl, ⟨_, executing⟩, .inr rfl, .inl rfl⟩
    | _ => exact ⟨rfl, ⟨_, executing⟩, .inl ⟨_, rfl⟩, .inl rfl⟩
  | take =>
    obtain ⟨rfl, rfl⟩ := Prod.mk.inj (Option.some.inj last)
    exact ⟨rfl, ⟨_, executing⟩, .inl ⟨_, rfl⟩, .inr rfl⟩
  | pause =>
    dsimp only at last
    split at last <;> obtain ⟨rfl, rfl⟩ := Prod.mk.inj (Option.some.inj last)
    · exact ⟨rfl, ⟨_, executing⟩, .inl ⟨_, rfl⟩, .inl rfl⟩
    · exact ⟨rfl, ⟨_, executing⟩, .inr rfl, .inl rfl⟩
  | finish =>
    obtain ⟨rfl, rfl⟩ := Prod.mk.inj (Option.some.inj last)
    exact ⟨rfl, ⟨_, executing⟩, .inr rfl, .inl rfl⟩
  | _ =>
    obtain ⟨rfl, rfl⟩ := Prod.mk.inj (Option.some.inj last)
    exact ⟨rfl, ⟨_, executing⟩, .inl ⟨_, rfl⟩, .inl rfl⟩

/-- Steps of the drain threads leave the owner where it is. -/
theorem Sound.of_isLive (sound : w.Sound) (owner : w'.owner = w.owner)
    (coherent : w'.task.Coherent fun _ => True)
    (fewer : ∀ run, w'.task.isLive run → w.task.isLive run)
    (same : w'.task.position = w.task.position ∧ w'.task.current = w.task.current ∧
      w'.task.joinable = w.task.joinable) (caller : w'.task.caller = w.task.caller) : w'.Sound where
  coherent := coherent
  outside := caller.trans sound.outside
  sole := sound.sole.of_isLive fewer same
  owner := by
    have fits := sound.owner
    have free : w'.task.isFree = w.task.isFree := by rw [Task.isFree, Task.isFree, same.1]
    have quiet : w.task.IsQuiet → w'.task.IsQuiet := by
      intro quiet run
      by_contra live
      simpa [quiet run] using fewer run (by simpa using live)
    rw [owner]
    cases at_ : w.owner with
    | joining next =>
      rw [at_] at fits
      exact ⟨same.1 ▸ fits.1, fun returned => quiet (fits.2 (free ▸ returned))⟩
    | clearAgain next =>
      rw [at_] at fits
      exact ⟨free ▸ fits.1, quiet fits.2⟩
    | starting | dropping => trivial
    | _ =>
      rw [at_] at fits
      exact free.trans fits

/-- The call on the task makes an access while the owner waits for it. -/
theorem Sound.advance (sound : w.Sound) {t : Task (Drain η)} (last : w.task.advance = some t)
    (owner : w.owner.Fits t) : ({ w with task := t } : Worker ω η).Sound where
  coherent := sound.coherent.advance last
  outside := (Task.caller_advance last).trans sound.outside
  sole := sound.sole.advance sound.coherent sound.outside last
  owner := owner

/-- The owner goes on at another place. -/
theorem Sound.goTo (sound : w.Sound) {owner : Ownership η} (fits : owner.Fits w.task) :
    (w.goTo owner).Sound :=
  ⟨sound.coherent, sound.outside, sound.sole, fits⟩

/-- The owner begins a call on the task. -/
theorem Sound.beginTask (sound : w.Sound) (free : w.task.isFree) {call : Task.Call (Drain η)}
    {owner : Ownership η} (keeps : call.entry.isHolding)
    (fits : owner.Fits (w.task.begin .outside call)) : ((w.beginTask call).goTo owner).Sound where
  coherent := sound.coherent.begin fun _ _ => trivial
  outside := rfl
  sole := sound.sole.begin free keeps
  owner := fits

/-- The owner makes an access. -/
theorem Sound.ownerStep (sound : w.Sound) (last : w.ownerStep s = some (w', s')) : w'.Sound := by
  have fits := sound.owner
  cases ownerMove_of_ownerStep last with
  | refuse at_ =>
    rw [at_] at fits
    exact sound.goTo fits
  | launch at_ =>
    rw [at_] at fits
    exact sound.beginTask fits rfl trivial
  | launched at_ free => exact sound.goTo free
  | cancel at_ =>
    rw [at_] at fits
    exact ⟨sound.coherent.cancelRun _, sound.outside,
      sound.sole.of_isLive (fun run live => by
        rwa [← Task.isLive_of_stage? (Task.stage?_cancelRun w.task.current run)])
        ⟨rfl, rfl, rfl⟩, fits⟩
  | terminate at_ =>
    rw [at_] at fits
    exact sound.goTo fits
  | clear at_ =>
    rw [at_] at fits
    exact sound.beginTask fits rfl
      ⟨rfl, fun free => by simp [Task.isFree, Task.begin, Task.Call.entry] at free⟩
  | joined at_ free =>
    rw [at_] at fits
    exact sound.goTo ⟨free, fits.2 free⟩
  | @clearAgain next at_ =>
    rw [at_] at fits
    cases next with
    | done => exact sound.goTo fits.1
    | drop => exact sound.beginTask fits.1 rfl trivial
  | dropped at_ free => exact ⟨sound.coherent, sound.outside, sound.sole, free⟩
  | advance at_ advanced =>
    refine sound.advance advanced ?_
    rcases at_ with at_ | ⟨next, at_⟩ | at_ <;> rw [at_] at fits ⊢
    · trivial
    · exact ⟨Task.isJoining_advance fits.1 advanced,
        sound.sole.isQuiet_of_joined sound.coherent sound.outside fits.1 advanced⟩
    · trivial

/-- **The steps of a worker keep it sound.** -/
theorem Sound.step {l : Label η} (sound : w.Sound) (last : w.step h s l = some (w', s')) :
    w'.Sound := by
  cases l with
  | begin call =>
    simp only [Worker.step] at last
    split at last
    · next accepted =>
      obtain ⟨rfl, rfl⟩ := Prod.mk.inj (Option.some.inj last)
      have fits := sound.owner
      obtain ⟨b, at_⟩ : ∃ b, w.owner = .free b := by
        have free : w.isFree := by
          simp only [accepts, Bool.and_eq_true] at accepted
          exact accepted.2
        unfold isFree at free
        split at free
        · next b at_ => exact ⟨b, at_⟩
        · simp at free
      rw [at_] at fits
      cases call <;> exact sound.goTo fits
    · simp at last
  | owner => exact sound.ownerStep last
  | thread run =>
    obtain ⟨t, step, same⟩ := Option.map_eq_some_iff.mp last
    obtain ⟨rfl, rfl⟩ := Prod.mk.inj same
    have still : t.position = w.task.position ∧ t.current = w.task.current ∧
        t.joinable = w.task.joinable ∧ t.caller = w.task.caller := by
      obtain ⟨_, _, -, -, rfl⟩ := Task.exists_access_of_advanceThread step
      exact ⟨rfl, rfl, rfl, rfl⟩
    refine sound.of_isLive ?_ (sound.coherent.advanceThread step) ?_
      ⟨still.1, still.2.1, still.2.2.1⟩ still.2.2.2
    · rfl
    · exact fun run live => (Task.isLive_advanceThread sound.coherent step run).symm.trans live
  | drain run pick =>
    obtain ⟨owner, ⟨d, executing⟩, task, -⟩ := exists_of_drainStep last
    rcases task with ⟨d', same⟩ | same
    · refine sound.of_isLive owner ?_ ?_ ?_ ?_ <;> rw [same]
      · exact sound.coherent.setTarget executing
      · exact fun other => Task.isLive_of_modify_stage executing other
      · exact ⟨rfl, rfl, rfl⟩
      · rfl
    · refine sound.of_isLive owner ?_ ?_ ?_ ?_ <;> rw [same]
      · exact sound.coherent.leave executing
      · exact fun other => Task.isLive_of_modify_stage executing other
      · exact ⟨rfl, rfl, rfl⟩
      · rfl

/-- With the second clearing of the queue a worker has retired. -/
theorem Sound.isRetired {next : AfterStop} (sound : w.Sound) (at_ : w.owner = .clearAgain next)
    (last : w.ownerStep s = some (w', s')) : w'.IsRetired ∧ s' = s.act .clear := by
  have fits := sound.owner
  rw [at_] at fits
  simp only [Worker.ownerStep, at_, Option.some.injEq, Prod.mk.injEq] at last
  obtain ⟨rfl, rfl⟩ := last
  refine ⟨?_, rfl⟩
  cases next with
  | done =>
    refine ⟨sound.coherent, fits.2, ?_, .inl ⟨false, rfl⟩⟩
    have free := fits.1
    unfold Task.isFree at free
    split at free
    · next position => simp [afterStop, Worker.goTo, position, Task.Position.target?]
    · simp at free
  | drop => exact ⟨sound.coherent.begin fun _ _ => trivial, fits.2, rfl, .inr rfl⟩

/-- **A retired worker stays retired until it is called again, and leaves its subscriber alone.** -/
theorem IsRetired.step {l : Label η} (retired : w.IsRetired) (other : ∀ call, l ≠ .begin call)
    (last : w.step h s l = some (w', s')) : w'.IsRetired ∧ s' = s := by
  cases l with
  | begin call => exact absurd rfl (other call)
  | owner =>
    simp only [Worker.step] at last
    rcases retired.owner with ⟨b, free⟩ | dropping
    · simp [Worker.ownerStep, free] at last
    · cases ownerMove_of_ownerStep last with
      | dropped => exact ⟨⟨retired.coherent, retired.quiet, retired.nothing, .inl ⟨false, rfl⟩⟩, rfl⟩
      | advance at_ advanced =>
        obtain ⟨quiet, nothing⟩ := retired.quiet.advance retired.nothing advanced
        exact ⟨⟨retired.coherent.advance advanced, quiet, nothing, .inr dropping⟩, rfl⟩
      | _ at_ => simp [dropping] at at_
  | thread run =>
    obtain ⟨t, step, same⟩ := Option.map_eq_some_iff.mp last
    obtain ⟨rfl, rfl⟩ := Prod.mk.inj same
    have still : t.position = w.task.position := by
      obtain ⟨_, _, -, -, rfl⟩ := Task.exists_access_of_advanceThread step
      rfl
    refine ⟨⟨retired.coherent.advanceThread step, ?_, ?_, retired.owner⟩, rfl⟩
    · intro other
      exact (Task.isLive_advanceThread retired.coherent step other).trans (retired.quiet other)
    · exact (congrArg Task.Position.target? still).trans retired.nothing
  | drain run pick =>
    obtain ⟨-, ⟨d, executing⟩, -⟩ := exists_of_drainStep last
    simp [retired.quiet.target?_eq_none run] at executing

end Steps

end Worker

end PacketRelay
