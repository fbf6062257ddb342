import PacketRelay.Proofs.Task.Coherent

/-!
# Where the threads of a task are

The steps of a task are seen here from the place of each thread: a step of the handle makes a thread
or leaves all of them where they are, and a thread that has not left its target is alive until its
target ends.

## Main definitions

* `Task.stage?`: where the thread of a run is
* `Stage.isLive`: whether it has not left its target

## Main results

* `stage?_advance`, `isLive_advanceThread`, `target?_advanceThread`: what a step does to the threads
-/

namespace PacketRelay.Task

variable {τ : Type} {fresh : τ → Prop} {t t' : Task τ} {run : Nat}

/-- Where the thread of a run is. -/
def stage? (t : Task τ) (run : Nat) : Option (Stage τ) :=
  t.contexts[run]?.bind (·.stage)

/-- Has the thread not left its target? -/
def Stage.isLive : Stage τ → Bool
  | .spawned | .holding | .up | .named | .executing _ => true
  | _ => false

/-- The target that the thread executes. -/
def Stage.target? : Stage τ → Option τ
  | .executing target => some target
  | _ => none

/-- Has a start made the thread of the new run? -/
def Position.hasSpawned : Position τ → Bool
  | .adopt _ | .returned true => true
  | _ => false

/-- Does a call wait for the thread, or has it returned? -/
def Position.isJoining : Position τ → Bool
  | .checkJoin .done | .joining _ .done | .returned _ => true
  | _ => false

/-- An attempt to release a context goes from place to place and comes back to none: what holds of a
place if it holds of all that may follow holds of every place. -/
theorem Release.induction (τ : Type) {P : Release → Prop}
    (back : ∀ r, (∀ (c : Context τ) r', (r.step c).2 = some r' → P r') → P r) (r : Release) : P r := by
  have dropTarget := back .dropTarget (by simp [step])
  have mark := back .mark fun c r' more => by
    simp only [step] at more
    split at more
    · simp at more
    · exact Option.some.inj more ▸ dropTarget
  have readThread := back .readThread fun c r' more => by
    simp only [step] at more
    split at more
    · simp at more
    · exact Option.some.inj more ▸ mark
  have readOwner := back .readOwner fun c r' more => by
    simp only [step] at more
    split at more
    · simp at more
    · exact Option.some.inj more ▸ readThread
  cases r with
  | readOwner => exact readOwner
  | readThread => exact readThread
  | mark => exact mark
  | dropTarget => exact dropTarget

theorem target?_eq_some_iff_stage? {target : τ} :
    t.target? run = some target ↔ t.stage? run = some (.executing target) := by
  rw [target?_eq_some, stage?, Option.bind_eq_some_iff]

theorem target?_eq_bind : t.target? run = (t.stage? run).bind Stage.target? := by
  cases found : t.target? run with
  | some target => rw [target?_eq_some_iff_stage?.mp found, Option.bind_some, Stage.target?]
  | none =>
    symm
    rw [Option.bind_eq_none_iff]
    intro stage at_
    cases stage with
    | executing target => simp [target?_eq_some_iff_stage?.mpr at_] at found
    | _ => rfl

theorem stage?_modify {f : Context τ → Context τ} (other : Nat) :
    (t.modify run f).stage? other =
      if run = other then t.contexts[other]?.bind fun c => (f c).stage else t.stage? other := by
  unfold stage?
  rw [getElem?_modify_contexts]
  split
  · rw [Option.bind_map]
    rfl
  · rfl

/-- A change of a context that does not concern its thread leaves every thread where it is. -/
theorem stage?_modify_of_eq {f : Context τ → Context τ}
    (same : ∀ c, t.contexts[run]? = some c → (f c).stage = c.stage) (other : Nat) :
    (t.modify run f).stage? other = t.stage? other := by
  rw [stage?_modify]
  split
  · next here =>
    subst here
    exact Option.bind_congr same
  · rfl

@[simp] theorem stage?_cancelRun (run other : Nat) :
    (t.cancelRun run).stage? other = t.stage? other := by
  refine stage?_modify_of_eq (fun c _ => ?_) other
  rfl

theorem stage?_modify_stage (stage : Option (Stage τ)) {target : τ}
    (executing : t.target? run = some target) (other : Nat) :
    (t.modify run fun c => { c with stage := stage }).stage? other =
      if run = other then stage else t.stage? other := by
  rw [stage?_modify]
  split
  · next here =>
    obtain ⟨c, found, -⟩ := target?_eq_some.mp executing
    rw [← here, found]
    rfl
  · rfl

/-- A step of the handle makes a thread or leaves every thread where it is. -/
theorem stage?_advance (last : t.advance = some t') :
    (∃ target, t.position = .spawn target ∧ t'.position = .adopt t.contexts.length ∧
      ∀ run, t'.stage? run =
        if run = t.contexts.length then some .spawned else t.stage? run) ∨
    (t'.position.hasSpawned = t.position.hasSpawned ∧ ∀ run, t'.stage? run = t.stage? run) := by
  cases access_of_advance last with
  | @spawn target at_ =>
    left
    refine ⟨target, at_, rfl, ?_⟩
    intro run
    split
    · next here => simp [stage?, here, Context.ofTarget]
    · next other =>
      simp only [stage?]
      rw [getElem?_snoc, if_neg other]
  | busy at_ | idle at_ | adopt at_ | dropHeld at_ | dropGone at_ | wait at_ =>
    rw [at_]
    exact .inr ⟨rfl, fun _ => rfl⟩
  | letGo at_ | cancel at_ =>
    rw [at_]
    exact .inr ⟨rfl, stage?_modify_of_eq fun _ _ => rfl⟩
  | release at_ =>
    rw [at_]
    refine .inr ⟨rfl, stage?_modify_of_eq fun c found => ?_⟩
    simp [context, found]
  | @released r next at_ =>
    have same : ∀ c, t.contexts[t.current]? = some c → (r.step t.context).1.stage = c.stage :=
      fun c found => by simp [context, found]
    rw [at_]
    cases next <;> exact .inr ⟨rfl, stage?_modify_of_eq same⟩
  | @pass next at_ | @joined run next at_ =>
    rw [at_]
    cases next <;> exact .inr ⟨rfl, fun _ => rfl⟩

/-- A step of the handle leaves every thread in its target, and none enters one. -/
theorem target?_run_advance (last : t.advance = some t') (run : Nat) :
    t'.target? run = t.target? run := by
  simp only [target?_eq_bind]
  rcases stage?_advance last with ⟨target, -, -, stages⟩ | ⟨-, stages⟩
  · rw [stages]
    split
    · next new => simp [new, stage?, Stage.target?]
    · rfl
  · rw [stages]

/-- A step of the handle brings no other target up. -/
theorem target?_advance (last : t.advance = some t') :
    t'.position.target? = none ∨ t'.position.target? = t.position.target? := by
  cases access_of_advance last with
  | idle at_ =>
    rw [at_]
    exact .inr rfl
  | @letGo next at_ | @release _ _ next at_ | @released _ next at_ =>
    rw [at_]
    cases next with
    | spawn target => exact .inr rfl
    | _ => exact .inl rfl
  | @pass next at_ | @joined run next at_ => cases next <;> exact .inl rfl
  | _ => exact .inl rfl

/-- A call that waits goes on to wait, or returns. -/
theorem isJoining_advance (joining : t.position.isJoining) (last : t.advance = some t') :
    t'.position.isJoining := by
  cases access_of_advance last with
  | @wait _ next at_ | @pass next at_ | @joined _ next at_ =>
    cases next with
    | done => rfl
    | letGo => simp [at_, Position.isJoining] at joining
  | _ at_ => simp [at_, Position.isJoining] at joining

/-- A thread that is alive stays alive until its target ends. -/
theorem Context.Access.isLive {c d : Context τ} (last : c.Access d) (coherent : c.Coherent fresh) :
    d.stage.any Stage.isLive = c.stage.any Stage.isLive := by
  cases last with
  | skip at_ missing =>
    obtain ⟨-, target, found, -⟩ := coherent.pending (by simp [at_, Stage.isPending])
    simp [missing] at found
  | @release r at_ => cases (r.step c).2 <;> simp [at_, Stage.isLive]
  | _ at_ => simp [at_, Stage.isLive]

/-- A thread enters its target with a fresh target, and its steps outside do not change the target. -/
theorem Context.Access.target? {c d : Context τ} (last : c.Access d) (coherent : c.Coherent fresh) :
    d.stage.bind Stage.target? = c.stage.bind Stage.target? ∨
      c.stage.bind Stage.target? = none ∧
        ∃ target, d.stage.bind Stage.target? = some target ∧ fresh target := by
  cases last with
  | @enter target at_ found =>
    obtain ⟨-, other, same, isFresh⟩ := coherent.pending (by simp [at_, Stage.isPending])
    obtain rfl := Option.some.inj (found.symm.trans same)
    exact .inr ⟨by simp [at_, Stage.target?], target, rfl, isFresh⟩
  | @release r at_ =>
    left
    cases (r.step c).2 <;> simp [at_, Stage.target?]
  | _ at_ => simp [at_, Stage.target?]

/-- A step of a thread outside its target leaves alive what is alive. -/
theorem isLive_advanceThread (coherent : t.Coherent fresh) (last : t.advanceThread run = some t')
    (other : Nat) : (t'.stage? other).any Stage.isLive = (t.stage? other).any Stage.isLive := by
  obtain ⟨c, d, found, step, rfl⟩ := exists_access_of_advanceThread last
  rw [stage?_modify]
  split
  · next here =>
    subst here
    simpa [stage?, found] using step.isLive (coherent.contexts run c found)
  · rfl

/-- A step of a thread outside its target leaves the targets alone, but for a fresh one. -/
theorem target?_advanceThread (coherent : t.Coherent fresh) (last : t.advanceThread run = some t')
    (other : Nat) : t'.target? other = t.target? other ∨
      t.target? other = none ∧ ∃ target, t'.target? other = some target ∧ fresh target := by
  obtain ⟨c, d, found, step, rfl⟩ := exists_access_of_advanceThread last
  simp only [target?_eq_bind]
  rw [stage?_modify]
  split
  · next here =>
    subst here
    simpa [stage?, found] using step.target? (coherent.contexts run c found)
  · exact .inl rfl

/-- What is told of a target by a step of a thread outside it, if nothing is told of a fresh one. -/
theorem bind_target?_advanceThread {α : Type} {tells : τ → Option α} (coherent : t.Coherent fresh)
    (last : t.advanceThread run = some t') (quiet : ∀ target, fresh target → tells target = none)
    (other : Nat) : (t'.target? other).bind tells = (t.target? other).bind tells := by
  rcases target?_advanceThread coherent last other with same | ⟨before, target, after, new⟩
  · rw [same]
  · rw [before, after]
    exact quiet target new

end PacketRelay.Task
