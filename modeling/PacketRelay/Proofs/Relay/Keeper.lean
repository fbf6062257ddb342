import PacketRelay.Proofs.Relay.Control
import PacketRelay.Proofs.Task.Threads

/-!
# Who keeps the run reserved

The mark that a run is reserved is set by a start and taken back by that start, if it fails, or by
the read loop, as its last act. In between exactly one of them has it to take back: the start until
it has made the thread, and the read thread from then on. If the read loop panics nobody has.

The same party answers for the mark that the read loop is on, which is up while the keeper is a read
thread in its loop, and which nobody takes down after a panic.

## Main definitions

* `Control.Sound`: the calls that act on the task exclude each other
* `Keeper`: who has the mark to take back
* `Control.KeptBy`: the marks of a publisher, told by the keeper

## Main results

* `Control.Sound.move`, `Control.KeptBy.move`: the moves keep both, and only a panic loses the keeper
-/

namespace PacketRelay

/-- Who has the mark to take back that a run is reserved. -/
inductive Keeper
  | nobody
  | call (n : Nat)
  | run (k : Nat)
  | lost
deriving DecidableEq

/-- Is the read loop on, as the keeper tells? -/
def Keeper.isOn (t : Task Reader) : Keeper → Bool
  | .nobody | .call _ => false
  | .run k => (t.target? k).any fun reader => reader.at_.isLooping
  | .lost => true

/-- Does a call hold the task? -/
def Role.holds : Role → Bool
  | .start _ .lock | .join .lock | .drop _ => false
  | _ => true

theorem holds_start {source : Nat} {at_ : Starting} (past : at_ ≠ .lock) :
    (Role.start source at_).holds := by
  cases at_ with
  | lock => exact absurd rfl past
  | _ => rfl

/-- Does a start have the mark to take back that a run is reserved? -/
def Role.claims (position : Task.Position Reader) : Role → Bool
  | .start _ .launching => !position.hasSpawned
  | .start _ .joining | .start _ .refuseThread => true
  | .start _ at_ => at_.isPreparing
  | _ => false

/-- The call on the task belongs to the call that acts on it: a start brings up the target of its own
source, and no other call brings up any. -/
def Role.Fits (position : Task.Position Reader) : Role → Prop
  | .start source .launching =>
    ∀ target, position.target? = some target → target = { source := source }
  | .start _ .joining | .join .joining => position.isJoining
  | .drop .dropTask => position.target? = none
  | _ => True

namespace Control

/-- The calls that act on the task exclude each other, and what is on its way to the task is the
fresh target of the start in progress. -/
structure Sound (c : Control) : Prop where
  coherent : c.task.Coherent fun reader => reader.at_ = .readVideo
  holder : ∀ n, c.holder = some n ↔ (c.role n).any Role.holds
  dropping : c.dropped = false → ∀ n at_, c.role n ≠ some (.drop at_)
  alone : c.dropped = true → ∀ n m, (c.role n).isSome → (c.role m).isSome → n = m
  fits : ∀ n role, c.role n = some role → role.Fits c.task.position

variable {c d : Control} {n m : Nat}

theorem role_setRole {role : Option Role} (m : Nat) :
    (c.setRole n role).role m = if m = n then role else c.role m := by
  by_cases same : m = n <;> simp [setRole, same]

theorem holds_or_drop_of_isOnTask {role : Role} (onTask : role.isOnTask) :
    role.holds ∨ ∃ at_, role = .drop at_ := by
  unfold Role.isOnTask at onTask
  split at onTask <;> simp_all [Role.holds]

/-- While a call gives up the publisher there is no other one. -/
theorem Sound.drop_alone (sound : c.Sound) {at_ : Dropping} (hn : c.role n = some (.drop at_))
    (hm : (c.role m).isSome) : m = n := by
  by_cases dropped : c.dropped = true
  · exact sound.alone dropped m n hm (by simp [hn])
  · exact absurd hn (sound.dropping (by simpa using dropped) n at_)

/-- While a call holds the task, or gives up the publisher, no other call acts on the task. -/
theorem Sound.exclusive (sound : c.Sound) {a b : Role} (hn : c.role n = some a)
    (hm : c.role m = some b) (ha : a.holds ∨ ∃ at_, a = .drop at_) (hb : b.isOnTask) : m = n := by
  rcases ha with holds | ⟨at_, rfl⟩
  · rcases holds_or_drop_of_isOnTask hb with holds' | ⟨at_, rfl⟩
    · have first := (sound.holder n).mpr (by simp [hn, holds])
      have second := (sound.holder m).mpr (by simp [hm, holds'])
      exact Option.some.inj (second.symm.trans first)
    · exact (sound.drop_alone hm (by simp [hn])).symm
  · exact sound.drop_alone hn (by simp [hm])

/-- While a call holds the task, or gives up the publisher, the others are off it. -/
theorem Sound.off_of_held (sound : c.Sound) {a b : Role} (hn : c.role n = some a)
    (ha : a.holds ∨ ∃ at_, a = .drop at_) (other : m ≠ n) (hm : c.role m = some b) :
    b.isOnTask = false := by
  by_contra onTask
  exact other (sound.exclusive hn hm ha (by simpa using onTask))

/-- While the task is free no call acts on it, but one that is alone in giving up the publisher. -/
theorem Sound.off_of_free (sound : c.Sound) (free : c.holder = none) (there : (c.role n).isSome)
    {a : Role} (other : m ≠ n) (here : c.role m = some a) : a.isOnTask = false := by
  by_contra onTask
  rcases holds_or_drop_of_isOnTask (by simpa using onTask) with holds | ⟨place, rfl⟩
  · have held := (sound.holder m).mpr (by simp [here, holds])
    simp [free] at held
  · exact other (sound.drop_alone here there).symm

theorem fits_of_isOnTask_eq_false {role : Role} {position : Task.Position Reader}
    (off : role.isOnTask = false) : role.Fits position := by
  unfold Role.Fits
  split <;> simp_all [Role.isOnTask]

section Holder

variable {role : Option Role}

theorem Sound.holder_keep (sound : c.Sound) (same : role.any Role.holds = (c.role n).any Role.holds)
    (m : Nat) : c.holder = some m ↔ ((c.setRole n role).role m).any Role.holds := by
  rw [role_setRole]
  split
  · next here =>
    rw [here, same]
    exact sound.holder n
  · exact sound.holder m

theorem Sound.holder_lock (sound : c.Sound) (free : c.holder = none)
    (holds : role.any Role.holds) (m : Nat) :
    some n = some m ↔ ((c.setRole n role).role m).any Role.holds := by
  rw [role_setRole]
  split
  · next here => simp [here, holds]
  · next other =>
    have off := (sound.holder m).not.mp (by simp [free])
    simp [off, Ne.symm other]

theorem Sound.holder_unlock (sound : c.Sound) (held : (c.role n).any Role.holds)
    (off : role.any Role.holds = false) (m : Nat) :
    none = some m ↔ ((c.setRole n role).role m).any Role.holds := by
  have holder := (sound.holder n).mpr held
  rw [role_setRole]
  split
  · next here => simp [off]
  · next other =>
    have others := (sound.holder m).not.mp (by simp [holder, Ne.symm other])
    simp [others]

end Holder

/-- One call goes on, and the task and its lock with it. The other calls fit the task as before: it
is where it was, or none of them acts on it. -/
theorem Sound.of_setRole (sound : c.Sound) {role : Option Role}
    (same : d.role = (c.setRole n role).role ∧ d.dropped = c.dropped)
    (coherent : d.task.Coherent fun reader => reader.at_ = .readVideo)
    (holder : ∀ m, d.holder = some m ↔ ((c.setRole n role).role m).any Role.holds)
    (present : c.dropped = true → role.isSome → (c.role n).isSome)
    (drops : c.dropped = false → ∀ at_, role ≠ some (.drop at_))
    (fits : ∀ a, role = some a → a.Fits d.task.position)
    (others : d.task.position = c.task.position ∨
      ∀ m a, m ≠ n → c.role m = some a → a.isOnTask = false) : d.Sound where
  coherent := coherent
  holder m := by
    rw [same.1]
    exact holder m
  dropping there m at_ := by
    rw [same.2] at there
    rw [same.1, role_setRole]
    split
    · exact drops there at_
    · exact sound.dropping there m at_
  alone gone m k := by
    rw [same.2] at gone
    have unique := sound.alone gone
    have present := present gone
    rw [same.1, role_setRole, role_setRole]
    split <;> split <;> grind
  fits m a := by
    rw [same.1, role_setRole]
    split
    · exact fits a
    · next other =>
      intro here
      rcases others with position | off
      · rw [position]
        exact sound.fits m a here
      · exact fits_of_isOnTask_eq_false (off m a other here)

/-- A call goes on off the task, which nobody touches. -/
theorem Sound.of_goOn (sound : c.Sound) {a b : Role} (at_ : c.role n = some a)
    (same : d.role = (c.setRole n (some b)).role ∧ d.dropped = c.dropped)
    (rest : d.task = c.task ∧ d.holder = c.holder) (holds : b.holds = a.holds)
    (off : b.isOnTask = false) (drops : ∀ x, b = .drop x → ∃ y, a = .drop y) : d.Sound := by
  refine sound.of_setRole same (rest.1 ▸ sound.coherent) ?_ (by simp [at_]) ?_ ?_
    (.inl (congrArg _ rest.1))
  · rw [rest.2]
    exact sound.holder_keep (by simp [at_, holds])
  · intro there x here
    obtain ⟨y, rfl⟩ := drops x (Option.some.inj here)
    exact sound.dropping there n y at_
  · intro x here
    exact Option.some.inj here ▸ fits_of_isOnTask_eq_false off

/-- A call that holds the task returns. -/
theorem Sound.of_return (sound : c.Sound) (held : (c.role n).any Role.holds)
    (same : d.role = (c.setRole n none).role ∧ d.dropped = c.dropped)
    (rest : d.task = c.task ∧ d.holder = none) : d.Sound := by
  refine sound.of_setRole same (rest.1 ▸ sound.coherent) ?_ (by simp) (by simp) (by simp)
    (.inl (congrArg _ rest.1))
  rw [rest.2]
  exact sound.holder_unlock held rfl

/-- The task goes on without its calls. -/
theorem Sound.of_task (sound : c.Sound)
    (same : d.role = c.role ∧ d.holder = c.holder ∧ d.dropped = c.dropped)
    (coherent : d.task.Coherent fun reader => reader.at_ = .readVideo)
    (fits : ∀ n role, c.role n = some role → role.Fits d.task.position) : d.Sound where
  coherent := coherent
  holder := by
    rw [same.1, same.2.1]
    exact sound.holder
  dropping := by
    rw [same.1, same.2.2]
    exact sound.dropping
  alone := by
    rw [same.1, same.2.2]
    exact sound.alone
  fits := by
    rw [same.1]
    exact fits

theorem Fits.advance {a : Role} {t t' : Task Reader} (fits : a.Fits t.position)
    (last : t.advance = some t') : a.Fits t'.position := by
  have less := Task.target?_advance last
  unfold Role.Fits at *
  split
  · rcases less with gone | same
    · simp [gone]
    · simpa only [same] using fits
  · exact Task.isJoining_advance fits last
  · exact Task.isJoining_advance fits last
  · rcases less with gone | same
    · exact gone
    · exact same.trans fits
  · trivial

theorem position_advanceThread {t t' : Task Reader} {run : Nat}
    (last : t.advanceThread run = some t') : t'.position = t.position := by
  obtain ⟨_, _, -, -, rfl⟩ := Task.exists_access_of_advanceThread last
  rfl

/-- The moves keep the task coherent, whatever else is asked of a target: a start at the point of
starting the task has to see to it. -/
theorem Move.coherent {e : Option Nat} {fresh : Reader → Prop} (move : Move e c d)
    (coherent : c.task.Coherent fresh)
    (launch : ∀ n source, c.role n = some (.start source .clearStop) → fresh { source := source }) :
    d.task.Coherent fresh := by
  cases move with
  | reserve | lockJoin => exact coherent.begin (by simp)
  | @launch _ n source at_ => exact coherent.begin (by simpa using launch n source at_)
  | dropTask token at_ =>
    have cancelled : (token.elim c.task c.task.cancelRun).Coherent fresh := by
      cases token with
      | none => exact coherent
      | some run => exact coherent.cancelRun run
    exact cancelled.begin (by simp)
  | advance at_ onTask last => exact coherent.advance last
  | cancel run => exact coherent.cancelRun run
  | thread last => exact coherent.advanceThread last
  | enter executing | raise executing | loop executing | lower executing =>
    exact coherent.setTarget executing
  | finish executing | panic executing => exact coherent.leave executing
  | _ => exact coherent

/-- **The moves keep the calls apart.** -/
theorem Sound.move {e : Option Nat} (sound : c.Sound) (move : Move e c d) : d.Sound := by
  have coherent := move.coherent sound.coherent fun _ _ _ => rfl
  cases move with
  | begin role fresh there entry =>
    have plain : role.holds = false ∧ role.isOnTask = false ∧ ∀ at_, role ≠ .drop at_ := by
      rcases entry with rfl | ⟨source, rfl⟩ <;> simp [Role.holds, Role.isOnTask]
    refine sound.of_setRole ⟨rfl, rfl⟩ coherent
      (sound.holder_keep (by simp [fresh, plain.1])) (?_)
      (by simpa using fun _ => plain.2.2) (?_) (.inl rfl)
    · intro gone
      simp [there] at gone
    · intro a same
      exact Option.some.inj same ▸ fits_of_isOnTask_eq_false plain.2.1
  | @beginDrop _ n alone =>
    have only : ∀ m, (c.setRole n (some (.drop (.stop .raiseStop)))).role m =
        if m = n then some (.drop (.stop .raiseStop)) else none := fun m => by
      rw [role_setRole, alone m]
    refine ⟨coherent, ?_, by simp, ?_, ?_⟩
    · intro m
      exact sound.holder_keep (by simp [alone n, Role.holds]) m
    · intro _ m k hm hk
      have at_m : m = n := by
        by_contra other
        simp [only m, other] at hm
      have at_k : k = n := by
        by_contra other
        simp [only k, other] at hk
      rw [at_m, at_k]
    · intro m a here
      change (c.setRole n _).role m = some a at here
      rw [only m] at here
      split at here
      · exact Option.some.inj here ▸ fits_of_isOnTask_eq_false rfl
      · simp at here
  | lock at_ free =>
    refine sound.of_setRole ⟨rfl, rfl⟩ coherent (sound.holder_lock free rfl) (by simp [at_])
      (by simp) (?_) (.inl rfl)
    intro a same
    exact Option.some.inj same ▸ fits_of_isOnTask_eq_false rfl
  | pass at_ | share at_ | endJoin at_ =>
    exact sound.of_return (by simp [at_, Role.holds]) ⟨rfl, rfl⟩ ⟨rfl, rfl⟩
  | reserve at_ idle =>
    refine sound.of_setRole ⟨rfl, rfl⟩ coherent
      (sound.holder_keep (by simp [at_, Role.holds])) (by simp [at_]) (by simp) (?_)
      (.inr fun m a other here => sound.off_of_held at_ (.inl rfl) other here)
    intro a same
    exact Option.some.inj same ▸ rfl
  | joined at_ free => exact sound.of_goOn at_ ⟨rfl, rfl⟩ ⟨rfl, rfl⟩ rfl rfl (by simp)
  | @prepare _ n source a b at_ before after =>
    have plain : ∀ x : Starting, x.isPreparing →
        (Role.start source x).holds ∧ (Role.start source x).isOnTask = false := fun x preparing => by
      cases x <;> simp_all [Starting.isPreparing, Role.holds, Role.isOnTask]
    exact sound.of_goOn at_ ⟨rfl, rfl⟩ ⟨rfl, rfl⟩ ((plain b after).1.trans (plain a before).1.symm)
      (plain b after).2 (by simp)
  | @refuse _ n source a at_ refuses =>
    have holds : (Role.start source a).holds = true := by
      rcases refuses with rfl | ⟨e, rfl⟩ <;> rfl
    exact sound.of_return (by simp [at_, holds]) ⟨rfl, rfl⟩ ⟨rfl, rfl⟩
  | @launch _ n source at_ =>
    refine sound.of_setRole ⟨rfl, rfl⟩ coherent
      (sound.holder_keep (by simp [at_, Role.holds])) (by simp [at_]) (by simp) (?_)
      (.inr fun m a other here => sound.off_of_held at_ (.inl rfl) other here)
    intro a same
    obtain rfl := Option.some.inj same
    intro target found
    exact (Option.some.inj found).symm
  | launched begun at_ reply =>
    exact sound.of_goOn at_ ⟨rfl, rfl⟩ ⟨rfl, rfl⟩ (by cases begun <;> rfl) (by cases begun <;> rfl)
      (by simp)
  | lockJoin at_ free =>
    refine sound.of_setRole ⟨rfl, rfl⟩ coherent (sound.holder_lock free rfl)
      (by simp [at_]) (by simp) (?_)
      (.inr fun m a other here => sound.off_of_free free (by simp [at_]) other here)
    intro a same
    exact Option.some.inj same ▸ rfl
  | dropStop at_ =>
    exact sound.of_goOn at_ ⟨rfl, rfl⟩ ⟨rfl, rfl⟩ rfl rfl fun _ _ => ⟨_, rfl⟩
  | dropTask token at_ =>
    refine sound.of_setRole ⟨rfl, rfl⟩ coherent
      (sound.holder_keep (by simp [at_, Role.holds])) (by simp [at_])
      (fun there => absurd at_ (sound.dropping there _ _)) (?_)
      (.inr fun m a other here => sound.off_of_held at_ (.inr ⟨_, rfl⟩) other here)
    intro a same
    exact Option.some.inj same ▸ rfl
  | endDrop at_ =>
    exact sound.of_setRole ⟨rfl, rfl⟩ coherent (sound.holder_keep (by simp [at_, Role.holds]))
      (by simp) (by simp) (by simp) (.inl rfl)
  | @advance _ n role t at_ onTask last =>
    refine sound.of_task ⟨rfl, rfl, rfl⟩ coherent ?_
    intro m a here
    exact Fits.advance (sound.fits m a here) last
  | cancel run =>
    exact sound.of_task ⟨rfl, rfl, rfl⟩ coherent sound.fits
  | thread last =>
    refine sound.of_task ⟨rfl, rfl, rfl⟩ coherent ?_
    rw [position_advanceThread last]
    exact sound.fits
  | enter | raise | loop | lower | finish | panic =>
    exact sound.of_task ⟨rfl, rfl, rfl⟩ coherent sound.fits

/-- A target that is on its way to the task belongs to a start that has started the task. -/
def Launching (c : Control) : Prop :=
  ∀ target, c.task.position.target? = some target →
    ∃ n source, c.role n = some (.start source .launching)

theorem Launching.of_setRole {role : Option Role} (launching : c.Launching)
    (same : d.role = (c.setRole n role).role ∧ d.task.position = c.task.position)
    (other : ∀ source, c.role n ≠ some (.start source .launching)) : d.Launching := by
  intro target found
  rw [same.2] at found
  obtain ⟨m, source, at_⟩ := launching target found
  refine ⟨m, source, ?_⟩
  rw [same.1, role_setRole, if_neg]
  · exact at_
  · rintro rfl
    exact other source at_

theorem Launching.of_task (launching : c.Launching)
    (same : d.role = c.role ∧ d.task.position = c.task.position) : d.Launching := by
  unfold Launching
  rw [same.1, same.2]
  exact launching

theorem Launching.move {e : Option Nat} (launching : c.Launching) (move : Move e c d) :
    d.Launching := by
  cases move with
  | begin role fresh => exact launching.of_setRole ⟨rfl, rfl⟩ (by simp [fresh])
  | beginDrop alone =>
    refine launching.of_setRole ⟨rfl, rfl⟩ ?_
    simp [alone]
  | lock at_ | pass at_ | joined at_ | share at_ | endJoin at_ | dropStop at_ | endDrop at_ =>
    refine launching.of_setRole ⟨rfl, rfl⟩ ?_
    simp [at_]
  | prepare at_ before after =>
    refine launching.of_setRole ⟨rfl, rfl⟩ ?_
    intro source same
    obtain ⟨rfl, rfl⟩ := Role.start.inj (Option.some.inj (at_.symm.trans same))
    simp [Starting.isPreparing] at before
  | refuse at_ refuses =>
    refine launching.of_setRole ⟨rfl, rfl⟩ ?_
    intro source same
    obtain ⟨rfl, rfl⟩ := Role.start.inj (Option.some.inj (at_.symm.trans same))
    simp at refuses
  | @launch _ n source at_ =>
    intro target found
    refine ⟨n, source, ?_⟩
    show (c.setRole n _).role n = _
    rw [role_setRole, if_pos rfl]
  | launched begun at_ reply =>
    intro target found
    change c.task.position.target? = some target at found
    simp [reply, Task.Position.target?] at found
  | reserve | lockJoin | dropTask =>
    intro target found
    simp [Task.begin, Task.Call.entry, Task.Position.target?] at found
  | advance at_ onTask last =>
    intro target found
    rcases Task.target?_advance last with gone | same
    · simp [gone] at found
    · exact launching target (same.symm.trans found)
  | thread last => exact launching.of_task ⟨rfl, position_advanceThread last⟩
  | _ => exact launching.of_task ⟨rfl, rfl⟩

/-- The marks of a publisher, told by the keeper. -/
structure KeptBy (c : Control) (k : Keeper) : Prop where
  running : c.running = decide (k ≠ .nobody)
  claims : ∀ n, (c.role n).any (Role.claims c.task.position) = decide (k = .call n)
  live : ∀ run, (c.task.stage? run).any Task.Stage.isLive = decide (k = .run run)
  started : c.started = k.isOn c.task

variable {k : Keeper}

theorem isOn_congr {t t' : Task Reader} (stages : ∀ run, t'.stage? run = t.stage? run) :
    Keeper.isOn t' k = Keeper.isOn t k := by
  unfold Keeper.isOn
  split <;> simp [Task.target?_eq_bind, stages]

theorem claims_congr {a : Role} {position position' : Task.Position Reader}
    (same : position'.hasSpawned = position.hasSpawned) :
    a.claims position' = a.claims position := by
  unfold Role.claims
  split <;> simp [same]

/-- A claim depends on where the task is only for the start that is launching. -/
theorem claims_eq_of_isOnTask_eq_false {a : Role} {position position' : Task.Position Reader}
    (off : a.isOnTask = false) : a.claims position = a.claims position' := by
  unfold Role.claims
  split <;> simp_all [Role.isOnTask]

/-- The calls that claim as before are told by the same keeper. -/
theorem KeptBy.any_claims (kept : c.KeptBy k) {position : Task.Position Reader}
    (still : ∀ a, c.role m = some a → a.claims position = a.claims c.task.position) :
    (c.role m).any (Role.claims position) = decide (k = .call m) := by
  rw [← kept.claims m]
  cases here : c.role m with
  | none => rfl
  | some a => exact still a here

/-- One call goes on, and the others claim as a keeper tells. -/
theorem any_claims_setRole {role : Option Role} {position : Task.Position Reader}
    (claim : role.any (Role.claims position) = decide (k = .call n))
    (others : ∀ m, m ≠ n → (c.role m).any (Role.claims position) = decide (k = .call m)) (m : Nat) :
    ((c.setRole n role).role m).any (Role.claims position) = decide (k = .call m) := by
  rw [role_setRole]
  split
  · next here => exact here ▸ claim
  · next other => exact others m other

/-- One call goes on with the same claim, or without one. -/
theorem KeptBy.of_setRole {role : Option Role} (kept : c.KeptBy k)
    (same : d.role = (c.setRole n role).role ∧ d.running = c.running ∧ d.started = c.started)
    (stages : ∀ run, d.task.stage? run = c.task.stage? run)
    (claim : role.any (Role.claims d.task.position) = (c.role n).any (Role.claims c.task.position))
    (others : ∀ m a, m ≠ n → c.role m = some a →
      a.claims d.task.position = a.claims c.task.position) : d.KeptBy k where
  running := by
    rw [same.2.1]
    exact kept.running
  claims m := by
    rw [same.1]
    exact any_claims_setRole (claim.trans (kept.claims n))
      (fun m other => kept.any_claims fun a here => others m a other here) m
  live run := by
    rw [stages]
    exact kept.live run
  started := by
    rw [same.2.2, kept.started]
    exact (isOn_congr stages).symm

theorem KeptBy.eq_call (kept : c.KeptBy k) {a : Role} (at_ : c.role n = some a)
    (claims : a.claims c.task.position) : k = .call n := by
  simpa [at_, claims] using (kept.claims n).symm

theorem KeptBy.eq_run (kept : c.KeptBy k) {run : Nat} {a : Reader}
    (executing : c.task.target? run = some a) : k = .run run := by
  rw [Task.target?_eq_some_iff_stage?] at executing
  simpa [executing, Task.Stage.isLive] using (kept.live run).symm

theorem KeptBy.started_eq (kept : c.KeptBy k) {run : Nat} {a : Reader}
    (executing : c.task.target? run = some a) : c.started = a.at_.isLooping := by
  rw [kept.started, kept.eq_run executing, Keeper.isOn, executing]
  rfl

/-- Nobody keeps the run, and a call takes it. -/
theorem KeptBy.take {role : Role} (kept : c.KeptBy .nobody) (claims : role.claims d.task.position)
    (same : d.role = (c.setRole n (some role)).role ∧ d.running = true ∧ d.started = c.started)
    (stages : ∀ run, d.task.stage? run = c.task.stage? run)
    (others : ∀ m a, m ≠ n → c.role m = some a →
      a.claims d.task.position = a.claims c.task.position) : d.KeptBy (.call n) where
  running := same.2.1
  claims m := by
    rw [same.1]
    refine any_claims_setRole (by simpa using claims) (fun m other => ?_) m
    simpa [Ne.symm other] using kept.any_claims fun a here => others m a other here
  live run := by
    rw [stages]
    exact kept.live run
  started := same.2.2.trans kept.started

/-- A call that keeps the run gives it back, and returns. -/
theorem KeptBy.giveBack (kept : c.KeptBy (.call n)) :
    ({ (c.setRole n none) with running := false, holder := none } : Control).KeptBy .nobody where
  running := rfl
  claims := any_claims_setRole rfl fun m other => by simpa [Ne.symm other] using kept.claims m
  live := kept.live
  started := kept.started

/-- The thread of a new run takes over from the call that has made it. -/
theorem KeptBy.handOver {t : Task Reader} {run : Nat} (kept : c.KeptBy (.call n))
    (claim : (c.role n).any (Role.claims t.position) = false)
    (others : ∀ m a, m ≠ n → c.role m = some a → a.claims t.position = a.claims c.task.position)
    (stages : ∀ other, t.stage? other = if other = run then some .spawned else c.task.stage? other) :
    ({ c with task := t } : Control).KeptBy (.run run) where
  running := kept.running
  claims m := by
    by_cases here : m = n
    · simpa [here] using claim
    · simpa [Ne.symm here] using kept.any_claims fun a found => others m a here found
  live other := by
    show (t.stage? other).any _ = _
    rw [stages]
    split
    · next new => simp [new, Task.Stage.isLive]
    · next old => simpa [Ne.symm old] using kept.live other
  started := by
    rw [kept.started, Keeper.isOn, Keeper.isOn]
    show false = (t.target? run).any _
    rw [Task.target?_eq_bind, stages, if_pos rfl]
    rfl

/-- Only the call of a start brings up a target. -/
theorem Sound.start_of_spawn (sound : c.Sound) {role : Role} {target : Reader}
    (at_ : c.role n = some role) (onTask : role.isOnTask)
    (spawning : c.task.position = .spawn target) : ∃ source, role = .start source .launching := by
  have fits := sound.fits n role at_
  rw [spawning] at fits
  unfold Role.Fits at fits
  split at fits
  · exact ⟨_, rfl⟩
  all_goals simp_all [Role.isOnTask, Task.Position.isJoining, Task.Position.target?]

/-- A thread goes on outside its target, or enters it. -/
theorem KeptBy.advanceThread {t : Task Reader} {run : Nat} (kept : c.KeptBy k)
    (coherent : c.task.Coherent fun reader => reader.at_ = .readVideo)
    (last : c.task.advanceThread run = some t) : ({ c with task := t } : Control).KeptBy k where
  running := kept.running
  claims n := by
    show (c.role n).any (Role.claims t.position) = _
    rw [position_advanceThread last]
    exact kept.claims n
  live other := (Task.isLive_advanceThread coherent last other).trans (kept.live other)
  started := by
    cases k with
    | run k =>
      apply kept.started.trans
      show (c.task.target? k).any _ = (t.target? k).any _
      rcases Task.target?_advanceThread coherent last k with same | ⟨before, reader, after, fresh⟩
      · rw [same]
      · simp [before, after, fresh, Reading.isLooping]
    | _ => exact kept.started

/-- The keeper is a read thread that goes on in its target, and the mark follows its loop. -/
theorem KeptBy.of_setTarget (kept : c.KeptBy k) {run : Nat} {a b : Reader} {on : Bool}
    (executing : c.task.target? run = some a) (mark : b.at_.isLooping = on) :
    ({ c with task := c.task.setTarget run b, started := on } : Control).KeptBy k := by
  obtain rfl := kept.eq_run executing
  have at_ := Task.target?_eq_some_iff_stage?.mp executing
  have stages : ∀ other, (c.task.setTarget run b).stage? other =
      if run = other then some (.executing b) else c.task.stage? other :=
    Task.stage?_modify_stage _ executing
  refine ⟨kept.running, kept.claims, ?_, ?_⟩
  · intro other
    rw [← kept.live other]
    show ((c.task.setTarget run b).stage? other).any _ = _
    rw [stages]
    split
    · next here =>
      rw [← here, at_]
      rfl
    · rfl
  · show on = ((c.task.setTarget run b).target? run).any _
    rw [Task.target?_eq_bind, stages, if_pos rfl]
    exact mark.symm

/-- Once the keeper is out of its target, no thread is alive. -/
theorem KeptBy.live_leave (kept : c.KeptBy k) {run : Nat} {a : Reader}
    (executing : c.task.target? run = some a) (other : Nat) :
    ((c.task.leave run).stage? other).any Task.Stage.isLive = false := by
  obtain rfl := kept.eq_run executing
  rw [Task.leave, Task.stage?_modify_stage _ executing]
  split
  · rfl
  · next different =>
    rw [kept.live other]
    simpa using different

/-- **The moves tell who keeps the run.** Only a panic loses the keeper, and for good. -/
theorem KeptBy.move {e : Option Nat} (kept : c.KeptBy k) (sound : c.Sound) (move : Move e c d) :
    ∃ k', d.KeptBy k' ∧ (k' = .lost ↔ k = .lost ∨ e.isSome) ∧ (e.isSome → k ≠ .lost) := by
  -- Who does not act on the task claims what it claimed before, wherever the task goes.
  have still : ∀ {n : Nat} {a : Role}, c.role n = some a → (a.holds ∨ ∃ at_, a = .drop at_) →
      ∀ (m : Nat) (b : Role), m ≠ n → c.role m = some b →
        b.claims d.task.position = b.claims c.task.position := fun at_ holds m b other here =>
    claims_eq_of_isOnTask_eq_false (sound.off_of_held at_ holds other here)
  cases move with
  | begin role fresh there entry =>
    refine ⟨k, kept.of_setRole ⟨rfl, rfl, rfl⟩ (fun _ => rfl) ?_ fun _ _ _ _ => rfl, by simp⟩
    rcases entry with rfl | ⟨source, rfl⟩ <;> simp [fresh, Role.claims, Starting.isPreparing]
  | beginDrop alone =>
    refine ⟨k, kept.of_setRole ⟨rfl, rfl, rfl⟩ (fun _ => rfl) ?_ fun _ _ _ _ => rfl, by simp⟩
    simp [alone, Role.claims]
  | lock at_ | pass at_ | joined at_ | share at_ | endJoin at_ | dropStop at_ | endDrop at_ =>
    refine ⟨k, kept.of_setRole ⟨rfl, rfl, rfl⟩ (fun _ => rfl) ?_ fun _ _ _ _ => rfl, by simp⟩
    simp [at_, Role.claims, Starting.isPreparing]
  | @prepare _ n source a b at_ before after =>
    have claims : ∀ x : Starting, x.isPreparing →
        (Role.start source x).claims c.task.position := fun x preparing => by
      cases x <;> simp_all [Starting.isPreparing, Role.claims]
    refine ⟨k, kept.of_setRole ⟨rfl, rfl, rfl⟩ (fun _ => rfl) ?_ fun _ _ _ _ => rfl, by simp⟩
    simpa [at_, claims a before] using claims b after
  | launched begun at_ reply =>
    refine ⟨k, kept.of_setRole ⟨rfl, rfl, rfl⟩ (fun _ => rfl) ?_ fun _ _ _ _ => rfl, by simp⟩
    cases begun <;> simp [at_, reply, Role.claims, Starting.isPreparing, Task.Position.hasSpawned]
  | launch at_ =>
    refine ⟨k, kept.of_setRole ⟨rfl, rfl, rfl⟩ (fun _ => rfl) ?_ (still at_ (.inl rfl)), by simp⟩
    simp [at_, Role.claims, Starting.isPreparing, Task.begin, Task.Call.entry,
      Task.Position.hasSpawned]
  | lockJoin at_ free =>
    refine ⟨k, kept.of_setRole ⟨rfl, rfl, rfl⟩ (fun _ => rfl) ?_ ?_, by simp⟩
    · simp [at_, Role.claims]
    · intro m a other here
      exact claims_eq_of_isOnTask_eq_false (sound.off_of_free free (by simp [at_]) other here)
  | dropTask token at_ =>
    refine ⟨k, kept.of_setRole ⟨rfl, rfl, rfl⟩ (?_) ?_ (still at_ (.inr ⟨_, rfl⟩)), by simp⟩
    · intro run
      cases token with
      | none => rfl
      | some other => exact Task.stage?_cancelRun other run
    · simp [at_, Role.claims]
  | @reserve _ n source at_ idle =>
    obtain rfl : k = .nobody := by simpa [idle] using kept.running
    exact ⟨.call n, kept.take rfl ⟨rfl, rfl, rfl⟩ (fun _ => rfl) (still at_ (.inl rfl)), by simp⟩
  | @refuse _ n source a at_ refuses =>
    have claims : (Role.start source a).claims c.task.position := by
      rcases refuses with rfl | ⟨e, rfl⟩ <;> rfl
    obtain rfl := kept.eq_call at_ claims
    exact ⟨.nobody, kept.giveBack, by simp⟩
  | @advance _ n role t at_ onTask last =>
    rcases Task.stage?_advance last with ⟨target, spawning, adopting, stages⟩ | ⟨same, stages⟩
    · obtain ⟨source, rfl⟩ := sound.start_of_spawn at_ onTask spawning
      obtain rfl := kept.eq_call at_ (by simp [Role.claims, spawning, Task.Position.hasSpawned])
      refine ⟨.run c.task.contexts.length, ?_, by simp⟩
      exact kept.handOver (by simp [at_, Role.claims, adopting, Task.Position.hasSpawned])
        (still at_ (.inl rfl)) stages
    · refine ⟨k, ⟨kept.running, ?_, ?_, ?_⟩, by simp⟩
      · intro m
        exact kept.any_claims fun _ _ => claims_congr same
      · intro run
        exact (congrArg _ (stages run)).trans (kept.live run)
      · exact kept.started.trans (isOn_congr stages).symm
  | cancel run =>
    refine ⟨k, ⟨kept.running, kept.claims, ?_, ?_⟩, by simp⟩
    · intro other
      simpa using kept.live other
    · exact kept.started.trans (isOn_congr (Task.stage?_cancelRun run)).symm
  | thread last => exact ⟨k, kept.advanceThread sound.coherent last, by simp⟩
  | @enter _ run a b executing before after =>
    have off : ∀ at_ : Reading, at_.isEntering → at_.isLooping = false := fun at_ entering => by
      cases at_ <;> simp_all [Reading.isEntering, Reading.isLooping]
    have mark : c.started = false := (kept.started_eq executing).trans (off a.at_ before)
    have kept := kept.of_setTarget executing (off b.at_ after)
    rw [← mark] at kept
    exact ⟨k, kept, by simp⟩
  | raise executing before after => exact ⟨k, kept.of_setTarget executing after, by simp⟩
  | loop executing before after =>
    have mark : c.started = true := (kept.started_eq executing).trans before
    have kept := kept.of_setTarget executing after
    rw [← mark] at kept
    exact ⟨k, kept, by simp⟩
  | lower executing before after =>
    exact ⟨k, kept.of_setTarget executing (by simp [after, Reading.isLooping]), by simp⟩
  | finish executing at_ =>
    have live := kept.live_leave executing
    have mark : c.started = false :=
      (kept.started_eq executing).trans (by simp [at_, Reading.isLooping])
    obtain rfl := kept.eq_run executing
    exact ⟨.nobody, ⟨rfl, kept.claims, live, mark⟩, by simp⟩
  | panic executing before =>
    have live := kept.live_leave executing
    have mark : c.started = true := (kept.started_eq executing).trans before
    obtain rfl := kept.eq_run executing
    exact ⟨.lost, ⟨kept.running, kept.claims, live, mark⟩, by simp⟩

end Control

/-- A step keeps the task coherent, whatever else is asked of a target, if a start at the point of
starting the task sees to it. -/
theorem Relay.coherent_step {r r' : Relay} {l : Label} {fresh : Reader → Prop}
    (coherent : r.task.Coherent fresh)
    (launch : ∀ (n source : Nat) (uri : String), r.calls[n]? = some (.start source uri .clearStop) →
      fresh { source := source }) (last : r.step l = some r') : r'.task.Coherent fresh := by
  rcases control_step last with ⟨same, -⟩ | move
  · have task : r'.task = r.task := congrArg Control.task same
    rwa [task]
  · refine move.coherent coherent fun n source role => ?_
    obtain ⟨stage, here, same⟩ := Option.bind_eq_some_iff.mp role
    cases stage with
    | start source' uri at_ =>
      obtain ⟨rfl, rfl⟩ := Role.start.inj (Option.some.inj same)
      exact launch n _ _ here
    | _ => simp [CallStage.role] at same

/-- One loop at most is on. It stays where it is, or one comes up where there has been none. -/
theorem Relay.exists_alone {r r' : Relay} {k : Keeper} {fresh : Reader → Prop} {run : Nat}
    (kept : r'.control.KeptBy k)
    (targets : ∀ n, r'.task.target? n = r.task.target? n ∨
      r.task.target? n = none ∧ ∃ reader, r'.task.target? n = some reader ∧ fresh reader)
    (alone : ∀ other, other ≠ run → r.task.target? other = none) :
    ∃ run', (∀ other, other ≠ run' → r'.task.target? other = none) ∧
      (r'.task.target? run' = r.task.target? run ∨
        r.task.target? run = none ∧ ∃ reader, r'.task.target? run' = some reader ∧ fresh reader) := by
  by_cases up : ∃ n, r.task.target? n = none ∧ ∃ reader, r'.task.target? n = some reader ∧ fresh reader
  · obtain ⟨n, before, reader, came, isFresh⟩ := up
    have off : ∀ other, other ≠ n → r'.task.target? other = none := by
      intro other ne
      by_contra some_
      obtain ⟨reader', found⟩ := Option.ne_none_iff_exists'.mp some_
      exact ne (Keeper.run.inj ((kept.eq_run found).symm.trans (kept.eq_run came)))
    refine ⟨n, off, .inr ⟨?_, reader, came, isFresh⟩⟩
    by_cases same : run = n
    · exact same ▸ before
    · rcases targets run with stays | ⟨none_, -⟩
      · exact stays ▸ off run same
      · exact none_
  · have stays : ∀ n, r'.task.target? n = r.task.target? n := fun n =>
      (targets n).resolve_right fun came => up ⟨n, came⟩
    exact ⟨run, fun other ne => (stays other).trans (alone other ne), .inl (stays run)⟩

end PacketRelay
