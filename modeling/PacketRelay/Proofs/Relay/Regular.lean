import PacketRelay.Proofs.Relay.Restart
import PacketRelay.Proofs.Task.Beside

/-!
# Order at the task of a publisher

A call is in progress on the task only while a call on the publisher acts on it, and the task waits,
and can wait, for the thread of its own run only. With the calls kept apart and the run kept by
somebody, this is all that is to know about the control of a publisher between two steps.

## Main definitions

* `Control.Attended`: somebody acts on a task that is not free
* `Relay.Regular`: what holds of the control of a publisher

## Main results

* `Control.Attended.move`: the moves keep the task attended
* `Relay.Regular.step`, `Relay.regular_of_reaches`: every publisher is regular
-/

namespace PacketRelay

open Schedule

namespace Control

variable {c d : Control} {n : Nat}

/-- A call is in progress on the task only while somebody acts on it. -/
structure Attended (c : Control) : Prop where
  acts : c.task.isFree = true ∨ ∃ n role, c.role n = some role ∧ role.isOnTask = true
  owns : c.task.Owns

/-- One call goes on, and does not leave the task before that is free. -/
theorem Attended.of_setRole (attended : c.Attended) {role : Option Role}
    (same : d.role = (c.setRole n role).role ∧ d.task = c.task)
    (stays : ∀ a, c.role n = some a → a.isOnTask = true → c.task.isFree = true) : d.Attended where
  acts := by
    rw [same.1, same.2]
    rcases attended.acts with free | ⟨m, a, here, onTask⟩
    · exact .inl free
    · by_cases own : m = n
      · exact .inl (stays a (own ▸ here) onTask)
      · exact .inr ⟨m, a, by rwa [role_setRole, if_neg own], onTask⟩
  owns := by
    rw [same.2]
    exact attended.owns

/-- One call begins to act on the task. -/
theorem Attended.of_begin {role : Role} {t : Task Reader} {call : Task.Call Reader} (owns : t.Owns)
    (same : d.role = (c.setRole n (some role)).role ∧ d.task = t.begin .outside call)
    (onTask : role.isOnTask = true) : d.Attended where
  acts := .inr ⟨n, role, by rw [same.1, role_setRole, if_pos rfl], onTask⟩
  owns := by
    rw [same.2]
    exact owns.begin .outside call

/-- The task goes on without its calls. -/
theorem Attended.of_task (attended : c.Attended) (roles : d.role = c.role)
    (same : d.task.position = c.task.position ∧ d.task.joinable = c.task.joinable ∧
      d.task.current = c.task.current) : d.Attended where
  acts := by
    rw [roles, Task.isFree, same.1]
    exact attended.acts
  owns := attended.owns.congr same.2.1 same.1 same.2.2

/-- **The moves keep the task attended.** -/
theorem Attended.move {e : Option Nat} (attended : c.Attended) (move : Move e c d) : d.Attended := by
  cases move with
  | begin role fresh => exact attended.of_setRole ⟨rfl, rfl⟩ (by simp [fresh])
  | beginDrop alone => exact attended.of_setRole ⟨rfl, rfl⟩ (by simp [alone])
  | lock at_ | pass at_ | share at_ | dropStop at_ =>
    exact attended.of_setRole ⟨rfl, rfl⟩ (by simp [at_, Role.isOnTask])
  | joined at_ free | endJoin at_ free | endDrop at_ free =>
    exact attended.of_setRole ⟨rfl, rfl⟩ fun _ _ _ => free
  | launched begun at_ reply =>
    exact attended.of_setRole ⟨rfl, rfl⟩ fun _ _ _ => by simp [Task.isFree, reply]
  | @prepare _ n source a b at_ before =>
    refine attended.of_setRole ⟨rfl, rfl⟩ fun role here onTask => ?_
    obtain rfl := Option.some.inj (at_.symm.trans here)
    cases a <;> simp_all [Starting.isPreparing, Role.isOnTask]
  | refuse at_ refuses =>
    refine attended.of_setRole ⟨rfl, rfl⟩ fun role here onTask => ?_
    obtain rfl := Option.some.inj (at_.symm.trans here)
    rcases refuses with rfl | ⟨e, rfl⟩ <;> simp [Role.isOnTask] at onTask
  | reserve | launch | lockJoin => exact .of_begin attended.owns ⟨rfl, rfl⟩ rfl
  | dropTask token at_ =>
    refine .of_begin ?_ ⟨rfl, rfl⟩ rfl
    cases token with
    | none => exact attended.owns
    | some run => exact attended.owns.congr rfl rfl rfl
  | @advance _ n role t at_ onTask last =>
    exact ⟨.inr ⟨n, role, at_, onTask⟩, attended.owns.advance last⟩
  | thread last =>
    obtain ⟨_, _, -, -, rfl⟩ := Task.exists_access_of_advanceThread last
    exact attended.of_task rfl ⟨rfl, rfl, rfl⟩
  | cancel | enter | raise | loop | lower | finish | panic =>
    exact attended.of_task rfl ⟨rfl, rfl, rfl⟩

/-- While nobody acts on the task it is free. -/
theorem Attended.isFree (attended : c.Attended)
    (nobody : ∀ n role, c.role n = some role → role.isOnTask = false) : c.task.isFree = true := by
  refine attended.acts.resolve_right ?_
  rintro ⟨n, role, here, onTask⟩
  simp [nobody n role here] at onTask

end Control

namespace Relay

/-- What holds of the control of a publisher between two steps. -/
structure Regular (r : Relay) : Prop where
  sound : r.control.Sound
  kept : ∃ k, r.control.KeptBy k
  attended : r.control.Attended

variable {settings : PublisherSettings} {r r' : Relay}

theorem regular_ofSettings : (ofSettings settings).Regular where
  sound := sound_ofSettings
  kept := ⟨.nobody, keptBy_ofSettings⟩
  attended := ⟨.inl rfl, Task.owns_ofName settings.threadName⟩

/-- **A step keeps a publisher regular.** -/
theorem Regular.step {l : Label} (regular : r.Regular) (last : r.step l = some r') : r'.Regular := by
  obtain ⟨k, kept⟩ := regular.kept
  rcases control_step last with ⟨same, -⟩ | move
  · exact ⟨same ▸ regular.sound, ⟨k, same ▸ kept⟩, same ▸ regular.attended⟩
  · obtain ⟨k', kept', -⟩ := kept.move regular.sound move
    exact ⟨regular.sound.move move, ⟨k', kept'⟩, regular.attended.move move⟩

/-- Every publisher is regular. -/
theorem regular_of_reaches (path : Reaches Relay.step (ofSettings settings) r) : r.Regular := by
  induction path with
  | refl => exact regular_ofSettings
  | tail _ last ih => exact ih.step last

end Relay

end PacketRelay
