import PacketRelay.Proofs.Relay.Lockstep

/-!
# Starts that begin no run

A start finds the run reserved and leaves it alone, or reserves it, waits for the thread of the run
before, finds that its source does not open, and gives the run back. All that it does on the way goes
unseen: what is left of the publisher without the start stays as it is.

## Main results

* `Relay.Reduces.callStep_hidden`: an access of a start whose source does not open goes unseen
-/

namespace PacketRelay.Relay

open Schedule

variable {seen : Nat → Nat} {given : List Nat} {r r' q : Relay} {n : Nat}

section Hidden

variable {before stage : CallStage} (hidden : ∀ i, seen i ≠ n)

include hidden

theorem claimed_setCall_hidden (here : r.calls[n]? = some before)
    (same : stage.isClaiming = before.isClaiming) :
    (r.setCall n stage).Claimed seen ↔ r.Claimed seen := by
  have there := (List.getElem?_eq_some_iff.mp here).1
  have own : (r.setCall n stage).calls[n]? = some stage := getElem?_setCall there
  have other : ∀ m, n ≠ m → (r.setCall n stage).calls[m]? = r.calls[m]? := fun m ne =>
    List.getElem?_set_ne ne
  constructor
  · rintro ⟨m, stage', unseen, found, claims⟩
    by_cases at_ : n = m
    · subst at_
      obtain rfl := Option.some.inj (own.symm.trans found)
      exact ⟨n, before, hidden, here, same ▸ claims⟩
    · exact ⟨m, stage', unseen, (other m at_).symm.trans found, claims⟩
  · rintro ⟨m, stage', unseen, found, claims⟩
    by_cases at_ : n = m
    · subst at_
      obtain rfl := Option.some.inj (here.symm.trans found)
      exact ⟨n, stage, hidden, own, same.trans claims⟩
    · exact ⟨m, stage', unseen, (other m at_).trans found, claims⟩

/-- A start that is not seen goes on in the first. -/
theorem Reduces.setHidden (reduces : r.Reduces seen given q) (vain : stage.isVain = true)
    (running : ¬ (r.setCall n stage).Claimed seen → r.running = q.running)
    (claimed : (r.setCall n stage).Claimed seen → q.running = false) :
    (r.setCall n stage).Reduces seen given q :=
  { reduces with
    running := running
    claimed := claimed
    calls := fun j => (List.getElem?_set_ne (Ne.symm (hidden j))).trans (reduces.calls j)
    vain := fun m stage' unseen found => by
      replace found : (r.calls.set n stage)[m]? = some stage' := found
      rw [List.getElem?_set] at found
      split at found
      · split at found
        · exact Option.some.inj found ▸ vain
        · simp at found
      · exact reduces.vain m stage' unseen found }

/-- A start that is not seen goes on in the first, and has the run reserved or not as before. -/
theorem Reduces.goHidden (reduces : r.Reduces seen given q) (here : r.calls[n]? = some before)
    (same : stage.isClaiming = before.isClaiming) (vain : stage.isVain = true) :
    (r.setCall n stage).Reduces seen given q :=
  reduces.setHidden hidden vain
    (fun unclaimed => reduces.running ((claimed_setCall_hidden hidden here same).not.mp unclaimed))
    fun claimed => reduces.claimed ((claimed_setCall_hidden hidden here same).mp claimed)

/-- While a start that is not seen holds the task, none of the others acts on it. -/
theorem Reduces.off_of_hidden (reduces : r.Reduces seen given q) (regular : r.Regular)
    (here : r.calls[n]? = some before) (holds : before.role.any Role.holds = true) (i : Nat)
    (found : q.calls[i]? = some stage) : stage.isOnTask = false := by
  by_contra onTask
  obtain ⟨role, own, holds⟩ := (Option.any_eq_true _ _).mp holds
  rw [Bool.not_eq_false] at onTask
  obtain ⟨role', other, onTask⟩ := (Option.any_eq_true _ _).mp onTask
  have first : r.control.role n = some role := by simp [control, here, own]
  have second : r.control.role (seen i) = some role' := by
    simp [control, reduces.calls, found, other]
  exact hidden i (regular.sound.exclusive first second (.inl holds) onTask)

theorem Reduces.free_of_hidden (reduces : r.Reduces seen given q) (regular : r.Regular ∧ q.Regular)
    (here : r.calls[n]? = some before) (holds : before.role.any Role.holds = true) :
    q.task.isFree = true := by
  refine regular.2.attended.isFree fun i role found => ?_
  obtain ⟨stage, there, same⟩ := Option.bind_eq_some_iff.mp found
  have off := reduces.off_of_hidden hidden regular.1 here holds i there
  simpa [CallStage.isOnTask, same] using off

/-- A start that is not seen reserves the run. -/
theorem Reduces.reserve_hidden (reduces : r.Reduces seen given q) (regular : r.Regular ∧ q.Regular)
    {source : Nat} {uri : String} (here : r.calls[n]? = some (.start source uri .reserve))
    (idle : r.running = false) :
    (({ r with running := true }.beginTask .join).setCall n (.start source uri .joining)).Reduces
      seen given q := by
  have off : q.running = false := by
    by_cases claimed : r.Claimed seen
    · exact reduces.claimed claimed
    · exact (reduces.running claimed).symm.trans idle
  have free := reduces.free_of_hidden hidden regular here rfl
  have still := regular.1.isFree here rfl (.inl rfl) rfl
  have apart : (r.task.begin .outside .join).Apart q.task := by
    refine reduces.alike.begin_join free ?_
    rcases reduces.task with agrees | apart
    · exact agrees.joinable.imp_right (·.1)
    · exact apart.joinable_of_isFree still
  have claims : (r.setCall n (.start source uri .joining)).Claimed seen :=
    ⟨n, _, hidden, getElem?_setCall (List.getElem?_eq_some_iff.mp here).1, rfl⟩
  have moved : (r.setCall n (.start source uri .joining)).Reduces seen given q :=
    reduces.setHidden hidden rfl (fun unclaimed => absurd claims unclaimed) fun _ => off
  exact { moved with
    running := fun unclaimed => absurd claims unclaimed
    claimed := fun _ => off
    task := .inr apart
    attended := fun i stage found onTask => by
      simp [reduces.off_of_hidden hidden regular.1 here rfl i found] at onTask }

/-- A start that is not seen waits for the thread of the run before. -/
theorem Reduces.advance_hidden (reduces : r.Reduces seen given q)
    (regular : r.Regular ∧ q.Regular) (here : r.calls[n]? = some before)
    (holds : before.role.any Role.holds = true) {t : Task Reader}
    (last : r.task.advance = some t) : ({ r with task := t } : Relay).Reduces seen given q := by
  have apart : r.task.Apart q.task := by
    refine reduces.task.resolve_left fun agrees => ?_
    have free := agrees.isFree.trans (reduces.free_of_hidden hidden regular here holds)
    unfold Task.isFree at free
    split at free
    · next at_ => simp [Task.advance, at_] at last
    · simp at free
  exact { reduces with
    task := .inr (apart.advance regular.1.attended.owns regular.1.sound.coherent last)
    attended := fun i stage found onTask => by
      simp [reduces.off_of_hidden hidden regular.1 here holds i found] at onTask }

/-- **An access of a start whose source does not open goes unseen.** -/
theorem Reduces.callStep_hidden (reduces : r.Reduces seen given q)
    (regular : r.Regular ∧ q.Regular) (last : r.callStep n = some r')
    (refused : ∀ source uri x y, r.calls[n]? = some (.start source uri .openSource) →
      r.sources[source]? = some x → x.openAt uri ≠ .ok y) :
    r'.Reduces seen given q := by
  obtain ⟨stage, here⟩ := exists_stage_of_callStep last
  have vain := reduces.vain n stage hidden here
  have step := last
  simp only [Relay.callStep, here, Option.bind_eq_bind, Option.bind_some] at step
  cases stage with
  | start source uri at_ =>
    cases at_ with
    | lock =>
      obtain ⟨-, rfl⟩ := startStep_lock step
      exact (reduces.hold (some n) q.taskHolder).goHidden hidden here rfl rfl
    | reserve =>
      obtain rfl := Option.some.inj step
      split
      · exact (reduces.hold none q.taskHolder).goHidden hidden here rfl rfl
      · next idle => exact reduces.reserve_hidden hidden regular here (by simpa using idle)
    | joining =>
      rcases taskStep_cases step with ⟨-, rfl⟩ | ⟨t, advanced, rfl⟩
      · exact reduces.goHidden hidden here rfl rfl
      · exact reduces.advance_hidden hidden regular here rfl advanced
    | openSource =>
      obtain ⟨x, there, -, ⟨y, opened, -⟩ | ⟨e, -, rfl⟩⟩ := startStep_openSource step
      · exact absurd opened (refused source uri x y here there)
      · exact reduces.goHidden hidden here rfl rfl
    | refuse e =>
      obtain rfl := Option.some.inj step
      have off : q.running = false := reduces.claimed ⟨n, _, hidden, here, rfl⟩
      have back : ({ r with running := false, taskHolder := none } : Relay).Reduces seen given q :=
        { reduces with
          running := fun _ => off.symm
          claimed := fun _ => off }
      exact back.setHidden hidden rfl (fun _ => off.symm) fun _ => off
    | _ => simp [CallStage.isVain] at vain
  | returned reply => simp at step
  | _ => simp [CallStage.isVain] at vain

end Hidden

end PacketRelay.Relay
