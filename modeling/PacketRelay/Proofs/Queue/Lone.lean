import PacketRelay.Proofs.Queue.Fifo

/-!
# Queues with one producer

A queue into which one thread at a time puts its items has one push that waits at most, and loses no
wake-up. The push sleeps in front of a full queue only, so that the next pop is one that notifies, and
a clear notifies in any case. A push that has been notified finds room, since nobody else takes it.

## Main definitions

* `Queue.Lone`: one push waits at most, and it sleeps at a full queue only
* `Queue.Ready`, `Queue.Stuck`: it will get in, or it will not

## Main results

* `Queue.Lone.step`: every access keeps this
* `Queue.Lone.ready_pop`, `Queue.Lone.ready_clear`: what lets a push go on that waits
* `Queue.Ready.resume`, `Queue.Stuck.resume`: whether it gets in
-/

namespace PacketRelay

namespace Queue

variable {ι α : Type} {q q' : Queue ι α} {t : ι} {x : α} {notified : Bool}

/-- One push waits at most, and it has been notified unless the queue is full. -/
structure Lone (q : Queue ι α) : Prop where
  capacity : 0 < q.capacity
  bounded : q.items.length ≤ q.capacity
  waits : q.waiting = [] ∨
    ∃ t x notified, q.waiting = [⟨t, x, notified⟩] ∧ (notified = true ∨ q.isFull)

/-- The push of a thread is the only one that waits. It has been notified, and there is room. -/
def Ready (q : Queue ι α) (t : ι) (x : α) : Prop :=
  q.waiting = [⟨t, x, true⟩] ∧ q.isFull = false

/-- The push of a thread is the only one that waits, and the queue is full of these items. -/
def Stuck (q : Queue ι α) (t : ι) (x : α) (items : List α) : Prop :=
  (∃ notified, q.waiting = [⟨t, x, notified⟩]) ∧ q.items = items ∧ q.isFull

theorem lone_ofCapacity (capacity : Nat) : (ofCapacity capacity : Queue ι α).Lone :=
  ⟨Nat.le_max_right _ _, Nat.zero_le _, .inl rfl⟩

theorem Lone.eq_of_mem {w : Waiter ι α} (lone : q.Lone) (waits : w ∈ q.waiting) :
    q.waiting = [w] ∧ (w.notified = true ∨ q.isFull) := by
  rcases lone.waits with none | ⟨t, x, notified, single, due⟩
  · simp [none] at waits
  · rw [single] at waits ⊢
    obtain rfl := List.mem_singleton.mp waits
    exact ⟨rfl, due⟩

theorem waiting_pop_of_nil (pick : Nat) (none : q.waiting = []) : (q.pop pick).2.waiting = [] := by
  rcases q.pop_snd_cases pick with popped | ⟨k, popped⟩ <;> simp [popped, none, notifyAt]

/-- A pop wakes the push that waits, or finds it woken, and leaves room for it. -/
theorem Lone.ready_pop (lone : q.Lone) (pick : Nat) (waits : q.waiting = [⟨t, x, notified⟩]) :
    (q.pop pick).2.Ready t x := by
  have due := (lone.eq_of_mem (w := ⟨t, x, notified⟩) (by simp [waits])).2
  have bounded := lone.bounded
  cases items : q.items with
  | nil =>
    -- The queue is empty, so that the push has been notified.
    have room : q.isFull = false := by
      simpa [isFull, items] using Nat.pos_iff_ne_zero.mp lone.capacity
    obtain rfl : notified = true := due.resolve_right (by simp [room])
    simpa [pop, items, Ready] using ⟨waits, room⟩
  | cons y ys =>
    have room : ¬ q.capacity ≤ ys.length := by
      rw [items, List.length_cons] at bounded
      omega
    by_cases full : q.isFull
    · have popped : q.pop pick = (some y, ({ q with items := ys } : Queue ι α).notifyOne pick) := by
        simp only [pop, items, full, if_true]
      rw [popped]
      cases notified <;>
        simp [Ready, notifyOne, asleep, notifyAt, waits, isFull, room, Nat.mod_one]
    · obtain rfl : notified = true := due.resolve_right full
      have popped : q.pop pick = (some y, { q with items := ys }) := by
        simp only [pop, items, full, if_false, Bool.false_eq_true]
      rw [popped]
      simp [Ready, waits, isFull, room]

/-- So does a clear. -/
theorem Lone.ready_clear (lone : q.Lone) (waits : q.waiting = [⟨t, x, notified⟩]) :
    q.clear.Ready t x := by
  have capacity := lone.capacity
  refine ⟨by simp [clear, notifyAll, waits], ?_⟩
  simpa [clear, notifyAll, isFull] using Nat.pos_iff_ne_zero.mp capacity

variable [DecidableEq ι]

/-- A push that is ready gets in. -/
theorem Ready.resume (ready : q.Ready t x) :
    q.resume t = some { q with items := q.items ++ [x], waiting := [] } := by
  obtain ⟨waits, room⟩ := ready
  simp [Queue.resume, waits, room]

theorem Ready.stir (ready : q.Ready t x) (u : ι) : (q.stir u).Ready t x := by
  obtain ⟨waits, room⟩ := ready
  refine ⟨?_, room⟩
  by_cases own : t = u <;> simp [Queue.stir, waits, own]

theorem Stuck.stir {items : List α} (stuck : q.Stuck t x items) (u : ι) :
    (q.stir u).Stuck t x items := by
  obtain ⟨⟨notified, waits⟩, same, full⟩ := stuck
  refine ⟨?_, same, full⟩
  by_cases own : t = u <;> simp [Queue.stir, waits, own]

/-- A push that is stuck waits again when it has been woken. -/
theorem Stuck.resume {items : List α} (stuck : q.Stuck t x items) (last : q.resume t = some q') :
    q'.Stuck t x items := by
  obtain ⟨⟨notified, waits⟩, same, full⟩ := stuck
  obtain ⟨_, -, ⟨-, rfl⟩ | ⟨room, -⟩⟩ := resume_cases last
  · exact ⟨⟨false, by simp [waits]⟩, same, full⟩
  · simp [full] at room

/-- **The accesses to a queue leave one push that waits at most**, as long as a push is started while
nobody waits. -/
theorem Lone.step {l : Access ι α} (lone : q.Lone) (last : q.step l = some q')
    (idle : ∀ t x, l = .push t x → q.waiting = []) : q'.Lone := by
  have capacity := capacity_step last
  refine ⟨capacity ▸ lone.capacity, capacity ▸ length_le_capacity_step lone.bounded last, ?_⟩
  cases l with
  | push t x =>
    obtain ⟨-, rfl⟩ : q.isWaiting t = false ∧ q.push t x = q' := by simpa [Queue.step] using last
    have none := idle t x rfl
    by_cases full : q.isFull
    · right
      refine ⟨t, x, false, by simp [push, full, none], .inr ?_⟩
      rw [push, if_pos full]
      exact full
    · left
      rw [push, if_neg full]
      exact none
  | resume t =>
    obtain ⟨w, found, moves⟩ := resume_cases last
    obtain ⟨inside, own, -⟩ := notified_of_find? found
    have single := (lone.eq_of_mem inside).1
    rcases moves with ⟨full, rfl⟩ | ⟨-, rfl⟩
    · exact .inr ⟨w.thread, w.item, false, by simp [single, own], .inr full⟩
    · exact .inl (by simp [single, own])
  | stir t =>
    obtain rfl := Option.some.inj last
    rcases lone.waits with none | ⟨u, x, notified, single, due⟩
    · exact .inl (by simp [Queue.stir, none])
    · right
      by_cases own : u = t
      · exact ⟨u, x, true, by simp [Queue.stir, single, own], .inl rfl⟩
      · exact ⟨u, x, notified, by simp [Queue.stir, single, own], due⟩
  | pop pick =>
    obtain rfl := Option.some.inj last
    rcases lone.waits with none | ⟨u, x, notified, single, -⟩
    · exact .inl (waiting_pop_of_nil pick none)
    · exact .inr ⟨u, x, true, (lone.ready_pop pick single).1, .inl rfl⟩
  | clear =>
    obtain rfl := Option.some.inj last
    rcases lone.waits with none | ⟨u, x, notified, single, -⟩
    · exact .inl (by simp [clear, notifyAll, none])
    · exact .inr ⟨u, x, true, (lone.ready_clear single).1, .inl rfl⟩

end Queue

end PacketRelay
