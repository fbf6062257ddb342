import PacketRelay.Text.Record

/-!
# Bounded queues whose producers wait

A queue holds at most a fixed number of items. A push into a full queue waits until it is notified
and then tries again; a pop never waits. A pop from a full queue notifies one waiting push, and
clearing the queue notifies them all. A push may also be woken without a notification.

Every operation here is one critical section under the lock of the queue. A push that has to wait
stays in the queue as a waiter, with its thread and its item, until it gets in.

## Main definitions

* `Queue`: items, capacity, and waiting pushes
* `Queue.push`, `Queue.resume`: the critical sections of a push
* `Queue.pop`, `Queue.clear`: taking one item and discarding all
* `Queue.Access`, `Queue.step`: the queue as a machine

## Main results

* `Queue.resume_cases`, `Queue.pop_snd_cases`: what a push that goes on and a pop leave behind
-/

namespace PacketRelay

/-- A push that found the queue full. -/
structure Waiter (ι α : Type) where
  /-- The thread that waits -/
  thread : ι
  /-- The item it wants to append -/
  item : α
  /-- It has been woken and is yet to run. -/
  notified : Bool := false
deriving DecidableEq, Repr

/-- A bounded queue of items in `α`, pushed by threads in `ι`. -/
structure Queue (ι α : Type) where
  /-- The greatest number of items -/
  capacity : Nat
  /-- The items, oldest first -/
  items : List α := []
  /-- The pushes that wait, oldest first -/
  waiting : List (Waiter ι α) := []
deriving DecidableEq, Repr

namespace Queue

variable {ι α : Type}

/-- An empty queue. A capacity of zero is taken as one. -/
def ofCapacity (capacity : Nat) : Queue ι α where
  capacity := max capacity 1

def length (q : Queue ι α) : Nat := q.items.length

/-- There is no room for another item. -/
def isFull (q : Queue ι α) : Bool := q.capacity ≤ q.items.length

def isEmpty (q : Queue ι α) : Bool := q.items.isEmpty

/-- The waiters that sleep: those not notified. -/
def asleep (q : Queue ι α) : List (Waiter ι α) :=
  q.waiting.filter fun w => !w.notified

/-- Does a thread wait in a push? -/
def isWaiting [DecidableEq ι] (q : Queue ι α) (thread : ι) : Bool :=
  q.waiting.any fun w => w.thread == thread

/-- Starts a push: the item is appended, or its thread waits. -/
def push (q : Queue ι α) (thread : ι) (item : α) : Queue ι α :=
  if q.isFull then { q with waiting := q.waiting ++ [{ thread := thread, item := item }] }
  else { q with items := q.items ++ [item] }

/-- Goes on with the push of a notified thread: it appends its item, or waits again if other threads
have been faster. -/
def resume [DecidableEq ι] (q : Queue ι α) (thread : ι) : Option (Queue ι α) :=
  match q.waiting.find? fun w => w.thread == thread && w.notified with
  | none => none
  | some w =>
    if q.isFull then
      some { q with waiting := q.waiting.map fun v =>
        if v.thread = thread then { v with notified := false } else v }
    else
      some { q with
        items := q.items ++ [w.item]
        waiting := q.waiting.filter fun v => v.thread ≠ thread }

/-- Notifies the sleeping waiter with the given number, counted from the oldest. -/
def notifyAt : Nat → List (Waiter ι α) → List (Waiter ι α)
  | _, [] => []
  | n, w :: ws =>
    if w.notified then w :: notifyAt n ws
    else match n with
      | 0 => { w with notified := true } :: ws
      | n + 1 => w :: notifyAt n ws

/-- Notifies one sleeping waiter, if there is one. Which one is up to the scheduler: it gives a
number, taken around the sleeping waiters. -/
def notifyOne (q : Queue ι α) (pick : Nat) : Queue ι α :=
  { q with waiting := notifyAt (pick % q.asleep.length) q.waiting }

def notifyAll (q : Queue ι α) : Queue ι α :=
  { q with waiting := q.waiting.map fun w => { w with notified := true } }

/-- Wakes the push of a thread without a notification. -/
def stir [DecidableEq ι] (q : Queue ι α) (thread : ι) : Queue ι α :=
  { q with waiting := q.waiting.map fun w =>
      if w.thread = thread then { w with notified := true } else w }

/-- Takes the oldest item, if there is one. A waiter is notified only if the queue was full. -/
def pop (q : Queue ι α) (pick : Nat) : Option α × Queue ι α :=
  match q.items with
  | [] => (none, q)
  | x :: xs =>
    let rest := { q with items := xs }
    (some x, if q.isFull then rest.notifyOne pick else rest)

/-- Discards all items and notifies every waiter. -/
def clear (q : Queue ι α) : Queue ι α :=
  { q with items := [] }.notifyAll

/-- One access to a queue. -/
inductive Access (ι α : Type)
  -- A thread starts a push.
  | push (thread : ι) (item : α)
  -- A notified thread goes on.
  | resume (thread : ι)
  -- A waiting thread wakes up by itself.
  | stir (thread : ι)
  -- Some thread takes the oldest item.
  | pop (pick : Nat)
  -- Some thread discards all items.
  | clear
deriving DecidableEq, Repr

/-- The queue after an access. A thread that waits does nothing else. -/
def step [DecidableEq ι] (q : Queue ι α) : Access ι α → Option (Queue ι α)
  | .push thread item => if q.isWaiting thread then none else some (q.push thread item)
  | .resume thread => q.resume thread
  | .stir thread => some (q.stir thread)
  | .pop pick => some (q.pop pick).2
  | .clear => some q.clear

/-- A pop takes the oldest item, and notifies one waiter at most. -/
theorem pop_snd_cases (q : Queue ι α) (pick : Nat) :
    (q.pop pick).2 = { q with items := q.items.tail } ∨
      ∃ k, (q.pop pick).2 = { q with items := q.items.tail, waiting := notifyAt k q.waiting } := by
  unfold pop
  split
  · next empty =>
    left
    rw [empty]
    exact congrArg (fun items => { q with items }) empty
  · next x xs items =>
    rw [items]
    by_cases full : q.isFull
    · right
      exact ⟨_, if_pos full⟩
    · left
      exact if_neg full

section Resume

variable [DecidableEq ι] {q q' : Queue ι α} {thread : ι} {w : Waiter ι α}

theorem notified_of_find?
    (found : (q.waiting.find? fun w => w.thread == thread && w.notified) = some w) :
    w ∈ q.waiting ∧ w.thread = thread ∧ w.notified = true := by
  have first := List.find?_some found
  simp only [Bool.and_eq_true, beq_iff_eq] at first
  exact ⟨List.mem_of_find?_eq_some found, first⟩

/-- A thread goes on whose push has been notified. It waits again if the queue is full, and is in
otherwise. -/
theorem resume_cases (last : q.resume thread = some q') :
    ∃ w, (q.waiting.find? fun w => w.thread == thread && w.notified) = some w ∧
      (q.isFull = true ∧ q' = { q with waiting := q.waiting.map fun v =>
          if v.thread = thread then { v with notified := false } else v } ∨
        q.isFull = false ∧ q' = { q with
          items := q.items ++ [w.item]
          waiting := q.waiting.filter fun v => v.thread ≠ thread }) := by
  unfold resume at last
  split at last
  · simp at last
  · next w found =>
    refine ⟨w, found, ?_⟩
    split at last <;> obtain rfl := Option.some.inj last
    · next full => exact .inl ⟨full, rfl⟩
    · next room => exact .inr ⟨Bool.eq_false_iff.mpr room, rfl⟩

theorem resume_eq_none_iff :
    q.resume thread = none ↔ ∀ w ∈ q.waiting, w.thread = thread → w.notified = false := by
  unfold resume
  split
  · next missing => simp_all
  · next w found =>
    obtain ⟨there, own, woken⟩ := notified_of_find? found
    constructor
    · intro never
      split at never <;> simp at never
    · intro asleep
      simp [asleep w there own] at woken

end Resume

def text (q : Queue ι α) : String :=
  Text.record "BoundedQueue" [("len", toString q.length), ("capacity", toString q.capacity)]

end Queue

end PacketRelay
