import PacketRelay.Packet
import PacketRelay.Queue

/-!
# Subscribers

A subscriber is a queue of packets with an identity. Once it is terminated nothing more is accepted;
what is queued stays until the owner clears it.

Accepting a packet takes several accesses: the mark of the subscriber is looked at, and then the
packet is pushed, which may wait. A thread that has looked at the mark pushes even if the subscriber
is terminated in between.

## Main definitions

* `Subscriber`: name, identity, mark and queue
* `Enqueue`, `Enqueue.step`: a packet on its way into the queue
* `Subscriber.Action`, `Subscriber.act`: what the consumers of a subscriber do
-/

namespace PacketRelay

/-- A consumer of packets, pushed to by threads in `ι`. -/
structure Subscriber (ι : Type) where
  /-- The name given to it -/
  name : String
  /-- What makes its identity its own -/
  suffix : String
  /-- It has not been terminated. -/
  active : Bool := true
  /-- Its packets -/
  queue : Queue ι Packet
deriving DecidableEq, Repr

namespace Subscriber

variable {ι : Type}

/-- The length of the suffix of an identity. -/
def suffixLength : Nat := 10

/-- The digits and letters that a suffix is made of. -/
def suffixAlphabet : List Char :=
  "0123456789ABCDEFGHIJKLMNOPQRSTUVWXYZabcdefghijklmnopqrstuvwxyz".toList

/-- The last digits of a number, as many as a suffix is long, least significant digit last. -/
def suffixDigits : Nat → Nat → List Char → List Char
  | 0, _, digits => digits
  | length + 1, n, digits =>
    suffixDigits length (n / 62) (suffixAlphabet.getD (n % 62) '0' :: digits)

/-- The suffix with the given number. Numbers below `62 ^ 10` have suffixes of their own. -/
def suffixOf (n : Nat) : String :=
  String.ofList (suffixDigits suffixLength n [])

def ofName (name suffix : String) (capacity : Nat) : Subscriber ι where
  name := name
  suffix := suffix
  queue := .ofCapacity capacity

/-- By which a subscriber is told from all others. -/
def identity (s : Subscriber ι) : String := s.name ++ s.suffix

def isTerminated (s : Subscriber ι) : Bool := !s.active

/-- The written form of a subscriber, with some text in place of its suffix. -/
def textWith (s : Subscriber ι) (suffix : String) : String :=
  Text.record "Subscriber"
    [("identity", Text.quote (s.name ++ suffix)), ("terminated", toString s.isTerminated),
      ("queued", toString s.queue.length), ("capacity", toString s.queue.capacity)]

/-- What the consumers of a subscriber do, one access each. -/
inductive Action (ι : Type)
  -- Takes the oldest packet.
  | dequeue (pick : Nat)
  -- Accepts nothing more.
  | terminate
  -- Discards all packets.
  | clear
  -- Wakes a waiting push without a notification.
  | stir (thread : ι)
deriving DecidableEq, Repr

def act [DecidableEq ι] (s : Subscriber ι) : Action ι → Subscriber ι
  | .dequeue pick => { s with queue := (s.queue.pop pick).2 }
  | .terminate => { s with active := false }
  | .clear => { s with queue := s.queue.clear }
  | .stir thread => { s with queue := s.queue.stir thread }

end Subscriber

/-- Where a packet is on its way into the queue of a subscriber. -/
inductive Enqueue
  -- About to look at the mark of the subscriber
  | check (p : Packet)
  -- About to be pushed
  | push (p : Packet)
  -- Waiting in the queue
  | waiting
  -- Appended, or not accepted
  | finished
deriving DecidableEq, Repr

/-- One access of a thread that enqueues a packet. A thread that waits takes no step until it is
notified. -/
def Enqueue.step {ι : Type} [DecidableEq ι] (thread : ι) (s : Subscriber ι) :
    Enqueue → Option (Subscriber ι × Enqueue)
  | .check p => some (s, if s.active then .push p else .finished)
  | .push p =>
    let q := s.queue.push thread p
    some ({ s with queue := q }, if s.queue.isFull then .waiting else .finished)
  | .waiting => do
    let q ← s.queue.resume thread
    some ({ s with queue := q }, if q.isWaiting thread then .waiting else .finished)
  | .finished => none

/-- A thread that waits goes on with its push. -/
theorem Enqueue.exists_resume_of_step {ι : Type} [DecidableEq ι] {thread : ι} {s s' : Subscriber ι}
    {e : Enqueue} (last : step thread s .waiting = some (s', e)) :
    ∃ q, s.queue.resume thread = some q ∧ s' = { s with queue := q } ∧
      e = if q.isWaiting thread then .waiting else .finished := by
  simp only [step, Option.bind_eq_bind, Option.bind_eq_some_iff, Option.some.injEq,
    Prod.mk.injEq] at last
  obtain ⟨q, resumed, rfl, rfl⟩ := last
  exact ⟨q, resumed, rfl, rfl⟩

end PacketRelay
