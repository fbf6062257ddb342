import PacketRelay.Queue

/-!
# Calls on a queue, each run to rest

In a session calls are made one after the other. A push gets a thread of its own, numbered by the
call, and after each call every notified push goes on, until no thread can take a step.
-/

namespace PacketRelay.Queue

variable {α : Type}

/-- A call on a queue. -/
inductive Request (α : Type)
  | push (item : α)
  | pop
  | clear
  | describe

/-- What a call answers. -/
inductive Reply (α : Type)
  | pushed
  | blocked
  | popped (item : Option α)
  | cleared
  | described (text : String)

/-- A queue together with the number of the next call. -/
structure Session (α : Type) where
  /-- The queue -/
  queue : Queue Nat α
  /-- The number of the next call -/
  next : Nat := 0

/-- All notified pushes go on, the oldest first. -/
def rest (q : Queue Nat α) : Queue Nat α :=
  q.waiting.foldl (fun q w => (q.resume w.thread).getD q) q

namespace Session

/-- Makes a call and runs to rest. -/
def call (s : Session α) (r : Request α) : Session α × Reply α :=
  let after (q : Queue Nat α) : Session α := { queue := q.rest, next := s.next + 1 }
  match r with
  | .push item =>
    let t := after (s.queue.push s.next item)
    (t, if t.queue.isWaiting s.next then .blocked else .pushed)
  | .pop =>
    let (item, q) := s.queue.pop 0
    (after q, .popped item)
  | .clear => (after s.queue.clear, .cleared)
  | .describe => (after s.queue, .described s.queue.text)

def blocked (s : Session α) : Nat := s.queue.waiting.length

/-- The number of pushes of earlier calls that returned between two sessions. -/
def returned (before after : Session α) : Nat :=
  (before.queue.waiting.filter fun w => !after.queue.isWaiting w.thread).length

end Session

end PacketRelay.Queue
