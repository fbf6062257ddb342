import PacketRelay.Relay.Machine
import PacketRelay.Schedule
import PacketRelay.Worker
import PacketRelay.Worker.Scripted

/-!
# A publisher with its workers

A station is a publisher together with the workers that drain some of its subscribers. The parts
meet in the queues: a worker makes room for a thread that publishes, and a thread that publishes
gives a worker something to do.

The handle of a worker is used by one thread at a time. A thread that wants it waits until no other
one has it, and finds the worker gone if it has been given up meanwhile.

## Main definitions

* `Turn`: a call of an owner of a worker, on a thread of its own
* `Station`: a publisher and its workers
* `Station.Label`, `Station.step`: the station as a machine
* `Station.settle`: running to rest
-/

namespace PacketRelay

/-- What a call of an owner of a worker returns. -/
inductive OwnerReply
  -- Whether a run has begun
  | started (b : Bool)
  -- The worker has been stopped.
  | stopped
  -- The worker had been given up before.
  | gone
deriving DecidableEq, Repr

/-- Where the thread is that makes a call of an owner. -/
inductive TurnStage
  -- About to take the handle, and then to make a call
  | waiting (call : OwnerCall ScriptedHandler)
  -- In the call; does it start the worker?
  | holding (starts : Bool)
  -- Returned
  | returned (r : OwnerReply)
deriving DecidableEq, Repr

/-- A call of an owner of a worker, on a thread of its own. -/
structure Turn where
  /-- The number of the worker -/
  worker : Nat
  /-- Where the thread is -/
  stage : TurnStage
deriving DecidableEq, Repr

/-- A publisher and its workers. -/
structure Station where
  /-- The publisher, with all subscribers and sources -/
  relay : Relay
  /-- The workers, whose handlers are scripted -/
  workers : List (Worker Bench ScriptedHandler) := []
  /-- All calls of owners ever made, numbered by their order -/
  turns : List Turn := []
deriving DecidableEq, Repr

namespace Station

/-- What may take a step. -/
inductive Label
  -- A step of the publisher
  | relay (l : Relay.Label)
  -- A step of a thread of a worker, within the drain loop or outside it
  | worker (n : Nat) (l : Worker.Label ScriptedHandler)
  -- A call of an owner of a worker begins, on a thread of its own.
  | ask (worker : Nat) (call : OwnerCall ScriptedHandler)
  -- A step of a call of an owner
  | turn (k : Nat)
  -- There is one more worker.
  | addWorker (w : Worker Bench ScriptedHandler)
  -- The handlers of a worker are given a permit.
  | permit (n : Nat)
deriving DecidableEq, Repr

def subscriberOf (s : Station) (w : Worker Bench ScriptedHandler) : Option (Subscriber Actor) :=
  s.relay.subscribers[w.subscriber]?

def modifyWorker (s : Station) (n : Nat)
    (f : Worker Bench ScriptedHandler → Worker Bench ScriptedHandler) : Station :=
  { s with workers := s.workers.modify n f }

/-- The station after a step of a worker. -/
def workerStep (s : Station) (n : Nat) (l : Worker.Label ScriptedHandler) : Option Station := do
  let w ← s.workers[n]?
  let subscriber ← s.subscriberOf w
  let (v, subscriber) ← w.step ScriptedHandler.handler subscriber l
  some { s.modifyWorker n fun _ => v with relay := s.relay.setSubscriber w.subscriber subscriber }

/-- Is the handle of a worker in use? -/
def isHeld (s : Station) (worker : Nat) : Bool :=
  s.turns.any fun t => t.worker == worker && match t.stage with
    | .holding _ => true
    | _ => false

/-- Has a call of an owner of a worker begun that has not returned? -/
def isAwaited (s : Station) (worker : Nat) : Bool :=
  s.turns.any fun t => t.worker == worker && match t.stage with
    | .returned _ => false
    | _ => true

/-- The station with one call of an owner at another place. -/
def setTurn (s : Station) (k : Nat) (stage : TurnStage) : Station :=
  { s with turns := s.turns.modify k fun t => { t with stage := stage } }

/-- What a call on a worker returns at its end. -/
def replyOf (w : Worker Bench ScriptedHandler) (starts : Bool) : OwnerReply :=
  if starts then .started w.hasStarted else .stopped

/-- The station after a step of a call of an owner. -/
def turnStep (s : Station) (k : Nat) : Option Station := do
  let t ← s.turns[k]?
  let w ← s.workers[t.worker]?
  match t.stage with
  | .waiting call =>
    if s.isHeld t.worker then none
    else if w.gone then some (s.setTurn k (.returned .gone))
    else do
      let s ← s.workerStep t.worker (.begin call)
      some (s.setTurn k (.holding call.starts))
  | .holding starts =>
    if w.isFree then some (s.setTurn k (.returned (replyOf w starts)))
    else s.workerStep t.worker .owner
  | .returned _ => none

/-- The station after a step. -/
def step (s : Station) : Label → Option Station
  | .relay l => (s.relay.step l).map fun r => { s with relay := r }
  | .worker _ (.begin _) | .worker _ .owner => none
  | .worker n l => s.workerStep n l
  | .ask worker call =>
    if worker < s.workers.length then
      some { s with turns := s.turns ++ [⟨worker, .waiting call⟩] }
    else none
  | .turn k => s.turnStep k
  | .addWorker w => some { s with workers := s.workers ++ [w] }
  | .permit n =>
    some (s.modifyWorker n fun w => { w with world.permits := w.world.permits + 1 })

/-- The labels of the threads of a worker that are worth a step. -/
def workerLabels (s : Station) (n : Nat) : List Label :=
  match s.workers[n]? with
  | none => []
  | some w =>
    match s.subscriberOf w with
    | none => []
    | some subscriber => (w.labels subscriber).map (.worker n)

/-- The labels of all threads that are worth a step. Those of the publisher come first: a thread
that has been woken in a queue goes on before a worker does anything more. Once one has gone on, the
workers drain what is there before the next one does. -/
def labels (s : Station) (resumed : Bool) : List Label :=
  let publisher := s.relay.labels.map .relay
  let workers := (List.range s.workers.length).flatMap s.workerLabels
  (if resumed then workers ++ publisher else publisher ++ workers) ++
    (List.range s.turns.length).map .turn

def waiting (s : Station) : Nat :=
  s.relay.subscribers.foldl (fun n x => n + x.queue.waiting.length) 0

/-- The station after a step, and whether a push has gone on that waited. -/
def stepResuming (s : Station × Bool) (l : Label) : Option (Station × Bool) :=
  (s.1.step l).map fun t => (t, s.2 || t.waiting < s.1.waiting)

def threads (s : Station) : Nat :=
  s.workers.foldl (fun n w => n + w.task.contexts.length)
    (s.relay.calls.length + s.relay.task.contexts.length + s.turns.length)

/-- The number of units and packets on their way. -/
def load (s : Station) : Nat :=
  s.relay.sources.foldl (fun n x => n + x.memory.feed.pending) 0 +
    s.relay.subscribers.foldl (fun n x => n + x.queue.length + x.queue.waiting.length) 0

/-- A number of steps that no run to rest exceeds. A unit and a thread may each take a few dozen
accesses for every subscriber, and each packet that leaves a queue may wake every thread. -/
def budget (s : Station) : Nat :=
  64 * (s.load + s.threads + 2) * (s.relay.subscribers.length + s.threads + 2)

def settle (s : Station) : Station :=
  (Schedule.settle stepResuming (fun s => s.1.labels s.2) s.budget (s, false)).1

/-- The station after steps, of which those that cannot be taken are passed over. -/
def act (s : Station) (ls : List Label) : Station :=
  ls.foldl (fun s l => (s.step l).getD s) s

end Station

end PacketRelay
