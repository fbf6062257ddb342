import PacketRelay.Counters
import PacketRelay.Handler
import PacketRelay.Settings
import PacketRelay.Subscriber
import PacketRelay.Task

/-!
# Drain workers

A drain worker owns a subscriber and a task. A run of the task takes packets from the queue and
hands each of them to a handler, until its token is cancelled; an empty queue is looked at again
after a pause. A packet that the handler accepts or refuses counts as handled. At the end of the
loop the handler is finished. A panic, of the handler or of a pause without end, ends the run at
once: the handler is not finished, and a packet that it panicked on does not count.

Stopping a worker retires its subscriber: the run is cancelled, the subscriber is terminated and its
queue cleared, which releases the producers that wait in it, and once the thread has been waited for
the queue is cleared again. A terminated subscriber is not drained again.

Each step of the owner and of the drain thread is one access to what they share with others. The
subscriber of a worker is kept by somebody else and goes along with every step.

## Main definitions

* `Drain`: the drain loop of a run
* `Ownership`: where the owner of a worker is
* `Worker`: the worker
* `Worker.Label`, `Worker.step`: the worker, with its subscriber, as a machine
-/

namespace PacketRelay

/-- Where a drain loop is. -/
inductive Draining
  -- At the head of the loop, about to look at the token
  | checkToken
  -- About to take a packet
  | take
  -- About to give a packet to the handler
  | receive (p : Packet)
  -- The handler is at work on a packet.
  | conclude (p : Packet)
  -- About to count a packet as handled
  | count
  -- About to pause after an empty queue
  | pause
  -- In the pause
  | paused
  -- Behind the loop, about to finish the handler
  | finish
deriving DecidableEq, Repr

/-- The drain loop of a run, with a handler in state `η`. -/
structure Drain (η : Type) where
  /-- The handler -/
  handler : η
  /-- Where the loop is -/
  at_ : Draining := .checkToken
deriving DecidableEq, Repr

/-- What the owner of a worker does with it. -/
inductive OwnerCall (η : Type)
  -- Starts a run with a handler.
  | start (handler : η)
  -- Stops the run and retires the subscriber.
  | stop
  -- Stops the run, retires the subscriber, and gives up the worker.
  | drop
deriving DecidableEq, Repr

def OwnerCall.starts {η : Type} : OwnerCall η → Bool
  | .start _ => true
  | .stop | .drop => false

/-- What follows once a worker has been stopped. -/
inductive AfterStop
  -- The call returns.
  | done
  -- The task is dropped.
  | drop
deriving DecidableEq, Repr

/-- Where the owner of a worker is. -/
inductive Ownership (η : Type)
  -- Not in a call; the last start began a run or did not.
  | free (started : Bool)
  -- Starting: about to look at the mark of the subscriber
  | checkActive (handler : η)
  -- Starting the task
  | starting
  -- Stopping: about to cancel the run
  | cancel (next : AfterStop)
  -- About to terminate the subscriber
  | terminate (next : AfterStop)
  -- About to clear the queue
  | clear (next : AfterStop)
  -- Waiting for the thread to exit
  | joining (next : AfterStop)
  -- About to clear the queue again
  | clearAgain (next : AfterStop)
  -- Dropping the task
  | dropping
deriving DecidableEq, Repr

/-- A drain worker whose handlers have states in `η` and act on a world in `ω`. -/
structure Worker (ω η : Type) where
  /-- The number of its subscriber -/
  subscriber : Nat
  /-- The settings -/
  settings : DrainSettings
  /-- The world of its handlers -/
  world : ω
  /-- The task of the drain loop -/
  task : Task (Drain η)
  /-- Packets handled so far -/
  handled : Nat := 0
  /-- Where the owner is -/
  owner : Ownership η := .free false
  /-- The worker has been given up. -/
  gone : Bool := false
deriving DecidableEq, Repr

namespace Worker

variable {ω η ι : Type}

/-- A worker that has not been started. -/
def ofSettings (subscriber : Nat) (settings : DrainSettings) (world : ω) : Worker ω η where
  subscriber := subscriber
  settings := settings
  world := world
  task := { name := settings.threadName }

def isRunning (w : Worker ω η) : Bool := w.task.isRunning

/-- The owner is not in a call. -/
def isFree (w : Worker ω η) : Bool :=
  match w.owner with
  | .free _ => true
  | _ => false

/-- Did the last start begin a run? -/
def hasStarted (w : Worker ω η) : Bool :=
  match w.owner with
  | .free b => b
  | _ => false

def accepts (w : Worker ω η) : Bool := !w.gone && w.isFree

def begin (w : Worker ω η) : OwnerCall η → Worker ω η
  | .start handler => { w with owner := .checkActive handler }
  | .stop => { w with owner := .cancel .done }
  | .drop => { w with owner := .cancel .drop }

/-- The owner goes on at another place. -/
def goTo (w : Worker ω η) (owner : Ownership η) : Worker ω η :=
  { w with owner := owner }

/-- The owner begins a call on the task. -/
def beginTask (w : Worker ω η) (call : Task.Call (Drain η)) : Worker ω η :=
  { w with task := w.task.begin .outside call }

/-- One access of the call on the task; at its end the owner goes on. -/
def taskStep (w : Worker ω η) (atEnd : Worker ω η) : Option (Worker ω η) :=
  if w.task.isFree then some atEnd
  else w.task.advance.map fun t => { w with task := t }

/-- The worker once it has been stopped. -/
def afterStop (w : Worker ω η) : AfterStop → Worker ω η
  | .done => w.goTo (.free false)
  | .drop => (w.beginTask .drop).goTo .dropping

/-- Did the last start of the task begin a run? -/
def hasStartedTask (w : Worker ω η) : Bool :=
  match w.task.position with
  | .returned b => b
  | _ => false

/-- One access of the owner. -/
def ownerStep [DecidableEq ι] (w : Worker ω η) (s : Subscriber ι) :
    Option (Worker ω η × Subscriber ι) :=
  match w.owner with
  | .free _ => none
  | .checkActive handler =>
    some (if s.isTerminated then w.goTo (.free false)
      else (w.beginTask (.start { handler := handler })).goTo .starting, s)
  | .starting => (w.taskStep (w.goTo (.free w.hasStartedTask))).map (·, s)
  | .cancel next => some ({ w with task := w.task.cancel }.goTo (.terminate next), s)
  | .terminate next => some (w.goTo (.clear next), s.act .terminate)
  | .clear next => some ((w.beginTask .join).goTo (.joining next), s.act .clear)
  | .joining next => (w.taskStep (w.goTo (.clearAgain next))).map (·, s)
  | .clearAgain next => some (w.afterStop next, s.act .clear)
  | .dropping => (w.taskStep ({ w with gone := true }.goTo (.free false))).map (·, s)

/-- The drain loop of a run goes on at another place. -/
def goOn (w : Worker ω η) (run : Nat) (d : Drain η) (at_ : Draining) : Worker ω η :=
  { w with task := w.task.setTarget run { d with at_ := at_ } }

/-- The drain loop of a run is left, by its end or by a panic. -/
def leave (w : Worker ω η) (run : Nat) : Worker ω η :=
  { w with task := w.task.leave run }

def countHandled (w : Worker ω η) : Worker ω η :=
  { w with handled := Counters.increase w.handled 1 }

/-- Where the loop is once it has looked into the queue. -/
def afterTake : Option Packet → Draining
  | some p => .receive p
  | none => .pause

/-- The worker once its handler has come back from a packet. -/
def afterVerdict (w : Worker ω η) (run : Nat) (d : Drain η) : Verdict → Worker ω η
  | .accepted | .refused => w.goOn run d .count
  | .panicked => w.leave run

/-- One access of the drain loop of a run. If the loop takes a packet from a full queue, one of the
producers that wait is notified, by the given number. -/
def drainStep [DecidableEq ι] (h : Handler ω η) (w : Worker ω η) (s : Subscriber ι)
    (run pick : Nat) : Option (Worker ω η × Subscriber ι) := do
  let d ← w.task.target? run
  let next (at_ : Draining) : Option (Worker ω η × Subscriber ι) := some (w.goOn run d at_, s)
  match d.at_ with
  | .checkToken => next (if w.task.isCancelled run then .finish else .take)
  | .take =>
    some (w.goOn run d (afterTake (s.queue.pop pick).1), s.act (.dequeue pick))
  | .receive p =>
    let (world, handler) := h.receive w.world d.handler p
    some ({ w with world := world }.goOn run { d with handler := handler } (.conclude p), s)
  | .conclude p => do
    let (world, handler, verdict) ← h.conclude w.world d.handler p
    some ({ w with world := world }.afterVerdict run { d with handler := handler } verdict, s)
  | .count => some (w.countHandled.goOn run d .checkToken, s)
  | .pause =>
    match w.settings.pollInterval with
    | some _ => next .paused
    | none => some (w.leave run, s)
  | .paused => next (if w.task.isCancelled run then .finish else .checkToken)
  | .finish =>
    let (world, _) := h.finish w.world d.handler
    some ({ w with world := world }.leave run, s)

/-- What may take a step. -/
inductive Label (η : Type)
  -- The owner begins a call.
  | begin (call : OwnerCall η)
  -- The owner makes an access.
  | owner
  -- The thread of a run makes an access outside the drain loop.
  | thread (run : Nat)
  -- The drain loop of a run makes an access.
  | drain (run pick : Nat)
deriving DecidableEq, Repr

/-- The worker and its subscriber after a step. -/
def step [DecidableEq ι] (h : Handler ω η) (w : Worker ω η) (s : Subscriber ι) :
    Label η → Option (Worker ω η × Subscriber ι)
  | .begin call => if w.accepts then some (w.begin call, s) else none
  | .owner => w.ownerStep s
  | .thread run => (w.task.advanceThread run).map fun t => ({ w with task := t }, s)
  | .drain run pick => w.drainStep h s run pick

/-- Does the drain loop of a run pause with nothing new to see? -/
def isIdle (w : Worker ω η) (s : Subscriber ι) (run : Nat) : Bool :=
  match w.task.target? run with
  | some { at_ := .paused, .. } => !w.task.isCancelled run && s.queue.isEmpty
  | _ => false

/-- The labels of all drain threads that are worth a step. A drain loop that pauses with nothing new
to see would only go around. -/
def labels (w : Worker ω η) (s : Subscriber ι) : List (Label η) :=
  let runs := List.range w.task.contexts.length
  ((runs.filter fun run => !w.isIdle s run).map fun run => .drain run 0) ++
    runs.map .thread

/-- The written form of a worker, with some text in place of the suffix of its subscriber. -/
def textWith (w : Worker ω η) (s : Subscriber ι) (suffix : String) : String :=
  Text.record "DrainWorker"
    [("subscriber", s.textWith suffix), ("task", w.task.text), ("handled", toString w.handled)]

end Worker

end PacketRelay
