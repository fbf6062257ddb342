import PacketRelay.Task.Script
import PacketRelay.Fault

/-!
# Calls on scripted tasks, each run to rest

In a session calls are made one after the other, on tasks numbered in the order of their making, and
after each call all threads run until none can take a step. A call that has not returned by then is
in flight: until it returns, its task answers that it is busy.

## Main definitions

* `Session`: tasks, monitors, tokens, and the calls in flight
* `Session.perform`: one request
-/

namespace PacketRelay.Task

/-- A request on one of the tasks. -/
inductive Request
  | start (action : Action) (gated : Bool)
  | cancel
  | join
  | drop
  | detach
  | waitForExit (millis : Option Nat)
  | monitor
  | token
  | name
  | describe
deriving DecidableEq, Repr

/-- What a request answers. -/
inductive Reply
  | done
  | flag (b : Bool)
  | text (s : String)
  | number (n : Nat)
  | overflow (o : Overflow)
  -- The call has not returned.
  | blocked
  -- The handle has been dropped or detached.
  | noTask
  -- Another call on the handle is in flight.
  | busy
deriving DecidableEq, Repr

/-- A run of one of the tasks. -/
structure RunId where
  /-- The task -/
  task : Nat
  /-- The run -/
  run : Nat
deriving DecidableEq, Repr

/-- Tasks and what is observed of them. -/
structure Session where
  /-- The tasks -/
  tasks : List Scripted := []
  /-- The runs that are watched -/
  monitors : List RunId := []
  /-- The runs whose tokens are held -/
  tokens : List RunId := []
  /-- The calls in flight, each with its task -/
  inFlight : List (Nat × Nat) := []
  /-- The number of the next request -/
  next : Nat := 0
deriving DecidableEq, Repr

namespace Session

/-- Is a call on the task in flight? -/
def isBusy (s : Session) (task : Nat) : Bool := s.inFlight.any fun c => c.2 == task

/-- A task changed and run to rest. -/
def change (s : Session) (task : Nat) (f : Scripted → Scripted) : Session :=
  { s with tasks := s.tasks.modify task fun t => (f t).settle }

/-- Makes a call on the handle of a task. -/
def call (s : Session) (task : Nat) (c : Call (List Act)) : Session :=
  s.change task fun t => t.call c

/-- Does a task have a call in progress that was made from outside? -/
def isCalling (s : Session) (task : Nat) : Bool :=
  match s.tasks[task]? with
  | some t => !t.task.isFree && t.task.caller == .outside
  | none => false

/-- The reply of a call that may be in flight, and the session that knows about it. -/
def awaiting (s : Session) (task : Nat) : Session × Reply :=
  if s.isCalling task then ({ s with inFlight := s.inFlight ++ [(s.next, task)] }, .blocked)
  else (s, .done)

/-- Performs a request on a task whose handle is there and free. -/
def performOn (s : Session) (task : Nat) (t : Scripted) : Request → Session × Reply
  | .start action gated =>
    let t := t.call (.start (action.target gated))
    (s.change task fun _ => t, .flag t.hasStarted)
  | .cancel => (s.change task fun t => { t with task := t.task.cancel }, .done)
  | .join => (s.call task .join).awaiting task
  | .drop => (s.call task .drop).awaiting task
  | .detach =>
    let watched : Session := { s with monitors := s.monitors ++ [⟨task, t.task.current⟩] }
    (watched.call task .detach, .done)
  | .waitForExit none => (s, .overflow .deadline)
  | .waitForExit (some _) => (s, .flag (!t.task.isRunning))
  | .monitor => ({ s with monitors := s.monitors ++ [⟨task, t.task.current⟩] }, .done)
  | .token => ({ s with tokens := s.tokens ++ [⟨task, t.task.current⟩] }, .done)
  | .name => (s, .text t.task.name)
  | .describe => (s, .text t.task.text)

def advance (s : Session) : Session := { s with next := s.next + 1 }

def perform (s : Session) (task : Nat) (r : Request) : Session × Reply :=
  let (s, reply) :=
    if s.isBusy task then (s, .busy)
    else match s.tasks[task]? with
      | some t => if t.task.gone then (s, .noTask) else s.performOn task t r
      | none => (s, .noTask)
  (s.advance, reply)

/-- Makes a task that has not been started. -/
def make (s : Session) (name : String) : Session × Reply :=
  ({ s with tasks := s.tasks ++ [Scripted.ofName name] }.advance, .number s.tasks.length)

/-- Gives a permit to the targets of a task. -/
def release (s : Session) (task : Nat) : Session × Reply :=
  ((s.change task fun t => { t with permits := t.permits + 1 }).advance, .done)

/-- Cancels by a token that is held. -/
def cancelToken (s : Session) (token : Nat) : Session × Reply :=
  let s := match s.tokens[token]? with
    | some id => s.change id.task fun t => { t with task := t.task.cancelRun id.run }
    | none => s
  (s.advance, .done)

/-- Ends the calls in flight that have returned, and gives their numbers. -/
def collect (s : Session) : Session × List Nat :=
  let isOver (c : Nat × Nat) : Bool := !s.isCalling c.2
  ({ s with inFlight := s.inFlight.filter fun c => !isOver c },
    (s.inFlight.filter isOver).map Prod.fst)

/-- What the targets have noted since the logs were last taken, by tasks. -/
def takeLogs (s : Session) : Session × List (List Entry) :=
  ({ s with tasks := s.tasks.map fun t => { t with log := [] } }, s.tasks.map (·.log))

end Session

end PacketRelay.Task
