import PacketRelay.Task
import PacketRelay.Schedule

/-!
# Tasks with scripted targets

A scripted target is a list of acts, taken from the front. Acts may note something in the log of the
task, wait for a permit or for the token of the run, call on the handle of the task from inside, or
end the target early.

## Main definitions

* `Act`, `Target`: acts and the targets made of them
* `Scripted`: a task whose targets are scripted, with its permits and its log
* `Scripted.settle`: running to rest
-/

namespace PacketRelay.Task

/-- One act of a scripted target. -/
inductive Act
  -- Notes that the target is entered.
  | noteEnter
  -- Notes that the target is left.
  | noteLeave
  -- Waits for a permit and takes it.
  | takePermit
  -- Waits for the token of the run and notes it.
  | awaitCancel
  -- Ends the target with an error or a panic.
  | fail
  -- Joins the task from inside.
  | joinSelf
  -- Notes that the join has returned.
  | noteJoined
  -- Drops the handle of the task from inside.
  | dropSelf
  -- Notes that the handle has been dropped.
  | noteDropped
deriving DecidableEq, Repr

/-- What a log holds. The Boolean says whether the token of the run was set. -/
inductive Entry
  | entered (cancelled : Bool)
  | left (cancelled : Bool)
  | cancelled
  | joined
  | dropped (cancelled : Bool)
deriving DecidableEq, Repr

def Entry.text : Entry → String
  | entered b => "enter " ++ toString b
  | left b => "leave " ++ toString b
  | cancelled => "cancelled"
  | joined => "join returned"
  | dropped b => "dropped " ++ toString b

/-- What the target does in the middle. -/
inductive Action
  | nothing
  | fail
  | untilCancel
  | selfJoin
  | selfDrop
deriving DecidableEq, Repr

def Action.acts : Action → List Act
  | nothing => []
  | fail => [.fail]
  | untilCancel => [.awaitCancel]
  | selfJoin => [.joinSelf, .noteJoined]
  | selfDrop => [.dropSelf, .noteDropped]

/-- The target that is entered, waits for a permit if it is gated, acts, and is left. -/
def Action.target (a : Action) (gated : Bool) : List Act :=
  .noteEnter :: (if gated then [.takePermit] else []) ++ a.acts ++ [.noteLeave]

/-- A task whose targets are scripted. -/
structure Scripted where
  /-- The task -/
  task : Task (List Act)
  /-- Permits not yet taken -/
  permits : Nat := 0
  /-- What the targets have noted, oldest first -/
  log : List Entry := []
deriving DecidableEq, Repr

namespace Scripted

/-- A task that has not been started. -/
def ofName (name : String) : Scripted where
  task := { name := name }

/-- A target notes something and goes on. -/
def note (s : Scripted) (run : Nat) (rest : List Act) (e : Entry) : Scripted :=
  { s with task := s.task.setTarget run rest, log := s.log ++ [e] }

/-- A target calls on the handle of its own task. If the handle is gone or in use, it goes on
without the call. -/
def callFrom (s : Scripted) (run : Nat) (rest : List Act) (call : Call (List Act)) : Scripted :=
  let t := s.task.setTarget run rest
  { s with task := if t.accepts (.target run) then t.begin (.target run) call else t }

/-- Does a target wait for its own call on the handle? -/
def isCalling (s : Scripted) (run : Nat) : Bool :=
  !s.task.isFree && s.task.caller == .target run

/-- One act of the target of a run. -/
def act (s : Scripted) (run : Nat) : Option Scripted := do
  let acts ← s.task.target? run
  if s.isCalling run then none
  else
    let set := s.task.isCancelled run
    match acts with
    | [] => some { s with task := s.task.leave run }
    | .noteEnter :: rest => some (s.note run rest (.entered set))
    | .noteLeave :: rest => some (s.note run rest (.left set))
    | .takePermit :: rest =>
      if s.permits = 0 then none
      else some { s with task := s.task.setTarget run rest, permits := s.permits - 1 }
    | .awaitCancel :: rest => if set then some (s.note run rest .cancelled) else none
    | .fail :: _ => some { s with task := s.task.leave run }
    | .joinSelf :: rest => some (s.callFrom run rest .join)
    | .noteJoined :: rest => some (s.note run rest .joined)
    | .dropSelf :: rest => some (s.callFrom run rest .drop)
    | .noteDropped :: rest => some (s.note run rest (.dropped set))

/-- What may take a step. -/
inductive Label
  -- The task makes an access.
  | task (l : Task.Label (List Act))
  -- The target of a run acts.
  | act (run : Nat)
deriving DecidableEq, Repr

/-- The scripted task after a step. Targets end by their scripts only. -/
def step (s : Scripted) : Label → Option Scripted
  | .task (.leave _) => none
  | .task l => (s.task.step l).map fun t => { s with task := t }
  | .act run => s.act run

/-- The labels of all threads and of the call in progress. -/
def labels (s : Scripted) : List Label :=
  s.task.labels.map .task ++ (List.range s.task.contexts.length).map .act

/-- A number of steps that no run to rest exceeds: a thread has at most twelve accesses outside its
target and as many acts, and a call at most sixteen. -/
def budget (s : Scripted) : Nat := 64 * (s.task.contexts.length + 2)

def settle (s : Scripted) : Scripted :=
  Schedule.settle step labels s.budget s

/-- Makes a call on the handle, which goes on until it returns or has to wait. -/
def call (s : Scripted) (c : Call (List Act)) : Scripted :=
  Schedule.settle step (fun _ => [.task .call]) s.budget { s with task := s.task.begin .outside c }

/-- Did the last call on the handle begin a run? -/
def hasStarted (s : Scripted) : Bool :=
  match s.task.position with
  | .returned b => b
  | _ => false

end Scripted

end PacketRelay.Task
