import PacketRelay.Text.Quoted
import PacketRelay.Text.Record

/-!
# Tasks on threads of their own

A task is a handle by which a target is run on a thread of its own. Every run has a context, which
the handle and the thread share and which outlives whichever lets go of it first: each side clears
its own mark in the context and then attempts to release it, and the attempt that finds both marks
cleared and the context not yet released is the one that succeeds.

A run goes from starting to running when its thread is up, and becomes idle when its target has
returned or panicked. A target gets the cancel token of its own run, and no other run has that
token.

Targets are abstract here: a context holds the state `τ` of a target that is being executed, and
whoever knows what the target does changes that state through `Task.setTarget` and ends it through
`Task.leave`.

A thread that is asked for is always made: that the system may refuse one is left out.

Each step of a call and of a thread is one access to shared memory, together with what the same
thread does on its own before the next one. Calls on the handle exclude each other.

## Main definitions

* `Phase`, `Context`, `Stage`: what the handle and the thread of a run share, and where the thread
  is
* `Call`, `Position`: the calls on a handle, and where a call is
* `Task`: a handle with all contexts it has ever made
* `Task.Label`, `Task.step`: the task as a machine
-/

namespace PacketRelay

/-- The life of a run as everybody can see it. -/
inductive Phase
  -- Not started, or finished
  | idle
  -- The thread is there and has not entered the target.
  | starting
  -- The target is executed.
  | running
deriving DecidableEq, Repr

def Phase.text : Phase → String
  | idle => "Idle"
  | starting => "Starting"
  | running => "Running"

namespace Task

/-- Where an attempt to release a context is. -/
inductive Release
  -- About to look whether the handle still holds the context
  | readOwner
  -- About to look whether the thread still does
  | readThread
  -- About to mark the context as released
  | mark
  -- About to drop a target that was never entered
  | dropTarget
deriving DecidableEq, Repr

/-- Where the thread of a run is. -/
inductive Stage (τ : Type)
  -- About to mark itself as holding the context
  | spawned
  -- About to set the phase to running
  | holding
  -- About to note its identity
  | up
  -- About to take the target
  | named
  -- In the target, whose state this is
  | executing (target : τ)
  -- About to set the phase to idle
  | returned
  -- About to clear its mark
  | idle
  -- In an attempt to release the context
  | releasing (at_ : Release)
  -- Gone
  | exited
deriving DecidableEq, Repr

/-- What the handle and the thread of a run share. -/
structure Context (τ : Type) where
  /-- The phase of the run -/
  phase : Phase := .idle
  /-- The handle holds the context. -/
  ownerAlive : Bool := true
  /-- The thread holds the context. -/
  threadAlive : Bool := false
  /-- The context has been released. -/
  released : Bool := false
  /-- The thread has noted its identity. -/
  isNamed : Bool := false
  /-- The target, until the thread takes it -/
  target : Option τ := none
  /-- The cancel token of the run is set. -/
  cancelled : Bool := false
  /-- Where the thread is; none if there has never been one -/
  stage : Option (Stage τ) := none
deriving DecidableEq, Repr

/-- The context of a run that is about to begin. -/
def Context.ofTarget {τ : Type} (target : τ) : Context τ where
  phase := .starting
  threadAlive := true
  target := some target
  stage := some .spawned

/-- One access of an attempt to release a context, and how the attempt goes on. -/
def Release.step {τ : Type} (c : Context τ) : Release → Context τ × Option Release
  | .readOwner => (c, if c.ownerAlive then none else some .readThread)
  | .readThread => (c, if c.threadAlive then none else some .mark)
  | .mark => if c.released then (c, none) else ({ c with released := true }, some .dropTarget)
  | .dropTarget => ({ c with target := none }, none)

/-- One access of the thread of a run, outside its target. -/
def Context.advance {τ : Type} (c : Context τ) : Option (Context τ) :=
  match c.stage with
  | some .spawned => some { c with threadAlive := true, stage := some .holding }
  | some .holding => some { c with phase := .running, stage := some .up }
  | some .up => some { c with isNamed := true, stage := some .named }
  | some .named =>
    match c.target with
    | some t => some { c with target := none, stage := some (.executing t) }
    | none => some { c with stage := some .returned }
  | some .returned => some { c with phase := .idle, stage := some .idle }
  | some .idle => some { c with threadAlive := false, stage := some (.releasing .readOwner) }
  | some (.releasing r) =>
    let (c, next) := r.step c
    some { c with stage := some (next.elim .exited .releasing) }
  | some (.executing _) | some .exited | none => none

/-- Who calls: a thread outside all runs, or the target of a run. -/
inductive Caller
  | outside
  | target (run : Nat)
deriving DecidableEq, Repr

/-- A call on a handle that takes more than one access. -/
inductive Call (τ : Type)
  -- Runs a target on a new thread.
  | start (target : τ)
  -- Waits for the thread to exit.
  | join
  -- Gives up the handle and lets the thread run on.
  | detach
  -- Cancels, waits for the thread to exit, and gives up the handle.
  | drop
deriving DecidableEq, Repr

/-- What follows once a context has been let go of. -/
inductive AfterLetGo (τ : Type)
  -- A new run
  | spawn (target : τ)
  -- The end of the handle, which is then dropped
  | detached
  -- The end of the handle
  | dropped
deriving DecidableEq, Repr

/-- What follows once the thread has been waited for. -/
inductive AfterJoin
  -- The call returns.
  | done
  -- The context is let go of.
  | letGo
deriving DecidableEq, Repr

/-- Where a call on a handle is. -/
inductive Position (τ : Type)
  -- Starting: about to look at the phase
  | checkStart (target : τ)
  -- About to clear the mark of the handle in its context
  | letGo (next : AfterLetGo τ)
  -- In an attempt to release the context of the handle
  | releasing (at_ : Release) (next : AfterLetGo τ)
  -- About to make a new context and its thread
  | spawn (target : τ)
  -- About to take up the context of a run that has begun
  | adopt (run : Nat)
  -- Dropping: about to look whether the context is still held
  | checkDrop
  -- Dropping: about to cancel
  | cancel
  -- About to look at the phase before waiting
  | checkJoin (next : AfterJoin)
  -- Waiting for the thread of a run to exit
  | joining (run : Nat) (next : AfterJoin)
  -- Returned; a start says whether it began a run.
  | returned (started : Bool)
deriving DecidableEq, Repr

end Task

/-- A handle, all contexts it has ever made, and the call in progress on it. -/
structure Task (τ : Type) where
  /-- The name of the task and of its threads -/
  name : String
  /-- The contexts, numbered by their runs; number zero is the context of a handle that has not been
  started. -/
  contexts : List (Task.Context τ) := [{}]
  /-- The context of the handle -/
  current : Nat := 0
  /-- The run whose thread the handle can wait for -/
  joinable : Option Nat := none
  /-- The handle has been dropped or detached. -/
  gone : Bool := false
  /-- Who made the last call -/
  caller : Task.Caller := .outside
  /-- Where the last call is -/
  position : Task.Position τ := .returned false
deriving DecidableEq, Repr

namespace Task

variable {τ : Type}

def context (t : Task τ) : Context τ := t.contexts.getD t.current {}

def phase (t : Task τ) : Phase := t.context.phase

def isStarted (t : Task τ) : Bool := t.phase == .running

/-- Has a run begun that has not finished? -/
def isRunning (t : Task τ) : Bool := t.phase != .idle

/-- Has the thread of the current run noted its identity? -/
def isNamed (t : Task τ) : Bool := t.context.isNamed

def isFree (t : Task τ) : Bool :=
  match t.position with
  | .returned _ => true
  | _ => false

/-- The token of a run is set. -/
def isCancelled (t : Task τ) (run : Nat) : Bool := (t.contexts.getD run {}).cancelled

/-- The context of a run has been released. -/
def isReleased (t : Task τ) (run : Nat) : Bool := (t.contexts.getD run {}).released

/-- The state of the target that a run executes. -/
def target? (t : Task τ) (run : Nat) : Option τ :=
  match t.contexts[run]? with
  | some { stage := some (.executing target), .. } => some target
  | _ => none

/-- The thread of a run has exited. -/
def hasExited (t : Task τ) (run : Nat) : Bool :=
  match t.contexts[run]? with
  | some { stage := some .exited, .. } => true
  | _ => false

def modify (t : Task τ) (run : Nat) (f : Context τ → Context τ) : Task τ :=
  { t with contexts := t.contexts.modify run f }

/-- The target of a run goes on to another state. -/
def setTarget (t : Task τ) (run : Nat) (target : τ) : Task τ :=
  t.modify run fun c => { c with stage := some (.executing target) }

/-- The target of a run returns or panics; the thread goes on behind it either way. -/
def leave (t : Task τ) (run : Nat) : Task τ :=
  t.modify run fun c => { c with stage := some .returned }

def cancelRun (t : Task τ) (run : Nat) : Task τ :=
  t.modify run fun c => { c with cancelled := true }

/-- Sets the token of the current run. -/
def cancel (t : Task τ) : Task τ := t.cancelRun t.current

/-- May a call begin? The handle must be there, no other call may be in progress, and a target that
calls must be executed. -/
def accepts (t : Task τ) (by_ : Caller) : Bool :=
  !t.gone && t.isFree &&
    match by_ with
    | .outside => true
    | .target run => (t.target? run).isSome

def Call.entry : Call τ → Position τ
  | .start target => .checkStart target
  | .join => .checkJoin .done
  | .detach => .letGo .detached
  | .drop => .checkDrop

def begin (t : Task τ) (by_ : Caller) (call : Call τ) : Task τ :=
  { t with caller := by_, position := call.entry }

/-- The position once the thread of the handle has been waited for. -/
def AfterJoin.position : AfterJoin → Position τ
  | .done => .returned false
  | .letGo => .letGo .dropped

/-- The task once the handle has let go of its context. -/
def afterLetGo (t : Task τ) : AfterLetGo τ → Task τ
  | .spawn target => { t with position := .spawn target }
  | .detached => { t with position := .checkDrop }
  | .dropped => { t with position := .returned false, gone := true }

/-- The task once the phase has been looked at before waiting: there is nothing to wait for if the
run is over, if its thread has been waited for already, or if that thread is the caller. -/
def afterJoinCheck (t : Task τ) (next : AfterJoin) : Task τ :=
  if t.isRunning then
    match t.joinable with
    | some run =>
      if t.caller = .target run then { t with position := next.position }
      else { t with joinable := none, position := .joining run next }
    | none => { t with position := next.position }
  else { t with position := next.position }

/-- One access of the call in progress. A call that waits for a thread takes no step until that
thread has exited. -/
def advance (t : Task τ) : Option (Task τ) :=
  match t.position with
  | .checkStart target =>
    some { t with position := if t.isRunning then .returned false else .letGo (.spawn target) }
  | .letGo next =>
    some { t.modify t.current fun c => { c with ownerAlive := false } with
      joinable := none, position := .releasing .readOwner next }
  | .releasing r next =>
    let (c, more) := r.step t.context
    let t := t.modify t.current fun _ => c
    match more with
    | some r => some { t with position := .releasing r next }
    | none => some (t.afterLetGo next)
  | .spawn target =>
    some { t with
      contexts := t.contexts ++ [.ofTarget target], position := .adopt t.contexts.length }
  | .adopt run =>
    some { t with current := run, joinable := some run, position := .returned true }
  | .checkDrop =>
    if t.context.ownerAlive then some { t with position := .cancel }
    else some { t with position := .returned false, gone := true }
  | .cancel => some { t.cancel with position := .checkJoin .letGo }
  | .checkJoin next => some (t.afterJoinCheck next)
  | .joining run next =>
    if t.hasExited run then some { t with position := next.position } else none
  | .returned _ => none

/-- What may take a step. -/
inductive Label (τ : Type)
  -- A call begins.
  | begin (by_ : Caller) (call : Call τ)
  -- The call in progress makes an access.
  | call
  -- The thread of a run makes an access outside its target.
  | thread (run : Nat)
  -- The target of a run returns or panics.
  | leave (run : Nat)
  -- Some thread cancels by the handle.
  | cancel
  -- Some thread cancels by a clone of the token of a run.
  | cancelRun (run : Nat)
deriving DecidableEq, Repr

/-- The thread of a run makes an access outside its target. -/
def advanceThread (t : Task τ) (run : Nat) : Option (Task τ) := do
  let c ← t.contexts[run]?
  let c ← c.advance
  some (t.modify run fun _ => c)

/-- May the target of a run end? It may not while a call of its own is in progress. -/
def mayLeave (t : Task τ) (run : Nat) : Bool :=
  (t.target? run).isSome && (t.isFree || t.caller != .target run)

/-- The task after a step. -/
def step (t : Task τ) : Label τ → Option (Task τ)
  | .begin by_ call => if t.accepts by_ then some (t.begin by_ call) else none
  | .call => t.advance
  | .thread run => t.advanceThread run
  | .leave run => if t.mayLeave run then some (t.leave run) else none
  | .cancel => if t.accepts .outside then some t.cancel else none
  | .cancelRun run => if run < t.contexts.length then some (t.cancelRun run) else none

/-- The labels of all threads and of the call in progress. -/
def labels (t : Task τ) : List (Label τ) :=
  .call :: (List.range t.contexts.length).map .thread

def text (t : Task τ) : String :=
  Text.record "BackgroundTask" [("name", Text.quote t.name), ("state", t.phase.text)]

end Task

end PacketRelay
