import PacketRelay.Relay.Reading
import PacketRelay.Relay.Calls

/-!
# The publisher as a machine

The threads of a publisher are its calls and its read threads. Beside them, the consumers of the
subscribers and the writers of the sources act at any time.

## Main definitions

* `Relay.Label`, `Relay.step`: the machine
* `Relay.accepts`: which calls may begin
-/

namespace PacketRelay.Relay

/-- Is a call on the publisher in progress? -/
def isInUse (r : Relay) : Bool := r.calls.any CallStage.isOnPublisher

/-- May a call begin? Subscribers and sources must be there, and a source is given away once. A
publisher that has been given up takes no calls, and it is given up only while nobody uses it. -/
def accepts (r : Relay) : RelayCall → Bool
  | .enqueue subscriber _ => subscriber < r.subscribers.length
  | .subscribe subscriber | .unsubscribe subscriber =>
    !r.dropped && subscriber < r.subscribers.length
  | .start source _ =>
    !r.dropped && match r.sources[source]? with
      | some s => !s.spent
      | none => false
  | .drop => !r.dropped && !r.isInUse
  | .publish _ | .stop | .join | .describe => !r.dropped

/-- What a call changes at once: a start takes its source, and a publisher given up is gone. -/
def prepare (r : Relay) : RelayCall → Relay
  | .start source _ =>
    { r with sources := r.sources.modify source fun s => { s with spent := true } }
  | .drop => { r with dropped := true }
  | _ => r

/-- A call begins, on a thread of its own. -/
def begin (r : Relay) (call : RelayCall) : Relay :=
  let r := r.prepare call
  { r with calls := r.calls ++ [entry call] }

/-- What may take a step. -/
inductive Label
  -- A call begins.
  | begin (call : RelayCall)
  -- A call makes an access.
  | call (n : Nat)
  -- The read loop of a run makes an access.
  | reader (run : Nat)
  -- The read thread of a run makes an access outside the loop.
  | thread (run : Nat)
  -- A consumer of a subscriber acts.
  | consumer (subscriber : Nat) (action : Subscriber.Action Actor)
  -- The writer of a source acts.
  | writer (source : Nat) (action : ScriptedSource.Action)
  -- There is one more subscriber.
  | addSubscriber (s : Subscriber Actor)
  -- There is one more source.
  | addSource (s : ScriptedSource)
deriving DecidableEq, Repr

/-- The relay after a step. -/
def step (r : Relay) : Label → Option Relay
  | .begin call => if r.accepts call then some (r.begin call) else none
  | .call n => r.callStep n
  | .reader run => r.readerStep run
  | .thread run => (r.task.advanceThread run).map fun t => { r with task := t }
  | .consumer subscriber action => do
    let s ← r.subscribers[subscriber]?
    some (r.setSubscriber subscriber (s.act action))
  | .writer source action => do
    let s ← r.sources[source]?
    some (r.setSource source (s.act action))
  | .addSubscriber s => some { r with subscribers := r.subscribers ++ [s] }
  | .addSource s => some { r with sources := r.sources ++ [s] }

/-- Does the read loop of a run pause with nothing new to see? -/
def isIdle (r : Relay) (run : Nat) : Bool :=
  match r.task.target? run with
  | some { at_ := .paused, source := source, .. } =>
    !r.task.isCancelled run && !r.stopRequested &&
      match r.sources[source]? with
      | some s => s.isQuiet
      | none => true
  | _ => false

/-- The labels of all threads that are worth a step: first the calls in the order of their
beginning, so that calls that wait for the same thing get it in this order, and the read loops last.
A read loop that pauses with nothing new to see would only go around. -/
def labels (r : Relay) : List Label :=
  let runs := List.range r.task.contexts.length
  (List.range r.calls.length).map .call ++ runs.map .thread ++
    (runs.filter fun run => !r.isIdle run).map .reader

end PacketRelay.Relay
