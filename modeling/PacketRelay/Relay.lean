import PacketRelay.Subscriber
import PacketRelay.Feed.Scripted
import PacketRelay.Counters
import PacketRelay.Settings
import PacketRelay.Task

/-!
# A publisher and what it shares

A publisher runs a read loop on a task of its own. The loop takes units from a source, makes packets
of them, and hands every packet to the subscribers in its registry, each of which has a bounded
queue. A queue that is full holds up the thread that pushes into it, and with it the lock of the
registry.

Calls on the publisher come from any number of threads. This module holds the state that the threads
share and, for each kind of call and for the read loop, the places where its thread can be. A step
of a thread is one access to what is shared, together with what the thread does on its own before
the next one; the steps are in the modules beside this one.

## Main definitions

* `Actor`: a thread that may hold the registry or wait in a queue
* `Fanout`: where a thread is that publishes a packet
* `Reader`, `Reading`: where the read loop of a run is
* `CallStage`: where a call is
* `Relay`: everything that is shared
-/

namespace PacketRelay

/-- A thread that may hold the registry or wait in a queue. -/
inductive Actor
  -- The thread of a call
  | call (n : Nat)
  -- The read thread of a run
  | reader (run : Nat)
deriving DecidableEq, Repr

/-- Where a thread is that publishes a packet. The number that goes along counts the subscribers
reached. -/
inductive Fanout
  -- About to look for a stop request
  | checkStop (p : Packet)
  -- About to look whether the read loop is on
  | checkStarted (p : Packet)
  -- About to take the registry
  | acquire (p : Packet)
  -- About to look whether an entry of the registry is terminated
  | sweep (p : Packet) (entry : Nat)
  -- About to look for a stop request before an entry is served
  | choose (p : Packet) (entry reached : Nat)
  -- Serving an entry
  | serve (p : Packet) (entry reached : Nat) (at_ : Enqueue)
  -- About to count a packet without subscribers
  | countDiscarded
  -- About to count a packet that reached subscribers
  | countPublished (p : Packet) (reached : Nat)
  -- About to count its payload
  | countBytes (p : Packet) (reached : Nat)
  -- About to count a key picture
  | countKeyframe (reached : Nat)
  -- About to give the registry back
  | release (reached : Nat)
  -- Done
  | finished (reached : Nat)
deriving DecidableEq, Repr

/-- Where the read loop is. -/
inductive Reading
  -- About to read the index of the video stream
  | readVideo
  -- About to read the index of the audio stream
  | readAudio
  -- About to say that the loop is on
  | raiseStarted
  -- At the head of the loop, about to look at the token
  | checkToken
  -- At the head of the loop, about to look for a stop request
  | checkStop
  -- About to read from the source
  | read
  -- About to count a unit
  | countRead (u : MediaUnit)
  -- About to number the packet of a unit
  | number (u : MediaUnit) (kind : MediaKind)
  -- Publishing a packet
  | publish (at_ : Fanout)
  -- About to pause after a read that gave nothing
  | pause
  -- In the pause
  | paused
  -- Behind the loop, about to say that it is off
  | lowerStarted
  -- About to say that the run is over
  | lowerRunning
deriving DecidableEq, Repr

/-- The read loop of a run. -/
structure Reader where
  /-- The source it reads -/
  source : Nat
  /-- The stream whose units are video -/
  videoIndex : Option Nat := none
  /-- The stream whose units are audio -/
  audioIndex : Option Nat := none
  /-- Where the loop is -/
  at_ : Reading := .readVideo
deriving DecidableEq, Repr

/-- Where a call is that adds a subscriber. -/
inductive Subscribing
  -- About to look for a stop request
  | checkStop
  -- About to take the registry
  | acquire
  -- About to look whether an entry of the registry is terminated
  | sweep (entry : Nat)
deriving DecidableEq, Repr

/-- Where a call is that removes a subscriber. -/
inductive Unsubscribing
  -- About to take the registry and remove the subscriber
  | acquire
  -- About to look whether an entry of the registry is terminated
  | sweep (entry : Nat) (removed : Bool)
deriving DecidableEq, Repr

/-- Where a call is that starts a run. -/
inductive Starting
  -- About to take the task
  | lock
  -- About to reserve the run
  | reserve
  -- Waiting for the thread of an earlier run
  | joining
  -- About to open the source
  | openSource
  -- Not opened: about to give the run back
  | refuse (e : SourceError)
  -- About to set the video stream
  | setVideo
  -- About to set the audio stream
  | setAudio
  -- About to set the address
  | setUri
  -- About to clear the stop request
  | clearStop
  -- Starting the task
  | launching
  -- Not started: about to give the run back
  | refuseThread
  -- About to share the token of the run
  | shareToken
deriving DecidableEq, Repr

/-- Where a call is that stops the run. -/
inductive Stopping
  -- About to request the stop
  | raiseStop
  -- About to cancel the token that is shared
  | cancel
deriving DecidableEq, Repr

/-- Where a call is that waits for the run to end. -/
inductive Joining
  -- About to take the task
  | lock
  -- Waiting
  | joining
deriving DecidableEq, Repr

/-- What can be read off a publisher. -/
structure Summary where
  /-- The address of the last run -/
  uri : Option String
  /-- The read loop is on. -/
  started : Bool
  /-- A stop is requested. -/
  stopRequested : Bool
  /-- The number of entries in the registry -/
  subscribers : Nat
  /-- The number of the last packet -/
  lastId : Int
deriving DecidableEq, Repr

def Summary.text (s : Summary) : String :=
  Text.record "Publisher"
    [("uri", match s.uri with
        | some uri => "Some(" ++ Text.quote uri ++ ")"
        | none => "None"),
      ("started", toString s.started), ("stop_requested", toString s.stopRequested),
      ("subscribers", toString s.subscribers), ("last_packet_id", toString s.lastId)]

/-- Where a call is that describes the publisher. It reads one thing after the other. -/
inductive Describing
  -- About to read the address
  | readUri
  -- About to look whether the read loop is on
  | readStarted (uri : Option String)
  -- About to look for a stop request
  | readStop (uri : Option String) (started : Bool)
  -- About to count the entries of the registry
  | countEntries (uri : Option String) (started stopRequested : Bool)
  -- About to read the number of the last packet
  | readLast (uri : Option String) (started stopRequested : Bool) (subscribers : Nat)
deriving DecidableEq, Repr

/-- Where a call is that gives up the publisher. -/
inductive Dropping
  -- Stopping it first
  | stop (at_ : Stopping)
  -- Dropping its task
  | dropTask
deriving DecidableEq, Repr

/-- A call that takes more than one access. -/
inductive RelayCall
  -- Hands a packet to all subscribers.
  | publish (p : Packet)
  -- Puts a packet into the queue of one subscriber.
  | enqueue (subscriber : Nat) (p : Packet)
  -- Adds a subscriber to the registry.
  | subscribe (subscriber : Nat)
  -- Removes a subscriber from the registry.
  | unsubscribe (subscriber : Nat)
  -- Opens a source and starts a run on it.
  | start (source : Nat) (uri : String)
  -- Requests the run to stop.
  | stop
  -- Waits for the run to end.
  | join
  -- Describes the publisher.
  | describe
  -- Stops the run, waits for it to end, and gives up the publisher.
  | drop
deriving DecidableEq, Repr

/-- What a call returns. -/
inductive RelayReply
  -- The number of subscribers reached
  | reached (n : Nat)
  -- The packet is in the queue, or not accepted.
  | enqueued
  -- Whether the registry has gained or lost the subscriber
  | changed (b : Bool)
  -- Why the run has not started, if it has not
  | started (e : Option Fault)
  | stopped
  | joined
  | described (s : Summary)
  | dropped
deriving DecidableEq, Repr

/-- Where a call is. -/
inductive CallStage
  | publish (at_ : Fanout)
  | enqueue (subscriber : Nat) (at_ : Enqueue)
  | subscribe (subscriber : Nat) (at_ : Subscribing)
  | unsubscribe (subscriber : Nat) (at_ : Unsubscribing)
  | start (source : Nat) (uri : String) (at_ : Starting)
  | stop (at_ : Stopping)
  | join (at_ : Joining)
  | describe (at_ : Describing)
  | drop (at_ : Dropping)
  | returned (r : RelayReply)
deriving DecidableEq, Repr

/-- Is a call in progress on the publisher, and not only on a subscriber? -/
def CallStage.isOnPublisher : CallStage → Bool
  | .enqueue .. | .returned _ => false
  | _ => true

/-- A publisher with everything that its threads share. -/
structure Relay where
  /-- The settings -/
  settings : PublisherSettings := {}
  /-- All subscribers there are, registered or not -/
  subscribers : List (Subscriber Actor) := []
  /-- All sources there are -/
  sources : List ScriptedSource := []
  /-- The registered subscribers, in the order of their registration -/
  registry : List Nat := []
  /-- The thread that holds the registry -/
  registryHolder : Option Actor := none
  /-- The read loop is on. -/
  started : Bool := false
  /-- A run is reserved and not over. -/
  running : Bool := false
  /-- A stop is requested. -/
  stopRequested : Bool := false
  /-- The last number taken for a unit, a signed word of 64 bits as long as fewer than `2 ^ 63` have
  been taken -/
  lastId : Int := 0
  /-- The run whose token is shared with those who stop; at first a token of no run -/
  token : Option Nat := none
  /-- The video stream of the last run -/
  video : Option Stream := none
  /-- The audio stream of the last run -/
  audio : Option Stream := none
  /-- The address of the last run -/
  uri : Option String := none
  /-- The counters -/
  counters : Counters := {}
  /-- The task of the read loop -/
  task : Task Reader
  /-- The call that holds the task -/
  taskHolder : Option Nat := none
  /-- All calls ever made, numbered by their order -/
  calls : List CallStage := []
  /-- The publisher has been given up. -/
  dropped : Bool := false
deriving DecidableEq, Repr

namespace Relay

/-- A publisher that has not been started. -/
def ofSettings (settings : PublisherSettings) : Relay where
  settings := settings
  task := { name := settings.threadName }

def setSubscriber (r : Relay) (n : Nat) (s : Subscriber Actor) : Relay :=
  { r with subscribers := r.subscribers.set n s }

def setSource (r : Relay) (n : Nat) (s : ScriptedSource) : Relay :=
  { r with sources := r.sources.set n s }

/-- The relay with one call at another place. -/
def setCall (r : Relay) (n : Nat) (stage : CallStage) : Relay :=
  { r with calls := r.calls.set n stage }

def count (r : Relay) (f : Counters → Counters) : Relay :=
  { r with counters := f r.counters }

/-- A thread takes the registry, if nobody holds it. -/
def acquire (r : Relay) (a : Actor) : Option Relay :=
  if r.registryHolder.isNone then some { r with registryHolder := some a } else none

/-- The holder of the registry gives it back. -/
def release (r : Relay) : Relay :=
  { r with registryHolder := none }

/-- Is an entry of the registry terminated? One that stands for no subscriber counts as such. -/
def isTerminated (r : Relay) (subscriber : Nat) : Bool :=
  match r.subscribers[subscriber]? with
  | some s => s.isTerminated
  | none => true

/-- Looks at an entry of the registry: a terminated one is removed, and any other one stays. Gives
the number of the entry to be looked at next, and nothing at the end of the registry. -/
def sweep (r : Relay) (entry : Nat) : Option (Relay × Nat) :=
  match r.registry[entry]? with
  | none => none
  | some s =>
    if r.isTerminated s then some ({ r with registry := r.registry.eraseIdx entry }, entry)
    else some (r, entry + 1)

def identity (r : Relay) (subscriber : Nat) : Option String :=
  r.subscribers[subscriber]?.map (·.identity)

/-- Does the registry have an entry with the identity of a subscriber? -/
def isRegistered (r : Relay) (subscriber : Nat) : Bool :=
  r.registry.any fun s => r.identity s == r.identity subscriber

end Relay

end PacketRelay
