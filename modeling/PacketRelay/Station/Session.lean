import PacketRelay.Station

/-!
# Requests to a station, each run to rest

In a session requests are made one after the other, and after each of them all threads run until
none can take a step worth taking. A request that makes a call which has not returned by then is in
flight; it is answered later, when the call returns.

A publisher takes no requests once it has been given up, and it is not given up while a call on it
is in flight. A worker that is being stopped is neither started nor described; to be stopped once
more it waits for its turn.

## Main definitions

* `Request`, `Reply`: what is asked and what is answered
* `Session`: a station and the requests in flight
* `Session.perform`: one request
* `Session.collect`: the requests whose calls have returned meanwhile
-/

namespace PacketRelay.Station

/-- A request to a station. -/
inductive Request
  -- Adds a subscriber.
  | addSubscriber (name : String) (capacity : Nat)
  -- Adds a worker and its subscriber.
  | addWorker (name : String) (settings : DrainSettings)
  -- Adds a source.
  | addSource (source : ScriptedSource)
  -- Writes to a source.
  | write (source : Nat) (actions : List ScriptedSource.Action)
  -- Makes a call on the publisher or on a subscriber.
  | call (c : RelayCall)
  -- Takes a packet from the queue of a subscriber.
  | dequeue (subscriber : Nat)
  -- Takes up to a number of packets, one after the other.
  | dequeueMany (subscriber limit : Nat)
  -- Terminates a subscriber.
  | terminate (subscriber : Nat)
  -- Clears the queue of a subscriber.
  | clear (subscriber : Nat)
  -- Asks for the identity of a subscriber.
  | identify (subscriber : Nat)
  -- Compares the identities of two subscribers.
  | compare (first second : Nat)
  -- Asks for the written form of a subscriber, with some text in place of its suffix.
  | describeSubscriber (subscriber : Nat) (suffix : String)
  -- Starts a worker; the decoder of its handler is opened for the stream, if one is given.
  | startWorker (worker : Nat) (handler : ScriptedHandler) (stream : Option Stream)
  -- Stops a worker.
  | stopWorker (worker : Nat)
  -- Gives up a worker.
  | dropWorker (worker : Nat)
  -- Gives the handlers of a worker a permit.
  | permit (worker : Nat)
  -- Asks for the written form of a worker, with some text in place of the suffix.
  | describeWorker (worker : Nat) (suffix : String)
  -- Asks whether the run of the publisher is over.
  | isOver
  -- Asks for the streams of the last run.
  | streams
  -- Asks for the settings of the publisher.
  | settings
deriving DecidableEq, Repr

/-- What a request answers. -/
inductive Reply
  | done
  | flag (b : Bool)
  | number (n : Nat)
  | text (s : String)
  -- The number of a new subscriber and the capacity of its queue
  | subscriber (n capacity : Nat)
  | packet (p : Option Packet)
  | packets (ps : List Packet)
  -- The name and the identity of a subscriber
  | identity (name identity : String)
  -- The decoder of a handler has not opened.
  | unopened (e : DecodeError)
  | streams (video audio : Option Stream)
  | settings (s : PublisherSettings)
  -- A call on the publisher or on a subscriber has returned.
  | returned (r : RelayReply)
  -- A call of an owner of a worker has returned.
  | owned (r : OwnerReply)
  -- The call has not returned.
  | blocked
  -- The publisher has been given up.
  | noPublisher
  -- The source has been given away already.
  | sourceUsed
  -- Another call is in flight.
  | busy
  -- There is nothing of this number.
  | unknown
deriving DecidableEq, Repr

/-- A call that a request has made. -/
inductive Made
  -- The call of this number on the publisher or a subscriber
  | relay (n : Nat)
  -- The call of this number of an owner of a worker
  | turn (k : Nat)
deriving DecidableEq, Repr

/-- A station and the requests in flight. -/
structure Session where
  /-- The station -/
  station : Station
  /-- The requests in flight, each with the call it has made -/
  inFlight : List (Nat × Made) := []
  /-- The number of the next request -/
  next : Nat := 0
deriving DecidableEq, Repr

namespace Session

/-- A session with a publisher that has not been started. -/
def ofSettings (settings : PublisherSettings) : Session where
  station := { relay := .ofSettings settings }

/-- What a call has returned, if it has. -/
def result? (s : Session) : Made → Option Reply
  | .relay n =>
    match s.station.relay.calls[n]? with
    | some (.returned r) => some (.returned r)
    | _ => none
  | .turn k =>
    match s.station.turns[k]? with
    | some { stage := .returned r, .. } => some (.owned r)
    | _ => none

/-- Takes steps and runs to rest. -/
def act (s : Session) (ls : List Label) : Session :=
  { s with station := (s.station.act ls).settle }

/-- The reply of a request that has made a call, and the session that remembers it if it is in
flight. -/
def awaiting (s : Session) (made : Made) : Session × Reply :=
  match s.result? made with
  | some reply => (s, reply)
  | none => ({ s with inFlight := s.inFlight ++ [(s.next, made)] }, .blocked)

/-- Why a call is refused, if it is. A call that gives up the publisher again has nothing to do. -/
def refusal? (s : Session) (call : RelayCall) : Option Reply :=
  let r := s.station.relay
  if r.accepts call then none
  else match call with
    | .enqueue .. => some .unknown
    | .drop => some (if r.dropped then .returned .dropped else .busy)
    | .start .. => some (if r.dropped then .noPublisher else .sourceUsed)
    | _ => some (if r.dropped then .noPublisher else .unknown)

/-- Makes a call on the publisher or on a subscriber. -/
def call (s : Session) (c : RelayCall) : Session × Reply :=
  match s.refusal? c with
  | some reply => (s, reply)
  | none =>
    let n := s.station.relay.calls.length
    (s.act [.relay (.begin c)]).awaiting (.relay n)

/-- Takes a packet from the queue of a subscriber. -/
def dequeue (s : Session) (subscriber : Nat) : Session × Option Packet :=
  let p := s.station.relay.subscribers[subscriber]?.bind fun x => (x.queue.pop 0).1
  (s.act [.relay (.consumer subscriber (.dequeue 0))], p)

/-- Takes up to a number of packets, and ends at the first time that there is none. -/
def dequeueMany (s : Session) (subscriber : Nat) : Nat → Session × List Packet
  | 0 => (s, [])
  | limit + 1 =>
    match s.dequeue subscriber with
    | (s, none) => (s, [])
    | (s, some p) =>
      let (s, ps) := s.dequeueMany subscriber limit
      (s, p :: ps)

/-- Adds a subscriber to the station; its identity is made of the number that it gets. -/
def addSubscriber (s : Session) (name : String) (capacity : Nat) : Session × Reply :=
  let n := s.station.relay.subscribers.length
  let x := Subscriber.ofName name (Subscriber.suffixOf n) capacity
  (s.act [.relay (.addSubscriber x)], .subscriber n x.queue.capacity)

/-- Opens the decoder of a handler for a stream. Gives what it let out, and the handler with the
decoder, if it opened. -/
def openDecoder (handler : ScriptedHandler) (stream : Option Stream) :
    List ScriptedDecoder.Event × Except DecodeError ScriptedHandler :=
  match handler.decoder, stream with
  | some d, some stream =>
    let (output, opened) := ScriptedDecoder.decoder.start d stream
    (output, opened.map fun d => { handler with decoder := some d })
  | _, _ => ([], .ok { handler with decoder := none })

/-- Makes a call of an owner of a worker, which waits for its turn. -/
def callOwner (s : Session) (worker : Nat) (call : OwnerCall ScriptedHandler) : Session × Reply :=
  if worker < s.station.workers.length then
    let k := s.station.turns.length
    (s.act [.ask worker call]).awaiting (.turn k)
  else (s, .unknown)

/-- Starts a worker. What the decoder lets out is noted even if the start is then refused. -/
def startWorker (s : Session) (worker : Nat) (handler : ScriptedHandler) (stream : Option Stream) :
    Session × Reply :=
  let (output, opened) := openDecoder handler stream
  let note (w : Worker Bench ScriptedHandler) : Worker Bench ScriptedHandler :=
    { w with world := w.world.noteEvents output }
  let noted : Session := { s with station := s.station.modifyWorker worker note }
  match opened with
  | .error e => (noted, .unopened e)
  | .ok handler => noted.callOwner worker (.start handler)

/-- Performs a request on a worker that is there and whose handle nobody uses or waits for. -/
def onWorker (s : Session) (worker : Nat) (f : Worker Bench ScriptedHandler → Session × Reply) :
    Session × Reply :=
  if s.station.isAwaited worker then (s, .busy)
  else match s.station.workers[worker]? with
    | some w => if w.gone then (s, .owned .gone) else f w
    | none => (s, .unknown)

/-- The reply of a request that looks at the publisher. -/
def onPublisher (s : Session) (f : Relay → Reply) : Session × Reply :=
  (s, if s.station.relay.dropped then .noPublisher else f s.station.relay)

/-- The reply of a request that looks at a subscriber. -/
def onSubscriber (s : Session) (n : Nat) (f : Subscriber Actor → Reply) : Session × Reply :=
  (s, (s.station.relay.subscribers[n]?.map f).getD .unknown)

/-- Performs a request, which has yet to be counted. -/
def answer (s : Session) : Request → Session × Reply
  | .addSubscriber name capacity => s.addSubscriber name capacity
  | .addWorker name settings =>
    let n := s.station.relay.subscribers.length
    let (s, reply) := s.addSubscriber name settings.queueCapacity
    (s.act [.addWorker (.ofSettings n settings {})], reply)
  | .addSource source =>
    (s.act [.relay (.addSource source)], .number s.station.relay.sources.length)
  | .write source actions => (s.act (actions.map fun a => .relay (.writer source a)), .done)
  | .call c => s.call c
  | .dequeue subscriber =>
    let (s, p) := s.dequeue subscriber
    (s, .packet p)
  | .dequeueMany subscriber limit =>
    let (s, ps) := s.dequeueMany subscriber limit
    (s, .packets ps)
  | .terminate subscriber => (s.act [.relay (.consumer subscriber .terminate)], .done)
  | .clear subscriber => (s.act [.relay (.consumer subscriber .clear)], .done)
  | .identify subscriber => s.onSubscriber subscriber fun x => .identity x.name x.identity
  | .compare first second =>
    (s, .flag (s.station.relay.identity first == s.station.relay.identity second))
  | .describeSubscriber subscriber suffix =>
    s.onSubscriber subscriber fun x => .text (x.textWith suffix)
  | .startWorker worker handler stream =>
    s.onWorker worker fun _ => s.startWorker worker handler stream
  | .stopWorker worker => s.callOwner worker .stop
  | .dropWorker worker => s.callOwner worker .drop
  | .permit worker => (s.act [.permit worker], .done)
  | .describeWorker worker suffix =>
    s.onWorker worker fun w => s.onSubscriber w.subscriber fun x => .text (w.textWith x suffix)
  | .isOver => s.onPublisher fun r => .flag (!r.running)
  | .streams => s.onPublisher fun r => .streams r.video r.audio
  | .settings => s.onPublisher fun r => .settings r.settings

def perform (s : Session) (request : Request) : Session × Reply :=
  let (s, reply) := s.answer request
  ({ s with next := s.next + 1 }, reply)

/-- Ends the requests in flight whose calls have returned, and gives their numbers and replies. -/
def collect (s : Session) : Session × List (Nat × Reply) :=
  ({ s with inFlight := s.inFlight.filter fun f => (s.result? f.2).isNone },
    s.inFlight.filterMap fun f => (s.result? f.2).map (f.1, ·))

/-- The remarks made since they were last taken, by workers. -/
def takeRemarks (s : Session) : Session × List (List Remark) :=
  let workers := s.station.workers
  ({ s with station.workers := workers.map fun w => { w with world.log := [] } },
    workers.map fun w => w.world.log)

end Session

end PacketRelay.Station
