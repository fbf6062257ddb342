import PacketRelay.Relay.Fanout

/-!
# Calls on a publisher

* Adding a subscriber is refused while a stop is requested. Terminated entries are removed first,
  and an identity is added once.
* Removing one removes all entries of its identity, and the terminated ones after that.
* Starting holds the task throughout. It reserves the run, and a run already reserved is left alone,
  with success. It waits for the thread of the run before, opens the source, notes its streams and
  its address, clears the stop request, starts the task, and shares the token of the new run. If the
  source does not open, the run is given back.
* Stopping requests the stop and then cancels the token that is shared.
* Joining holds the task while it waits for the thread to exit.
* Giving up a publisher stops it and then drops its task.
-/

namespace PacketRelay.Relay

def answer (r : Relay) (n : Nat) (reply : RelayReply) : Relay :=
  r.setCall n (.returned reply)

/-- A call takes the task, if nobody holds it. -/
def acquireTask (r : Relay) (n : Nat) : Option Relay :=
  if r.taskHolder.isNone then some { r with taskHolder := some n } else none

/-- The call that holds the task gives it back and returns. -/
def answerFreeing (r : Relay) (n : Nat) (reply : RelayReply) : Relay :=
  { r with taskHolder := none }.answer n reply

def beginTask (r : Relay) (call : Task.Call Reader) : Relay :=
  { r with task := r.task.begin .outside call }

/-- One access of the call on the task; at its end the caller goes on. -/
def taskStep (r : Relay) (atEnd : Relay) : Option Relay :=
  if r.task.isFree then some atEnd
  else r.task.advance.map fun t => { r with task := t }

/-- The subscriber is added unless its identity is there; the registry is given back. -/
def register (r : Relay) (n subscriber : Nat) : Relay :=
  if r.isRegistered subscriber then r.release.answer n (.changed false)
  else { r with registry := r.registry ++ [subscriber] }.release.answer n (.changed true)

/-- One access of a call that adds a subscriber. -/
def subscribeStep (r : Relay) (n subscriber : Nat) : Subscribing → Option Relay
  | .checkStop =>
    some (if r.stopRequested then r.answer n (.changed false)
      else r.setCall n (.subscribe subscriber .acquire))
  | .acquire => do
    let r ← r.acquire (.call n)
    some (r.setCall n (.subscribe subscriber (.sweep 0)))
  | .sweep entry =>
    match r.sweep entry with
    | some (r, next) => some (r.setCall n (.subscribe subscriber (.sweep next)))
    | none => some (r.register n subscriber)

/-- The registry without the identity of a subscriber. -/
def unregister (r : Relay) (subscriber : Nat) : Relay :=
  { r with registry := r.registry.filter fun s => r.identity s != r.identity subscriber }

/-- One access of a call that removes a subscriber. -/
def unsubscribeStep (r : Relay) (n subscriber : Nat) : Unsubscribing → Option Relay
  | .acquire => do
    let r ← r.acquire (.call n)
    some ((r.unregister subscriber).setCall n
      (.unsubscribe subscriber (.sweep 0 (r.isRegistered subscriber))))
  | .sweep entry removed =>
    match r.sweep entry with
    | some (r, next) => some (r.setCall n (.unsubscribe subscriber (.sweep next removed)))
    | none => some (r.release.answer n (.changed removed))

/-- The source is opened, once its gate lets it through. -/
def openSource (r : Relay) (n source : Nat) (uri : String) : Option Relay := do
  let s ← r.sources[source]?
  if s.isShut then none
  else some (match s.openAt uri with
    | .ok s => (r.setSource source s).setCall n (.start source uri .setVideo)
    | .error e => r.setCall n (.start source uri (.refuse e)))

def declared (r : Relay) (source : Nat) (stream : MemorySource → Option Stream) : Option Stream :=
  r.sources[source]?.bind fun s => stream s.memory

/-- Where a start is once the task has answered. -/
def afterLaunch (r : Relay) : Starting :=
  match r.task.position with
  | .returned true => .shareToken
  | _ => .refuseThread

/-- One access of a call that starts a run. -/
def startStep (r : Relay) (n source : Nat) (uri : String) (at_ : Starting) : Option Relay :=
  let go (r : Relay) (at_ : Starting) : Relay := r.setCall n (.start source uri at_)
  match at_ with
  | .lock => do
    let r ← r.acquireTask n
    some (go r .reserve)
  | .reserve =>
    some (if r.running then r.answerFreeing n (.started none)
      else go ({ r with running := true }.beginTask .join) .joining)
  | .joining => r.taskStep (go r .openSource)
  | .openSource => r.openSource n source uri
  | .refuse e =>
    some ({ r with running := false }.answerFreeing n (.started (some (.source e))))
  | .setVideo => some (go { r with video := r.declared source (·.video) } .setAudio)
  | .setAudio => some (go { r with audio := r.declared source (·.audio) } .setUri)
  | .setUri => some (go { r with uri := some uri } .clearStop)
  | .clearStop =>
    some (go ({ r with stopRequested := false }.beginTask (.start { source := source })) .launching)
  | .launching => r.taskStep (go r r.afterLaunch)
  | .refuseThread =>
    some ({ r with running := false }.answerFreeing n
      (.started (some (.system "failed to spawn packet read thread"))))
  | .shareToken =>
    some ({ r with token := some r.task.current }.answerFreeing n (.started none))

/-- The token that is shared is cancelled. -/
def cancelShared (r : Relay) : Relay :=
  match r.token with
  | some run => { r with task := r.task.cancelRun run }
  | none => r

/-- One access of a call that waits for the run to end. -/
def joinStep (r : Relay) (n : Nat) : Joining → Option Relay
  | .lock => do
    let r ← r.acquireTask n
    some ((r.beginTask .join).setCall n (.join .joining))
  | .joining => r.taskStep (r.answerFreeing n .joined)

/-- One access of a call that describes the publisher. -/
def describeStep (r : Relay) (n : Nat) (at_ : Describing) : Option Relay :=
  let go (at_ : Describing) : Option Relay := some (r.setCall n (.describe at_))
  match at_ with
  | .readUri => go (.readStarted r.uri)
  | .readStarted uri => go (.readStop uri r.started)
  | .readStop uri started => go (.countEntries uri started r.stopRequested)
  | .countEntries uri started stop =>
    if r.registryHolder.isNone then go (.readLast uri started stop r.registry.length) else none
  | .readLast uri started stop subscribers =>
    some (r.answer n (.described ⟨uri, started, stop, subscribers, r.lastId⟩))

/-- One access of a call that gives up the publisher. -/
def dropStep (r : Relay) (n : Nat) : Dropping → Option Relay
  | .stop .raiseStop => some ({ r with stopRequested := true }.setCall n (.drop (.stop .cancel)))
  | .stop .cancel => some ((r.cancelShared.beginTask .drop).setCall n (.drop .dropTask))
  | .dropTask => r.taskStep (r.answer n .dropped)

/-- One access of a call that puts a packet into the queue of a subscriber. -/
def enqueueStep (r : Relay) (n subscriber : Nat) : Enqueue → Option Relay
  | .finished => some (r.answer n .enqueued)
  | e => do
    let s ← r.subscribers[subscriber]?
    let (s, e) ← e.step (.call n) s
    some ((r.setSubscriber subscriber s).setCall n (.enqueue subscriber e))

/-- One access of a call. -/
def callStep (r : Relay) (n : Nat) : Option Relay := do
  match ← r.calls[n]? with
  | .publish (.finished reached) => some (r.answer n (.reached reached))
  | .publish f => do
    let (r, f) ← f.step (.call n) r
    some (r.setCall n (.publish f))
  | .enqueue subscriber e => r.enqueueStep n subscriber e
  | .subscribe subscriber at_ => r.subscribeStep n subscriber at_
  | .unsubscribe subscriber at_ => r.unsubscribeStep n subscriber at_
  | .start source uri at_ => r.startStep n source uri at_
  | .stop .raiseStop => some ({ r with stopRequested := true }.setCall n (.stop .cancel))
  | .stop .cancel => some (r.cancelShared.answer n .stopped)
  | .join at_ => r.joinStep n at_
  | .describe at_ => r.describeStep n at_
  | .drop at_ => r.dropStep n at_
  | .returned _ => none

def entry : RelayCall → CallStage
  | .publish p => .publish (.checkStop p)
  | .enqueue subscriber p => .enqueue subscriber (.check p)
  | .subscribe subscriber => .subscribe subscriber .checkStop
  | .unsubscribe subscriber => .unsubscribe subscriber .acquire
  | .start source uri => .start source uri .lock
  | .stop => .stop .raiseStop
  | .join => .join .lock
  | .describe => .describe .readUri
  | .drop => .drop (.stop .raiseStop)

end PacketRelay.Relay
