import PacketRelay.Relay.Machine

/-!
# What can be seen of a publisher

A record of a schedule shows what a step does between the threads that publish and the subscribers:
who takes the registry and with which packet, what is found in it, when a stop is looked for, which
subscriber is found active, and what enters a queue or leaves it. A step shows one of these at most.

From such a record the deliveries are read off, one for each packet that has been taken to the
registry, in the order in which the registry was taken. A thread has one delivery at a time, so that
what it does belongs to its last one.

## Main definitions

* `Relay.Event`, `Relay.observe`: what a step shows
* `Relay.Delivery`, `Relay.deliveries`: the deliveries of a record
* `Relay.pushedTo`, `Relay.dequeuedFrom`, `Relay.isGone`: what a record tells about one subscriber
-/

namespace PacketRelay

/-- The packet that the access of a thread appends to a queue, if it appends one. -/
def Enqueue.appended (a : Actor) (s : Subscriber Actor) : Enqueue → Option Packet
  | .push p => if s.queue.isFull then none else some p
  | .waiting =>
    if s.queue.isFull then none
    else (s.queue.waiting.find? fun w => w.thread == a && w.notified).map (·.item)
  | .check _ | .finished => none

namespace Relay

/-- What a step shows. -/
inductive Event
  -- The loop of a run reads a unit from a source that declares these streams.
  | read (run : Nat) (video audio : Option Nat) (u : MediaUnit)
  -- A thread takes the registry to hand out a packet.
  | took (a : Actor) (p : Packet)
  -- It has removed the terminated entries, and these are left.
  | swept (a : Actor) (entries : List Nat)
  -- It looks for a stop request before it serves an entry.
  | asked (a : Actor) (stop : Bool)
  -- It looks whether a subscriber accepts packets.
  | checked (a : Actor) (subscriber : Nat) (active : Bool)
  -- It appends a packet to the queue of a subscriber.
  | pushed (a : Actor) (subscriber : Nat) (p : Packet)
  -- It gives the registry back.
  | released (a : Actor)
  -- A call has added a subscriber and returns.
  | subscribed (subscriber : Nat)
  -- A call has removed a subscriber and returns.
  | unsubscribed (subscriber : Nat)
  -- A consumer takes a packet.
  | dequeued (subscriber : Nat) (p : Packet)
deriving DecidableEq

/-- What an access of a thread shows that puts its packet into the queue of a subscriber. -/
def observeEnqueue (a : Actor) (n : Nat) (s : Subscriber Actor) : Enqueue → Option Event
  | .check _ => some (.checked a n s.active)
  | e => (e.appended a s).map (.pushed a n)

/-- What an access of a thread shows that publishes. -/
def observeFanout (a : Actor) (r : Relay) : Fanout → Option Event
  | .acquire p => some (.took a p)
  | .sweep _ entry => if r.registry.length ≤ entry then some (.swept a r.registry) else none
  | .choose .. => some (.asked a r.stopRequested)
  | .serve _ entry _ e => do
    let n ← r.registry[entry]?
    let s ← r.subscribers[n]?
    observeEnqueue a n s e
  | .release _ => some (.released a)
  | _ => none

/-- What an access of a call shows. -/
def observeCall (r : Relay) (n : Nat) : CallStage → Option Event
  | .publish f => observeFanout (.call n) r f
  | .subscribe subscriber (.sweep entry) =>
    if r.registry.length ≤ entry && !r.isRegistered subscriber then some (.subscribed subscriber)
    else none
  | .unsubscribe subscriber (.sweep entry _) =>
    if r.registry.length ≤ entry then some (.unsubscribed subscriber) else none
  | _ => none

/-- What an access of the loop of a run shows. -/
def observeReading (r : Relay) (run : Nat) (reader : Reader) : Option Event :=
  match reader.at_ with
  | .publish f => observeFanout (.reader run) r f
  | .read => do
    let s ← r.sources[reader.source]?
    match s.read.2 with
    | some (.unit u) =>
      some (.read run (s.memory.video.map (·.index)) (s.memory.audio.map (·.index)) u)
    | _ => none
  | _ => none

/-- What a step shows. -/
def observe (r : Relay) : Label → Option Event
  | .call n => r.calls[n]?.bind (r.observeCall n)
  | .reader run => (r.task.target? run).bind (r.observeReading run)
  | .consumer n (.dequeue _) =>
    r.subscribers[n]?.bind fun s => s.queue.items.head?.map (.dequeued n)
  | _ => none

/-- One packet on its way from the registry to the subscribers. -/
structure Delivery where
  /-- The thread that publishes it -/
  actor : Actor
  packet : Packet
  /-- The registry after its sweep, once that is over -/
  entries : Option (List Nat) := none
  /-- What was found each time a stop was looked for -/
  asked : List Bool := []
  /-- The subscribers that were served, and whether they were found active -/
  checks : List (Nat × Bool) := []
  /-- What was appended to which queue -/
  gifts : List (Nat × Packet) := []
  /-- The registry has been given back. -/
  completed : Bool := false
deriving DecidableEq

/-- Changes the last delivery of a thread, in a list that starts with the last one. -/
def amend (a : Actor) (f : Delivery → Delivery) : List Delivery → List Delivery
  | [] => []
  | d :: ds => if d.actor = a then f d :: ds else d :: amend a f ds

/-- The deliveries, last one first, after one more event. -/
def enter (ds : List Delivery) : Event → List Delivery
  | .took a p => { actor := a, packet := p } :: ds
  | .swept a entries => amend a (fun d => { d with entries := some entries }) ds
  | .asked a stop => amend a (fun d => { d with asked := d.asked ++ [stop] }) ds
  | .checked a n active => amend a (fun d => { d with checks := d.checks ++ [(n, active)] }) ds
  | .pushed a n p => amend a (fun d => { d with gifts := d.gifts ++ [(n, p)] }) ds
  | .released a => amend a (fun d => { d with completed := true }) ds
  | _ => ds

/-- The deliveries of a record, last one first. -/
def ledger (log : List Event) : List Delivery :=
  log.foldl enter []

/-- The deliveries of a record, in the order in which they have taken the registry. -/
def deliveries (log : List Event) : List Delivery :=
  (ledger log).reverse

/-- The packets that a delivery has appended to the queue of a subscriber. -/
def Delivery.giftsTo (s : Nat) (d : Delivery) : List Packet :=
  (d.gifts.filter fun g => g.1 = s).map (·.2)

/-- The packets that have been appended to the queue of a subscriber by threads that publish. -/
def pushedTo (s : Nat) (log : List Event) : List Packet :=
  log.filterMap fun
    | .pushed _ n p => if n = s then some p else none
    | _ => none

/-- The packets that have been taken to the registry. -/
def taken (log : List Event) : List Packet :=
  log.filterMap fun
    | .took _ p => some p
    | _ => none

/-- The packets that have been taken from the queue of a subscriber. -/
def dequeuedFrom (s : Nat) (log : List Event) : List Packet :=
  log.filterMap fun
    | .dequeued n p => if n = s then some p else none
    | _ => none

theorem pushedTo_singleton {a : Actor} {s n : Nat} {p : Packet} :
    pushedTo s [.pushed a n p] = if n = s then [p] else [] := by
  by_cases same : n = s <;> simp [pushedTo, same]

theorem dequeuedFrom_singleton {s n : Nat} {p : Packet} :
    dequeuedFrom s [.dequeued n p] = if n = s then [p] else [] := by
  by_cases same : n = s <;> simp [dequeuedFrom, same]

/-- What was recorded before a subscriber was added. -/
def beforeAdded (s : Nat) (log : List Event) : List Event :=
  log.takeWhile fun e => e ≠ .subscribed s

theorem beforeAdded_append_of_mem {s : Nat} {log later : List Event} (added : .subscribed s ∈ log) :
    beforeAdded s (log ++ later) = beforeAdded s log := by
  unfold beforeAdded
  induction log with
  | nil => simp at added
  | cons e log ih =>
    by_cases here : e = .subscribed s
    · subst here
      simp
    · have later : .subscribed s ∈ log := (List.mem_cons.mp added).resolve_left (Ne.symm here)
      simpa [here] using ih later

theorem beforeAdded_append_subscribed {s : Nat} {log later : List Event}
    (fresh : .subscribed s ∉ log) : beforeAdded s (log ++ .subscribed s :: later) = log := by
  unfold beforeAdded
  rw [List.takeWhile_append_of_pos]
  · simp
  · intro e there
    apply decide_eq_true
    rintro rfl
    exact fresh there

theorem beforeAdded_prefix {s : Nat} {before later : List Event} :
    beforeAdded s (before ++ .subscribed s :: later) <+: before := by
  by_cases earlier : .subscribed s ∈ before
  · rw [beforeAdded_append_of_mem earlier]
    exact List.takeWhile_prefix _
  · exact (beforeAdded_append_subscribed earlier).symm ▸ List.prefix_rfl

/-- The last that has been done about a subscriber, if anything, was to remove it. -/
def isGone (s : Nat) (log : List Event) : Bool :=
  log.foldl (fun gone e => match e with
    | .subscribed n => if n = s then false else gone
    | .unsubscribed n => if n = s then true else gone
    | _ => gone) false

end Relay

end PacketRelay
