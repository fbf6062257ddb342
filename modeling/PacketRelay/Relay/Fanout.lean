import PacketRelay.Relay

/-!
# Handing a packet to all subscribers

A packet is published only while the read loop is on and no stop is requested. The thread takes the
registry, removes the terminated entries one by one, and serves the rest in order: a single
subscriber at once, several ones only as long as no stop is requested. A stop that is seen before an
entry passes over all entries but the last; before the last one it is looked for again.

All subscribers but the last get a packet of their own, and the last one gets the packet itself. The
packet is counted, once, if it reached a subscriber.
-/

namespace PacketRelay.Fanout

/-- Where a thread is that has served all it serves. -/
def close (p : Packet) (reached : Nat) : Fanout :=
  if reached = 0 then release 0 else countPublished p reached

/-- Where a thread is that has swept a registry of the given length. -/
def afterSweep (p : Packet) (entries : Nat) : Fanout :=
  match entries with
  | 0 => countDiscarded
  | 1 => serve p 0 0 (.check p)
  | _ => choose p 0 0

/-- Where a thread is that has served an entry of a registry of the given length. -/
def afterServe (p : Packet) (entries entry reached : Nat) : Fanout :=
  if entry + 1 < entries then choose p (entry + 1) (reached + 1) else close p (reached + 1)

/-- Where a thread is that has looked for a stop request before an entry. -/
def afterChoice (p : Packet) (entries entry reached : Nat) (stopRequested : Bool) : Fanout :=
  let isLast := entries ≤ entry + 1
  if stopRequested then if isLast then close p reached else choose p (entries - 1) reached
  else serve p entry reached (.check (if isLast then p else p.copy))

/-- One access of a thread that publishes a packet. A thread that waits, for the registry or in a
queue, takes no step until it can go on. -/
def step (me : Actor) (r : Relay) : Fanout → Option (Relay × Fanout)
  | checkStop p => some (r, if r.stopRequested then finished 0 else checkStarted p)
  | checkStarted p => some (r, if r.started then acquire p else finished 0)
  | acquire p => (r.acquire me).map fun r => (r, sweep p 0)
  | sweep p entry =>
    match r.sweep entry with
    | some (r, next) => some (r, sweep p next)
    | none => some (r, afterSweep p r.registry.length)
  | choose p entry reached =>
    some (r, afterChoice p r.registry.length entry reached r.stopRequested)
  | serve p entry reached .finished =>
    some (r, afterServe p r.registry.length entry reached)
  | serve p entry reached e => do
    let n ← r.registry[entry]?
    let s ← r.subscribers[n]?
    let (s, e) ← e.step me s
    some (r.setSubscriber n s, serve p entry reached e)
  | countDiscarded => some (r.count .countDiscarded, release 0)
  | countPublished p reached => some (r.count .countPublished, countBytes p reached)
  | countBytes p reached =>
    some (r.count (·.countBytes p.size),
      if p.isKeyframe then countKeyframe reached else release reached)
  | countKeyframe reached => some (r.count .countKeyframe, release reached)
  | release reached => some (r.release, finished reached)
  | finished _ => none

end PacketRelay.Fanout
