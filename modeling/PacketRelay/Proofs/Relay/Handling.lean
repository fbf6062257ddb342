import PacketRelay.Proofs.Packet.Unit
import PacketRelay.Proofs.Relay.Origin
import PacketRelay.Proofs.Relay.Report
import Mathlib

/-!
# What becomes of a unit

A loop counts every unit that it reads, takes a number for it if its stream is forwarded, and publishes
the packet that it makes of it. On this way the unit may be found too short, the registry empty, or a
stop requested, and some of these ways end before anything is counted. A record of what a loop shows of
its units tells which way each of them has gone.

## Main definitions

* `Relay.Sight`, `Relay.sight`: what a loop shows of the unit that it has in hand
* `Relay.Handling`, `Relay.handlings`: the units of a record, with what has been shown of them
* `Relay.Fate`, `Relay.Handling.meets`: what becomes of a unit
* `Relay.Handling.count`: what a unit adds to the counters
* `Relay.Handling.Counts`: a unit and the counters are where the thread is that publishes its packet

## Main results

* `Relay.Handling.Counts.step`: an access of the thread keeps this
* `Relay.reckoning_eq`: the counters, told by what has become of the units
-/

namespace PacketRelay

/-- A unit that is long enough becomes a packet of its size. -/
theorem Packet.size_of_ofUnit? {id : Int} {u : MediaUnit} {kind : MediaKind} {p : Packet}
    (made : Packet.ofUnit? id u kind = some p) : 2 ≤ u.data.length ∧ p.size = u.data.length := by
  obtain ⟨long, rfl⟩ := eq_carrier_of_ofUnit? made
  exact ⟨long, rfl⟩

namespace Relay

/-- What a loop shows of the unit that it has in hand. -/
inductive Sight
  -- It reads the unit from a source that declares these streams.
  | read (source : Nat) (video audio : Option Nat) (u : MediaUnit)
  -- It takes a number for the unit.
  | numbered (id : Int)
  -- It looks for a stop request, before it publishes the packet or before it serves an entry.
  | asked (stop : Bool)
  -- It has removed the terminated entries of the registry, and these are left.
  | swept (entries : List Nat)
  -- It comes to a subscriber with the packet, whether this accepts it or not.
  | served (subscriber : Nat)
deriving DecidableEq

/-- What an access of a loop shows that publishes. -/
def sightFanout (r : Relay) : Fanout → Option Sight
  | .checkStop _ | .choose .. => some (.asked r.stopRequested)
  | .sweep _ entry => if r.registry.length ≤ entry then some (.swept r.registry) else none
  | .serve _ entry _ (.check _) => r.registry[entry]?.map .served
  | _ => none

/-- What an access of a loop shows. -/
def sightReading (r : Relay) (reader : Reader) : Option Sight :=
  match reader.at_ with
  | .read => do
    let s ← r.sources[reader.source]?
    match s.read.2 with
    | some (.unit u) => some (.read reader.source s.indexes.1 s.indexes.2 u)
    | _ => none
  | .number .. => some (.numbered (r.lastId + 1))
  | .publish f => sightFanout r f
  | _ => none

/-- What a step shows of a unit. -/
def sight (r : Relay) : Label → Option Sight
  | .reader run => (r.task.target? run).bind r.sightReading
  | _ => none

/-- A unit that has been read, with what has been shown of it. -/
structure Handling where
  /-- The source of the unit -/
  source : Nat
  /-- The video stream of this source -/
  video : Option Nat
  /-- The audio stream of this source -/
  audio : Option Nat
  unit : MediaUnit
  /-- The number that was taken for it -/
  number : Option Int := none
  /-- What was found each time a stop was looked for -/
  stops : List Bool := []
  /-- The registry after its sweep, once that is over -/
  entries : Option (List Nat) := none
  /-- The subscribers that were served -/
  served : List Nat := []
deriving DecidableEq

/-- The units, last one first, after one more has been shown or more has been shown of the last one. -/
def attend (hs : List Handling) : Sight → List Handling
  | .read source video audio u => { source, video, audio, unit := u } :: hs
  | .numbered id => hs.modifyHead fun h => { h with number := some id }
  | .asked stop => hs.modifyHead fun h => { h with stops := h.stops ++ [stop] }
  | .swept entries => hs.modifyHead fun h => { h with entries := some entries }
  | .served subscriber => hs.modifyHead fun h => { h with served := h.served ++ [subscriber] }

/-- The units of a record, last one first. -/
def handlings (log : List Sight) : List Handling :=
  log.foldl attend []

/-- What can become of a unit that is forwarded. -/
inductive Fate
  -- It is too short for a packet.
  | short
  -- There was nobody in the registry.
  | discarded
  -- A thread has come to a subscriber with its packet.
  | published
  -- It was not published since a stop was requested.
  | suppressed
deriving DecidableEq

namespace Handling

/-- The payload of the unit, in bytes. -/
def size (h : Handling) : Nat := h.unit.data.length

/-- What becomes of a unit by the streams of its source. -/
def kind? (forwardAudio : Bool) (h : Handling) : Option MediaKind :=
  route { source := h.source, videoIndex := h.video, audioIndex := h.audio } forwardAudio h.unit.stream

/-- Is the stream of the unit forwarded? -/
def isRouted (forwardAudio : Bool) (h : Handling) : Bool := (h.kind? forwardAudio).isSome

/-- The packet of a unit that has its number. -/
def packet? (forwardAudio : Bool) (h : Handling) : Option Packet :=
  h.number.bind fun id => (h.kind? forwardAudio).bind (Packet.ofUnit? id h.unit)

/-- Does the packet of the unit start a key picture? -/
def isKeyframe (forwardAudio : Bool) (h : Handling) : Bool :=
  (h.packet? forwardAudio).any Packet.isKeyframe

/-- Is this what has become of the unit? -/
def meets (h : Handling) : Fate → Bool
  | .short => h.size < 2
  | .discarded => h.entries = some []
  | .published => h.served ≠ []
  | .suppressed => h.stops.contains true && h.served = []

/-- The counters after the packet of a unit, if it came so far. A packet counts once, whomever it has
come to. -/
def passOn (forwardAudio : Bool) (c : Counters) (h : Handling) : Counters :=
  if h.served ≠ [] then
    let c := c.countPublished.countBytes h.size
    if h.isKeyframe forwardAudio then c.countKeyframe else c
  else if h.entries = some [] then c.countDiscarded
  else c

/-- The counters after a unit. -/
def count (forwardAudio : Bool) (c : Counters) (h : Handling) : Counters :=
  h.passOn forwardAudio c.countRead

/-- A unit is done with: one thing has become of it if it is forwarded, and nothing otherwise. -/
structure IsOver (forwardAudio : Bool) (h : Handling) : Prop where
  aside : h.isRouted forwardAudio = false → h.entries = none ∧ h.served = []
  fate : h.isRouted forwardAudio → ∃! fate, h.meets fate

/-- The packet of a unit has not come to the registry, and no stop has been seen. -/
def IsUntouched (h : Handling) : Prop :=
  h.entries = none ∧ h.served = [] ∧ true ∉ h.stops

end Handling

/-- The counters after some units, of which the last one comes first. -/
def reckoning (forwardAudio : Bool) (hs : List Handling) : Counters :=
  hs.foldr (fun h c => h.count forwardAudio c) {}

section Fates

variable {forwardAudio : Bool} {h : Handling} {hs : List Handling} {p : Packet}

namespace Handling

theorem count_of_isUntouched {c : Counters} (untouched : h.IsUntouched) :
    h.count forwardAudio c = c.countRead := by
  obtain ⟨none_, nobody, -⟩ := untouched
  simp [count, passOn, none_, nobody]

/-- A unit that has a packet is forwarded and long enough, and the packet has its size. -/
theorem facts_of_packet? (carries : h.packet? forwardAudio = some p) :
    h.isRouted forwardAudio ∧ 2 ≤ h.size ∧ p.size = h.size ∧
      p.isKeyframe = h.isKeyframe forwardAudio := by
  obtain ⟨id, -, kept⟩ := Option.bind_eq_some_iff.mp carries
  obtain ⟨kind, routed, made⟩ := Option.bind_eq_some_iff.mp kept
  obtain ⟨long, size⟩ := Packet.size_of_ofUnit? made
  exact ⟨by simp [isRouted, routed], long, size, by simp [isKeyframe, carries]⟩

theorem isOver_of_unique (fate : Fate) (routed : h.isRouted forwardAudio) (own : h.meets fate)
    (only : ∀ other, h.meets other → other = fate) : h.IsOver forwardAudio :=
  ⟨fun off => by simp [routed] at off, fun _ => ⟨fate, own, only⟩⟩

/-- The unit of a stream that is not forwarded is done with at once. -/
theorem isOver_of_aside (aside : h.isRouted forwardAudio = false) (untouched : h.IsUntouched) :
    h.IsOver forwardAudio :=
  ⟨fun _ => ⟨untouched.1, untouched.2.1⟩, fun routed => by simp [aside] at routed⟩

/-- A unit is too short. -/
theorem isOver_of_short (routed : h.isRouted forwardAudio) (short : h.size < 2)
    (untouched : h.IsUntouched) : h.IsOver forwardAudio := by
  obtain ⟨none_, nobody, unseen⟩ := untouched
  refine isOver_of_unique .short routed (by simpa [meets] using short) ?_
  intro other here
  cases other <;> simp_all [meets]

/-- There was nobody in the registry. -/
theorem isOver_of_discarded (routed : h.isRouted forwardAudio) (long : 2 ≤ h.size)
    (untouched : h.entries = some [] ∧ h.served = [] ∧ true ∉ h.stops) : h.IsOver forwardAudio := by
  refine isOver_of_unique .discarded routed (by simp [meets, untouched.1]) ?_
  intro other here
  cases other <;> simp_all [meets]
  omega

/-- The packet has come to a subscriber. -/
theorem isOver_of_published (routed : h.isRouted forwardAudio) (long : 2 ≤ h.size)
    (some_ : h.entries ≠ some []) (served : h.served ≠ []) : h.IsOver forwardAudio := by
  refine isOver_of_unique .published routed (by simp [meets, served]) ?_
  intro other here
  cases other <;> simp_all [meets]
  omega

/-- A stop was seen before the packet came to a subscriber. -/
theorem isOver_of_suppressed (routed : h.isRouted forwardAudio) (long : 2 ≤ h.size)
    (some_ : h.entries ≠ some []) (nobody : h.served = []) (stop : true ∈ h.stops) :
    h.IsOver forwardAudio := by
  refine isOver_of_unique .suppressed routed (by simp [meets, nobody, stop]) ?_
  intro other here
  cases other <;> simp_all [meets]
  omega

/-- A unit and the counters are where the thread is that publishes its packet: the thread has come to
as many subscribers as it says, and has added to the counters what it has added so far. -/
def Counts (forwardAudio : Bool) (h : Handling) (before now : Counters) : Fanout → Prop
  | .checkStop p | .checkStarted p | .acquire p | .sweep p _ =>
    h.packet? forwardAudio = some p ∧ h.IsUntouched ∧ now = before
  | .choose p _ k | .serve p _ k (.check _) =>
    (h.packet? forwardAudio = some p ∧ h.entries ≠ some []) ∧ h.served.length = k ∧ now = before
  | .serve p _ k _ =>
    (h.packet? forwardAudio = some p ∧ h.entries ≠ some []) ∧ h.served.length = k + 1 ∧ now = before
  | .countDiscarded => h.packet? forwardAudio ≠ none ∧
      (h.entries = some [] ∧ h.served = [] ∧ true ∉ h.stops) ∧ now = before
  | .countPublished p _ =>
    (h.packet? forwardAudio = some p ∧ h.entries ≠ some []) ∧ h.served ≠ [] ∧ now = before
  | .countBytes p _ => (h.packet? forwardAudio = some p ∧ h.entries ≠ some []) ∧ h.served ≠ [] ∧
      now = before.countPublished
  | .countKeyframe _ => (h.packet? forwardAudio ≠ none ∧ h.entries ≠ some []) ∧
      (h.served ≠ [] ∧ h.isKeyframe forwardAudio) ∧
      now = before.countPublished.countBytes h.size
  | .release _ | .finished _ => h.IsOver forwardAudio ∧ now = h.passOn forwardAudio before

variable {before now : Counters} {entry reached : Nat}

/-- A thread has served all it serves. If it has served nobody, it has seen a stop. -/
theorem counts_close (this : h.packet? forwardAudio = some p ∧ h.entries ≠ some [])
    (length : h.served.length = reached) (seen : reached = 0 → true ∈ h.stops) :
    h.Counts forwardAudio before before (.close p reached) := by
  obtain ⟨routed, long, -⟩ := facts_of_packet? this.1
  unfold Fanout.close
  split
  · next none_ =>
    have nobody : h.served = [] := List.length_eq_zero_iff.mp (length.trans none_)
    refine ⟨isOver_of_suppressed routed long this.2 nobody (seen none_), ?_⟩
    simp [passOn, nobody, this.2]
  · next some_ =>
    refine ⟨this, ?_, rfl⟩
    intro nobody
    rw [nobody] at length
    exact some_ length.symm

theorem Counts.swept {es : List Nat} (counts : h.Counts forwardAudio before now (.sweep p entry)) :
    Counts forwardAudio { h with entries := some es } before now (.afterSweep p es.length) := by
  obtain ⟨carries, ⟨-, nobody, unseen⟩, rfl⟩ := counts
  unfold Fanout.afterSweep
  have length : h.served.length = 0 := by rw [nobody]; rfl
  split
  · next none_ =>
    have carried : h.packet? forwardAudio ≠ none := by simp [carries]
    refine ⟨carried, ⟨?_, nobody, unseen⟩, rfl⟩
    rw [List.length_eq_zero_iff.mp none_]
  · next one =>
    refine ⟨⟨carries, ?_⟩, length, rfl⟩
    rintro ⟨⟩
    simp at one
  · next some_ _ =>
    refine ⟨⟨carries, ?_⟩, length, rfl⟩
    rintro ⟨⟩
    exact some_ rfl

theorem Counts.asked {entries : Nat}
    (counts : h.Counts forwardAudio before now (.choose p entry reached)) (stop : Bool) :
    Counts forwardAudio { h with stops := h.stops ++ [stop] } before now
      (.afterChoice p entries entry reached stop) := by
  obtain ⟨this, length, rfl⟩ := counts
  unfold Fanout.afterChoice
  cases stop with
  | false => exact ⟨this, length, rfl⟩
  | true =>
    dsimp only
    rw [if_pos rfl]
    split
    · exact counts_close this length fun _ => by simp
    · exact ⟨this, length, rfl⟩

theorem Counts.servedAll {entries : Nat}
    (counts : h.Counts forwardAudio before now (.serve p entry reached .finished)) :
    h.Counts forwardAudio before now (.afterServe p entries entry reached) := by
  obtain ⟨this, length, rfl⟩ := counts
  unfold Fanout.afterServe
  split
  · exact ⟨this, length, rfl⟩
  · exact counts_close this length (by simp)

/-- Behind the check a thread has come to one subscriber more. -/
theorem counts_serve_iff {e : Enqueue} (beyond : ∀ q, e ≠ .check q) :
    h.Counts forwardAudio before now (.serve p entry reached e) ↔
      (h.packet? forwardAudio = some p ∧ h.entries ≠ some []) ∧ h.served.length = reached + 1 ∧
        now = before := by
  cases e with
  | check q => exact absurd rfl (beyond q)
  | _ => rfl

variable {r r' : Relay} {a : Actor} {f f' : Fanout}

/-- **An access of a thread that publishes the packet of a unit** is told by what it shows, and adds to
the counters what it should. -/
theorem Counts.step (past : List Handling) (started : r.started)
    (counts : h.Counts forwardAudio before r.counters f) (last : f.step a r = some (r', f')) :
    ∃ h', (r.sightFanout f).toList.foldl attend (h :: past) = h' :: past ∧
      h'.isRouted forwardAudio = h.isRouted forwardAudio ∧
      h'.Counts forwardAudio before r'.counters f' := by
  cases f with
  | checkStop p =>
    obtain ⟨rfl, rfl⟩ := Prod.mk.inj (Option.some.inj last)
    obtain ⟨carries, ⟨none_, nobody, unseen⟩, same⟩ := counts
    obtain ⟨routed, long, -⟩ := facts_of_packet? carries
    refine ⟨_, rfl, rfl, ?_⟩
    split
    · next stop =>
      refine ⟨isOver_of_suppressed routed long (by simp [none_]) nobody (by simp [stop]), ?_⟩
      simp [passOn, nobody, none_, same]
    · next going =>
      exact ⟨carries, ⟨none_, nobody, by simpa [going] using unseen⟩, same⟩
  | checkStarted p =>
    obtain ⟨rfl, rfl⟩ := Prod.mk.inj (Option.some.inj last)
    rw [if_pos started]
    exact ⟨h, rfl, rfl, counts⟩
  | acquire p =>
    obtain ⟨-, rfl, rfl⟩ := step_acquire last
    exact ⟨h, rfl, rfl, counts⟩
  | sweep p entry =>
    rcases step_sweep last with ⟨next, found, rfl⟩ | ⟨beyond, rfl, rfl⟩
    · rw [sightFanout, if_neg (not_le_of_sweep found), sweep_frame found]
      exact ⟨h, rfl, rfl, counts⟩
    · rw [sightFanout, if_pos (sweep_eq_none_iff.mp beyond)]
      exact ⟨_, rfl, rfl, counts.swept⟩
  | choose p entry reached =>
    obtain ⟨rfl, rfl⟩ := Prod.mk.inj (Option.some.inj last)
    exact ⟨_, rfl, rfl, counts.asked r.stopRequested⟩
  | serve p entry reached e =>
    rcases step_serve last with
      ⟨rfl, rfl, rfl⟩ | ⟨n, s, s', e', entered, there, step, rfl, rfl⟩
    · exact ⟨h, rfl, rfl, counts.servedAll⟩
    · rcases Enqueue.step_cases step with ⟨q, rfl, rfl⟩ | ⟨due, after⟩
      · obtain ⟨this, length, same⟩ := counts
        rw [sightFanout, entered]
        refine ⟨_, rfl, rfl, ?_⟩
        have more : (h.served ++ [n]).length = reached + 1 := by simp [length]
        split <;> exact ⟨this, more, same⟩
      · -- The thread has come to the subscriber already.
        have beyond : ∀ q, e ≠ .check q := by rcases due with ⟨q, rfl⟩ | rfl <;> simp
        have quiet : r.sightFanout (.serve p entry reached e) = none := by
          rcases due with ⟨q, rfl⟩ | rfl <;> rfl
        have still := (counts_serve_iff beyond).mp counts
        rw [quiet]
        refine ⟨h, rfl, rfl, ?_⟩
        rcases after with ⟨-, rfl⟩ | ⟨q, -, rfl⟩ <;> exact still
  | countDiscarded =>
    obtain ⟨rfl, rfl⟩ := Prod.mk.inj (Option.some.inj last)
    obtain ⟨some_, empty, same⟩ := counts
    obtain ⟨p, carries⟩ := Option.ne_none_iff_exists'.mp some_
    obtain ⟨routed, long, -⟩ := facts_of_packet? carries
    refine ⟨h, rfl, rfl, isOver_of_discarded routed long empty, ?_⟩
    simp [passOn, empty.1, empty.2.1, Relay.count, same]
  | countPublished p reached =>
    obtain ⟨rfl, rfl⟩ := Prod.mk.inj (Option.some.inj last)
    obtain ⟨this, somebody, same⟩ := counts
    exact ⟨h, rfl, rfl, this, somebody, congrArg Counters.countPublished same⟩
  | countBytes p reached =>
    obtain ⟨rfl, rfl⟩ := Prod.mk.inj (Option.some.inj last)
    obtain ⟨⟨carries, some_⟩, somebody, same⟩ := counts
    obtain ⟨routed, long, size, key⟩ := facts_of_packet? carries
    have bytes : (r.count (·.countBytes p.size)).counters =
        before.countPublished.countBytes h.size := by
      simp [Relay.count, same, size]
    refine ⟨h, rfl, rfl, ?_⟩
    split
    · next starts =>
      exact ⟨⟨by simp [carries], some_⟩, ⟨somebody, key ▸ starts⟩, bytes⟩
    · next plain =>
      refine ⟨isOver_of_published routed long some_ somebody, ?_⟩
      rw [bytes, passOn, if_pos somebody, ← key, if_neg plain]
  | countKeyframe reached =>
    obtain ⟨rfl, rfl⟩ := Prod.mk.inj (Option.some.inj last)
    obtain ⟨⟨carried, some_⟩, ⟨somebody, key⟩, same⟩ := counts
    obtain ⟨p, carries⟩ := Option.ne_none_iff_exists'.mp carried
    obtain ⟨routed, long, -⟩ := facts_of_packet? carries
    refine ⟨h, rfl, rfl, isOver_of_published routed long some_ somebody, ?_⟩
    rw [passOn, if_pos somebody, if_pos key, ← same]
    rfl
  | release reached =>
    obtain ⟨rfl, rfl⟩ := Prod.mk.inj (Option.some.inj last)
    exact ⟨h, rfl, rfl, counts⟩
  | finished => simp [Fanout.step] at last

/-- One thing at most has become of a unit. -/
theorem IsOver.eq_of_meets {fate other : Fate} (spent : h.IsOver forwardAudio)
    (routed : h.isRouted forwardAudio) (this : h.meets fate) (that : h.meets other) : fate = other := by
  obtain ⟨_, -, only⟩ := spent.fate routed
  exact (only fate this).trans (only other that).symm

/-- What is published or discarded is of a stream that is forwarded. -/
theorem IsOver.isRouted (spent : h.IsOver forwardAudio)
    (counted : h.meets .published ∨ h.meets .discarded) : h.isRouted forwardAudio := by
  by_contra off
  obtain ⟨none_, nobody⟩ := spent.aside (by simpa using off)
  simp [meets, none_, nobody] at counted

end Handling

theorem increase_mod (a b : Nat) :
    Counters.increase (a % counterRange) b = (a + b) % counterRange :=
  Nat.mod_add_mod a counterRange b

/-- **The counters, told by what has become of the units.** They wrap around. -/
theorem reckoning_eq (spent : ∀ h ∈ hs, h.IsOver forwardAudio) : reckoning forwardAudio hs =
    { unitsRead := hs.length % counterRange
      published := (hs.filter (·.meets .published)).length % counterRange
      discarded := (hs.filter (·.meets .discarded)).length % counterRange
      keyframes := ((hs.filter (·.meets .published)).countP
        (·.isKeyframe forwardAudio)) % counterRange
      bytes := ((hs.filter (·.meets .published)).map Handling.size).sum % counterRange } := by
  induction hs with
  | nil => rfl
  | cons h hs ih =>
    have rest := ih fun x inside => spent x (List.mem_cons_of_mem h inside)
    have single (published : h.meets .published) : h.meets .discarded = false := by
      have closed := spent h List.mem_cons_self
      by_contra discarded
      have same := closed.eq_of_meets (closed.isRouted (.inl published)) published
        (Bool.of_not_eq_false discarded)
      cases same
    rw [reckoning, List.foldr_cons, ← reckoning, rest, Handling.count, Handling.passOn]
    by_cases published : h.meets .published
    · have served : h.served ≠ [] := by simpa [Handling.meets] using published
      rw [if_pos served]
      by_cases key : h.isKeyframe forwardAudio <;>
        simp [published, single published, key, Counters.countRead, Counters.countPublished,
          Counters.countBytes, Counters.countKeyframe, increase_mod, Nat.add_comm]
    · have nobody : h.served = [] := by simpa [Handling.meets] using published
      rw [if_neg (by simp [nobody])]
      by_cases discarded : h.entries = some [] <;>
        simp [Handling.meets, nobody, discarded, Counters.countRead, Counters.countDiscarded,
          increase_mod]

end Fates

end Relay

end PacketRelay
