import PacketRelay.Proofs.Packet.Unit
import PacketRelay.Proofs.Relay.Accounts
import PacketRelay.Proofs.Relay.Stream
import PacketRelay.Proofs.TimeBase

/-!
# The last number and the last packet

A unit of a stream that is forwarded takes its number before it turns out whether it is long enough for a
packet, and a number that has been taken is not given back. So the packets have the numbers of their
units, and the last number of a publisher is that of its last packet unless the last unit has been too
short for one: it is ahead by the short units that have come since.

This holds of every publisher, over all of its runs. Whatever is called on it, only its loops take numbers,
and only they make packets.

Numbers are integers here that never wrap around. They are signed words of 64 bits as long as fewer than
`2 ^ 63` units of the streams that are forwarded have been read.

## Main definitions

* `produced?`: the packet that a step produces
* `note`, `eventsOf`, `packetsOf`: the record of what is shown and what is produced
* `lastNumber`: the number of the packet produced last
* `Numbers`, `Numbered`: the numbers and the packets are those of the units read, but for one in hand

## Main results

* `Numbers.round`, `Numbered.step`: every step keeps this
* `isWord_of_few`: how far the numbers are words of 64 bits
* `length_eq_lastNumber_add`: the units are ahead of the packets by the short ones at the end
* `lastId_eq_lastNumber_iff`: when the last number is that of the last packet
-/

namespace PacketRelay

/-- The packet that a loop has just made and is about to publish. -/
def Reading.made? : Reading → Option Packet
  | .publish (.checkStop p) => some p
  | _ => none

theorem Reading.made?_of_not_handling {at_ : Reading} (off : at_.isHandling = false) :
    at_.made? = none := by
  cases at_ <;> first | rfl | simp [isHandling] at off

namespace Relay

open Schedule

/-- The packet that a step produces: that of a loop that comes to publish it. -/
def produced? (r : Relay) : Label → Option Packet
  | .reader run => do
    let r' ← r.readerStep run
    let reader ← r'.task.target? run
    reader.at_.made?
  | _ => none

/-- What a step shows and what it produces. -/
def note (r : Relay) (l : Label) : Option (Option Event × Option Packet) :=
  some (r.observe l, r.produced? l)

/-- What the steps of a record have shown. -/
def eventsOf (log : List (Option Event × Option Packet)) : List Event := log.filterMap Prod.fst

/-- What they have produced. -/
def packetsOf (log : List (Option Event × Option Packet)) : List Packet := log.filterMap Prod.snd

/-- The number of the packet produced last; zero before the first. -/
def lastNumber (packets : List Packet) : Int := (packets.getLast?.map (·.id)).getD 0

/-- A unit is too short for a packet. -/
def isShort (x : MediaUnit × MediaKind) : Bool := x.1.data.length < Nal.minLength

/-- The numbers are taken up to the unit in hand, and the packets are those of the units, but for the one
that is made of the unit in hand. -/
structure Numbers (forwardAudio : Bool) (events : List Event) (packets : List Packet) (lastId : Int)
    (unit : Option (MediaUnit × MediaKind)) : Prop where
  numbers : lastId + unit.toList.length = (numbered forwardAudio events).length
  packets : reference forwardAudio events =
    packets ++ (unit.bind fun x => Packet.ofUnit? (lastId + 1) x.1 x.2).toList

section Units

variable {forwardAudio : Bool} {events : List Event} {packets : List Packet} {e : Option Event}
  {lastId : Int} {unit : Option (MediaUnit × MediaKind)} {x : MediaUnit × MediaKind}

/-- A unit is read. -/
theorem Numbers.read (numbers : Numbers forwardAudio events packets lastId none) :
    Numbers forwardAudio (events ++ e.toList) packets lastId (e.bind (kept forwardAudio)) := by
  have last : lastId = (numbered forwardAudio events).length := by simpa using numbers.numbers
  refine ⟨?_, ?_⟩
  · rw [numbered_append, List.length_append, last]
    rfl
  · rw [reference_append, numbers.packets, ← last]
    simp

/-- The unit in hand takes its number, and becomes a packet unless it is too short. -/
theorem Numbers.number (numbers : Numbers forwardAudio events packets lastId (some x)) :
    Numbers forwardAudio events (packets ++ (Packet.ofUnit? (lastId + 1) x.1 x.2).toList)
      (lastId + 1) none where
  numbers := by simpa using numbers.numbers
  packets := by simpa using numbers.packets

/-- No unit is read. -/
theorem Numbers.keep (numbers : Numbers forwardAudio events packets lastId unit)
    (unread : e.bind (kept forwardAudio) = none) :
    Numbers forwardAudio (events ++ e.toList) packets lastId unit where
  numbers := by
    rw [numbered_append, unread, numbers.numbers]
    simp
  packets := by
    rw [reference_append, unread, numbers.packets]
    simp

end Units

section Loops

variable {r r' : Relay} {a : Actor} {f f' : Fanout} {run : Nat} {reader : Reader} {next : Option Reader}
  {events : List Event} {packets : List Packet} {e : Option Event} {lastId : Int}

theorem made?_afterNumber {id : Int} {u : MediaUnit} {kind : MediaKind} :
    (afterNumber id u kind).made? = Packet.ofUnit? id u kind := by
  unfold afterNumber
  split
  · next made => exact made.symm
  · next none_ => exact none_.symm

theorem unnumbered_afterNumber {forwardAudio : Bool} {id : Int} {u : MediaUnit} {kind : MediaKind} :
    ({ reader with at_ := afterNumber id u kind } : Reader).unnumbered forwardAudio = none := by
  unfold afterNumber
  split <;> rfl

theorem made?_afterCount {u : MediaUnit} : (r.afterCount reader u).made? = none := by
  unfold afterCount
  split <;> rfl

/-- Whether a unit takes a number is told by its stream all along. -/
theorem unnumbered_afterCount {u : MediaUnit} (at_ : reader.at_ = .countRead u) :
    ({ reader with at_ := r.afterCount reader u } : Reader).unnumbered r.settings.forwardAudio =
      reader.unnumbered r.settings.forwardAudio := by
  have before : reader.unnumbered r.settings.forwardAudio =
      (route reader r.settings.forwardAudio u.stream).map (u, ·) := by
    unfold Reader.unnumbered
    rw [at_]
  rw [before]
  unfold afterCount
  split
  · next kind routed =>
    rw [routed]
    rfl
  · next aside =>
    rw [aside]
    rfl

/-- A thread that publishes a packet does not begin with another one. -/
theorem made?_publish_of_step (last : f.step a r = some (r', f')) :
    (Reading.publish f').made? = none := by
  cases f with
  | checkStop | checkStarted =>
    obtain ⟨rfl, rfl⟩ := Prod.mk.inj (Option.some.inj last)
    split <;> rfl
  | acquire p =>
    obtain ⟨-, rfl, rfl⟩ := step_acquire last
    rfl
  | sweep p entry =>
    rcases step_sweep last with ⟨_, -, rfl⟩ | ⟨-, rfl, rfl⟩
    · rfl
    · unfold Fanout.afterSweep
      split <;> rfl
  | choose p entry reached =>
    obtain ⟨rfl, rfl⟩ := Prod.mk.inj (Option.some.inj last)
    unfold Fanout.afterChoice Fanout.close
    dsimp only
    split
    · split
      · split <;> rfl
      · rfl
    · rfl
  | serve p entry reached at_ =>
    rcases step_serve last with ⟨rfl, rfl, rfl⟩ | ⟨m, s, s', e', -, -, -, rfl, rfl⟩
    · unfold Fanout.afterServe Fanout.close
      split
      · rfl
      · split <;> rfl
    · rfl
  | countBytes p reached =>
    obtain ⟨rfl, rfl⟩ := Prod.mk.inj (Option.some.inj last)
    split <;> rfl
  | countDiscarded | countPublished | countKeyframe | release =>
    obtain ⟨rfl, rfl⟩ := Prod.mk.inj (Option.some.inj last)
    rfl
  | finished reached => simp [Fanout.step] at last

/-- **An access of a loop numbers what it reads**, and makes the packets that go with the numbers. -/
theorem Numbers.round
    (declared : reader.at_ = .read → ∀ s, r.sources[reader.source]? = some s →
      s.indexes = (reader.videoIndex, reader.audioIndex))
    (numbers : Numbers r.settings.forwardAudio events packets r.lastId
      (reader.unnumbered r.settings.forwardAudio))
    (round : Round r run reader e lastId next) :
    Numbers r.settings.forwardAudio (events ++ e.toList)
      (packets ++ (next.bind (·.at_.made?)).toList) lastId
      (next.bind (Reader.unnumbered r.settings.forwardAudio)) := by
  -- The loop has no unit in hand, neither before nor after.
  have idle {e : Option Event} (unread : e.bind (kept r.settings.forwardAudio) = none)
      (before : reader.unnumbered r.settings.forwardAudio = none)
      (after : next.bind (Reader.unnumbered r.settings.forwardAudio) = none)
      (unmade : next.bind (·.at_.made?) = none) :
      Numbers r.settings.forwardAudio (events ++ e.toList)
        (packets ++ (next.bind (·.at_.made?)).toList) r.lastId
        (next.bind (Reader.unnumbered r.settings.forwardAudio)) := by
    rw [after, unmade, Option.toList_none, List.append_nil, ← before]
    exact numbers.keep unread
  cases round with
  | video | audio => exact idle (e := none) rfl rfl rfl rfl
  | @pass _ at_ before after =>
    have off := Reading.isHandling_of_isBetween before
    have off' := Reading.isHandling_of_isBetween after
    exact idle (e := none) rfl (Reader.unnumbered_of_not_handling off)
      (Reader.unnumbered_of_not_handling off') (Reading.made?_of_not_handling off')
  | leave before =>
    have off := Reading.isHandling_of_isBetween before
    exact idle (e := none) rfl (Reader.unnumbered_of_not_handling off) rfl rfl
  | @read source video audio s u there _ =>
    have same : s.indexes = (video, audio) := declared rfl s there
    have routed : kept r.settings.forwardAudio (.read run s.indexes.1 s.indexes.2 u) =
        (⟨source, video, audio, .countRead u⟩ : Reader).unnumbered r.settings.forwardAudio := by
      rw [same]
      exact kept_read ⟨source, video, audio, .countRead u⟩
    have read := Numbers.read (e := some (.read run s.indexes.1 s.indexes.2 u)) numbers
    rw [Option.bind_some, routed] at read
    simpa [Reading.made?] using read
  | @count _ u at_ =>
    rw [Option.bind_some, Option.bind_some, unnumbered_afterCount at_, made?_afterCount]
    simpa using numbers
  | @number _ u kind at_ =>
    have inHand : reader.unnumbered r.settings.forwardAudio = some (u, kind) := by
      unfold Reader.unnumbered
      rw [at_]
    rw [Option.bind_some, Option.bind_some, unnumbered_afterNumber, made?_afterNumber]
    rw [inHand] at numbers
    simpa using numbers.number
  | @publish _ f f' t at_ step =>
    refine idle kept_observeFanout ?_ rfl (made?_publish_of_step step)
    unfold Reader.unnumbered
    rw [at_]
  | published at_ =>
    refine idle (e := none) rfl ?_ rfl rfl
    unfold Reader.unnumbered
    rw [at_]

end Loops

section Runs

variable {settings : PublisherSettings} {forwardAudio : Bool} {r r' : Relay} {l : Label}
  {log : List (Option Event × Option Packet)}

theorem eventsOf_append :
    eventsOf (log ++ (r.note l).toList) = eventsOf log ++ (r.observe l).toList := by
  unfold eventsOf note
  rw [List.filterMap_append]
  cases r.observe l <;> rfl

theorem packetsOf_append :
    packetsOf (log ++ (r.note l).toList) = packetsOf log ++ (r.produced? l).toList := by
  unfold packetsOf note
  rw [List.filterMap_append]
  cases r.produced? l <;> rfl

/-- One loop at most has a unit in hand, and all others are numbered. -/
def Numbered (forwardAudio : Bool) (log : List (Option Event × Option Packet)) (r : Relay) : Prop :=
  ∃ run, (∀ other, other ≠ run → r.task.target? other = none) ∧
    Numbers forwardAudio (eventsOf log) (packetsOf log) r.lastId
      ((r.task.target? run).bind (Reader.unnumbered forwardAudio))

theorem numbered_ofSettings : Numbered forwardAudio [] (ofSettings settings) := by
  refine ⟨0, fun run _ => target?_ofSettings run, ?_⟩
  rw [target?_ofSettings]
  exact ⟨rfl, rfl⟩

/-- **Every step keeps the numbers.** -/
theorem Numbered.step (numbered : Numbered r.settings.forwardAudio log r)
    (path : Reaches step (ofSettings settings) r) (last : r.step l = some r') :
    Numbered r.settings.forwardAudio (log ++ (r.note l).toList) r' := by
  obtain ⟨run, alone, numbers⟩ := numbered
  obtain ⟨sound, -⟩ := keeper_of_reaches path
  obtain ⟨-, k', kept'⟩ := keeper_of_reaches (path.tail last)
  unfold Numbered
  rw [eventsOf_append, packetsOf_append]
  by_cases own : ∃ n, l = .reader n
  · obtain ⟨n, rfl⟩ := own
    obtain ⟨reader, executing⟩ := exists_target_of_readerStep last
    obtain rfl : n = run := by
      by_contra other
      simp [alone n other] at executing
    obtain ⟨round, others⟩ := round_readerStep executing last
    have made : r.produced? (.reader n) = (r'.task.target? n).bind (·.at_.made?) := by
      have last : r.readerStep n = some r' := last
      simp [produced?, last]
    rw [executing] at numbers
    rw [made]
    refine ⟨n, fun other ne => (others other (Ne.symm ne)).trans (alone other ne), ?_⟩
    exact numbers.round (fun at_ s => indexes_of_reading path executing at_) round
  · have others : ∀ n, l ≠ .reader n := fun n same => own ⟨n, same⟩
    have made : r.produced? l = none := by
      cases l with
      | reader n => exact absurd rfl (others n)
      | _ => rfl
    have unread : (r.observe l).bind (kept r.settings.forwardAudio) = none := by
      refine Option.bind_eq_none_iff.mpr fun x shown => ?_
      cases x with
      | read => exact absurd (exists_reader_of_isRead shown rfl) own
      | _ => rfl
    have numbers' := numbers.keep unread
    obtain ⟨run', alone', came⟩ :=
      exists_alone kept' (targets_step sound sound.coherent last others) alone
    refine ⟨run', alone', ?_⟩
    rw [lastId_step sound last others, made, Option.toList_none, List.append_nil]
    rcases came with same | ⟨idle, reader, came, at_⟩
    · rwa [same]
    · have off : reader.at_.isHandling = false := by rw [at_]; rfl
      rw [came, Option.bind_some, Reader.unnumbered_of_not_handling off]
      rwa [idle] at numbers'

theorem numbered_of_records (run : Records step (fun _ => True) note (ofSettings settings) log r) :
    Numbered settings.forwardAudio log r := by
  induction run with
  | refl => exact numbered_ofSettings
  | tail run _ last ih =>
    have same := settings_of_reaches run.reaches
    subst same
    exact ih.step run.reaches last

/-- The packets of some units have numbers from one up to the number of the units. -/
theorem id_of_mem_packetsFrom {units : List (MediaUnit × MediaKind)} {p : Packet}
    (inside : p ∈ packetsFrom units) : 1 ≤ p.id ∧ p.id ≤ units.length := by
  obtain ⟨⟨x, n⟩, there, made⟩ := List.mem_filterMap.mp inside
  obtain ⟨least, most, -⟩ := List.mem_zipIdx there
  rw [Packet.id_ofUnit? made]
  dsimp only
  omega

/-- **The numbers are words of 64 bits** as long as fewer than `2 ^ 63` units of the streams that are
forwarded have been read. -/
theorem isWord_of_few (run : Records step (fun _ => True) note (ofSettings settings) log r)
    (few : (numbered settings.forwardAudio (eventsOf log)).length < 2 ^ 63) :
    isWord r.lastId = true ∧ ∀ p ∈ packetsOf log, isWord p.id = true := by
  obtain ⟨k, -, numbers, packets⟩ := numbered_of_records run
  constructor
  · have inHand : ((r.task.target? k).bind
        (Reader.unnumbered settings.forwardAudio)).toList.length ≤ 1 := Option.length_toList_le
    rw [isWord_iff, minWord, maxWord]
    omega
  · intro p produced
    have inside : p ∈ reference settings.forwardAudio (eventsOf log) :=
      packets ▸ List.mem_append_left _ produced
    obtain ⟨least, most⟩ := id_of_mem_packetsFrom inside
    exact isWord_of_nonneg (by omega) (by omega)

/-- While no loop has a unit in hand, all units are numbered. -/
theorem Numbered.settled (numbered : Numbered forwardAudio log r)
    (between : ∀ k reader, r.task.target? k = some reader → reader.at_.isHandling = false) :
    Numbers forwardAudio (eventsOf log) (packetsOf log) r.lastId none := by
  obtain ⟨run, -, numbers⟩ := numbered
  cases executing : r.task.target? run with
  | none => rwa [executing] at numbers
  | some reader =>
    rwa [executing, Option.bind_some,
      Reader.unnumbered_of_not_handling (between run reader executing)] at numbers

end Runs

section Ends

variable {units : List (MediaUnit × MediaKind)} {x : MediaUnit × MediaKind} {id : Int}

theorem ofUnit?_eq_none_iff : Packet.ofUnit? id x.1 x.2 = none ↔ isShort x = true :=
  Packet.ofUnit?_eq_none_iff.trans decide_eq_true_iff.symm

/-- **The units are ahead of their packets by the short ones at the end.** -/
theorem length_eq_lastNumber_add : (units.length : Int) =
    lastNumber (packetsFrom units) + (units.rtakeWhile isShort).length := by
  induction units using List.reverseRecOn with
  | nil => rfl
  | append_singleton units x ih =>
    rw [packetsFrom_snoc, List.length_append, List.length_singleton]
    cases made : Packet.ofUnit? (units.length + 1) x.1 x.2 with
    | none =>
      have short := ofUnit?_eq_none_iff.mp made
      rw [List.rtakeWhile_concat_pos _ _ _ short, Option.toList_none, List.append_nil]
      simp only [List.length_append, List.length_singleton]
      omega
    | some p =>
      have long : ¬ isShort x = true := by
        intro short
        rw [ofUnit?_eq_none_iff.mpr short] at made
        cases made
      have last : lastNumber (packetsFrom units ++ [p]) = units.length + 1 := by
        simp [lastNumber, Packet.id_ofUnit? made]
      rw [List.rtakeWhile_concat_neg _ _ _ long, Option.toList_some, last]
      simp

theorem rtakeWhile_isShort_eq_nil_iff :
    units.rtakeWhile isShort = [] ↔ ∀ x ∈ units.getLast?, Nal.minLength ≤ x.1.data.length := by
  induction units using List.reverseRecOn with
  | nil => simp
  | append_singleton units x ih => simp [List.rtakeWhile_concat, isShort]

end Ends

/-- **The last number is that of the last packet unless a short unit has come since.** Whatever is called
on a publisher, while no loop has a unit in hand: the packets that have been produced, over all runs, are
those of the units of the streams that are forwarded, numbered from one on, and the last number is that of
the last of these units. It is ahead of the number of the last packet, or of zero before the first, by the
units at the end that are too short for a packet, so that it is this number exactly if the last unit is long
enough for a packet, or there has been none. -/
theorem lastId_eq_lastNumber_iff {settings : PublisherSettings} {r : Relay}
    {log : List (Option Event × Option Packet)}
    (run : Records step (fun _ => True) note (ofSettings settings) log r)
    (between : ∀ k reader, r.task.target? k = some reader → reader.at_.isHandling = false) :
    let units := numbered settings.forwardAudio (eventsOf log)
    packetsOf log = reference settings.forwardAudio (eventsOf log) ∧
      r.lastId = units.length ∧
      r.lastId = lastNumber (packetsOf log) + (units.rtakeWhile isShort).length ∧
      (r.lastId = lastNumber (packetsOf log) ↔
        ∀ x ∈ units.getLast?, Nal.minLength ≤ x.1.data.length) := by
  intro units
  have numbers := (numbered_of_records run).settled between
  have last : r.lastId = units.length := by simpa using numbers.numbers
  have packets : packetsOf log = reference settings.forwardAudio (eventsOf log) := by
    simpa using numbers.packets.symm
  have ahead : r.lastId = lastNumber (packetsOf log) + (units.rtakeWhile isShort).length := by
    rw [last, packets, reference_eq_packetsFrom]
    exact length_eq_lastNumber_add
  refine ⟨packets, last, ahead, ?_⟩
  rw [← rtakeWhile_isShort_eq_nil_iff, ← List.length_eq_zero_iff]
  omega

/-- A source with units of its video stream and of another one, and a loop that reads as many of them as
it comes to. -/
def readsUnits (units : List MediaUnit) (accesses : Nat) : List Label :=
  let memory : MemorySource := {
    feed := { units := units }
    video := some { index := 0, codec := "", timeBase := ⟨1, 1⟩ } }
  List.flatten [[.addSource { memory := memory }, .begin (.start 0 "")], List.replicate 19 (.call 0),
    List.replicate 4 (.thread 1), List.replicate 3 (.reader 1), List.replicate accesses (.reader 1)]

/-- Has no loop a unit in hand? -/
def isSettled (r : Relay) : Bool :=
  (List.range r.task.contexts.length).all fun k =>
    (r.task.target? k).all fun reader => !reader.at_.isHandling

theorem isHandling_of_isSettled {r : Relay} (settled : r.isSettled) (k : Nat) (reader : Reader)
    (executing : r.task.target? k = some reader) : reader.at_.isHandling = false := by
  have inside := List.mem_range.mpr (lt_of_isLive (Task.isLive_of_target? executing))
  simpa [executing] using List.all_eq_true.mp settled k inside

/-- Of four units the second is too short for a packet and the third of no stream that is forwarded. The
last number is that of the last packet. -/
theorem lastNumber_of_long_unit : ∃ log r,
    Records step (fun _ => True) note (ofSettings {}) log r ∧
      (∀ k reader, r.task.target? k = some reader → reader.at_.isHandling = false) ∧
      (packetsOf log).map (·.id) = [1, 3] ∧
      (reference false (eventsOf log)).map (·.id) = [1, 3] ∧ r.lastId = lastNumber (packetsOf log) := by
  let unit : MediaUnit := { stream := 0, data := [2, 1] }
  have ran : (record? step note (ofSettings {})
      (readsUnits [unit, { unit with data := [2] }, { unit with stream := 5 }, unit] 33)).any
      (fun x : List (Option Event × Option Packet) × Relay =>
        x.2.isSettled ∧ (packetsOf x.1).map (·.id) = [1, 3] ∧
        (numbered false (eventsOf x.1)).map (·.1.data.length) = [2, 1, 2]) := by
    decide +kernel
  obtain ⟨log, r, run, facts⟩ := exists_records_of_any (fun _ _ => trivial) ran
  obtain ⟨settled, packets, sizes⟩ := of_decide_eq_true facts
  have between := isHandling_of_isSettled settled
  obtain ⟨same, -, -, last⟩ := lastId_eq_lastNumber_iff run between
  refine ⟨log, r, run, between, packets, same ▸ packets, last.mpr ?_⟩
  intro x there
  have size := congrArg List.getLast? sizes
  rw [List.getLast?_map, show (numbered false (eventsOf log)).getLast? = some x from there] at size
  exact Nat.le_of_eq (Option.some.inj size).symm

/-- A unit of one byte takes a number, and there is no packet that has it: the loop is done with it, nothing
has been produced, and the last number is one. -/
theorem number_without_packet : ∃ log r,
    Records step (fun _ => True) note (ofSettings {}) log r ∧
      (∀ k reader, r.task.target? k = some reader → reader.at_.isHandling = false) ∧
      packetsOf log = [] ∧ r.lastId = 1 ∧ r.lastId ≠ lastNumber (packetsOf log) := by
  have ran : (record? step note (ofSettings {}) (readsUnits [{ stream := 0, data := [1] }] 5)).any
      (fun x : List (Option Event × Option Packet) × Relay =>
        x.2.isSettled ∧ packetsOf x.1 = [] ∧ x.2.lastId = 1) := by
    decide +kernel
  obtain ⟨log, r, run, facts⟩ := exists_records_of_any (fun _ _ => trivial) ran
  obtain ⟨settled, none_, one⟩ := of_decide_eq_true facts
  refine ⟨log, r, run, isHandling_of_isSettled settled, none_, one, ?_⟩
  rw [none_, one]
  decide

end Relay

end PacketRelay
