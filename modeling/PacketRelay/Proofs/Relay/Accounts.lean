import PacketRelay.Proofs.Relay.Aftermath
import PacketRelay.Proofs.Relay.Handling

/-!
# The accounts of a publisher

The counters of a publisher grow in three places, and some ways through publishing count nothing. As
long as packets are published by read loops only, they add up all the same: over all runs, the units
that were forwarded are those too short for a packet, those discarded, those published and those that a
stop has suppressed, and each counter is the number of its units. This holds whenever no loop has a unit
in hand, whoever comes and goes and whenever the publisher is stopped and started.

## Main definitions

* `Relay.Unaided`: the steps of a publisher for which nobody else publishes
* `Relay.Settled`, `Relay.InHand`: the numbers and counters belong to the units, but for one in hand

## Main results

* `Relay.Handled.readerStep`, `Relay.Handled.step`: every step keeps the accounts
* `Relay.counters_add_up`: the counters of a publisher add up
-/

namespace PacketRelay.Relay

open Schedule

/-- Nobody publishes but the read loops. -/
def Unaided : Label → Prop
  | .begin (.publish _) => False
  | _ => True

instance : DecidablePred Unaided
  | .begin (.publish _) => inferInstanceAs (Decidable False)
  | .begin (.enqueue ..) | .begin (.subscribe _) | .begin (.unsubscribe _) | .begin (.start ..)
  | .begin .stop | .begin .join | .begin .describe | .begin .drop | .call _ | .reader _ | .thread _
  | .consumer .. | .writer .. | .addSubscriber _ | .addSource _ => inferInstanceAs (Decidable True)

/-- All units are done with, and the numbers and the counters are theirs. -/
structure Settled (forwardAudio : Bool) (hs : List Handling) (lastId : Int) (c : Counters) : Prop where
  spent : ∀ h ∈ hs, h.IsOver forwardAudio
  numbers : lastId = (hs.filter (·.isRouted forwardAudio)).length
  counters : c = reckoning forwardAudio hs

/-- A loop has the last unit in hand, as far as it has come with it, and all others are done with. -/
def InHand (forwardAudio : Bool) (hs : List Handling) (lastId : Int) (c : Counters) (reader : Reader) :
    Prop :=
  match reader.at_ with
  | .countRead u => ∃ h past, hs = h :: past ∧ (h.IsUntouched ∧ h.unit = u ∧
      h.kind? forwardAudio = route reader forwardAudio u.stream) ∧ Settled forwardAudio past lastId c
  | .number u kind => ∃ h past before, hs = h :: past ∧ (h.IsUntouched ∧ h.unit = u ∧
      h.kind? forwardAudio = some kind) ∧
      Settled forwardAudio past lastId before ∧ c = before.countRead
  | .publish f => ∃ h past before, hs = h :: past ∧ h.isRouted forwardAudio ∧
      Settled forwardAudio past (lastId - 1) before ∧ h.Counts forwardAudio before.countRead c f
  | _ => Settled forwardAudio hs lastId c

/-- The numbers and the counters of a publisher belong to the units that have been read. -/
structure Handled (forwardAudio : Bool) (hs : List Handling) (r : Relay) : Prop where
  reading : ∀ run reader, r.task.target? run = some reader →
    InHand forwardAudio hs r.lastId r.counters reader
  idle : (∀ run, r.task.target? run = none) → Settled forwardAudio hs r.lastId r.counters

section Units

variable {forwardAudio : Bool} {h : Handling} {hs : List Handling} {lastId : Int} {c : Counters}
  {reader : Reader}

theorem inHand_iff (off : reader.at_.isHandling = false) :
    InHand forwardAudio hs lastId c reader ↔ Settled forwardAudio hs lastId c := by
  obtain ⟨source, video, audio, at_⟩ := reader
  cases at_ <;> simp_all [Reading.isHandling, InHand]

/-- A unit that is done with is one more of the others. -/
theorem Settled.cons {before : Counters} {taken : Int} (settled : Settled forwardAudio hs lastId before)
    (spent : h.IsOver forwardAudio)
    (number : taken = lastId + if h.isRouted forwardAudio then 1 else 0) :
    Settled forwardAudio (h :: hs) taken (h.count forwardAudio before) where
  spent x inside := by
    rcases List.mem_cons.mp inside with rfl | earlier
    · exact spent
    · exact settled.spent x earlier
  numbers := by
    rw [number, settled.numbers]
    by_cases routed : h.isRouted forwardAudio <;> simp [routed]
  counters := by
    rw [settled.counters]
    rfl

/-- A unit is counted when it has been read. If its stream is not forwarded, it is done with. -/
theorem InHand.counted {r : Relay} {u : MediaUnit}
    (inHand : InHand forwardAudio hs lastId c { reader with at_ := .countRead u })
    (forwards : r.settings.forwardAudio = forwardAudio) :
    InHand forwardAudio hs lastId c.countRead { reader with at_ := r.afterCount reader u } := by
  obtain ⟨h, past, rfl, ⟨untouched, unit, kind⟩, settled⟩ := inHand
  unfold afterCount
  rw [forwards]
  split
  · next k routed => exact ⟨h, past, _, rfl, ⟨untouched, unit, kind.trans routed⟩, settled, rfl⟩
  · next aside =>
    have off : h.isRouted forwardAudio = false := by
      rw [Handling.isRouted, kind]
      exact congrArg Option.isSome aside
    have number : lastId = lastId + if h.isRouted forwardAudio then 1 else 0 := by simp [off]
    have next := settled.cons (Handling.isOver_of_aside off untouched) number
    rwa [Handling.count_of_isUntouched untouched] at next

/-- A unit takes a number. If it is too short for a packet, it is done with. -/
theorem InHand.numbered {u : MediaUnit} {kind : MediaKind}
    (inHand : InHand forwardAudio hs lastId c { reader with at_ := .number u kind }) :
    InHand forwardAudio (attend hs (.numbered (lastId + 1))) (lastId + 1) c
      { reader with at_ := afterNumber (lastId + 1) u kind } := by
  obtain ⟨h, past, before, rfl, ⟨untouched, rfl, kept⟩, settled, same⟩ := inHand
  let h' : Handling := { h with number := some (lastId + 1) }
  have untouched' : h'.IsUntouched := untouched
  have routed : h'.isRouted forwardAudio := by
    show (h.kind? forwardAudio).isSome
    rw [kept]
    rfl
  have packet : h'.packet? forwardAudio = Packet.ofUnit? (lastId + 1) h.unit kind := by
    show (h.kind? forwardAudio).bind _ = _
    rw [kept]
    rfl
  unfold afterNumber
  split
  · next p made =>
    refine ⟨h', past, before, rfl, routed, ?_, packet.trans made, untouched', same⟩
    rw [Int.add_sub_cancel]
    exact settled
  · next made =>
    have short := Packet.ofUnit?_eq_none_iff.mp made
    have number : lastId + 1 = lastId + if h'.isRouted forwardAudio then 1 else 0 := by
      simp [routed]
    have next := settled.cons (Handling.isOver_of_short routed short untouched') number
    rwa [Handling.count_of_isUntouched untouched', ← same] at next

end Units

section Loops

variable {forwardAudio : Bool} {hs : List Handling} {r r' t : Relay} {run : Nat} {reader x : Reader}
  {at_ : Reading}

/-- The only loop that runs goes on. -/
theorem Handled.of_goOn (alone : ∀ other y, r.task.target? other = some y → other = run)
    (executing : r.task.target? run = some reader) (task : t.task = r.task)
    (inHand : InHand forwardAudio hs t.lastId t.counters { x with at_ := at_ }) :
    Handled forwardAudio hs (t.goOn run x at_) := by
  rw [← task] at alone executing
  have targets := target?_goOn executing x at_
  constructor
  · intro other y found
    rw [targets] at found
    split at found
    · obtain rfl := Option.some.inj found
      exact inHand
    · next ne => exact absurd (alone other y found).symm ne
  · intro none_
    have own := targets run
    rw [if_pos rfl, none_ run] at own
    cases own

/-- The only loop that runs is left. -/
theorem Handled.of_leave (alone : ∀ other y, r.task.target? other = some y → other = run)
    (executing : r.task.target? run = some reader) (task : t.task = r.task)
    (settled : Settled forwardAudio hs t.lastId t.counters) :
    Handled forwardAudio hs (t.leave run) := by
  rw [← task] at alone executing
  refine ⟨?_, fun _ => settled⟩
  intro other y found
  rw [target?_leave executing] at found
  split at found
  · cases found
  · next ne => exact absurd (alone other y found).symm ne

/-- A loop reads a unit, which it then has in hand, or it reads none. -/
theorem Handled.of_readUnit (alone : ∀ other y, r.task.target? other = some y → other = run)
    (executing : r.task.target? run = some reader) (at_ : reader.at_ = .read)
    (settled : Settled forwardAudio hs r.lastId r.counters)
    (declared : ∀ x, r.sources[reader.source]? = some x →
      x.indexes = (reader.videoIndex, reader.audioIndex)) (last : r.readUnit run reader = some r') :
    Handled forwardAudio ((r.sightReading reader).toList.foldl attend hs) r' := by
  obtain ⟨x, there, ⟨outcome, given, rfl⟩ | ⟨panics, rfl⟩⟩ := readUnit_cases last
  · cases outcome with
    | unit u =>
      have shown : r.sightReading reader =
          some (.read reader.source x.indexes.1 x.indexes.2 u) := by
        simp [sightReading, at_, there, given]
      have untouched : ∀ source video audio,
          Handling.IsUntouched { source, video, audio, unit := u } := by
        simp [Handling.IsUntouched]
      rw [shown, declared x there]
      exact .of_goOn alone executing rfl ⟨_, hs, rfl, ⟨untouched _ _ _, rfl, rfl⟩, settled⟩
    | pending | ended | failed =>
      have quiet : r.sightReading reader = none := by simp [sightReading, at_, there, given]
      rw [quiet]
      exact .of_goOn alone executing rfl settled
  · have quiet : r.sightReading reader = none := by simp [sightReading, at_, there, panics]
    rw [quiet]
    exact .of_leave alone executing rfl settled

/-- **A loop keeps the accounts.** -/
theorem Handled.readerStep (handled : Handled forwardAudio hs r)
    (forwards : r.settings.forwardAudio = forwardAudio)
    (started : reader.at_.isLooping → r.started)
    (declared : reader.at_ = .read → ∀ x, r.sources[reader.source]? = some x →
      x.indexes = (reader.videoIndex, reader.audioIndex))
    (alone : ∀ other y, r.task.target? other = some y → other = run)
    (executing : r.task.target? run = some reader) (last : r.readerStep run = some r') :
    Handled forwardAudio ((r.sightReading reader).toList.foldl attend hs) r' := by
  have inHand := handled.reading run reader executing
  have whole := last
  simp only [Relay.readerStep, executing, Option.bind_eq_bind, Option.bind_some] at last
  obtain ⟨source, video, audio, at_⟩ := reader
  cases at_ with
  | read => exact .of_readUnit alone executing rfl inHand (declared rfl) last
  | countRead u =>
    obtain rfl := Option.some.inj last
    exact .of_goOn alone executing rfl (inHand.counted forwards)
  | number u kind =>
    obtain rfl := Option.some.inj last
    exact .of_goOn alone executing rfl inHand.numbered
  | publish f =>
    obtain ⟨h, past, before, rfl, routed, settled, counts⟩ := inHand
    rcases readerStep_publish executing rfl whole with ⟨reached, rfl, rfl⟩ | ⟨t, f', step, rfl⟩
    · obtain ⟨spent, same⟩ := counts
      refine .of_goOn alone executing rfl ?_
      have number : r.lastId = r.lastId - 1 + if h.isRouted forwardAudio then 1 else 0 := by
        simp [routed]
      have next := settled.cons spent number
      rwa [Handling.count, ← same] at next
    · obtain ⟨h', shown, stays, counts'⟩ := counts.step past (started rfl) step
      have frame := Fanout.step_frame step
      have shows : r.sightReading ⟨source, video, audio, .publish f⟩ = r.sightFanout f := rfl
      rw [shows, shown]
      refine .of_goOn alone executing (by rw [frame]) ⟨h', past, before, rfl, stays ▸ routed, ?_, counts'⟩
      rw [frame]
      exact settled
  | pause =>
    rcases readerStep_pause executing rfl whole with ⟨delay, -, rfl⟩ | ⟨-, rfl⟩
    · exact .of_goOn alone executing rfl inHand
    · exact .of_leave alone executing rfl inHand
  | checkToken | checkStop | paused =>
    obtain rfl := Option.some.inj last
    refine .of_goOn alone executing rfl ?_
    split <;> exact inHand
  | lowerRunning =>
    obtain rfl := Option.some.inj last
    exact .of_leave alone executing rfl inHand
  | _ =>
    obtain rfl := Option.some.inj last
    exact .of_goOn alone executing rfl inHand

end Loops

section Others

variable {forwardAudio : Bool} {hs : List Handling} {r r' : Relay} {l : Label}

/-- Whatever else takes a step counts nothing and takes no number, and no loop goes on, but for one
that comes up. -/
structure Rests (r r' : Relay) : Prop where
  settings : r'.settings = r.settings
  counters : r'.counters = r.counters
  lastId : r'.lastId = r.lastId
  targets : ∀ run, r'.task.target? run = r.task.target? run ∨
    r.task.target? run = none ∧ ∃ reader, r'.task.target? run = some reader ∧ reader.at_ = .readVideo

/-- No call publishes. -/
def CallsRest (r : Relay) : Prop :=
  ∀ n, r.fanout? (.call n) = none

theorem CallsRest.off {n : Nat} {stage : CallStage} (rest : r.CallsRest)
    (here : r.calls[n]? = some stage) : stage.fanout? = none :=
  (fanout?_call here).symm.trans (rest n)

theorem callsRest_step (rest : r.CallsRest) (unaided : Unaided l) (last : r.step l = some r') :
    r'.CallsRest := by
  intro m
  have still (calls : r'.calls = r.calls) : r'.fanout? (.call m) = none := by
    have same := rest m
    simpa [fanout?, calls] using same
  cases l with
  | begin call =>
    simp only [step] at last
    split at last
    · obtain rfl := Option.some.inj last
      have begun : (r.begin call).fanout? =
          Function.update r.fanout? (.call r.calls.length) (entry call).fanout? := by
        cases call <;> exact fanout?_append
      have off : (entry call).fanout? = none := by
        cases call with
        | publish p => exact absurd unaided id
        | _ => rfl
      rw [begun, off]
      by_cases own : m = r.calls.length
      · subst own
        exact Function.update_self _ _ _
      · rw [Function.update_of_ne (by simpa using own)]
        exact rest m
    · simp at last
  | call n =>
    obtain ⟨stage, here⟩ := exists_stage_of_callStep last
    have off := rest.off here
    rw [(spares_callStep here off last).fanout? here off]
    exact rest m
  | reader run => exact still (calls_readerStep last)
  | thread run =>
    obtain ⟨t, -, rfl⟩ := Option.map_eq_some_iff.mp last
    exact still rfl
  | consumer n action | writer n action =>
    simp only [step, Option.bind_eq_bind, Option.bind_eq_some_iff, Option.some.injEq] at last
    obtain ⟨s, -, rfl⟩ := last
    exact still rfl
  | addSubscriber s | addSource s =>
    obtain rfl := Option.some.inj last
    exact still rfl

theorem rests_step (sound : r.control.Sound) (rest : r.CallsRest) (other : ∀ run, l ≠ .reader run)
    (last : r.step l = some r') : Rests r r' := by
  refine ⟨settings_step last, ?_, lastId_step sound last other,
    targets_step sound sound.coherent last other⟩
  cases l with
  | begin call =>
    simp only [step] at last
    split at last
    · obtain rfl := Option.some.inj last
      cases call <;> rfl
    · simp at last
  | call n =>
    obtain ⟨stage, here⟩ := exists_stage_of_callStep last
    exact (spares_callStep here (rest.off here) last).counters
  | reader run => exact absurd rfl (other run)
  | thread run =>
    obtain ⟨t, -, rfl⟩ := Option.map_eq_some_iff.mp last
    rfl
  | consumer n action | writer n action =>
    simp only [step, Option.bind_eq_bind, Option.bind_eq_some_iff, Option.some.injEq] at last
    obtain ⟨s, -, rfl⟩ := last
    rfl
  | addSubscriber s | addSource s =>
    obtain rfl := Option.some.inj last
    rfl

/-- What else takes a step leaves the accounts alone. -/
theorem Handled.of_rests {k : Keeper} (handled : Handled forwardAudio hs r)
    (kept : r'.control.KeptBy k) (rests : Rests r r') :
    Handled forwardAudio hs r' := by
  -- A loop comes up only while none is on.
  have alone {run : Nat} {reader : Reader} (came : r'.task.target? run = some reader)
      (before : r.task.target? run = none) (other : Nat) : r.task.target? other = none := by
    by_contra some_
    obtain ⟨y, found⟩ := Option.ne_none_iff_exists'.mp some_
    have stays : r'.task.target? other = some y := by
      rcases rests.targets other with same | ⟨none_, -⟩
      · exact same.trans found
      · simp [none_] at found
    obtain rfl := Keeper.run.inj ((kept.eq_run came).symm.trans (kept.eq_run stays))
    simp [before] at found
  constructor
  · intro run reader found
    rw [rests.lastId, rests.counters]
    rcases rests.targets run with same | ⟨before, y, came, at_⟩
    · exact handled.reading run reader (same.symm.trans found)
    · obtain rfl := Option.some.inj (came.symm.trans found)
      rw [inHand_iff (by rw [at_]; rfl)]
      exact handled.idle (alone found before)
  · intro none_
    rw [rests.lastId, rests.counters]
    apply handled.idle
    intro run
    rcases rests.targets run with same | ⟨before, -⟩
    · exact same.symm.trans (none_ run)
    · exact before

end Others

section Runs

variable {settings : PublisherSettings} {log : List Sight} {r : Relay}

/-- What holds along the schedules of a publisher for which nobody else publishes. -/
structure Audited (settings : PublisherSettings) (log : List Sight) (r : Relay) : Prop where
  settings_eq : r.settings = settings
  rest : r.CallsRest
  handled : Handled settings.forwardAudio (handlings log) r

theorem audited_ofSettings : Audited settings [] (ofSettings settings) where
  settings_eq := rfl
  rest _ := rfl
  handled := by
    refine ⟨fun run reader found => by simp [target?_ofSettings] at found, fun _ => ⟨?_, rfl, rfl⟩⟩
    intro h inside
    cases inside

/-- **Every step keeps the accounts.** -/
theorem audited (run : Records step Unaided sight (ofSettings settings) log r) :
    Audited settings log r := by
  induction run with
  | refl => exact audited_ofSettings
  | @tail r r' log l run unaided last ih =>
    obtain ⟨same, rest, handled⟩ := ih
    obtain ⟨sound, k, kept⟩ := keeper_of_reaches run.reaches
    obtain ⟨-, k', kept'⟩ := keeper_of_reaches (run.reaches.tail last)
    have rest' := callsRest_step rest unaided last
    -- The record of one more step
    suffices next : Handled settings.forwardAudio
        ((r.sight l).toList.foldl attend (handlings log)) r' by
      refine ⟨(settings_step last).trans same, rest', ?_⟩
      rw [handlings, List.foldl_append]
      exact next
    by_cases own : ∃ n, l = .reader n
    · obtain ⟨n, rfl⟩ := own
      obtain ⟨reader, executing⟩ := exists_target_of_readerStep last
      have shown : r.sight (.reader n) = r.sightReading reader := by simp [sight, executing]
      rw [shown]
      refine handled.readerStep (by rw [same]) ?_ ?_ ?_ executing last
      · intro looping
        exact (kept.started_eq executing).trans looping
      · intro at_ x there
        exact indexes_of_reading run.reaches executing at_ there
      · intro other y found
        exact Keeper.run.inj ((kept.eq_run found).symm.trans (kept.eq_run executing))
    · have others : ∀ n, l ≠ .reader n := fun n here => own ⟨n, here⟩
      have quiet : r.sight l = none := by
        cases l with
        | reader n => exact absurd rfl (others n)
        | _ => rfl
      rw [quiet]
      exact handled.of_rests kept' (rests_step sound rest others last)

/-- The units whose streams are forwarded. -/
def routed (forwardAudio : Bool) (hs : List Handling) : List Handling :=
  hs.filter (·.isRouted forwardAudio)

/-- Those of them of which this has become. -/
def fallen (forwardAudio : Bool) (hs : List Handling) (fate : Fate) : List Handling :=
  (routed forwardAudio hs).filter (·.meets fate)

section Sums

variable {forwardAudio : Bool} {hs : List Handling} {lastId : Int} {c : Counters}

/-- What is counted is of a stream that is forwarded. -/
theorem fallen_eq {fate : Fate} (spent : ∀ h ∈ hs, h.IsOver forwardAudio)
    (counted : fate = .published ∨ fate = .discarded) :
    fallen forwardAudio hs fate = hs.filter (·.meets fate) := by
  unfold fallen routed
  rw [List.filter_filter]
  refine List.filter_congr fun h inside => ?_
  cases met : h.meets fate with
  | false => rfl
  | true =>
    rw [(spent h inside).isRouted (by rcases counted with rfl | rfl <;> simp [met])]
    rfl

/-- The classes of a list in which every unit has one fate have all units together. -/
theorem length_eq_sum {units : List Handling} (single : ∀ h ∈ units, ∃! fate, h.meets fate) :
    units.length = (units.filter (·.meets .short)).length +
      (units.filter (·.meets .discarded)).length + (units.filter (·.meets .published)).length +
      (units.filter (·.meets .suppressed)).length := by
  induction units with
  | nil => rfl
  | cons h units ih =>
    have rest := ih fun x inside => single x (List.mem_cons_of_mem h inside)
    obtain ⟨fate, own, only⟩ := single h List.mem_cons_self
    have others (other : Fate) : h.meets other = decide (other = fate) := by
      by_cases same : other = fate
      · simpa [same] using own
      · simpa [same] using fun met => same (only other met)
    simp only [List.filter_cons, others, List.length_cons, rest]
    cases fate <;> simp <;> omega

/-- Published packets have two bytes at least. -/
theorem two_mul_le_sum (spent : ∀ h ∈ hs, h.IsOver forwardAudio) :
    2 * (fallen forwardAudio hs .published).length ≤
      ((fallen forwardAudio hs .published).map Handling.size).sum := by
  have each : ∀ x ∈ (fallen forwardAudio hs .published).map Handling.size, 2 ≤ x := by
    intro x inside
    obtain ⟨h, there, rfl⟩ := List.mem_map.mp inside
    obtain ⟨kept, published⟩ := List.mem_filter.mp there
    obtain ⟨earlier, routed⟩ := List.mem_filter.mp kept
    by_contra less
    have short : h.meets .short := by simpa [Handling.meets] using less
    have same := (spent h earlier).eq_of_meets routed published short
    cases same
  have least := List.card_nsmul_le_sum _ 2 each
  rwa [List.length_map, Nat.nsmul_eq_mul, Nat.mul_comm] at least

end Sums

/-- **The counters of a publisher add up.** Let nobody publish but the read loops, and let there be fewer
than `2 ^ 63` units, and fewer than `2 ^ 64` bytes in their payloads. While no loop has a unit in hand,
each unit of a stream that is forwarded is either too short for a packet, or discarded, or published, or
suppressed by a stop. The units that have been read, those that are forwarded, those discarded and those
published are as many as the counters and the last number say, and the bytes and the key pictures are
those of the published ones. -/
theorem counters_add_up (run : Records step Unaided sight (ofSettings settings) log r)
    (few : (handlings log).length < 2 ^ 63)
    (small : ((handlings log).map Handling.size).sum < 2 ^ 64)
    (between : ∀ k reader, r.task.target? k = some reader → reader.at_.isHandling = false) :
    let units := routed settings.forwardAudio (handlings log)
    let among := fallen settings.forwardAudio (handlings log)
    r.counters.unitsRead = (handlings log).length ∧
    r.lastId = units.length ∧
    (∀ h ∈ units, ∃! fate, h.meets fate) ∧
    (among .short).length + (among .discarded).length + (among .published).length +
      (among .suppressed).length = r.lastId ∧
    r.counters.discarded = (among .discarded).length ∧
    r.counters.published = (among .published).length ∧
    r.counters.bytes = ((among .published).map Handling.size).sum ∧
    r.counters.keyframes = (among .published).countP (·.isKeyframe settings.forwardAudio) ∧
    r.counters.keyframes ≤ r.counters.published ∧
    2 * r.counters.published ≤ r.counters.bytes := by
  intro units among
  have handled := (audited run).handled
  have settled : Settled settings.forwardAudio (handlings log) r.lastId r.counters := by
    by_cases on : ∃ k reader, r.task.target? k = some reader
    · obtain ⟨k, reader, executing⟩ := on
      exact (inHand_iff (between k reader executing)).mp (handled.reading k reader executing)
    · apply handled.idle
      intro k
      by_contra some_
      obtain ⟨reader, executing⟩ := Option.ne_none_iff_exists'.mp some_
      exact on ⟨k, reader, executing⟩
  obtain ⟨spent, numbers, counters⟩ := settled
  have single : ∀ h ∈ units, ∃! fate, h.meets fate := by
    intro h inside
    obtain ⟨there, routed⟩ := List.mem_filter.mp inside
    exact (spent h there).fate routed
  have published : among .published = (handlings log).filter (·.meets .published) :=
    fallen_eq spent (.inl rfl)
  have discarded : among .discarded = (handlings log).filter (·.meets .discarded) :=
    fallen_eq spent (.inr rfl)
  -- Nothing has wrapped around.
  have fits {n : Nat} (least : n ≤ (handlings log).length) : n % counterRange = n :=
    Nat.mod_eq_of_lt (by unfold counterRange; omega)
  have part : (among .published).Sublist (handlings log) := published ▸ List.filter_sublist
  have part' : (among .discarded).Sublist (handlings log) := discarded ▸ List.filter_sublist
  have bytes : ((among .published).map Handling.size).sum % counterRange =
      ((among .published).map Handling.size).sum := by
    refine Nat.mod_eq_of_lt (Nat.lt_of_le_of_lt ?_ small)
    exact (part.map Handling.size).sum_le_sum fun _ _ => Nat.zero_le _
  have keys : (among .published).countP (·.isKeyframe settings.forwardAudio) ≤
      (among .published).length := List.countP_le_length
  rw [reckoning_eq spent, ← published, ← discarded, fits (Nat.le_refl _), fits part'.length_le,
    fits part.length_le, fits (keys.trans part.length_le), bytes] at counters
  rw [counters]
  refine ⟨rfl, numbers, single, ?_, rfl, rfl, rfl, rfl, keys, two_mul_le_sum spent⟩
  rw [numbers]
  exact_mod_cast (length_eq_sum single).symm

/-- Five units: there is nobody for the first one, the second is too short, and the third is of no stream
that is forwarded. The fourth is published as a key picture, and a stop is requested before the last one
is. -/
def fiveFates : List Label :=
  let unit : MediaUnit := { stream := 0, data := [2, 1] }
  let memory : MemorySource := {
    feed := { units := [unit, { unit with data := [2] }, { unit with stream := 5 },
      { unit with isKey := true }, unit] }
    video := some { index := 0, codec := "", timeBase := ⟨1, 1⟩ } }
  List.flatten [
    [.addSubscriber (.ofName "a" "" 1), .addSource { memory := memory }, .begin (.start 0 "")],
    List.replicate 19 (.call 0), List.replicate 4 (.thread 1), List.replicate 3 (.reader 1),
    List.replicate 12 (.reader 1), List.replicate 5 (.reader 1), List.replicate 4 (.reader 1),
    [.begin (.subscribe 0)], List.replicate 3 (.call 1), List.replicate 18 (.reader 1),
    List.replicate 5 (.reader 1), [.begin .stop, .call 2], List.replicate 2 (.reader 1)]

/-- Each of the four units that are forwarded has a fate of its own, and the counters say so. -/
theorem accounts_of_fiveFates : ∃ log r, Records step Unaided sight (ofSettings {}) log r ∧
    r.counters = { unitsRead := 5, published := 1, discarded := 1, keyframes := 1, bytes := 2 } ∧
    r.lastId = 4 ∧ (∀ h ∈ routed false (handlings log), ∃! fate, h.meets fate) ∧
    (fallen false (handlings log) .discarded).length = 1 ∧
    (fallen false (handlings log) .published).length = 1 ∧
    (fallen false (handlings log) .short).length = 1 ∧
    (fallen false (handlings log) .suppressed).length = 1 := by
  have ran : (record? step sight (ofSettings {}) fiveFates).any (fun x : List Sight × Relay =>
      x.2.counters = { unitsRead := 5, published := 1, discarded := 1, keyframes := 1, bytes := 2 } ∧
      x.2.lastId = 4 ∧ (handlings x.1).map Handling.size = [2, 2, 2, 1, 2] ∧
      (fallen false (handlings x.1) .short).length = 1 ∧ x.2.task.contexts.length = 2 ∧
      [0, 1].all fun k => (x.2.task.target? k).all fun reader => !reader.at_.isHandling) := by
    decide +kernel
  have unaided : ∀ l ∈ fiveFates, Unaided l := by decide +kernel
  obtain ⟨log, r, run, facts⟩ := exists_records_of_any unaided ran
  obtain ⟨counters, lastId, sizes, short, contexts, between⟩ := of_decide_eq_true facts
  have few : (handlings log).length = 5 := by
    simpa using congrArg List.length sizes
  obtain ⟨-, -, single, all, discarded, published, -⟩ :=
    counters_add_up run (by rw [few]; decide) (by rw [sizes]; decide) (by
      intro k reader executing
      have inside := lt_of_isLive (Task.isLive_of_target? executing)
      have known : k ∈ [0, 1] := by
        rw [contexts] at inside
        simp
        omega
      simpa [executing] using List.all_eq_true.mp between k known)
  rw [counters] at discarded published
  rw [lastId] at all
  dsimp only at short discarded published all
  refine ⟨log, r, run, counters, lastId, single, discarded.symm, published.symm, short, ?_⟩
  omega

end Runs

end PacketRelay.Relay
