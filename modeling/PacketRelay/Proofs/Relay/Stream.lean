import PacketRelay.Proofs.Relay.Publishing

/-!
# The stream that a subscriber gets

What a publisher is meant to hand out is told by the units that its loops have read: those of the
streams that are forwarded are numbered from one on, over all runs, and become packets unless they are
too short for one. A subscriber that is added before the first unit is read, and that nobody disturbs,
gets exactly these packets: those that it has taken, those in its queue, and at most one that the loop
in progress has in hand make up the whole stream. The numbers are integers here; they are words of 64
bits as long as fewer than `2 ^ 63` units are forwarded.

## Main definitions

* `kept`, `numbered`, `reference`: the stream that the units read make up
* `Reader.unnumbered`, `Reader.packet?`: the unit or the packet that a loop has in hand
* `Keeps`, `Streams`: the stream is what has been handed out and what the loop has in hand

## Main results

* `keepsAt_round`, `Streams.step`: the loop and the other steps of an undisturbed publisher keep this
* `reference_eq_dequeued_append_items`: a subscriber gets the stream
-/

namespace PacketRelay.Relay

/-- The unit that is read, if its stream is forwarded, and what it becomes. The video stream wins over
an audio stream of the same index. -/
def kept (forwardAudio : Bool) : Event → Option (MediaUnit × MediaKind)
  | .read _ video audio u =>
    if video = some u.stream then some (u, .video)
    else if forwardAudio && audio = some u.stream then some (u, .audio)
    else none
  | _ => none

theorem kept_read {forwardAudio : Bool} {run : Nat} {u : MediaUnit} (reader : Reader) :
    kept forwardAudio (.read run reader.videoIndex reader.audioIndex u) =
      (route reader forwardAudio u.stream).map (u, ·) := by
  dsimp only [kept, route]
  split
  · rfl
  · split <;> rfl

/-- The units that are forwarded, in the order in which they are read. -/
def numbered (forwardAudio : Bool) (log : List Event) : List (MediaUnit × MediaKind) :=
  log.filterMap (kept forwardAudio)

/-- The stream: the packets of the units that are forwarded, numbered from one. -/
def reference (forwardAudio : Bool) (log : List Event) : List Packet :=
  ((numbered forwardAudio log).zipIdx 1).filterMap fun x => Packet.ofUnit? x.2 x.1.1 x.1.2

variable {forwardAudio : Bool} {log : List Event} {e : Option Event}
  {units : List (MediaUnit × MediaKind)} {x : MediaUnit × MediaKind}

theorem numbered_append :
    numbered forwardAudio (log ++ e.toList) =
      numbered forwardAudio log ++ (e.bind (kept forwardAudio)).toList := by
  cases e with
  | none => simp [numbered]
  | some y => cases same : kept forwardAudio y <;> simp [numbered, same]

/-- The packets of units that are numbered from one. -/
def packetsFrom (units : List (MediaUnit × MediaKind)) : List Packet :=
  (units.zipIdx 1).filterMap fun x => Packet.ofUnit? x.2 x.1.1 x.1.2

theorem packetsFrom_snoc : packetsFrom (units ++ [x]) =
    packetsFrom units ++ (Packet.ofUnit? (units.length + 1) x.1 x.2).toList := by
  have next : ((1 + units.length : Nat) : Int) = units.length + 1 := by omega
  unfold packetsFrom
  rw [List.zipIdx_append, List.filterMap_append, List.zipIdx_singleton, List.filterMap_cons, next]
  cases Packet.ofUnit? (units.length + 1) x.1 x.2 <;> rfl

theorem reference_eq_packetsFrom :
    reference forwardAudio log = packetsFrom (numbered forwardAudio log) := rfl

/-- A unit that is forwarded takes the next number. -/
theorem reference_append :
    reference forwardAudio (log ++ e.toList) = reference forwardAudio log ++
      ((e.bind (kept forwardAudio)).bind fun x =>
        Packet.ofUnit? ((numbered forwardAudio log).length + 1) x.1 x.2).toList := by
  rw [reference_eq_packetsFrom, reference_eq_packetsFrom, numbered_append]
  cases e.bind (kept forwardAudio) with
  | none => simp
  | some x => rw [Option.toList_some, packetsFrom_snoc, Option.bind_some]

theorem taken_append {later : List Event} : taken (log ++ later) = taken log ++ taken later :=
  List.filterMap_append

end PacketRelay.Relay

namespace PacketRelay

/-- The unit that a loop has in hand and that has no number yet, if it will be forwarded. -/
def Reader.unnumbered (forwardAudio : Bool) (reader : Reader) : Option (MediaUnit × MediaKind) :=
  match reader.at_ with
  | .countRead u => (Relay.route reader forwardAudio u.stream).map (u, ·)
  | .number u kind => some (u, kind)
  | _ => none

/-- The packet that a loop has in hand and has not taken to the registry, or will make of its unit. -/
def Reader.packet? (forwardAudio : Bool) (lastId : Int) (reader : Reader) : Option Packet :=
  match reader.at_ with
  | .publish f => f.entering?
  | _ => (reader.unnumbered forwardAudio).bind fun x => Packet.ofUnit? (lastId + 1) x.1 x.2

section Hand

variable {forwardAudio : Bool} {lastId : Int} {reader : Reader} {p : Packet} {entries entry reached : Nat}

theorem Reader.unnumbered_of_not_handling (off : reader.at_.isHandling = false) :
    reader.unnumbered forwardAudio = none := by
  unfold unnumbered
  split <;> simp_all [Reading.isHandling]

theorem Reader.packet?_of_not_handling (off : reader.at_.isHandling = false) :
    reader.packet? forwardAudio lastId = none := by
  unfold packet?
  split
  · simp_all [Reading.isHandling]
  · rw [unnumbered_of_not_handling off]
    rfl

end Hand

namespace Relay

open Schedule

section Publishing

variable {forwardAudio : Bool} {r r' : Relay} {a : Actor} {f f' : Fanout}

theorem kept_observeFanout : (observeFanout a r f).bind (kept forwardAudio) = none := by
  cases shown : observeFanout a r f with
  | none => rfl
  | some e =>
    cases f with
    | serve p entry reached at_ =>
      simp only [observeFanout, Option.bind_eq_bind, Option.bind_eq_some_iff] at shown
      obtain ⟨n, -, x, -, shown⟩ := shown
      rcases eq_of_observeEnqueue shown with ⟨_, rfl⟩ | ⟨_, -, rfl⟩ <;> rfl
    | sweep =>
      simp only [observeFanout] at shown
      split at shown
      · obtain rfl := Option.some.inj shown
        rfl
      · simp at shown
    | acquire | choose | release =>
      obtain rfl := Option.some.inj shown
      rfl
    | _ => simp [observeFanout] at shown

/-- While no stop is requested and the loop is on, a packet gets to the registry. -/
theorem entering?_step (unstopped : r.stopRequested = false) (started : r.started = true)
    (last : f.step a r = some (r', f')) :
    f.entering?.toList = taken (observeFanout a r f).toList ++ f'.entering?.toList := by
  rcases entering?_cases last with same | ⟨-, -, off⟩
  · exact same
  · simp [unstopped, started] at off

end Publishing

/-- The numbers are taken up to the unit in hand, and the stream is what has been taken to the registry
and what is in hand. -/
structure Keeps (forwardAudio : Bool) (log : List Event) (lastId : Int)
    (unit : Option (MediaUnit × MediaKind)) (packet : Option Packet) : Prop where
  numbers : lastId + unit.toList.length = (numbered forwardAudio log).length
  packets : reference forwardAudio log = taken log ++ packet.toList

section Keeps

variable {forwardAudio : Bool} {log : List Event} {e : Option Event} {lastId : Int}
  {unit : Option (MediaUnit × MediaKind)} {packet packet' : Option Packet}

/-- A unit is read. It has a packet in hand already, of the next number. -/
theorem Keeps.read (keeps : Keeps forwardAudio log lastId none none) (untaken : taken e.toList = []) :
    Keeps forwardAudio (log ++ e.toList) lastId (e.bind (kept forwardAudio))
      ((e.bind (kept forwardAudio)).bind fun x => Packet.ofUnit? (lastId + 1) x.1 x.2) where
  numbers := by
    have numbers : lastId = (numbered forwardAudio log).length := by simpa using keeps.numbers
    rw [numbered_append, List.length_append, numbers]
    rfl
  packets := by
    have numbers : lastId = (numbered forwardAudio log).length := by simpa using keeps.numbers
    rw [reference_append, taken_append, keeps.packets, untaken, ← numbers]
    simp

/-- The unit in hand takes its number. -/
theorem Keeps.number {x : MediaUnit × MediaKind} (keeps : Keeps forwardAudio log lastId (some x) packet) :
    Keeps forwardAudio log (lastId + 1) none packet where
  numbers := by
    have numbers := keeps.numbers
    simpa using numbers
  packets := keeps.packets

/-- The packet in hand is taken to the registry, or stays in hand. -/
theorem Keeps.take (keeps : Keeps forwardAudio log lastId unit packet)
    (unread : e.bind (kept forwardAudio) = none)
    (handed : packet.toList = taken e.toList ++ packet'.toList) :
    Keeps forwardAudio (log ++ e.toList) lastId unit packet' where
  numbers := by
    rw [numbered_append, unread, keeps.numbers]
    simp
  packets := by
    rw [reference_append, unread, taken_append, keeps.packets, handed]
    simp

end Keeps

/-- The same for the loop of a run, if it is on. -/
def KeepsAt (forwardAudio : Bool) (log : List Event) (lastId : Int) (reader : Option Reader) : Prop :=
  Keeps forwardAudio log lastId (reader.bind (Reader.unnumbered forwardAudio))
    (reader.bind (Reader.packet? forwardAudio lastId))

section Loops

variable {forwardAudio : Bool} {s run : Nat} {r r' : Relay} {reader : Reader} {log : List Event}
  {e : Option Event} {lastId : Int}

/-- A loop has nothing in hand, or there is no loop. -/
theorem keepsAt_iff {x : Option Reader} (off : ∀ y, x = some y → y.at_.isHandling = false) :
    KeepsAt forwardAudio log lastId x ↔ Keeps forwardAudio log lastId none none := by
  unfold KeepsAt
  cases x with
  | none => rfl
  | some y =>
    rw [Option.bind_some, Option.bind_some, Reader.unnumbered_of_not_handling (off y rfl),
      Reader.packet?_of_not_handling (off y rfl)]

/-- **A loop hands out what it reads.** -/
theorem keepsAt_round {lastId : Int} {next : Option Reader} (suits : r.intake.Suits reader)
    (unstopped : r.stopRequested = false) (started : r.started = reader.at_.isLooping)
    (keeps : KeepsAt r.settings.forwardAudio log r.lastId (some reader))
    (round : Round r run reader e lastId next) :
    KeepsAt r.settings.forwardAudio (log ++ e.toList) lastId next := by
  have empty : ∀ {x : Option Reader}, (∀ y, x = some y → y.at_.isHandling = false) →
      reader.at_.isHandling = false → KeepsAt r.settings.forwardAudio (log ++ []) r.lastId x := by
    intro x off off'
    rw [List.append_nil, keepsAt_iff off]
    exact (keepsAt_iff fun y same => Option.some.inj same ▸ off').mp keeps
  cases round with
  | video | audio =>
    refine empty (?_) rfl
    intro y same
    obtain rfl := Option.some.inj same
    rfl
  | pass before after =>
    refine empty (?_) (Reading.isHandling_of_isBetween before)
    intro y same
    obtain rfl := Option.some.inj same
    exact Reading.isHandling_of_isBetween after
  | leave before => exact empty (by simp) (Reading.isHandling_of_isBetween before)
  | @read source video audio x u there _ =>
    have declared : x.indexes = (video, audio) := by
      simpa [Intake.Suits, intake, there] using suits
    have route : kept r.settings.forwardAudio (.read run x.indexes.1 x.indexes.2 u) =
        (⟨source, video, audio, .countRead u⟩ : Reader).unnumbered r.settings.forwardAudio := by
      rw [declared]
      exact kept_read ⟨source, video, audio, .countRead u⟩
    have nothing := (keepsAt_iff fun y same => Option.some.inj same ▸ rfl).mp keeps
    have next := nothing.read (e := some (.read run x.indexes.1 x.indexes.2 u)) rfl
    simp only [Option.bind_some, route] at next
    exact next
  | @count reader u at_ =>
    obtain ⟨source, video, audio, _⟩ := reader
    obtain rfl : _ = Reading.countRead u := at_
    -- Whether the unit takes a number has been told by its stream all along.
    have same : ∀ y, route ⟨source, video, audio, .countRead u⟩ r.settings.forwardAudio u.stream = y →
        KeepsAt r.settings.forwardAudio (log ++ []) r.lastId
          (some ⟨source, video, audio, r.afterCount ⟨source, video, audio, .countRead u⟩ u⟩) := by
      intro y routed
      simp only [KeepsAt, Option.bind_some, Reader.unnumbered, Reader.packet?, routed] at keeps
      unfold afterCount
      rw [routed, List.append_nil]
      cases y <;> exact keeps
    exact same _ rfl
  | @number reader u kind at_ =>
    obtain ⟨source, video, audio, _⟩ := reader
    obtain rfl : _ = Reading.number u kind := at_
    have next : Keeps r.settings.forwardAudio log (r.lastId + 1) none
        (Packet.ofUnit? (r.lastId + 1) u kind) := Keeps.number keeps
    show KeepsAt _ (log ++ []) (r.lastId + 1) (some ⟨source, video, audio, _⟩)
    rw [List.append_nil, afterNumber]
    cases made : Packet.ofUnit? (r.lastId + 1) u kind <;> rw [made] at next <;> exact next
  | @publish reader f f' t at_ step =>
    obtain ⟨source, video, audio, _⟩ := reader
    obtain rfl : _ = Reading.publish f := at_
    have inHand : Keeps r.settings.forwardAudio log r.lastId none f.entering? := keeps
    exact inHand.take kept_observeFanout (entering?_step unstopped started step)
  | @published reader reached at_ =>
    obtain ⟨source, video, audio, _⟩ := reader
    obtain rfl : _ = Reading.publish (.finished reached) := at_
    have inHand : Keeps r.settings.forwardAudio log r.lastId none none := keeps
    exact inHand.take (e := none) rfl rfl

/-- All else that takes a step reads no unit and hands out no packet. -/
theorem Aside.quiet {l : Label} (aside : Aside r l r') (forwardAudio : Bool) :
    (r.observe l).bind (kept forwardAudio) = none ∧ taken (r.observe l).toList = [] := by
  cases shown : r.observe l with
  | none => exact ⟨rfl, rfl⟩
  | some e => rcases aside.shown e shown with ⟨n, rfl⟩ | ⟨n, p, rfl⟩ <;> exact ⟨rfl, rfl⟩

/-- The loop of one run may be on, and with what it has in hand the stream is complete. -/
def Streams (forwardAudio : Bool) (log : List Event) (r : Relay) : Prop :=
  ∃ run, (∀ other, other ≠ run → r.task.target? other = none) ∧
    KeepsAt forwardAudio log r.lastId (r.task.target? run)

/-- **An undisturbed publisher hands out the stream.** -/
theorem Streams.step {k k' : Keeper} {l : Label} (streams : Streams r.settings.forwardAudio log r)
    (fed : Fed s r) (kept : r.control.KeptBy k) (kept' : r'.control.KeptBy k')
    (last : r.step l = some r') :
    Streams r.settings.forwardAudio (log ++ (r.observe l).toList) r' := by
  obtain ⟨run, alone, keeps⟩ := streams
  by_cases own : ∃ n, l = .reader n
  · obtain ⟨n, rfl⟩ := own
    obtain ⟨reader, executing⟩ := exists_target_of_readerStep last
    obtain rfl : n = run := by
      by_contra other
      simp [alone n other] at executing
    rw [executing] at keeps
    have started : r.started = reader.at_.isLooping := kept.started_eq executing
    obtain ⟨round, others⟩ := round_readerStep executing last
    have suits := fed.reading n reader executing
    refine ⟨n, ?_, keepsAt_round suits fed.unstopped started keeps round⟩
    intro other ne
    exact (others other (Ne.symm ne)).trans (alone other ne)
  · have others : ∀ n, l ≠ .reader n := fun n same => own ⟨n, same⟩
    have aside := fed.aside last others
    obtain ⟨unread, untaken⟩ := aside.quiet r.settings.forwardAudio
    -- The loop stays where it is, or one comes up with nothing in hand.
    obtain ⟨run', alone', came⟩ := exists_alone kept' aside.targets alone
    have keeps' : KeepsAt r.settings.forwardAudio (log ++ (r.observe l).toList) r.lastId
        (r.task.target? run) := Keeps.take keeps unread (by simp [untaken])
    refine ⟨run', alone', ?_⟩
    rw [aside.lastId]
    rcases came with same | ⟨idle, reader, came, at_, -⟩
    · rwa [same]
    · rw [came, keepsAt_iff fun y same => Option.some.inj same ▸ at_ ▸ rfl]
      rwa [idle, keepsAt_iff (by simp)] at keeps'

end Loops

section Run

variable {settings : PublisherSettings} {s : Nat} {r r' : Relay} {l : Label} {log : List Event}

theorem conserved_ofSettings : Conserved s [] (ofSettings settings).desk where
  active x there := by simp [desk, ofSettings] at there
  queue := rfl
  absent _ := ⟨by simp [desk, ofSettings], rfl⟩
  present added := by simp at added

theorem streams_ofSettings {forwardAudio : Bool} : Streams forwardAudio [] (ofSettings settings) := by
  refine ⟨0, fun run _ => target?_ofSettings run, ?_⟩
  rw [target?_ofSettings, keepsAt_iff (by simp)]
  exact ⟨rfl, rfl⟩

theorem isGentle_mover (undisturbed : Undisturbed s l) : (r.mover l).IsGentle s := by
  cases l with
  | consumer n action => cases action <;> exact undisturbed
  | _ => trivial

/-- What a thread sees that looks for a stop request. -/
theorem stop_of_asked {a : Actor} {stop : Bool} (shown : r.observe l = some (.asked a stop)) :
    r.stopRequested = stop := by
  have fanout : ∀ {b : Actor} {f : Fanout}, observeFanout b r f = some (.asked a stop) →
      r.stopRequested = stop := by
    intro b f shown
    cases f with
    | choose => exact (Event.asked.inj (Option.some.inj shown)).2
    | serve p entry reached at_ =>
      simp only [observeFanout, Option.bind_eq_bind, Option.bind_eq_some_iff] at shown
      obtain ⟨n, -, x, -, shown⟩ := shown
      rcases eq_of_observeEnqueue shown with ⟨_, same⟩ | ⟨_, -, same⟩ <;> cases same
    | sweep =>
      simp only [observeFanout] at shown
      split at shown <;> simp at shown
    | _ => simp [observeFanout] at shown
  cases l with
  | call n =>
    obtain ⟨stage, -, shown⟩ := Option.bind_eq_some_iff.mp shown
    cases stage with
    | publish f => exact fanout shown
    | subscribe m at_ | unsubscribe m at_ =>
      cases at_ with
      | sweep =>
        simp only [observeCall] at shown
        split at shown <;> simp at shown
      | _ => simp [observeCall] at shown
    | _ => simp [observeCall] at shown
  | reader run =>
    obtain ⟨⟨source, video, audio, at_⟩, -, shown⟩ := Option.bind_eq_some_iff.mp shown
    cases at_ with
    | publish f => exact fanout shown
    | read =>
      simp only [observeReading, Option.bind_eq_bind, Option.bind_eq_some_iff] at shown
      obtain ⟨x, -, shown⟩ := shown
      split at shown <;> simp at shown
    | _ => simp [observeReading] at shown
  | consumer n action =>
    cases action with
    | dequeue pick =>
      obtain ⟨x, -, shown⟩ := Option.bind_eq_some_iff.mp shown
      obtain ⟨p, -, same⟩ := Option.map_eq_some_iff.mp shown
      cases same
    | _ => simp [observe] at shown
  | _ => simp [observe] at shown

/-- What holds along the schedules of an undisturbed publisher. -/
structure Attended (settings : PublisherSettings) (s : Nat) (log : List Event) (r : Relay) : Prop where
  fed : Fed s r
  launching : r.control.Launching
  conserved : Conserved s log r.desk
  settings_eq : r.settings = settings
  streams : Streams settings.forwardAudio log r

theorem attended (run : Records step (Undisturbed s) observe (ofSettings settings) log r) :
    Attended settings s log r := by
  induction run with
  | refl =>
    exact ⟨fed_ofSettings, launching_ofSettings, conserved_ofSettings, rfl, streams_ofSettings⟩
  | @tail r r' log l run undisturbed last ih =>
    obtain ⟨fed, launching, conserved, same, streams⟩ := ih
    obtain ⟨panics, recorded⟩ := run.reaches.exists_records panic?
    obtain ⟨sound, k, kept, -⟩ := exists_keeper recorded
    obtain ⟨-, k', kept', -⟩ := exists_keeper (recorded.tail trivial last)
    have fed' := fed.step sound kept launching undisturbed last
    have booked := accounted (run.mono fun l => admitted_of_undisturbed)
    have move := desk_step sound (admitted_of_undisturbed undisturbed) last
    refine ⟨fed', ?_, ?_, ?_, ?_⟩
    · rcases control_step last with ⟨stays, -⟩ | move
      · rw [stays]
        exact launching
      · exact launching.move move
    · apply conserved.move move booked.sound fed.calm fed'.calm (isGentle_mover undisturbed)
      intro a shown
      have stop := stop_of_asked shown
      rw [fed.unstopped] at stop
      cases stop
    · by_cases own : ∃ n, l = .reader n
      · obtain ⟨n, rfl⟩ := own
        exact (readerStep_frame last).2.2.1.trans same
      · exact (fed.aside last fun n here => own ⟨n, here⟩).settings.trans same
    · subst same
      exact streams.step fed kept kept' last

/-- Before a unit is read nothing is handed out. -/
theorem taken_eq_nil (run : Records step (Undisturbed s) observe (ofSettings settings) log r)
    (unread : ∀ e ∈ log, kept settings.forwardAudio e = none) : taken log = [] := by
  obtain ⟨_, -, streams⟩ := (attended run).streams
  have none : numbered settings.forwardAudio log = [] := List.filterMap_eq_nil_iff.mpr unread
  have empty : reference settings.forwardAudio log = [] := by simp [reference, none]
  exact (List.append_eq_nil_iff.mp (streams.packets.symm.trans empty)).1

theorem length_owed {f : Fanout} {registry : List Nat} : (f.owed s registry).length ≤ 1 := by
  unfold Fanout.owed
  split <;> first | split <;> simp | simp

/-- While a subscriber is owed a packet, a loop is past the point of taking one to the registry. -/
theorem Fed.owed_cases (fed : Fed s r) : r.desk.owed s = [] ∨
    (r.desk.owed s).length ≤ 1 ∧ ∃ k reader f, r.task.target? k = some reader ∧
      reader.at_ = .publish f ∧ f.entering? = none := by
  unfold Desk.owed
  split
  · next f at_ =>
    obtain ⟨a, -, here⟩ := Option.bind_eq_some_iff.mp at_
    cases a with
    | call n =>
      rcases fed.calm.calls n _ here with ⟨_, same, -⟩ | ⟨_, _, same, -⟩ <;> cases same
    | reader k =>
      obtain ⟨reader, executing, does⟩ := Option.bind_eq_some_iff.mp here
      cases place : reader.at_ with
      | publish g =>
        rw [place] at does
        simp only [Reading.doing, Fanout.doing] at does
        split at does
        · next inside =>
          refine .inr ⟨length_owed, k, reader, g, executing, place, ?_⟩
          cases g <;> first | rfl | simp [Fanout.isInside] at inside
        · simp at does
      | _ => simp [place, Reading.doing] at does
  · exact .inl rfl

/-- **What a subscriber gets is the stream.** A subscriber that is added before the first unit is read
has taken or has in its queue all packets of the stream but one at most, the last one, and that only
while a loop is not done with a unit that it has read. -/
theorem reference_eq_dequeued_append_items {before after : List Event}
    (run : Records step (Undisturbed s) observe (ofSettings settings) log r)
    (added : log = before ++ .subscribed s :: after)
    (unread : ∀ e ∈ before, ∀ k video audio u, e ≠ .read k video audio u) :
    ∃ x rest, r.subscribers[s]? = some x ∧
      reference settings.forwardAudio log = dequeuedFrom s log ++ x.queue.items ++ rest ∧
      rest.length ≤ 1 ∧
      ((∀ k reader, r.task.target? k = some reader → reader.at_.isHandling = false) → rest = []) := by
  obtain ⟨fed, -, conserved, -, k, alone, keeps⟩ := attended run
  obtain ⟨there, known, all⟩ := conserved.present (by simp [added])
  obtain ⟨x, found⟩ : ∃ x, r.subscribers[s]? = some x := ⟨_, List.getElem?_eq_getElem known⟩
  have nothing : taken (beforeAdded s log) = [] := by
    have first : beforeAdded s log <+: before := added ▸ beforeAdded_prefix
    have part : beforeAdded s log <+: log := List.takeWhile_prefix _
    obtain ⟨t, earlier⟩ := run.exists_of_prefix part
    apply taken_eq_nil earlier
    intro e inside
    cases e with
    | read k video audio u => exact absurd rfl (unread _ (first.mem inside) k video audio u)
    | _ => rfl
  have queue : pushedTo s log = dequeuedFrom s log ++ x.queue.items := by
    have same : r.desk.items s = x.queue.items := by
      show r.subscribers[s]?.elim [] _ = _
      rw [found]
      rfl
    rw [← same]
    exact conserved.queue
  -- The loop that has taken a packet to the registry is the only one.
  have owed : r.desk.owed s = [] ∨ (r.desk.owed s).length ≤ 1 ∧ ∃ reader,
      r.task.target? k = some reader ∧ reader.at_.isHandling ∧
      reader.packet? settings.forwardAudio r.lastId = none := by
    rcases fed.owed_cases with none | ⟨one, m, reader, f, executing, at_, free⟩
    · exact .inl none
    · obtain rfl : m = k := by
        by_contra other
        simp [alone m other] at executing
      exact .inr ⟨one, reader, executing, by simp [at_, Reading.isHandling],
        by simp [Reader.packet?, at_, free]⟩
  refine ⟨x, r.desk.owed s ++ ((r.task.target? k).bind
    (Reader.packet? settings.forwardAudio r.lastId)).toList, found, ?_, ?_, ?_⟩
  · rw [keeps.packets, all, nothing, List.nil_append, queue]
    simp only [List.append_assoc]
  · rcases owed with none | ⟨one, reader, executing, -, free⟩
    · rw [none]
      cases (r.task.target? k).bind _ <;> simp
    · rw [executing, Option.bind_some, free]
      simpa using one
  · intro off
    have free : (r.task.target? k).bind (Reader.packet? settings.forwardAudio r.lastId) = none := by
      cases executing : r.task.target? k with
      | none => rfl
      | some reader => exact Reader.packet?_of_not_handling (off k reader executing)
    rcases owed with none | ⟨-, reader, executing, handling, -⟩
    · rw [none, free]
      rfl
    · simp [off k reader executing] at handling

/-- Two subscribers and a source of five units, one too short and one of another stream. The first
subscriber has room for one packet and takes one. -/
def fiveUnits : List Label :=
  let unit (stream : Nat) (data : List UInt8) : MediaUnit := { stream := stream, data := data }
  let memory : MemorySource := {
    feed := { units := [unit 0 [2, 1], unit 0 [], unit 1 [2, 1], unit 0 [2, 1], unit 0 [2, 1]] }
    video := some { index := 0, codec := "", timeBase := ⟨1, 1⟩ } }
  List.flatten [
    [.addSubscriber (.ofName "a" "" 1), .addSubscriber (.ofName "b" "" 4)],
    [.addSource { memory := memory }, .begin (.subscribe 1)], List.replicate 3 (.call 0),
    [.begin (.subscribe 0)], List.replicate 4 (.call 1),
    [.begin (.start 0 "")], List.replicate 19 (.call 2), List.replicate 4 (.thread 1),
    List.replicate 48 (.reader 1), [.consumer 0 (.dequeue 0)], List.replicate 28 (.reader 1)]

/-- The first packet is taken, the second one is queued, and the loop waits with the third one. -/
theorem stream_of_five_units : ∃ log r,
    Records step (Undisturbed 0) observe (ofSettings {}) log r ∧
      (reference false log).map (·.id) = [1, 3, 4] ∧ (dequeuedFrom 0 log).map (·.id) = [1] ∧
      ∃ x rest, r.subscribers[0]? = some x ∧ x.queue.items.map (·.id) = [3] ∧
        rest.map (·.id) = [4] ∧ reference false log = dequeuedFrom 0 log ++ x.queue.items ++ rest := by
  have ran : (record? step observe (ofSettings {}) fiveUnits).any (fun x : List Event × Relay =>
      x.1 = [.subscribed 1] ++ .subscribed 0 :: x.1.drop 2 ∧
      (reference false x.1).map (·.id) = [1, 3, 4] ∧ (dequeuedFrom 0 x.1).map (·.id) = [1] ∧
      x.2.subscribers.map (·.queue.items.map (·.id)) = [[3], [1, 3, 4]]) := by
    decide +kernel
  have undisturbed : ∀ l ∈ fiveUnits, Undisturbed 0 l := by decide +kernel
  obtain ⟨log, r, run, facts⟩ := exists_records_of_any undisturbed ran
  obtain ⟨added, packets, dequeued, queues⟩ := of_decide_eq_true facts
  obtain ⟨x, rest, found, stream, -, -⟩ :=
    reference_eq_dequeued_append_items run added (by simp)
  have queued : x.queue.items.map (·.id) = [3] := by
    have at_ := congrArg (·[0]?) queues
    simpa [found] using at_
  refine ⟨log, r, run, packets, dequeued, x, rest, found, queued, ?_, stream⟩
  have ids : [1, 3, 4] = [1] ++ [3] ++ rest.map (·.id) := by
    rw [← packets, ← dequeued, ← queued, ← List.map_append, ← List.map_append]
    exact congrArg _ stream
  simpa using ids.symm

end Run

end Relay

end PacketRelay
