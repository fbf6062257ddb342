import PacketRelay.Proofs.Relay.Conservation
import PacketRelay.Proofs.Relay.Round

/-!
# From the sources to the read loop

A start notes the streams of its source at the publisher, and the read loop of the new run reads them
from there. No other start comes in between, since the run stays reserved from the one to the other, so
that a loop routes its units by the streams of the source it reads.

This is shown for publishers that nobody stops: all their calls start, join and describe them, add
subscribers, and put packets into queues other than that of a given subscriber.

## Main definitions

* `Undisturbed`: the steps of such a publisher
* `Intake`: the streams of the sources, and those that are noted
* `Fed`: every loop has, or will find, the streams of its source

## Main results

* `Fed.step`: the steps of an undisturbed publisher keep this
-/

namespace PacketRelay

/-- The streams of all sources, and those noted at the publisher, by their indexes. -/
structure Intake where
  /-- The video stream that is noted -/
  video : Option Nat
  /-- The audio stream that is noted -/
  audio : Option Nat
  /-- The video and the audio stream of each source -/
  declared : Nat → Option (Option Nat × Option Nat)

namespace Intake

/-- The streams of a source are noted. -/
def Noted (i : Intake) (source : Nat) : Prop :=
  i.declared source = some (i.video, i.audio)

/-- What a call has noted on its way through a start. -/
def Backs (i : Intake) : CallStage → Prop
  | .start source _ .setVideo => (i.declared source).isSome
  | .start source _ .setAudio => ∃ audio, i.declared source = some (i.video, audio)
  | .start source _ .setUri | .start source _ .clearStop => i.Noted source
  | _ => True

/-- What a loop has read, or finds noted, are the streams of its source. -/
def Suits (i : Intake) (reader : Reader) : Prop :=
  match reader.at_ with
  | .readVideo => i.Noted reader.source
  | .readAudio => i.declared reader.source = some (reader.videoIndex, i.audio)
  | _ => i.declared reader.source = some (reader.videoIndex, reader.audioIndex)

/-- There may be more sources. -/
structure Extends (i j : Intake) : Prop where
  video : j.video = i.video
  audio : j.audio = i.audio
  declared : ∀ source x, i.declared source = some x → j.declared source = some x

variable {i j : Intake}

theorem Extends.refl (i : Intake) : i.Extends i := ⟨rfl, rfl, fun _ _ => id⟩

theorem Extends.noted (more : i.Extends j) {source : Nat} (noted : i.Noted source) :
    j.Noted source := by
  unfold Noted at *
  rw [more.video, more.audio]
  exact more.declared _ _ noted

theorem Extends.backs (more : i.Extends j) {stage : CallStage} (backs : i.Backs stage) :
    j.Backs stage := by
  unfold Backs at *
  split
  · obtain ⟨x, found⟩ := Option.isSome_iff_exists.mp backs
    exact Option.isSome_iff_exists.mpr ⟨x, more.declared _ _ found⟩
  · obtain ⟨audio, found⟩ := backs
    rw [more.video]
    exact ⟨audio, more.declared _ _ found⟩
  · exact more.noted backs
  · exact more.noted backs
  · trivial

/-- A loop that is past reading the streams has those of its source. -/
theorem suits_iff {reader : Reader} (past : reader.at_ ≠ .readVideo ∧ reader.at_ ≠ .readAudio) :
    i.Suits reader ↔ i.declared reader.source = some (reader.videoIndex, reader.audioIndex) := by
  unfold Suits
  split
  · next at_ => exact absurd at_ past.1
  · next at_ => exact absurd at_ past.2
  · rfl

theorem Extends.suits (more : i.Extends j) {reader : Reader} (suits : i.Suits reader) :
    j.Suits reader := by
  obtain ⟨source, video, audio, at_⟩ := reader
  cases at_ with
  | readVideo => exact more.noted suits
  | readAudio =>
    show j.declared source = some (video, j.audio)
    rw [more.audio]
    exact more.declared _ _ suits
  | _ => exact more.declared _ _ suits

theorem Suits.goOn {reader : Reader} {at_ : Reading} (suits : i.Suits reader)
    (before : reader.at_ ≠ .readVideo ∧ reader.at_ ≠ .readAudio)
    (after : at_ ≠ .readVideo ∧ at_ ≠ .readAudio) : i.Suits { reader with at_ := at_ } := by
  have declared := (suits_iff before).mp suits
  exact (suits_iff after).mpr declared

end Intake

namespace Relay

/-- The streams of the sources of a publisher, and those that are noted. -/
def intake (r : Relay) : Intake where
  video := r.video.map (·.index)
  audio := r.audio.map (·.index)
  declared source := r.sources[source]?.map ScriptedSource.indexes

variable {r r' : Relay} {n : Nat}

/-- A source that stays with its streams may change. -/
theorem intake_setSource {source : Nat} {s s' : ScriptedSource} (there : r.sources[source]? = some s)
    (same : s'.indexes = s.indexes) : (r.setSource source s').intake = r.intake := by
  unfold intake setSource
  congr 1
  funext m
  rw [List.getElem?_set]
  split
  · next here =>
    subst here
    rw [if_pos (List.getElem?_eq_some_iff.mp there).1, there, Option.map_some, Option.map_some, same]
  · rfl

/-- The steps of a publisher that nobody stops, and in which a subscriber is left alone. -/
def Undisturbed (s : Nat) : Label → Prop
  | .begin (.publish _) | .begin (.unsubscribe _) | .begin .stop | .begin .drop => False
  | .begin (.enqueue n _) => n ≠ s
  | .consumer n .terminate | .consumer n .clear => n ≠ s
  | .addSubscriber x => x = .ofName x.name x.suffix x.queue.capacity
  | _ => True

instance (s : Nat) : DecidablePred (Undisturbed s)
  | .begin (.publish _) | .begin (.unsubscribe _) | .begin .stop | .begin .drop =>
    inferInstanceAs (Decidable False)
  | .begin (.enqueue n _) | .consumer n .terminate | .consumer n .clear =>
    inferInstanceAs (Decidable (n ≠ s))
  | .addSubscriber x => inferInstanceAs (Decidable (x = .ofName x.name x.suffix x.queue.capacity))
  | .begin (.subscribe _) | .begin (.start ..) | .begin .join | .begin .describe | .call _ | .reader _
  | .thread _ | .consumer _ (.dequeue _) | .consumer _ (.stir _) | .writer .. | .addSource _ =>
    inferInstanceAs (Decidable True)

theorem admitted_of_undisturbed {s : Nat} {l : Label} (undisturbed : Undisturbed s l) : Admitted l := by
  cases l with
  | addSubscriber x => exact undisturbed
  | _ => trivial

/-- The calls of such a publisher. -/
def IsMild (s count : Nat) : CallStage → Prop
  | .publish _ | .unsubscribe .. | .stop _ | .drop _ => False
  | .enqueue n _ => n ≠ s
  | .subscribe n _ => n < count
  | _ => True

/-- A call of such a publisher goes on. It notes something only while it prepares a start. -/
structure Goes (s n : Nat) (r r' : Relay) : Prop where
  stage : ∃ stage, r'.calls = r.calls.set n stage ∧ IsMild s r.subscribers.length stage ∧
    r'.intake.Backs stage
  settings : r'.settings = r.settings
  lastId : r'.lastId = r.lastId
  stop : r.stopRequested = false → r'.stopRequested = false
  targets : ∀ run, r'.task.target? run = r.task.target? run
  intake : r'.intake = r.intake ∨ r'.task = r.task ∧
    ∃ source uri at_, r.calls[n]? = some (.start source uri at_) ∧ at_.isPreparing

section Calls

variable {s : Nat} {stage : CallStage}

theorem goes_taskStep {atEnd : Relay} (here : r.calls[n]? = some stage)
    (mild : IsMild s r.subscribers.length stage) (backs : r.intake.Backs stage)
    (ended : Goes s n r atEnd) (last : r.taskStep atEnd = some r') : Goes s n r r' := by
  rcases taskStep_cases last with ⟨-, rfl⟩ | ⟨t, step, rfl⟩
  · exact ended
  · exact ⟨⟨stage, calls_eq_set here, mild, backs⟩, rfl, rfl, id, Task.target?_run_advance step,
      .inl rfl⟩

/-- What a start notes are the streams of its source. -/
theorem goes_startStep {source : Nat} {uri : String} {at_ : Starting}
    (here : r.calls[n]? = some (.start source uri at_))
    (backs : r.intake.Backs (.start source uri at_))
    (last : r.startStep n source uri at_ = some r') : Goes s n r r' := by
  cases at_ with
  | lock =>
    obtain ⟨-, rfl⟩ := startStep_lock last
    exact ⟨⟨_, rfl, trivial, trivial⟩, rfl, rfl, id, fun _ => rfl, .inl rfl⟩
  | reserve =>
    obtain rfl := Option.some.inj last
    split <;> exact ⟨⟨_, rfl, trivial, trivial⟩, rfl, rfl, id, fun _ => rfl, .inl rfl⟩
  | joining =>
    refine goes_taskStep here trivial backs ?_ last
    exact ⟨⟨_, rfl, trivial, trivial⟩, rfl, rfl, id, fun _ => rfl, .inl rfl⟩
  | launching =>
    refine goes_taskStep here trivial backs ?_ last
    refine ⟨⟨_, rfl, trivial, ?_⟩, rfl, rfl, id, fun _ => rfl, .inl rfl⟩
    unfold afterLaunch
    split <;> trivial
  | openSource =>
    obtain ⟨x, there, -, ⟨y, opened, rfl⟩ | ⟨e, -, rfl⟩⟩ := startStep_openSource last
    · have same : (r.setSource source y).intake = r.intake :=
        intake_setSource there (ScriptedSource.indexes_openAt opened)
      refine ⟨⟨_, rfl, trivial, ?_⟩, rfl, rfl, id, fun _ => rfl, .inl same⟩
      show ((r.setSource source y).intake.declared source).isSome
      rw [same]
      simp [intake, there]
    · exact ⟨⟨_, rfl, trivial, trivial⟩, rfl, rfl, id, fun _ => rfl, .inl rfl⟩
  | setVideo =>
    obtain rfl := Option.some.inj last
    refine ⟨⟨_, rfl, trivial, ?_⟩, rfl, rfl, id, fun _ => rfl, .inr ⟨rfl, source, uri, _, here, rfl⟩⟩
    obtain ⟨x, there, -⟩ : ∃ x, r.sources[source]? = some x ∧ True := by
      simpa [Intake.Backs, intake, Option.isSome_iff_exists] using backs
    exact ⟨x.indexes.2, by simp [intake, declared, there, ScriptedSource.indexes, setCall]⟩
  | setAudio =>
    obtain rfl := Option.some.inj last
    refine ⟨⟨_, rfl, trivial, ?_⟩, rfl, rfl, id, fun _ => rfl, .inr ⟨rfl, source, uri, _, here, rfl⟩⟩
    obtain ⟨audio, noted⟩ := backs
    obtain ⟨x, there, same⟩ := Option.map_eq_some_iff.mp noted
    have video : r.video.map (·.index) = x.indexes.1 := (congrArg Prod.fst same).symm
    show r.sources[source]?.map ScriptedSource.indexes =
      some (r.video.map (·.index), (r.declared source (·.audio)).map (·.index))
    rw [video, declared, there]
    rfl
  | setUri =>
    obtain rfl := Option.some.inj last
    exact ⟨⟨_, rfl, trivial, backs⟩, rfl, rfl, id, fun _ => rfl, .inl rfl⟩
  | clearStop =>
    obtain rfl := Option.some.inj last
    exact ⟨⟨_, rfl, trivial, trivial⟩, rfl, rfl, fun _ => rfl, fun _ => rfl, .inl rfl⟩
  | refuse | refuseThread | shareToken =>
    obtain rfl := Option.some.inj last
    exact ⟨⟨_, rfl, trivial, trivial⟩, rfl, rfl, id, fun _ => rfl, .inl rfl⟩

theorem goes_joinStep {at_ : Joining} (here : r.calls[n]? = some (.join at_))
    (last : r.joinStep n at_ = some r') : Goes s n r r' := by
  cases at_ with
  | lock =>
    obtain ⟨-, rfl⟩ := joinStep_lock last
    exact ⟨⟨_, rfl, trivial, trivial⟩, rfl, rfl, id, fun _ => rfl, .inl rfl⟩
  | joining =>
    refine goes_taskStep here trivial trivial ?_ last
    exact ⟨⟨_, rfl, trivial, trivial⟩, rfl, rfl, id, fun _ => rfl, .inl rfl⟩

theorem goes_describeStep {at_ : Describing} (last : r.describeStep n at_ = some r') :
    Goes s n r r' := by
  cases at_ with
  | countEntries uri started stop =>
    obtain ⟨-, rfl⟩ := describeStep_countEntries last
    exact ⟨⟨_, rfl, trivial, trivial⟩, rfl, rfl, id, fun _ => rfl, .inl rfl⟩
  | _ =>
    obtain rfl := Option.some.inj last
    exact ⟨⟨_, rfl, trivial, trivial⟩, rfl, rfl, id, fun _ => rfl, .inl rfl⟩

theorem goes_subscribeStep {m : Nat} {at_ : Subscribing} (known : m < r.subscribers.length)
    (last : r.subscribeStep n m at_ = some r') : Goes s n r r' := by
  cases at_ with
  | checkStop =>
    obtain rfl := Option.some.inj last
    split
    · exact ⟨⟨_, rfl, trivial, trivial⟩, rfl, rfl, id, fun _ => rfl, .inl rfl⟩
    · exact ⟨⟨_, rfl, known, trivial⟩, rfl, rfl, id, fun _ => rfl, .inl rfl⟩
  | acquire =>
    obtain ⟨-, rfl⟩ := subscribeStep_acquire last
    exact ⟨⟨_, rfl, known, trivial⟩, rfl, rfl, id, fun _ => rfl, .inl rfl⟩
  | sweep entry =>
    rcases subscribeStep_sweep last with ⟨t, next, swept, rfl⟩ | ⟨-, rfl⟩
    · rw [sweep_frame swept]
      exact ⟨⟨_, rfl, known, trivial⟩, rfl, rfl, id, fun _ => rfl, .inl rfl⟩
    · unfold register
      split <;> exact ⟨⟨_, rfl, trivial, trivial⟩, rfl, rfl, id, fun _ => rfl, .inl rfl⟩

theorem goes_enqueueStep {m : Nat} {e : Enqueue} (other : m ≠ s)
    (last : r.enqueueStep n m e = some r') : Goes s n r r' := by
  rcases enqueueStep_cases last with ⟨rfl, rfl⟩ | ⟨x, x', e', -, -, rfl⟩
  · exact ⟨⟨_, rfl, trivial, trivial⟩, rfl, rfl, id, fun _ => rfl, .inl rfl⟩
  · exact ⟨⟨_, rfl, other, trivial⟩, rfl, rfl, id, fun _ => rfl, .inl rfl⟩

theorem goes_callStep (here : r.calls[n]? = some stage) (mild : IsMild s r.subscribers.length stage)
    (backs : r.intake.Backs stage) (last : r.callStep n = some r') : Goes s n r r' := by
  simp only [callStep, here, Option.bind_eq_bind, Option.bind_some] at last
  cases stage with
  | publish | unsubscribe | stop | drop => exact absurd mild id
  | enqueue m e => exact goes_enqueueStep mild last
  | subscribe m at_ => exact goes_subscribeStep mild last
  | start source uri at_ => exact goes_startStep here backs last
  | join at_ => exact goes_joinStep here last
  | describe at_ => exact goes_describeStep last
  | returned reply => simp at last

end Calls

section Readers

variable {run : Nat} {reader : Reader}

/-- A read loop leaves alone what is noted, the calls, the settings and the mark of a stop. -/
theorem readerStep_frame (last : r.readerStep run = some r') :
    r'.intake = r.intake ∧ r'.calls = r.calls ∧ r'.settings = r.settings ∧
      r'.stopRequested = r.stopRequested := by
  obtain ⟨⟨source, video, audio, at_⟩, executing⟩ := exists_target_of_readerStep last
  have whole := last
  simp only [readerStep, executing, Option.bind_eq_bind, Option.bind_some] at last
  cases at_ with
  | read =>
    obtain ⟨x, there, next⟩ := readUnit_cases last
    have same : (r.setSource source x.read.1).intake = r.intake :=
      intake_setSource there ScriptedSource.indexes_read
    rcases next with ⟨outcome, -, rfl⟩ | ⟨-, rfl⟩
    · exact ⟨same, rfl, rfl, rfl⟩
    · exact ⟨same, rfl, rfl, rfl⟩
  | publish f =>
    rcases readerStep_publish executing rfl whole with ⟨reached, rfl, rfl⟩ | ⟨t, f', step, rfl⟩
    · exact ⟨rfl, rfl, rfl, rfl⟩
    · rw [Fanout.step_frame step]
      exact ⟨rfl, rfl, rfl, rfl⟩
  | pause =>
    rcases readerStep_pause executing rfl whole with ⟨delay, -, rfl⟩ | ⟨-, rfl⟩
    · exact ⟨rfl, rfl, rfl, rfl⟩
    · exact ⟨rfl, rfl, rfl, rfl⟩
  | _ =>
    obtain rfl := Option.some.inj last
    exact ⟨rfl, rfl, rfl, rfl⟩

/-- A loop that goes on keeps the streams of its source. -/
theorem Round.suits {e : Option Event} {lastId : Int} {next : Option Reader} {reader' : Reader}
    (round : Round r run reader e lastId next) (suits : r.intake.Suits reader)
    (goes : next = some reader') : r.intake.Suits reader' := by
  have past : ∀ at_ : Reading, at_.isBetween → at_ ≠ .readVideo ∧ at_ ≠ .readAudio := by
    intro at_ between
    constructor <;> rintro rfl <;> simp [Reading.isBetween] at between
  cases round with
  | video | audio => exact Option.some.inj goes ▸ suits
  | pass before after => exact Option.some.inj goes ▸ suits.goOn (past _ before) (past _ after)
  | leave => cases goes
  | read there => exact Option.some.inj goes ▸ suits
  | @count _ u at_ =>
    obtain rfl := Option.some.inj goes
    apply suits.goOn (by simp [at_])
    unfold afterCount
    split <;> simp
  | number at_ =>
    obtain rfl := Option.some.inj goes
    apply suits.goOn (by simp [at_])
    unfold afterNumber
    split <;> simp
  | publish at_ | published at_ =>
    exact Option.some.inj goes ▸ suits.goOn (by simp [at_]) (by simp)

end Readers

section Fed

variable {s : Nat} {l : Label} {k : Keeper}

/-- Every loop has the streams of its source, or will find them noted, and so will the loops of the
starts in progress. -/
structure Fed (s : Nat) (r : Relay) : Prop where
  mild : ∀ (n : Nat) (stage : CallStage), r.calls[n]? = some stage → IsMild s r.subscribers.length stage
  unstopped : r.stopRequested = false
  pending : r.task.Coherent fun reader => reader.at_ = .readVideo ∧ r.intake.Noted reader.source
  starting : ∀ (n : Nat) (stage : CallStage), r.calls[n]? = some stage → r.intake.Backs stage
  reading : ∀ run reader, r.task.target? run = some reader → r.intake.Suits reader

theorem IsMild.mono {stage : CallStage} {count count' : Nat} (mild : IsMild s count stage)
    (more : count ≤ count') : IsMild s count' stage := by
  cases stage with
  | subscribe n at_ => exact Nat.lt_of_lt_of_le mild more
  | _ => exact mild

/-- What a call backs, if it backs anything, is a start that keeps the run. -/
theorem preparing_or_backs (stage : CallStage) :
    (∃ source uri at_, stage = .start source uri at_ ∧ at_.isPreparing) ∨
      ∀ i : Intake, i.Backs stage := by
  cases stage with
  | start source uri at_ =>
    cases at_ with
    | setVideo | setAudio | setUri | clearStop => exact .inl ⟨source, uri, _, rfl, rfl⟩
    | _ => exact .inr fun _ => trivial
  | _ => exact .inr fun _ => trivial

/-- A start that prepares its run keeps it. -/
theorem eq_call_of_isPreparing {source : Nat} {uri : String} {at_ : Starting}
    (kept : r.control.KeptBy k) (here : r.calls[n]? = some (.start source uri at_))
    (preparing : at_.isPreparing) : k = .call n := by
  have role : r.control.role n = some (.start source at_) := by simp [control, here, CallStage.role]
  apply kept.eq_call role
  cases at_ <;> simp_all [Starting.isPreparing, Role.claims]

/-- A step sees to it that whatever is on its way to the task will find its streams noted. -/
theorem Fed.coherent_step (fed : Fed s r) (last : r.step l = some r') :
    r'.task.Coherent fun reader => reader.at_ = .readVideo ∧ r.intake.Noted reader.source :=
  Relay.coherent_step fed.pending (fun n _ _ here => ⟨rfl, fed.starting n _ here⟩) last

theorem Fed.of_extends (fed : Fed s r) (last : r.step l = some r')
    (more : r.intake.Extends r'.intake) (calls : r'.calls = r.calls)
    (count : r.subscribers.length ≤ r'.subscribers.length) (stop : r'.stopRequested = false)
    (reading : ∀ run reader, r'.task.target? run = some reader → r.intake.Suits reader) :
    Fed s r' where
  mild n stage here := (fed.mild n stage (calls ▸ here)).mono count
  unstopped := stop
  pending := (fed.coherent_step last).imp fun _ answers => ⟨answers.1, more.noted answers.2⟩
  starting n stage here := more.backs (fed.starting n stage (calls ▸ here))
  reading run reader there := more.suits (reading run reader there)

/-- The calls keep what the loops are fed with. -/
theorem Fed.callStep (fed : Fed s r) (sound : r.control.Sound) (kept : r.control.KeptBy k)
    (launching : r.control.Launching) (last : r.callStep n = some r')
    (count : r.subscribers.length ≤ r'.subscribers.length) : Fed s r' := by
  obtain ⟨stage, here⟩ := exists_stage_of_callStep last
  have coherent := fed.coherent_step (l := .call n) last
  have inside := (List.getElem?_eq_some_iff.mp here).1
  obtain ⟨⟨stage', calls, mild, backs⟩, -, -, stop, targets, intake⟩ :=
    goes_callStep here (fed.mild n stage here) (fed.starting n stage here) last
  have others : ∀ (m : Nat) (x : CallStage), r'.calls[m]? = some x →
      m = n ∧ x = stage' ∨ m ≠ n ∧ r.calls[m]? = some x := by
    intro m x found
    rw [calls, List.getElem?_set] at found
    split at found
    · next same =>
      subst same
      exact .inl ⟨rfl, (Option.some.inj found).symm⟩
    · next ne => exact .inr ⟨Ne.symm ne, found⟩
  refine ⟨?_, stop fed.unstopped, ?_, ?_, ?_⟩
  · intro m x found
    rcases others m x found with ⟨-, rfl⟩ | ⟨-, before⟩
    · exact mild.mono count
    · exact (fed.mild m x before).mono count
  · rcases intake with same | ⟨task, source, uri, at_, start, preparing⟩
    · rw [same]
      exact coherent
    · -- The start that notes something keeps the run, so that nobody is about to look.
      obtain rfl := eq_call_of_isPreparing kept start preparing
      rw [task]
      refine fed.pending.of_none (?_) ?_
      · intro run c found
        have quiet := kept.live run
        simp only [control, Task.stage?, found, Option.bind_some] at quiet
        cases at_c : c.stage with
        | none => rfl
        | some place =>
          rw [at_c] at quiet
          cases place <;> simp_all [Task.Stage.isPending, Task.Stage.isLive]
      · by_contra some_
        obtain ⟨target, found⟩ := Option.ne_none_iff_exists'.mp some_
        obtain ⟨m, source', role'⟩ := launching target found
        have role : r.control.role n = some (.start source at_) := by
          simp [control, start, CallStage.role]
        have holds : (Role.start source at_).holds := by
          cases at_ <;> simp_all [Starting.isPreparing, Role.holds]
        obtain rfl := sound.exclusive role role' (.inl holds) rfl
        obtain ⟨-, rfl⟩ := Role.start.inj (Option.some.inj (role.symm.trans role'))
        simp [Starting.isPreparing] at preparing
  · intro m x found
    rcases others m x found with ⟨-, rfl⟩ | ⟨ne, before⟩
    · exact backs
    · rcases intake with same | ⟨-, source, uri, at_, start, preparing⟩
      · rw [same]
        exact fed.starting m x before
      · rcases preparing_or_backs x with ⟨source', uri', at', rfl, preparing'⟩ | any
        · have first := eq_call_of_isPreparing kept start preparing
          have second := eq_call_of_isPreparing kept before preparing'
          exact absurd (Keeper.call.inj (second.symm.trans first)) ne
        · exact any _
  · intro run reader there
    rw [targets] at there
    rcases intake with same | ⟨-, source, uri, at_, start, preparing⟩
    · rw [same]
      exact fed.reading run reader there
    · have first := eq_call_of_isPreparing kept start preparing
      have second := kept.eq_run there
      simp [first] at second

/-- A new call may begin. -/
theorem Fed.begin {call : RelayCall} (fed : Fed s r) (undisturbed : Undisturbed s (.begin call))
    (last : r.step (.begin call) = some r') : Fed s r' := by
  have coherent := fed.coherent_step last
  simp only [step] at last
  split at last
  · next accepted =>
    obtain rfl := Option.some.inj last
    have kept : (r.begin call).intake = r.intake ∧ (r.begin call).task = r.task ∧
        (r.begin call).subscribers = r.subscribers ∧ (r.begin call).stopRequested = r.stopRequested ∧
        (r.begin call).calls = r.calls ++ [entry call] := by
      cases call with
      | start source uri =>
        refine ⟨?_, rfl, rfl, rfl, rfl⟩
        unfold intake begin prepare
        congr 1
        funext m
        rw [List.getElem?_modify]
        cases r.sources[m]? with
        | none => rfl
        | some x => exact congrArg some (by dsimp only; split <;> rfl)
      | _ => exact ⟨rfl, rfl, rfl, rfl, rfl⟩
    obtain ⟨intake, task, subscribers, stop, calls⟩ := kept
    have enters : IsMild s r.subscribers.length (entry call) ∧ ∀ i : Intake, i.Backs (entry call) := by
      cases call with
      | publish | unsubscribe | stop | drop => exact absurd undisturbed id
      | enqueue n p => exact ⟨undisturbed, fun _ => trivial⟩
      | subscribe n =>
        have known : r.dropped = false ∧ n < r.subscribers.length := by
          simpa [accepts] using accepted
        exact ⟨known.2, fun _ => trivial⟩
      | start | join | describe => exact ⟨trivial, fun _ => trivial⟩
    have others : ∀ (n : Nat) (x : CallStage), (r.begin call).calls[n]? = some x →
        r.calls[n]? = some x ∨ x = entry call := by
      intro n x found
      rw [calls] at found
      exact (getElem?_snoc_cases found).imp_right And.right
    refine ⟨?_, stop.trans fed.unstopped, intake ▸ coherent, ?_,
      ?_⟩
    · intro n x found
      rw [subscribers]
      rcases others n x found with before | rfl
      · exact fed.mild n x before
      · exact enters.1
    · intro n x found
      rw [intake]
      rcases others n x found with before | rfl
      · exact fed.starting n x before
      · exact enters.2 _
    · intro run reader there
      rw [intake]
      exact fed.reading run reader (task ▸ there)
  · simp at last

/-- What a step does to the loops that is none of theirs. They stay where they are, but one may come up
that finds its streams noted. -/
structure Aside (r : Relay) (l : Label) (r' : Relay) : Prop where
  settings : r'.settings = r.settings
  lastId : r'.lastId = r.lastId
  shown : ∀ e, r.observe l = some e → (∃ n, e = .subscribed n) ∨ ∃ n p, e = .dequeued n p
  targets : ∀ run, r'.task.target? run = r.task.target? run ∨
    r.task.target? run = none ∧ ∃ reader, r'.task.target? run = some reader ∧
      reader.at_ = .readVideo ∧ r.intake.Noted reader.source

theorem eq_subscribed_of_observeCall {stage : CallStage} {count n : Nat} {e : Event}
    (mild : IsMild s count stage) (shown : r.observeCall n stage = some e) : ∃ m, e = .subscribed m := by
  cases stage with
  | publish | unsubscribe | stop | drop => exact absurd mild id
  | subscribe m at_ =>
    cases at_ with
    | sweep entry =>
      simp only [observeCall] at shown
      split at shown
      · exact ⟨m, (Option.some.inj shown).symm⟩
      · simp at shown
    | _ => simp [observeCall] at shown
  | _ => simp [observeCall] at shown

theorem Fed.aside (fed : Fed s r) (last : r.step l = some r') (other : ∀ run, l ≠ .reader run) :
    Aside r l r' := by
  have quiet : r.observe l = none →
      ∀ e, r.observe l = some e → (∃ n, e = .subscribed n) ∨ ∃ n p, e = .dequeued n p := by
    intro none e shown
    simp [none] at shown
  cases l with
  | begin call =>
    simp only [step] at last
    split at last
    · obtain rfl := Option.some.inj last
      cases call <;> exact ⟨rfl, rfl, quiet rfl, fun run => .inl rfl⟩
    · simp at last
  | call n =>
    obtain ⟨stage, here⟩ := exists_stage_of_callStep last
    have mild := fed.mild n stage here
    have goes := goes_callStep here mild (fed.starting n stage here) last
    refine ⟨goes.settings, goes.lastId, fun e shown => .inl ?_, fun run => .inl (goes.targets run)⟩
    obtain ⟨stage', here', shown⟩ := Option.bind_eq_some_iff.mp shown
    obtain rfl := Option.some.inj (here.symm.trans here')
    exact eq_subscribed_of_observeCall mild shown
  | reader run => exact absurd rfl (other run)
  | thread k =>
    obtain ⟨t, moved, rfl⟩ := Option.map_eq_some_iff.mp last
    refine ⟨rfl, rfl, quiet rfl, ?_⟩
    intro run
    rcases Task.target?_advanceThread fed.pending moved run with same | ⟨before, reader, after, fresh⟩
    · exact .inl same
    · exact .inr ⟨before, reader, after, fresh⟩
  | consumer n action =>
    simp only [step, Option.bind_eq_bind, Option.bind_eq_some_iff] at last
    obtain ⟨x, there, same⟩ := last
    obtain rfl := Option.some.inj same
    refine ⟨rfl, rfl, fun e shown => .inr ?_, fun run => .inl rfl⟩
    cases action with
    | dequeue pick =>
      obtain ⟨x, -, shown⟩ := Option.bind_eq_some_iff.mp shown
      obtain ⟨p, -, same⟩ := Option.map_eq_some_iff.mp shown
      exact ⟨n, p, same.symm⟩
    | _ => simp [observe] at shown
  | writer n action =>
    simp only [step, Option.bind_eq_bind, Option.bind_eq_some_iff] at last
    obtain ⟨x, -, same⟩ := last
    obtain rfl := Option.some.inj same
    exact ⟨rfl, rfl, quiet rfl, fun run => .inl rfl⟩
  | addSubscriber | addSource =>
    obtain rfl := Option.some.inj last
    exact ⟨rfl, rfl, quiet rfl, fun run => .inl rfl⟩

/-- **An undisturbed publisher feeds its loops.** -/
theorem Fed.step (fed : Fed s r) (sound : r.control.Sound) (kept : r.control.KeptBy k)
    (launching : r.control.Launching) (undisturbed : Undisturbed s l) (last : r.step l = some r') :
    Fed s r' := by
  have count : r.subscribers.length ≤ r'.subscribers.length :=
    Desk.length_move (desk_step sound (admitted_of_undisturbed undisturbed) last)
  have reading : (∀ run, l ≠ .reader run) →
      ∀ run reader, r'.task.target? run = some reader → r.intake.Suits reader := by
    intro other run reader there
    rcases (fed.aside last other).targets run with same | ⟨-, fresh, came, at_, noted⟩
    · exact fed.reading run reader (same ▸ there)
    · obtain rfl := Option.some.inj (there.symm.trans came)
      unfold Intake.Suits
      rw [at_]
      exact noted
  have stays : ∀ t : Relay, t.intake = r.intake → r.intake.Extends t.intake := fun t same => by
    rw [same]
    exact .refl _
  cases l with
  | begin call => exact fed.begin undisturbed last
  | call n => exact fed.callStep sound kept launching last count
  | reader run =>
    obtain ⟨intake, calls, -, stop⟩ := readerStep_frame last
    obtain ⟨reader, executing⟩ := exists_target_of_readerStep last
    obtain ⟨round, others⟩ := round_readerStep executing last
    apply fed.of_extends last (stays r' intake) calls count (stop.trans fed.unstopped)
    intro other reader' there
    by_cases same : run = other
    · exact round.suits (fed.reading run reader executing) (same ▸ there)
    · exact fed.reading other reader' (others other same ▸ there)
  | thread run =>
    have whole := last
    obtain ⟨t, -, rfl⟩ := Option.map_eq_some_iff.mp whole
    exact fed.of_extends last (.refl _) rfl count fed.unstopped (reading (by simp))
  | consumer n action =>
    have whole := last
    simp only [Relay.step, Option.bind_eq_bind, Option.bind_eq_some_iff] at whole
    obtain ⟨x, -, same⟩ := whole
    obtain rfl := Option.some.inj same
    exact fed.of_extends last (.refl _) rfl count fed.unstopped (reading (by simp))
  | writer n action =>
    have whole := last
    simp only [Relay.step, Option.bind_eq_bind, Option.bind_eq_some_iff] at whole
    obtain ⟨x, there, same⟩ := whole
    obtain rfl := Option.some.inj same
    have intake := intake_setSource there (ScriptedSource.indexes_act action)
    exact fed.of_extends last (stays _ intake) rfl count fed.unstopped (reading (by simp))
  | addSubscriber x =>
    have whole := last
    obtain rfl := Option.some.inj whole
    exact fed.of_extends last (.refl _) rfl count fed.unstopped (reading (by simp))
  | addSource x =>
    have whole := last
    obtain rfl := Option.some.inj whole
    refine fed.of_extends last ⟨rfl, rfl, ?_⟩ rfl count fed.unstopped
      (reading (by simp))
    intro source y found
    obtain ⟨z, there, rfl⟩ := Option.map_eq_some_iff.mp found
    have inside := (List.getElem?_eq_some_iff.mp there).1
    show (r.sources ++ [x])[source]?.map _ = _
    rw [List.getElem?_append_left inside, there]
    rfl

theorem fed_ofSettings {settings : PublisherSettings} : Fed s (ofSettings settings) where
  mild n stage here := by simp [ofSettings] at here
  unstopped := rfl
  pending := Task.coherent_ofName settings.threadName
  starting n stage here := by simp [ofSettings] at here
  reading run reader there := by simp [target?_ofSettings] at there

/-- The calls and the loops of an undisturbed publisher leave a subscriber alone. -/
theorem Fed.calm (fed : Fed s r) : r.desk.Calm s where
  calls n y at_ := by
    obtain ⟨stage, here, does⟩ := Option.bind_eq_some_iff.mp at_
    have mild := fed.mild n stage here
    cases stage with
    | publish | unsubscribe | stop | drop => exact absurd mild id
    | enqueue m e =>
      obtain rfl := Option.some.inj does
      exact .inr ⟨m, e, rfl, mild⟩
    | subscribe m at_ =>
      cases at_ with
      | sweep entry =>
        obtain rfl := Option.some.inj does
        exact .inl ⟨m, rfl, mild⟩
      | checkStop | acquire => simp [CallStage.doing] at does
    | _ => simp [CallStage.doing] at does
  readers run y at_ := by
    obtain ⟨reader, -, does⟩ := Option.bind_eq_some_iff.mp at_
    cases place : reader.at_ with
    | publish f =>
      rw [place] at does
      simp only [Reading.doing, Fanout.doing] at does
      split at does
      · exact ⟨f, (Option.some.inj does).symm⟩
      · simp at does
    | _ => simp [place, Reading.doing] at does

end Fed

end Relay

end PacketRelay
