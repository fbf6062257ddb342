import PacketRelay.Proofs.Relay.Signals

/-!
# What is noted at a publisher

A start notes the address and the streams of its source at the publisher, one after the other, and
nobody else notes anything. The streams of a source never change, whatever its writer and its reader
do. All that a call can do to the notes, to the threads and to the last number is listed here once:
nothing, but for the start that is noting and the start that makes a thread.

## Main definitions

* `Notes`, `Relay.notes`: what is noted, and the streams of the sources
* `Relay.Quiet`: a step leaves the notes, the threads and the last number alone

## Main results

* `Relay.quiet_callStep`: a call is quiet, or a start that notes or makes a thread
* `Relay.notes_readerStep`: a read loop notes nothing
-/

namespace PacketRelay

/-- What is noted at a publisher, and the streams of all sources. -/
structure Notes where
  /-- The address -/
  uri : Option String
  /-- The video stream -/
  video : Option Stream
  /-- The audio stream -/
  audio : Option Stream
  /-- The video and the audio stream of each source -/
  declared : Nat → Option (Option Stream × Option Stream)

/-- Is a start about to note something? -/
def Starting.isNoting : Starting → Bool
  | .setVideo | .setAudio | .setUri => true
  | _ => false

namespace Relay

/-- What is noted at a publisher. -/
def notes (r : Relay) : Notes where
  uri := r.uri
  video := r.video
  audio := r.audio
  declared source := r.sources[source]?.map ScriptedSource.streams

variable {r r' : Relay} {n run : Nat}

/-- A step leaves the notes, the threads and the last number alone. -/
structure Quiet (r r' : Relay) : Prop where
  notes : r'.notes = r.notes
  lastId : r'.lastId = r.lastId
  stages : ∀ run, r'.task.stage? run = r.task.stage? run
  length : r'.task.contexts.length = r.task.contexts.length

/-- A source that stays with its streams may change. -/
theorem notes_setSource {source : Nat} {s s' : ScriptedSource} (there : r.sources[source]? = some s)
    (same : s'.streams = s.streams) : (r.setSource source s').notes = r.notes := by
  unfold notes setSource
  congr 1
  funext m
  rw [List.getElem?_set]
  split
  · next here =>
    subst here
    rw [if_pos (List.getElem?_eq_some_iff.mp there).1, there, Option.map_some, Option.map_some, same]
  · rfl

theorem quiet_of_task_eq (notes : r'.notes = r.notes) (lastId : r'.lastId = r.lastId)
    (task : r'.task = r.task) : Quiet r r' :=
  ⟨notes, lastId, fun _ => by rw [task], by rw [task]⟩

theorem quiet_cancelShared : Quiet r r.cancelShared := by
  unfold cancelShared
  split
  · exact ⟨rfl, rfl, Task.stage?_cancelRun _, List.length_modify ..⟩
  · exact ⟨rfl, rfl, fun _ => rfl, rfl⟩

/-- A call on the task that makes no thread. -/
theorem quiet_taskStep {atEnd : Relay} (ended : Quiet r atEnd)
    (nothing : ∀ target, r.task.position ≠ .spawn target) (last : r.taskStep atEnd = some r') :
    Quiet r r' := by
  rcases taskStep_cases last with ⟨-, rfl⟩ | ⟨t, step, rfl⟩
  · exact ended
  · refine ⟨rfl, rfl, ?_, ?_⟩
    · rcases Task.stage?_advance step with ⟨target, at_, -⟩ | ⟨-, stages⟩
      · exact absurd at_ (nothing target)
      · exact stages
    · rcases Task.newRun?_advance step with ⟨-, -, length, -⟩ | ⟨target, at_, -⟩
      · exact length
      · exact absurd at_ (nothing target)

theorem quiet_fanout {a : Actor} {f f' : Fanout} (last : f.step a r = some (r', f')) :
    Quiet r r' := by
  rw [Fanout.step_frame last]
  exact quiet_of_task_eq rfl rfl rfl

theorem quiet_sweep {entry next : Nat} (last : r.sweep entry = some (r', next)) : Quiet r r' := by
  rw [sweep_frame last]
  exact quiet_of_task_eq rfl rfl rfl

theorem quiet_subscribeStep {m : Nat} {at_ : Subscribing}
    (last : r.subscribeStep n m at_ = some r') : Quiet r r' := by
  cases at_ with
  | checkStop =>
    obtain rfl := Option.some.inj last
    split <;> exact quiet_of_task_eq rfl rfl rfl
  | acquire =>
    obtain ⟨-, rfl⟩ := subscribeStep_acquire last
    exact quiet_of_task_eq rfl rfl rfl
  | sweep entry =>
    rcases subscribeStep_sweep last with ⟨t, next, swept, rfl⟩ | ⟨-, rfl⟩
    · have quiet := quiet_sweep swept
      exact ⟨quiet.notes, quiet.lastId, quiet.stages, quiet.length⟩
    · unfold register
      split <;> exact quiet_of_task_eq rfl rfl rfl

theorem quiet_unsubscribeStep {m : Nat} {at_ : Unsubscribing}
    (last : r.unsubscribeStep n m at_ = some r') : Quiet r r' := by
  cases at_ with
  | acquire =>
    obtain ⟨-, rfl⟩ := unsubscribeStep_acquire last
    exact quiet_of_task_eq rfl rfl rfl
  | sweep entry removed =>
    rcases unsubscribeStep_sweep last with ⟨t, next, swept, rfl⟩ | ⟨-, rfl⟩
    · have quiet := quiet_sweep swept
      exact ⟨quiet.notes, quiet.lastId, quiet.stages, quiet.length⟩
    · exact quiet_of_task_eq rfl rfl rfl

theorem quiet_enqueueStep {m : Nat} {e : Enqueue} (last : r.enqueueStep n m e = some r') :
    Quiet r r' := by
  rcases enqueueStep_cases last with ⟨rfl, rfl⟩ | ⟨x, x', e', -, -, rfl⟩
  · exact quiet_of_task_eq rfl rfl rfl
  · exact quiet_of_task_eq rfl rfl rfl

theorem quiet_describeStep {at_ : Describing} (last : r.describeStep n at_ = some r') :
    Quiet r r' := by
  cases at_ with
  | countEntries uri started stop =>
    obtain ⟨-, rfl⟩ := describeStep_countEntries last
    exact quiet_of_task_eq rfl rfl rfl
  | _ =>
    obtain rfl := Option.some.inj last
    exact quiet_of_task_eq rfl rfl rfl

theorem quiet_joinStep {at_ : Joining} (sound : r.control.Sound)
    (here : r.calls[n]? = some (.join at_)) (last : r.joinStep n at_ = some r') : Quiet r r' := by
  cases at_ with
  | lock =>
    obtain ⟨-, rfl⟩ := joinStep_lock last
    exact ⟨rfl, rfl, fun _ => rfl, rfl⟩
  | joining =>
    have joining : r.task.position.isJoining :=
      sound.fits n (.join .joining) (by simp [control, here, CallStage.role])
    refine quiet_taskStep ?_ ?_ last
    · exact quiet_of_task_eq rfl rfl rfl
    · rintro target at_
      simp [at_, Task.Position.isJoining] at joining

theorem quiet_dropStep {at_ : Dropping} (sound : r.control.Sound)
    (here : r.calls[n]? = some (.drop at_)) (last : r.dropStep n at_ = some r') : Quiet r r' := by
  rcases at_ with (_ | _) | _
  · obtain rfl := Option.some.inj last
    exact quiet_of_task_eq rfl rfl rfl
  · obtain rfl := Option.some.inj last
    have quiet := quiet_cancelShared (r := r)
    exact ⟨quiet.notes, quiet.lastId, quiet.stages, quiet.length⟩
  · have nothing : r.task.position.target? = none :=
      sound.fits n (.drop .dropTask) (by simp [control, here, CallStage.role])
    refine quiet_taskStep ?_ ?_ last
    · exact quiet_of_task_eq rfl rfl rfl
    · rintro target at_
      simp [at_, Task.Position.target?] at nothing

/-- The start that makes a thread. -/
def Spawns (r r' : Relay) : Prop :=
  ∃ target t, r.task.position = .spawn target ∧ r.task.advance = some t ∧ r' = { r with task := t }

theorem quiet_startStep {source : Nat} {uri : String} {at_ : Starting} (sound : r.control.Sound)
    (here : r.calls[n]? = some (.start source uri at_))
    (last : r.startStep n source uri at_ = some r') :
    Quiet r r' ∨ at_.isNoting ∨ at_ = .launching ∧ Spawns r r' := by
  cases at_ with
  | lock =>
    obtain ⟨-, rfl⟩ := startStep_lock last
    exact .inl (quiet_of_task_eq rfl rfl rfl)
  | reserve =>
    obtain rfl := Option.some.inj last
    left
    split
    · exact quiet_of_task_eq rfl rfl rfl
    · exact ⟨rfl, rfl, fun _ => rfl, rfl⟩
  | joining =>
    have joining : r.task.position.isJoining :=
      sound.fits n (.start source .joining) (by simp [control, here, CallStage.role])
    refine .inl (quiet_taskStep ?_ ?_ last)
    · exact quiet_of_task_eq rfl rfl rfl
    · rintro target at_
      simp [at_, Task.Position.isJoining] at joining
  | openSource =>
    obtain ⟨s, there, -, ⟨s', opened, rfl⟩ | ⟨e, -, rfl⟩⟩ := startStep_openSource last
    · exact .inl (quiet_of_task_eq (notes_setSource there (ScriptedSource.streams_openAt opened))
        rfl rfl)
    · exact .inl (quiet_of_task_eq rfl rfl rfl)
  | setVideo | setAudio | setUri => exact .inr (.inl rfl)
  | launching =>
    by_cases spawns : ∃ target, r.task.position = .spawn target
    · obtain ⟨target, at_⟩ := spawns
      rcases taskStep_cases last with ⟨free, -⟩ | ⟨t, step, rfl⟩
      · simp [Task.isFree, at_] at free
      · exact .inr (.inr ⟨rfl, target, t, at_, step, rfl⟩)
    · refine .inl (quiet_taskStep ?_ (fun target at_ => spawns ⟨target, at_⟩) last)
      exact quiet_of_task_eq rfl rfl rfl
  | clearStop =>
    obtain rfl := Option.some.inj last
    exact .inl ⟨rfl, rfl, fun _ => rfl, rfl⟩
  | refuse | refuseThread | shareToken =>
    obtain rfl := Option.some.inj last
    exact .inl (quiet_of_task_eq rfl rfl rfl)

/-- **A call leaves the notes, the threads and the last number alone**, unless it is a start that
notes something or makes a thread. -/
theorem quiet_callStep {stage : CallStage} (sound : r.control.Sound) (here : r.calls[n]? = some stage)
    (last : r.callStep n = some r') :
    Quiet r r' ∨ ∃ source uri at_, stage = .start source uri at_ ∧
      (at_.isNoting ∨ at_ = .launching ∧ Spawns r r') := by
  have whole := last
  simp only [callStep, here, Option.bind_eq_bind, Option.bind_some] at last
  cases stage with
  | publish f =>
    rcases callStep_publish here whole with ⟨reached, rfl, rfl⟩ | ⟨s, f', step, rfl⟩
    · exact .inl (quiet_of_task_eq rfl rfl rfl)
    · have quiet := quiet_fanout step
      exact .inl ⟨quiet.notes, quiet.lastId, quiet.stages, quiet.length⟩
  | enqueue m e => exact .inl (quiet_enqueueStep last)
  | subscribe m at_ => exact .inl (quiet_subscribeStep last)
  | unsubscribe m at_ => exact .inl (quiet_unsubscribeStep last)
  | start source uri at_ =>
    exact (quiet_startStep sound here last).imp_right fun either => ⟨source, uri, at_, rfl, either⟩
  | stop at_ =>
    cases at_ with
    | raiseStop =>
      obtain rfl := Option.some.inj last
      exact .inl (quiet_of_task_eq rfl rfl rfl)
    | cancel =>
      obtain rfl := Option.some.inj last
      have quiet := quiet_cancelShared (r := r)
      exact .inl ⟨quiet.notes, quiet.lastId, quiet.stages, quiet.length⟩
  | join at_ => exact .inl (quiet_joinStep sound here last)
  | describe at_ => exact .inl (quiet_describeStep last)
  | drop at_ => exact .inl (quiet_dropStep sound here last)
  | returned reply => simp at last

/-- A read loop notes nothing. -/
theorem notes_readerStep (last : r.readerStep run = some r') : r'.notes = r.notes := by
  obtain ⟨⟨source, video, audio, at_⟩, executing⟩ := exists_target_of_readerStep last
  have whole := last
  simp only [readerStep, executing, Option.bind_eq_bind, Option.bind_some] at last
  cases at_ with
  | read =>
    obtain ⟨x, there, next⟩ := readUnit_cases last
    have same : (r.setSource source x.read.1).notes = r.notes :=
      notes_setSource there ScriptedSource.streams_read
    rcases next with ⟨outcome, -, rfl⟩ | ⟨-, rfl⟩
    · exact same
    · exact same
  | publish f =>
    rcases readerStep_publish executing rfl whole with ⟨reached, rfl, rfl⟩ | ⟨t, f', step, rfl⟩
    · rfl
    · exact (quiet_fanout step).notes
  | pause =>
    rcases readerStep_pause executing rfl whole with ⟨delay, -, rfl⟩ | ⟨-, rfl⟩
    · rfl
    · rfl
  | _ =>
    obtain rfl := Option.some.inj last
    rfl

end Relay

end PacketRelay
