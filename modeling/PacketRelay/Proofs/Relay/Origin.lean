import PacketRelay.Proofs.Relay.Notes
import PacketRelay.Proofs.Task.Sole

/-!
# Where a read loop comes from

A start notes the address and the streams of its source and makes the thread of a run then. The run
stays reserved from the one to the other and until its read loop is over, and no other start notes
anything as long as it is. So what is noted while a loop runs is what the start has noted that made
its thread, and the loop routes its units by the streams of the very source it reads. For the same
reason nobody but the newest run gives the reservation back from its thread.

## Main definitions

* `Launch`, `Relay.launch?`: a start makes the thread of a run
* `Notes.Noted`, `Notes.Suits`: what a start has noted, and what a loop has read of it
* `Relay.Owned`: the notes belong to the newest run
* `Relay.TellsOf`: what a publisher tells is what a launch has noted, and the loop reads by it
* `Relay.HasReserved`: a start has a run reserved that has no thread yet

## Main results

* `Relay.Owned.step`: every step keeps this
* `Relay.one_loop_on_its_own_source`: at most one loop runs, and what is noted is its own
-/

namespace PacketRelay

/-- A start that has made the thread of a run. -/
structure Launch where
  /-- The call -/
  call : Nat
  /-- The run -/
  run : Nat
  /-- The source of the start -/
  source : Nat
  /-- The address of the start -/
  uri : String
deriving DecidableEq, Repr

namespace Notes

/-- A source is noted with its address. -/
def Noted (i : Notes) (source : Nat) (uri : String) : Prop :=
  i.uri = some uri ∧ i.declared source = some (i.video, i.audio)

/-- What a call has noted on its way through a start. -/
def Backs (i : Notes) : CallStage → Prop
  | .start source _ .setVideo => (i.declared source).isSome
  | .start source _ .setAudio => ∃ audio, i.declared source = some (i.video, audio)
  | .start source _ .setUri => i.declared source = some (i.video, i.audio)
  | .start source uri .clearStop | .start source uri .launching => i.Noted source uri
  | _ => True

/-- A loop reads the source of its launch, by the streams that are noted. -/
structure Suits (i : Notes) (e : Launch) (reader : Reader) : Prop where
  source : reader.source = e.source
  video : reader.at_ ≠ .readVideo → reader.videoIndex = i.video.map (·.index)
  audio : reader.at_ ≠ .readVideo → reader.at_ ≠ .readAudio →
    reader.audioIndex = i.audio.map (·.index)

/-- There may be more sources. -/
structure Extends (i j : Notes) : Prop where
  uri : j.uri = i.uri
  video : j.video = i.video
  audio : j.audio = i.audio
  declared : ∀ source x, i.declared source = some x → j.declared source = some x

variable {i j : Notes}

theorem Extends.of_eq (same : j = i) : i.Extends j :=
  same ▸ ⟨rfl, rfl, rfl, fun _ _ => id⟩

theorem Extends.noted (more : i.Extends j) {source : Nat} {uri : String} (noted : i.Noted source uri) :
    j.Noted source uri := by
  refine ⟨more.uri.trans noted.1, ?_⟩
  rw [more.video, more.audio]
  exact more.declared _ _ noted.2

theorem Extends.suits (more : i.Extends j) {e : Launch} {reader : Reader} (suits : i.Suits e reader) :
    j.Suits e reader :=
  ⟨suits.source, fun past => by rw [more.video, suits.video past],
    fun past past' => by rw [more.audio, suits.audio past past']⟩

theorem Extends.backs (more : i.Extends j) {stage : CallStage} (backs : i.Backs stage) :
    j.Backs stage := by
  unfold Backs at *
  split
  · obtain ⟨x, found⟩ := Option.isSome_iff_exists.mp backs
    exact Option.isSome_iff_exists.mpr ⟨x, more.declared _ _ found⟩
  · obtain ⟨audio, found⟩ := backs
    rw [more.video]
    exact ⟨audio, more.declared _ _ found⟩
  · rw [more.video, more.audio]
    exact more.declared _ _ backs
  · exact more.noted backs
  · exact more.noted backs
  · trivial

/-- A call that is not past the lock of a start has noted nothing. -/
theorem backs_of_early {stage : CallStage}
    (early : ∀ source uri at_, stage = .start source uri at_ → at_ = .lock) : i.Backs stage := by
  unfold Backs
  split <;> first | trivial | exact absurd (early _ _ _ rfl) (by simp)

end Notes

/-- A loop of a source that has yet to begin. -/
def Reader.IsFresh (source : Nat) (reader : Reader) : Prop :=
  reader.at_ = .readVideo ∧ reader.source = source

namespace Control

variable {c d : Control} {e : Option Nat}

/-- A move brings no thread to life but that of a new run. -/
theorem Move.isLive {fresh : Reader → Prop} (move : Move e c d) (coherent : c.task.Coherent fresh)
    {run : Nat} (live : d.task.isLive run) : c.task.isLive run ∨ run = c.task.contexts.length := by
  cases move with
  | advance at_ onTask last =>
    rcases Task.stage?_advance last with ⟨target, -, -, stages⟩ | ⟨-, stages⟩
    · by_cases new : run = c.task.contexts.length
      · exact .inr new
      · left
        rwa [Task.isLive, stages, if_neg new] at live
    · exact .inl ((Task.isLive_of_stage? (stages run)).symm.trans live)
  | thread last => exact .inl ((Task.isLive_advanceThread coherent last run).symm.trans live)
  | enter executing | raise executing | loop executing | lower executing | finish executing
  | panic executing => exact .inl (Task.isLive_of_modify_stage executing run live)
  | cancel other => exact .inl ((Task.isLive_of_stage? (Task.stage?_cancelRun other run)).symm.trans live)
  | dropTask token =>
    left
    cases token with
    | none => exact live
    | some other => exact (Task.isLive_of_stage? (Task.stage?_cancelRun other run)).symm.trans live
  | _ => exact .inl live

/-- A move brings no target up but that of a start that starts the task. -/
theorem Move.target? (move : Move e c d) (some_ : d.task.position.target?.isSome) :
    c.task.position.target?.isSome ∨ ∃ n source, c.role n = some (.start source .clearStop) := by
  cases move with
  | @launch _ n source at_ => exact .inr ⟨n, source, at_⟩
  | reserve | lockJoin | dropTask =>
    simp [Task.begin, Task.Call.entry, Task.Position.target?] at some_
  | advance at_ onTask last =>
    left
    rcases Task.target?_advance last with gone | same
    · simp [gone] at some_
    · exact same ▸ some_
  | thread last =>
    left
    rwa [position_advanceThread last] at some_
  | _ => exact .inl some_

/-- A start past the lock of the task is the only one. -/
theorem Sound.start_alone (sound : c.Sound) {n m : Nat} {s s' : Nat} {a b : Starting}
    (hn : c.role n = some (.start s a)) (hm : c.role m = some (.start s' b)) (ha : a ≠ .lock)
    (hb : b ≠ .lock) : m = n := by
  have first := (sound.holder n).mpr (by simp [hn, holds_start ha])
  have second := (sound.holder m).mpr (by simp [hm, holds_start hb])
  exact Option.some.inj (second.symm.trans first)

/-- While nobody is live, no target is on its way to a thread. -/
theorem KeptBy.isPending_eq_false {k : Keeper} (kept : c.KeptBy k) (off : ∀ run, k ≠ .run run)
    (run : Nat) (x : Task.Context Reader) (found : c.task.contexts[run]? = some x) :
    x.stage.any Task.Stage.isPending = false := by
  have quiet := kept.live run
  simp only [Task.stage?, found, Option.bind_some, off run, decide_false] at quiet
  cases at_ : x.stage with
  | none => rfl
  | some place =>
    rw [at_] at quiet
    cases place <;> simp_all [Task.Stage.isPending, Task.Stage.isLive]

/-- The target that a start has given to the task is that of its source. -/
def Brings (c : Control) : Prop :=
  ∀ n source, c.role n = some (.start source .launching) → c.task.position.target?.isSome →
    c.task.Coherent (Reader.IsFresh source)

/-- A start comes to start the task by giving it the target of its source. -/
theorem Move.launching (move : Move e c d) {n source : Nat}
    (at_ : d.role n = some (.start source .launching)) :
    c.role n = some (.start source .launching) ∨ c.role n = some (.start source .clearStop) ∧
      d.task = c.task.begin .outside (.start { source := source }) := by
  -- A call that is set to another place is there, and all others are where they were.
  have set {m : Nat} {role : Option Role} (same : d.role = (c.setRole m role).role)
      (other : ∀ source, role ≠ some (.start source .launching)) :
      c.role n = some (.start source .launching) := by
    rw [same, role_setRole] at at_
    split at at_
    · exact absurd at_ (other source)
    · exact at_
  cases move with
  | begin role fresh there entry =>
    refine .inl (set rfl ?_)
    rcases entry with rfl | ⟨source, rfl⟩ <;> simp
  | prepare before_ before after =>
    refine .inl (set rfl ?_)
    rintro source same
    obtain ⟨-, rfl⟩ := Role.start.inj (Option.some.inj same)
    simp [Starting.isPreparing] at after
  | launched begun =>
    refine .inl (set rfl ?_)
    cases begun <;> simp
  | @launch _ m source' start =>
    change (c.setRole m _).role n = _ at at_
    rw [role_setRole] at at_
    split at at_
    · next here =>
      obtain ⟨rfl, -⟩ := Role.start.inj (Option.some.inj at_)
      exact .inr ⟨here ▸ start, rfl⟩
    · exact .inl at_
  | beginDrop | lock | pass | reserve | joined | refuse | share | lockJoin | endJoin | dropStop
  | dropTask | endDrop => exact .inl (set rfl (by simp))
  | _ => exact .inl at_

/-- The moves keep this: a start gives a target to the task only when no other one is on its way. -/
theorem Brings.move {k : Keeper} (brings : c.Brings) (sound : c.Sound) (kept : c.KeptBy k)
    (launching : c.Launching) (move : Move e c d) : d.Brings := by
  intro n source at_ up
  rcases move.launching at_ with before | ⟨before, task⟩
  · have alone {m s : Nat} (other : c.role m = some (.start s .clearStop)) : False := by
      obtain rfl := sound.start_alone before other (by simp) (by simp)
      simp [before] at other
    rcases move.target? up with up | ⟨m, s, other⟩
    · exact move.coherent (brings n source before up) fun m s other => (alone other).elim
    · exact (alone other).elim
  · rw [task]
    obtain rfl := kept.eq_call before rfl
    have idle : c.task.position.target? = none := by
      by_contra some_
      obtain ⟨target, found⟩ := Option.ne_none_iff_exists'.mp some_
      obtain ⟨m, s, other⟩ := launching target found
      obtain rfl := sound.start_alone before other (by simp) (by simp)
      simp [before] at other
    have coherent : c.task.Coherent (Reader.IsFresh source) :=
      sound.coherent.of_none (kept.isPending_eq_false (by simp)) idle
    refine coherent.begin fun target same => ?_
    obtain rfl := Task.Call.start.inj same
    exact ⟨rfl, rfl⟩

end Control

namespace Relay

/-- A start makes the thread of a run. -/
def launch? (r : Relay) : Label → Option Launch
  | .call n =>
    match r.calls[n]?, r.task.position with
    | some (.start source uri .launching), .spawn _ =>
      some ⟨n, r.task.contexts.length, source, uri⟩
    | _, _ => none
  | _ => none

/-- What is noted belongs to the newest run, as long as that is live. -/
structure Serves (r : Relay) (e : Launch) : Prop where
  noted : r.notes.Noted e.source e.uri
  coherent : r.task.Coherent (Reader.IsFresh e.source)
  reading : ∀ reader, r.task.target? e.run = some reader → r.notes.Suits e reader

/-- What is noted belongs to the newest run, and before that to the start that makes it. -/
structure Owned (r : Relay) (log : List Launch) : Prop where
  /-- The runs are numbered in the order of their launches. -/
  numbered : log.map Launch.run = List.range' 1 log.length
  length : r.task.contexts.length = log.length + 1
  /-- A start has noted what it has come past. -/
  starting : ∀ (n : Nat) (stage : CallStage), r.calls[n]? = some stage → r.notes.Backs stage
  bringing : r.control.Brings
  /-- A live run is the newest. -/
  live : ∀ run, r.task.isLive run → ∃ e, log.getLast? = some e ∧ e.run = run ∧ r.Serves e

/-- A start has reserved a run, and has neither given it back nor made its thread. -/
def HasReserved (r : Relay) (n : Nat) : Prop :=
  (r.control.role n).any (Role.claims r.task.position)

/-- What a publisher tells is the address of a launch and the streams of its source, and the loop
that has been launched reads this source and routes its units by these streams, as soon as it has
looked them up. -/
structure TellsOf (r : Relay) (e : Launch) (reader : Reader) : Prop where
  source : reader.source = e.source
  uri : r.uri = some e.uri
  streams : ∃ s, r.sources[e.source]? = some s ∧
    r.video = s.memory.video ∧ r.audio = s.memory.audio ∧
    (reader.at_ ≠ .readVideo → reader.videoIndex = s.memory.video.map (·.index)) ∧
    (reader.at_ ≠ .readVideo → reader.at_ ≠ .readAudio →
      reader.audioIndex = s.memory.audio.map (·.index))

section Steps

variable {r r' : Relay} {l : Label} {n : Nat} {source : Nat} {uri : String} {at_ : Starting}

theorem role_start (here : r.calls[n]? = some (.start source uri at_)) :
    r.control.role n = some (.start source at_) := by
  simp [control, here, CallStage.role]

/-- What a step launches: nothing, or it makes a thread. -/
theorem launch?_step (sound : r.control.Sound) (last : r.step l = some r') :
    (r.launch? l = none ∧ r'.task.contexts.length = r.task.contexts.length) ∨
    ∃ n source uri, l = .call n ∧ r.calls[n]? = some (.start source uri .launching) ∧
      Spawns r r' ∧ r.launch? l = some ⟨n, r.task.contexts.length, source, uri⟩ := by
  cases l with
  | begin call =>
    simp only [step] at last
    split at last
    · obtain rfl := Option.some.inj last
      exact .inl ⟨rfl, by cases call <;> rfl⟩
    · simp at last
  | call n =>
    obtain ⟨stage, here⟩ := exists_stage_of_callStep last
    -- Without a new run there is no launch.
    have none_ (same : r'.task.contexts.length = r.task.contexts.length) :
        r.launch? (.call n) = none := by
      simp only [launch?]
      split
      · next source uri target found at_ =>
        have whole : r.callStep n = some r' := last
        simp only [callStep, found, Option.bind_eq_bind, Option.bind_some] at whole
        rcases taskStep_cases whole with ⟨free, -⟩ | ⟨t, step, rfl⟩
        · simp [Task.isFree, at_] at free
        · rcases Task.newRun?_advance step with ⟨-, other, -⟩ | ⟨-, -, -, length, -⟩
          · exact absurd at_ (other target)
          · have same : t.contexts.length = r.task.contexts.length := same
            omega
      · rfl
    rcases quiet_callStep sound here last with quiet | ⟨source, uri, at_, rfl, noting | ⟨rfl, spawns⟩⟩
    · exact .inl ⟨none_ quiet.length, quiet.length⟩
    · have same : r'.task = r.task := by
        have whole : r.callStep n = some r' := last
        simp only [callStep, here, Option.bind_eq_bind, Option.bind_some] at whole
        cases at_ <;> simp only [Starting.isNoting, Bool.false_eq_true] at noting <;>
          obtain rfl := Option.some.inj whole <;> rfl
      exact .inl ⟨none_ (by rw [same]), by rw [same]⟩
    · have spawned := spawns
      obtain ⟨target, t, at_, -⟩ := spawned
      exact .inr ⟨n, source, uri, rfl, here, spawns, by simp [launch?, here, at_]⟩
  | reader run => exact .inl ⟨rfl, (steady_readerStep last).2.length⟩
  | thread run =>
    obtain ⟨t, step, rfl⟩ := Option.map_eq_some_iff.mp last
    exact .inl ⟨rfl, (Task.steady_advanceThread step).length⟩
  | consumer m action | writer m action =>
    simp only [step, Option.bind_eq_bind, Option.bind_eq_some_iff, Option.some.injEq] at last
    obtain ⟨s, -, rfl⟩ := last
    exact .inl ⟨rfl, rfl⟩
  | addSubscriber s | addSource s =>
    obtain rfl := Option.some.inj last
    exact .inl ⟨rfl, rfl⟩

/-- A step notes nothing but by a start that is about to. -/
theorem notes_step (sound : r.control.Sound) (last : r.step l = some r') :
    r.notes.Extends r'.notes ∨ ∃ n source uri at_, l = .call n ∧
      r.calls[n]? = some (.start source uri at_) ∧ at_.isNoting := by
  cases l with
  | begin call =>
    simp only [step] at last
    split at last
    · obtain rfl := Option.some.inj last
      refine .inl (.of_eq ?_)
      cases call with
      | start source uri =>
        unfold notes begin prepare
        congr 1
        funext m
        rw [List.getElem?_modify]
        cases r.sources[m]? with
        | none => rfl
        | some x => exact congrArg some (by dsimp only; split <;> rfl)
      | _ => rfl
    · simp at last
  | call n =>
    obtain ⟨stage, here⟩ := exists_stage_of_callStep last
    rcases quiet_callStep sound here last with quiet | ⟨source, uri, at_, rfl, noting | ⟨rfl, spawns⟩⟩
    · exact .inl (.of_eq quiet.notes)
    · exact .inr ⟨n, source, uri, at_, rfl, here, noting⟩
    · obtain ⟨target, t, -, -, rfl⟩ := spawns
      exact .inl (.of_eq rfl)
  | reader run => exact .inl (.of_eq (notes_readerStep last))
  | thread run =>
    obtain ⟨t, -, rfl⟩ := Option.map_eq_some_iff.mp last
    exact .inl (.of_eq rfl)
  | consumer m action =>
    simp only [step, Option.bind_eq_bind, Option.bind_eq_some_iff, Option.some.injEq] at last
    obtain ⟨s, -, rfl⟩ := last
    exact .inl (.of_eq rfl)
  | writer m action =>
    simp only [step, Option.bind_eq_bind, Option.bind_eq_some_iff, Option.some.injEq] at last
    obtain ⟨s, there, rfl⟩ := last
    exact .inl (.of_eq (notes_setSource there (ScriptedSource.streams_act action)))
  | addSubscriber s =>
    obtain rfl := Option.some.inj last
    exact .inl (.of_eq rfl)
  | addSource s =>
    obtain rfl := Option.some.inj last
    refine .inl ⟨rfl, rfl, rfl, fun source x found => ?_⟩
    obtain ⟨z, there, rfl⟩ := Option.map_eq_some_iff.mp found
    have inside := (List.getElem?_eq_some_iff.mp there).1
    show (r.sources ++ [s])[source]?.map _ = _
    rw [List.getElem?_append_left inside, there]
    rfl

/-- A loop goes on with what it has read of the notes. -/
theorem Round.suits_notes {run : Nat} {reader reader' : Reader} {e : Option Event} {lastId : Int}
    {next : Option Reader} {x : Launch} (round : Round r run reader e lastId next)
    (suits : r.notes.Suits x reader) (goes : next = some reader') : r.notes.Suits x reader' := by
  have onward {at_ : Reading} (before : reader.at_ ≠ .readVideo ∧ reader.at_ ≠ .readAudio) :
      r.notes.Suits x { reader with at_ := at_ } :=
    ⟨suits.source, fun _ => suits.video before.1, fun _ _ => suits.audio before.1 before.2⟩
  have past : reader.at_.isBetween → reader.at_ ≠ .readVideo ∧ reader.at_ ≠ .readAudio := by
    intro between
    constructor <;> intro at_ <;> simp [at_, Reading.isBetween] at between
  cases round with
  | video => exact Option.some.inj goes ▸ ⟨suits.source, fun _ => rfl, fun _ off => absurd rfl off⟩
  | audio =>
    exact Option.some.inj goes ▸ ⟨suits.source, fun _ => suits.video (by simp), fun _ _ => rfl⟩
  | pass before => exact Option.some.inj goes ▸ onward (past before)
  | leave => cases goes
  | read => exact Option.some.inj goes ▸ onward (by simp)
  | count at_ | number at_ | publish at_ | published at_ =>
    exact Option.some.inj goes ▸ onward (by simp [at_])

/-- What else takes a step leaves the loops where they are, but for one that comes up. -/
theorem targets_step {fresh : Reader → Prop} (sound : r.control.Sound)
    (coherent : r.task.Coherent fresh) (last : r.step l = some r') (other : ∀ run, l ≠ .reader run)
    (run : Nat) : r'.task.target? run = r.task.target? run ∨
      r.task.target? run = none ∧ ∃ reader, r'.task.target? run = some reader ∧ fresh reader := by
  cases l with
  | reader run => exact absurd rfl (other run)
  | begin call =>
    simp only [step] at last
    split at last
    · obtain rfl := Option.some.inj last
      exact .inl (by cases call <;> rfl)
    · simp at last
  | call n =>
    left
    obtain ⟨stage, here⟩ := exists_stage_of_callStep last
    rcases quiet_callStep sound here last with quiet | ⟨source, uri, at_, rfl, noting | ⟨rfl, spawns⟩⟩
    · rw [Task.target?_eq_bind, Task.target?_eq_bind, quiet.stages run]
    · simp only [step, callStep, here, Option.bind_eq_bind, Option.bind_some] at last
      cases at_ <;> simp only [Starting.isNoting, Bool.false_eq_true] at noting <;>
        obtain rfl := Option.some.inj last <;> rfl
    · obtain ⟨target, t, -, step, rfl⟩ := spawns
      exact Task.target?_run_advance step run
  | thread other =>
    obtain ⟨t, step, rfl⟩ := Option.map_eq_some_iff.mp last
    exact Task.target?_advanceThread coherent step run
  | consumer m action | writer m action =>
    simp only [step, Option.bind_eq_bind, Option.bind_eq_some_iff, Option.some.injEq] at last
    obtain ⟨s, -, rfl⟩ := last
    exact .inl rfl
  | addSubscriber s | addSource s =>
    obtain rfl := Option.some.inj last
    exact .inl rfl

/-- A loop stays where it is, comes up, or goes on by itself. -/
theorem target?_step {fresh : Reader → Prop} (sound : r.control.Sound)
    (coherent : r.task.Coherent fresh) (last : r.step l = some r') {run : Nat} {reader' : Reader}
    (executing : r'.task.target? run = some reader') :
    r.task.target? run = some reader' ∨ fresh reader' ∨ ∃ reader, l = .reader run ∧
      r.task.target? run = some reader ∧
      Round r run reader (r.observe (.reader run)) r'.lastId (some reader') := by
  by_cases own : ∃ n, l = .reader n
  · obtain ⟨n, rfl⟩ := own
    obtain ⟨reader, before⟩ := exists_target_of_readerStep last
    obtain ⟨round, others⟩ := round_readerStep before last
    by_cases same : n = run
    · subst same
      rw [executing] at round
      exact .inr (.inr ⟨reader, rfl, before, round⟩)
    · exact .inl ((others run same).symm.trans executing)
  · rcases targets_step sound coherent last (fun n same => own ⟨n, same⟩) run with
      same | ⟨-, reader, after, isFresh⟩
    · exact .inl (same.symm.trans executing)
    · obtain rfl := Option.some.inj (after.symm.trans executing)
      exact .inr (.inl isFresh)

/-- What a start has noted it still has noted when it goes on. -/
theorem exists_stage_of_startStep (here : r.calls[n]? = some (.start source uri at_))
    (backs : r.notes.Backs (.start source uri at_)) (last : r.startStep n source uri at_ = some r') :
    ∃ stage, r'.calls[n]? = some stage ∧ r'.notes.Backs stage := by
  have there := (List.getElem?_eq_some_iff.mp here).1
  cases at_ with
  | lock =>
    obtain ⟨-, rfl⟩ := startStep_lock last
    exact ⟨_, getElem?_setCall there, trivial⟩
  | reserve =>
    obtain rfl := Option.some.inj last
    split <;> exact ⟨_, getElem?_setCall there, trivial⟩
  | joining =>
    rcases taskStep_cases last with ⟨-, rfl⟩ | ⟨t, -, rfl⟩
    · exact ⟨_, getElem?_setCall there, trivial⟩
    · exact ⟨_, here, backs⟩
  | openSource =>
    obtain ⟨s, found, -, ⟨s', opened, rfl⟩ | ⟨e, -, rfl⟩⟩ := startStep_openSource last
    · refine ⟨_, getElem?_setCall there, ?_⟩
      show ((r.setSource source s').notes.declared source).isSome
      rw [notes_setSource found (ScriptedSource.streams_openAt opened)]
      simp [notes, found]
    · exact ⟨_, getElem?_setCall there, trivial⟩
  | setVideo =>
    obtain rfl := Option.some.inj last
    refine ⟨_, getElem?_setCall there, ?_⟩
    obtain ⟨x, noted⟩ := Option.isSome_iff_exists.mp backs
    obtain ⟨s, found, -⟩ := Option.map_eq_some_iff.mp noted
    refine ⟨s.memory.audio, ?_⟩
    show r.sources[source]?.map ScriptedSource.streams =
      some (r.declared source (·.video), s.memory.audio)
    simp [declared, found, ScriptedSource.streams]
  | setAudio =>
    obtain rfl := Option.some.inj last
    refine ⟨_, getElem?_setCall there, ?_⟩
    obtain ⟨audio, noted⟩ := backs
    obtain ⟨s, found, same⟩ := Option.map_eq_some_iff.mp noted
    have video : s.memory.video = r.video := congrArg Prod.fst same
    show r.sources[source]?.map ScriptedSource.streams =
      some (r.video, r.declared source (·.audio))
    simp [declared, found, ScriptedSource.streams, video]
  | setUri =>
    obtain rfl := Option.some.inj last
    exact ⟨_, getElem?_setCall there, rfl, backs⟩
  | clearStop =>
    obtain rfl := Option.some.inj last
    exact ⟨_, getElem?_setCall there, backs⟩
  | launching =>
    rcases taskStep_cases last with ⟨-, rfl⟩ | ⟨t, -, rfl⟩
    · refine ⟨_, getElem?_setCall there, ?_⟩
      unfold afterLaunch
      split <;> trivial
    · exact ⟨_, here, backs⟩
  | refuse | refuseThread | shareToken =>
    obtain rfl := Option.some.inj last
    exact ⟨_, getElem?_setCall there, trivial⟩

/-- Only a start goes on as a start. -/
theorem exists_start_of_callStep {stage : CallStage} {b : Starting}
    (here : r.calls[n]? = some stage) (last : r.callStep n = some r')
    (found : r'.calls[n]? = some (.start source uri b)) :
    ∃ source' uri' a, stage = .start source' uri' a := by
  have there := (List.getElem?_eq_some_iff.mp here).1
  have role' := role_start found
  have silent (off : stage.role = none) (quiet : r.signalCall n stage = none) : False := by
    rw [control_of_role_eq_none here off quiet last] at role'
    simp [control, here, off] at role'
  have whole := last
  simp only [callStep, here, Option.bind_eq_bind, Option.bind_some] at whole
  cases stage with
  | start source' uri' a => exact ⟨source', uri', a, rfl⟩
  | publish | enqueue | subscribe | unsubscribe | describe | returned => exact (silent rfl rfl).elim
  | stop at_ =>
    cases at_ <;> obtain rfl := Option.some.inj whole
    · rw [getElem?_setCall (by exact there)] at found
      simp at found
    · rw [answer, getElem?_setCall (by rwa [calls_cancelShared])] at found
      simp at found
  | join at_ =>
    cases at_ with
    | lock =>
      obtain ⟨-, rfl⟩ := joinStep_lock whole
      rw [getElem?_setCall (by exact there)] at found
      simp at found
    | joining =>
      rcases taskStep_cases whole with ⟨-, rfl⟩ | ⟨t, -, rfl⟩
      · rw [answerFreeing, answer, getElem?_setCall (by exact there)] at found
        simp at found
      · simp [here] at found
  | drop at_ =>
    rcases at_ with (_ | _) | _
    · obtain rfl := Option.some.inj whole
      rw [getElem?_setCall (by exact there)] at found
      simp at found
    · obtain rfl := Option.some.inj whole
      rw [getElem?_setCall (by rw [beginTask, calls_cancelShared]; exact there)] at found
      simp at found
    · rcases taskStep_cases whole with ⟨-, rfl⟩ | ⟨t, -, rfl⟩
      · rw [answer, getElem?_setCall there] at found
        simp at found
      · simp [here] at found

/-- A call stays where it is, goes on by itself, or begins. -/
theorem exists_call_of_step {m : Nat} {stage : CallStage} (last : r.step l = some r')
    (here : r'.calls[m]? = some stage) (other : l ≠ .call m) :
    r.calls[m]? = some stage ∨ ∃ call, stage = entry call := by
  cases l with
  | begin call =>
    simp only [step] at last
    split at last
    · obtain rfl := Option.some.inj last
      have calls : (r.begin call).calls = r.calls ++ [entry call] := by cases call <;> rfl
      rw [calls] at here
      exact (getElem?_snoc_cases here).imp_right fun new => ⟨call, new.2⟩
    · simp at last
  | call n =>
    refine .inl ((getElem?_of_callStep ?_ last).symm.trans here)
    exact fun same => other (congrArg Label.call same)
  | reader run => exact .inl ((calls_readerStep last) ▸ here)
  | thread run =>
    obtain ⟨t, -, rfl⟩ := Option.map_eq_some_iff.mp last
    exact .inl here
  | consumer k action | writer k action =>
    simp only [step, Option.bind_eq_bind, Option.bind_eq_some_iff, Option.some.injEq] at last
    obtain ⟨s, -, rfl⟩ := last
    exact .inl here
  | addSubscriber s | addSource s =>
    obtain rfl := Option.some.inj last
    exact .inl here

/-- Every start keeps what it has noted: no other one notes anything while it is past its lock. -/
theorem backs_step (sound : r.control.Sound)
    (backs : ∀ (n : Nat) (stage : CallStage), r.calls[n]? = some stage → r.notes.Backs stage)
    (last : r.step l = some r') (m : Nat) (stage : CallStage) (here : r'.calls[m]? = some stage) :
    r'.notes.Backs stage := by
  by_cases early : ∀ source uri at_, stage = .start source uri at_ → at_ = .lock
  · exact Notes.backs_of_early early
  push Not at early
  obtain ⟨source, uri, b, rfl, past⟩ := early
  by_cases own : l = .call m
  · subst own
    obtain ⟨stage, before⟩ := exists_stage_of_callStep last
    obtain ⟨source', uri', a, rfl⟩ := exists_start_of_callStep before last here
    have whole : r.startStep m source' uri' a = some r' := by
      rwa [step, callStep_start before] at last
    obtain ⟨stage, after, backed⟩ := exists_stage_of_startStep before (backs m _ before) whole
    exact Option.some.inj (here.symm.trans after) ▸ backed
  · rcases exists_call_of_step last here own with before | ⟨call, same⟩
    · rcases notes_step sound last with more | ⟨n, source', uri', a, rfl, other, noting⟩
      · exact more.backs (backs m _ before)
      · obtain rfl := sound.start_alone (role_start before) (role_start other) past
          (by rintro rfl; simp [Starting.isNoting] at noting)
        exact absurd rfl own
    · cases call with
      | start source' uri' =>
        obtain ⟨-, -, rfl⟩ := CallStage.start.inj same
        exact absurd rfl past
      | _ => simp [entry] at same

variable {log : List Launch}

/-- While a run is live nobody else has a run to give back. -/
theorem role_claims_of_isLive {k : Keeper} {run : Nat} {role : Role} (kept : r.control.KeptBy k)
    (live : r.task.isLive run) (at_ : r.control.role n = some role) :
    role.claims r.task.position = false := by
  have thread : k = .run run := by
    have live : (r.control.task.stage? run).any Task.Stage.isLive := live
    simpa [live] using (kept.live run).symm
  have claims := kept.claims n
  rw [at_, thread] at claims
  exact claims

/-- The newest run keeps the notes to itself as long as it is live. -/
theorem Serves.step {k : Keeper} {e : Launch} (serves : r.Serves e) (sound : r.control.Sound)
    (kept : r.control.KeptBy k) (live : r.task.isLive e.run) (last : r.step l = some r') :
    r'.Serves e := by
  have launch : ∀ (n source : Nat) (uri : String),
      r.calls[n]? = some (.start source uri .clearStop) →
        Reader.IsFresh e.source { source := source } := by
    intro n source uri here
    have off := role_claims_of_isLive kept live (role_start here)
    simp [Role.claims, Starting.isPreparing] at off
  have more : r.notes.Extends r'.notes := by
    rcases notes_step sound last with more | ⟨n, source, uri, at_, -, here, noting⟩
    · exact more
    · have off := role_claims_of_isLive kept live (role_start here)
      cases at_ <;> simp [Starting.isNoting, Role.claims, Starting.isPreparing] at noting off
  refine ⟨more.noted serves.noted, coherent_step serves.coherent launch last, ?_⟩
  intro reader' executing
  rcases target?_step sound serves.coherent last executing with
    before | ⟨at_, source⟩ | ⟨reader, -, before, round⟩
  · exact more.suits (serves.reading _ before)
  · exact ⟨source, fun off => absurd at_ off, fun off => absurd at_ off⟩
  · exact more.suits (round.suits_notes (serves.reading _ before) rfl)

/-- There is no live run but those that have been made. -/
theorem lt_of_isLive {t : Task Reader} {run : Nat} (live : t.isLive run) :
    run < t.contexts.length := by
  by_contra beyond
  have nothing : t.contexts[run]? = none := List.getElem?_eq_none (Nat.le_of_not_lt beyond)
  simp [Task.isLive, Task.stage?, nothing] at live

theorem isLive_step (sound : r.control.Sound) (last : r.step l = some r') {run : Nat}
    (live : r'.task.isLive run) : r.task.isLive run ∨ run = r.task.contexts.length := by
  rcases control_step last with ⟨same, -⟩ | move
  · have task : r'.task = r.task := congrArg Control.task same
    exact .inl (task ▸ live)
  · exact move.isLive sound.coherent live

/-- A start that makes a thread leaves to it what it has noted. -/
theorem Serves.of_spawns (owned : r.Owned log)
    (here : r.calls[n]? = some (.start source uri .launching)) (spawns : Spawns r r') :
    r'.Serves ⟨n, r.task.contexts.length, source, uri⟩ := by
  obtain ⟨target, t, at_, step, rfl⟩ := spawns
  have up : r.control.task.position.target?.isSome := by
    simp [control, at_, Task.Position.target?]
  have coherent := owned.bringing n source (role_start here) up
  refine ⟨owned.starting n _ here, coherent.advance step, ?_⟩
  intro reader executing
  have before : r.task.target? r.task.contexts.length = some reader :=
    (Task.target?_run_advance step _).symm.trans executing
  exact absurd (lt_of_isLive (Task.isLive_of_target? before)) (Nat.lt_irrefl _)

/-- **Every step leaves the notes to the newest run.** -/
theorem Owned.step {k : Keeper} (owned : r.Owned log) (sound : r.control.Sound)
    (kept : r.control.KeptBy k) (launching : r.control.Launching) (last : r.step l = some r') :
    r'.Owned (log ++ (r.launch? l).toList) := by
  have bringing : r'.control.Brings := by
    rcases control_step last with ⟨same, -⟩ | move
    · exact same ▸ owned.bringing
    · exact owned.bringing.move sound kept launching move
  have starting := backs_step sound owned.starting last
  have length := owned.length
  rcases launch?_step sound last with
    ⟨none_, same⟩ | ⟨n, source, uri, rfl, here, spawns, launch⟩
  · rw [none_, Option.toList_none, List.append_nil]
    refine ⟨owned.numbered, same.trans length, starting, bringing, ?_⟩
    intro run live
    rcases isLive_step sound last live with before | new
    · obtain ⟨e, newest, rfl, serves⟩ := owned.live run before
      exact ⟨e, newest, rfl, serves.step sound kept before last⟩
    · exact absurd (lt_of_isLive live) (by rw [new, same]; exact Nat.lt_irrefl _)
  · have more : r'.task.contexts.length = r.task.contexts.length + 1 := by
      obtain ⟨target, t, at_, step, rfl⟩ := spawns
      rcases Task.newRun?_advance step with ⟨-, other, -⟩ | ⟨-, -, -, length, -⟩
      · exact absurd at_ (other target)
      · exact length
    rw [launch, Option.toList_some]
    refine ⟨?_, ?_, starting, bringing, ?_⟩
    · rw [List.map_append, owned.numbered, List.length_append, List.length_singleton,
        List.range'_concat]
      simp [length, Nat.add_comm]
    · rw [more, length, List.length_append, List.length_singleton]
    · intro run live
      rcases isLive_step sound last live with before | new
      · -- No other run is live while a start makes a thread.
        have claims := role_claims_of_isLive kept before (role_start here)
        obtain ⟨target, t, at_, -⟩ := spawns
        simp [Role.claims, at_, Task.Position.hasSpawned] at claims
      · exact ⟨_, List.getLast?_concat .., new.symm, .of_spawns owned here spawns⟩

theorem Serves.tellsOf {e : Launch} {reader : Reader} (serves : r.Serves e)
    (executing : r.task.target? e.run = some reader) : r.TellsOf e reader := by
  obtain ⟨uri, streams⟩ := serves.noted
  obtain ⟨source, video, audio⟩ := serves.reading reader executing
  obtain ⟨s, found, same⟩ := Option.map_eq_some_iff.mp streams
  obtain ⟨sameVideo, sameAudio⟩ := Prod.mk.inj same
  refine ⟨source, uri, s, found, sameVideo.symm, sameAudio.symm, ?_, ?_⟩
  · rw [sameVideo]
    exact video
  · rw [sameAudio]
    exact audio

end Steps

section Run

open Schedule

variable {settings : PublisherSettings} {log : List Launch} {r : Relay}

theorem owned_ofSettings : (ofSettings settings).Owned [] where
  numbered := rfl
  length := rfl
  starting n stage here := by simp [ofSettings] at here
  bringing n source here := by simp [control, ofSettings] at here
  live run live := by simp [Task.isLive, stage?_ofSettings] at live

/-- What the runs of a publisher have in common: its calls are kept apart, somebody keeps the run,
and the notes are those of the newest one. -/
theorem exists_owner (run : Records step (fun _ => True) launch? (ofSettings settings) log r) :
    r.Owned log ∧ ∃ k, r.control.KeptBy k := by
  suffices owned : r.Owned log ∧ r.control.Launching from ⟨owned.1, (keeper_of_reaches run.reaches).2⟩
  induction run with
  | refl => exact ⟨owned_ofSettings, launching_ofSettings⟩
  | tail earlier _ last ih =>
    obtain ⟨owned, launching⟩ := ih
    obtain ⟨sound, k, kept⟩ := keeper_of_reaches earlier.reaches
    refine ⟨owned.step sound kept launching last, ?_⟩
    rcases control_step last with ⟨same, -⟩ | move
    · exact same ▸ launching
    · exact launching.move move

/-- A loop that is about to read a unit knows the streams of its source. -/
theorem indexes_of_reading {run : Nat} {reader : Reader} {s : ScriptedSource}
    (path : Reaches step (ofSettings settings) r) (executing : r.task.target? run = some reader)
    (at_ : reader.at_ = .read) (there : r.sources[reader.source]? = some s) :
    s.indexes = (reader.videoIndex, reader.audioIndex) := by
  obtain ⟨launches, recorded⟩ := path.exists_records launch?
  obtain ⟨owned, -⟩ := exists_owner recorded
  obtain ⟨e, -, rfl, serves⟩ := owned.live run (Task.isLive_of_target? executing)
  have tells := serves.tellsOf executing
  obtain ⟨s', found, -, -, video, audio⟩ := tells.streams
  rw [tells.source] at there
  obtain rfl := Option.some.inj (there.symm.trans found)
  rw [video (by simp [at_]), audio (by simp [at_]) (by simp [at_])]
  rfl

/-- **At most one read loop runs, on the source of its own start.** Whatever is called, and whether the
sources open, end or panic: the read loop that executes is that of the newest launch, and what the
publisher tells is the address and the streams of this launch. A publisher that is started has its
run reserved. Nor can the thread of a run take back the reservation of a later one: when it changes
the mark, its run is the newest, and no start has reserved another. -/
theorem one_loop_on_its_own_source
    (run : Records step (fun _ => True) launch? (ofSettings settings) log r) :
    log.map Launch.run = List.range' 1 log.length ∧
      (∀ k reader, r.task.target? k = some reader →
        (∀ k' reader', r.task.target? k' = some reader' → k' = k) ∧
          ∃ e, log.getLast? = some e ∧ e.run = k ∧ r.TellsOf e reader) ∧
      (r.started → r.running) ∧
      ∀ k l r', l = .thread k ∨ l = .reader k → r.step l = some r' → r'.running ≠ r.running →
        log.getLast?.map Launch.run = some k ∧ ∀ n, ¬ r.HasReserved n := by
  obtain ⟨owned, keeper, kept⟩ := exists_owner run
  -- A loop that executes keeps the run, and it is the newest.
  have newest {k : Nat} {reader : Reader} (executing : r.task.target? k = some reader) :
      keeper = .run k ∧ ∃ e, log.getLast? = some e ∧ e.run = k ∧ r.Serves e :=
    ⟨kept.eq_run executing, owned.live k (Task.isLive_of_target? executing)⟩
  refine ⟨owned.numbered, ?_, ?_, ?_⟩
  · intro k reader executing
    obtain ⟨keeps, e, last, rfl, serves⟩ := newest executing
    refine ⟨?_, e, last, rfl, serves.tellsOf executing⟩
    intro k' reader' executing'
    exact Keeper.run.inj ((newest executing').1.symm.trans keeps)
  · intro started
    have on : keeper.isOn r.control.task := kept.started.symm.trans started
    refine kept.running.trans (decide_eq_true ?_)
    rintro rfl
    simp [Keeper.isOn] at on
  · rintro k l r' (rfl | rfl) last changes
    · obtain ⟨t, -, rfl⟩ := Option.map_eq_some_iff.mp last
      exact absurd rfl changes
    · obtain ⟨reader, executing⟩ := exists_target_of_readerStep last
      obtain ⟨keeps, e, newest, rfl, -⟩ := newest executing
      refine ⟨by rw [newest, Option.map_some], ?_⟩
      intro n reserved
      have claims := (kept.claims n).symm.trans reserved
      simp [keeps] at claims

/-- A run on a source that has ended, and then a second one with a source of its own. -/
def secondRun (ended other : ScriptedSource) : List Label :=
  List.flatten [[.addSource ended, .begin (.start 0 "a")], List.replicate 19 (.call 0),
    List.replicate 4 (.thread 1), List.replicate 8 (.reader 1), List.replicate 3 (.thread 1),
    [.addSource other, .begin (.start 1 "b")], List.replicate 19 (.call 1),
    List.replicate 4 (.thread 2), List.replicate 3 (.reader 2)]

/-- The loop of the second run reads the second source, by the video stream of this source. -/
theorem second_loop_on_second_source : ∃ log r,
    Records step (fun _ => True) launch? (ofSettings {}) log r ∧
      log = [⟨0, 1, 0, "a"⟩, ⟨1, 2, 1, "b"⟩] ∧ ∃ reader, r.task.target? 2 = some reader ∧
        reader.videoIndex = some 3 ∧ r.TellsOf ⟨1, 2, 1, "b"⟩ reader := by
  let ended : ScriptedSource := { memory.feed.finished := true, allowNoStreams := true }
  let other : ScriptedSource :=
    { memory := { feed := {}, video := some { index := 3, codec := "", timeBase := ⟨1, 1⟩ } } }
  have ran : (record? step launch? (ofSettings {}) (secondRun ended other)).any (fun x =>
      x.1 = [⟨0, 1, 0, "a"⟩, ⟨1, 2, 1, "b"⟩] ∧
        (x.2.task.target? 2).map (·.videoIndex) = some (some 3)) := by
    decide +kernel
  obtain ⟨log, r, run, facts⟩ := exists_records_of_any (fun _ _ => trivial) ran
  obtain ⟨rfl, executes⟩ := of_decide_eq_true facts
  obtain ⟨reader, executing, index⟩ := Option.map_eq_some_iff.mp executes
  obtain ⟨-, own, -⟩ := one_loop_on_its_own_source run
  obtain ⟨-, e, newest, -, tells⟩ := own 2 reader executing
  obtain rfl := Option.some.inj newest
  exact ⟨_, r, run, rfl, reader, executing, index, tells⟩

end Run

end Relay

end PacketRelay
