import PacketRelay.Proofs.Record
import PacketRelay.Proofs.Relay.Keeper
import PacketRelay.Proofs.Task.Rest
import PacketRelay.Station.Session

/-!
# Restarting a publisher

A publisher is at rest when every read thread has exited and no start is in progress. It ought to be
restartable then: both marks are down, waiting for the run is over at once, publishing reaches
nobody, and a start begins a new run. So it is as long as no read loop has panicked. After a panic
both marks stay up for good, and no start begins a run any more.

## Main definitions

* `Relay.IsAtRest`: every read thread has exited, and no start is in progress
* `Relay.IsRestartable`: what a publisher at rest ought to be

## Main results

* `Relay.exists_keeper`: somebody keeps the run, or it is lost to a panic
* `Relay.restartable_or_panicked`: a publisher at rest is restartable, or a read loop has panicked
-/

namespace PacketRelay.Relay

open Schedule

/-- Every read thread has exited, and no start is in progress. -/
structure IsAtRest (r : Relay) : Prop where
  exited : r.task.IsAtRest
  noStart : ∀ stage ∈ r.calls, ∀ source uri at_, stage ≠ .start source uri at_

/-- A call leads from the first state to the second by its own steps. -/
def Alone (n : Nat) (r t : Relay) : Prop :=
  Reaches (fun s (_ : Unit) => s.callStep n) r t

/-- A start on a source has begun a new run. -/
structure HasBegun (r : Relay) (source : Nat) (t : Relay) : Prop where
  running : t.running = true
  thread : t.task.contexts[r.task.contexts.length]? = some (.ofTarget { source := source })
  current : t.task.current = r.task.contexts.length
  token : t.token = some r.task.contexts.length

/-- A publisher that is ready for the next run. -/
structure IsRestartable (r : Relay) : Prop where
  running : r.running = false
  started : r.started = false
  /-- Waiting for the run to be over ends at once. -/
  isOver : ∀ s : Station.Session, s.station.relay = r → r.dropped = false →
    (s.answer .isOver).2 = .flag true
  /-- A packet that is published reaches nobody. -/
  publish : ∀ p, r.accepts (.publish p) → ∃ t,
    Alone r.calls.length (r.begin (.publish p)) t ∧
      t.calls[r.calls.length]? = some (.returned (.reached 0))
  /-- A start with a source that opens begins a new run. -/
  start : ∀ source uri s, r.accepts (.start source uri) → r.sources[source]? = some s →
    s.isShut = false → (s.openAt uri).isOk → ∃ t,
      Reaches callStep (r.begin (.start source uri)) t ∧
        t.calls[r.calls.length]? = some (.returned (.started none)) ∧ r.HasBegun source t

section Keeper

variable {settings : PublisherSettings} {r : Relay}

theorem sound_ofSettings : (ofSettings settings).control.Sound where
  coherent := Task.coherent_ofName settings.threadName
  holder n := by simp [control, ofSettings]
  dropping _ n at_ := by simp [control, ofSettings]
  alone _ n m hn := by simp [control, ofSettings] at hn
  fits n role here := by simp [control, ofSettings] at here

theorem stage?_ofSettings (run : Nat) : (ofSettings settings).task.stage? run = none := by
  cases run <;> rfl

theorem target?_ofSettings (run : Nat) : (ofSettings settings).task.target? run = none := by
  rw [Task.target?_eq_bind, stage?_ofSettings]
  rfl

theorem keptBy_ofSettings : (ofSettings settings).control.KeptBy .nobody where
  running := rfl
  claims n := by simp [control, ofSettings]
  live run := by
    have never : (ofSettings settings).control.task.stage? run = none := stage?_ofSettings run
    simp [never]
  started := rfl

theorem launching_ofSettings : (ofSettings settings).control.Launching := by
  intro target found
  simp [control, ofSettings, Task.Position.target?] at found

/-- The run is kept by somebody, or it has been lost to the only panic there has been. -/
theorem exists_keeper {admits : Label → Prop} {log : List Nat}
    (run : Records step admits panic? (ofSettings settings) log r) :
    r.control.Sound ∧ ∃ k, r.control.KeptBy k ∧
      (k ≠ .lost ∧ log = [] ∨ k = .lost ∧ ∃ n, log = [n]) := by
  induction run with
  | refl => exact ⟨sound_ofSettings, .nobody, keptBy_ofSettings, .inl ⟨by simp, rfl⟩⟩
  | @tail t u log l _ _ last ih =>
    obtain ⟨sound, k, kept, told⟩ := ih
    rcases control_step last with ⟨same, quiet⟩ | move
    · rw [same, quiet]
      exact ⟨sound, k, kept, by simpa using told⟩
    · obtain ⟨k', kept', lost, first⟩ := kept.move sound move
      refine ⟨sound.move move, k', kept', ?_⟩
      cases panicked : t.panic? l with
      | none => simpa [lost, panicked] using told
      | some n =>
        have before : k ≠ .lost := first (by simp [panicked])
        have quiet : log = [] := (told.resolve_right fun after => before after.1).2
        exact .inr ⟨lost.mpr (.inr (by simp [panicked])), n, by simp [quiet]⟩

theorem keeper_of_reaches (path : Reaches step (ofSettings settings) r) :
    r.control.Sound ∧ ∃ k, r.control.KeptBy k := by
  obtain ⟨_, recorded⟩ := path.exists_records panic?
  obtain ⟨sound, k, kept, -⟩ := exists_keeper recorded
  exact ⟨sound, k, kept⟩

/-- At rest nobody is left to take the mark back. -/
theorem IsAtRest.keeper {k : Keeper} (rest : r.IsAtRest) (kept : r.control.KeptBy k) : k = .nobody ∨ k = .lost := by
  cases k with
  | nobody => exact .inl rfl
  | lost => exact .inr rfl
  | call n =>
    -- Only a start claims the run.
    have claims := kept.claims n
    simp only [control, decide_true] at claims
    cases found : r.calls[n]? with
    | none => simp [found] at claims
    | some stage =>
      cases stage with
      | start source uri at_ => exact absurd rfl (rest.noStart _ (List.mem_of_getElem? found) _ _ _)
      | _ => simp [found, CallStage.role, Role.claims] at claims
  | run k =>
    -- Only a thread that has not exited is alive.
    have live := kept.live k
    simp only [decide_true, control, Task.stage?] at live
    cases found : r.task.contexts[k]? with
    | none => simp [found] at live
    | some c =>
      rcases rest.exited c (List.mem_of_getElem? found) with never | exited
      · simp [found, never] at live
      · simp [found, exited, Task.Stage.isLive] at live

end Keeper

section Calls

variable {r s t : Relay} {n : Nat}

theorem getElem?_setCall {stage : CallStage} (there : n < r.calls.length) :
    (r.setCall n stage).calls[n]? = some stage := by
  simp [setCall, there]

theorem getElem?_begin {call : RelayCall} : (r.begin call).calls[r.calls.length]? = some (entry call) := by
  have same : (r.prepare call).calls = r.calls := by cases call <;> rfl
  simp [begin, same]

theorem Alone.head (first : r.callStep n = some s) (later : Alone n s t) : Alone n r t :=
  Reaches.head (l := ()) first later

/-- While the read loop is off, a call that publishes returns zero by its own steps. -/
theorem exists_publish_returned (off : r.started = false) {p : Packet} :
    ∃ t, Alone r.calls.length (r.begin (.publish p)) t ∧
      t.calls[r.calls.length]? = some (.returned (.reached 0)) := by
  let n := r.calls.length
  have finish : ∀ s : Relay, s.calls[n]? = some (.publish (.finished 0)) → ∃ t,
      Alone n s t ∧ t.calls[n]? = some (.returned (.reached 0)) := by
    intro s at_
    have there := (List.getElem?_eq_some_iff.mp at_).1
    refine ⟨s.answer n (.reached 0), .head ?_ (.refl _), getElem?_setCall there⟩
    simp [callStep, at_]
  let s := r.begin (.publish p)
  have at_ : s.calls[n]? = some (.publish (.checkStop p)) := getElem?_begin
  have there : n < s.calls.length := (List.getElem?_eq_some_iff.mp at_).1
  have first : ∀ next, (if s.stopRequested then Fanout.finished 0 else .checkStarted p) = next →
      s.callStep n = some (s.setCall n (.publish next)) := by
    rintro next rfl
    simp [callStep, at_, Fanout.step]
  by_cases stop : s.stopRequested = true
  · obtain ⟨t, path, returned⟩ := finish (s.setCall n (.publish (.finished 0))) (getElem?_setCall there)
    exact ⟨t, .head (first _ (if_pos stop)) path, returned⟩
  · let u := s.setCall n (.publish (.checkStarted p))
    have at_u : u.calls[n]? = some (.publish (.checkStarted p)) := getElem?_setCall there
    have there_u : n < u.calls.length := (List.getElem?_eq_some_iff.mp at_u).1
    have second : u.callStep n = some (u.setCall n (.publish (.finished 0))) := by
      have same : u.started = false := off
      simp [callStep, at_u, Fanout.step, same]
    obtain ⟨t, path, returned⟩ := finish _ (getElem?_setCall there_u)
    exact ⟨t, .head (first _ (if_neg stop)) (.head second path), returned⟩

end Calls

section Start

variable {r s t : Relay} {n source : Nat} {uri : String}

theorem sound_callStep (sound : r.control.Sound)
    (last : r.callStep n = some s) : s.control.Sound := by
  rcases control_callStep last with same | move
  · rw [same]
    exact sound
  · exact sound.move move

theorem callStep_start {at_ : Starting} (here : r.calls[n]? = some (.start source uri at_)) :
    r.callStep n = r.startStep n source uri at_ := by
  simp [callStep, here]

theorem taskStep_of_advance {atEnd : Relay} {t' : Task Reader} (last : r.task.advance = some t') :
    r.taskStep atEnd = some { r with task := t' } := by
  have busy : r.task.isFree = false := by
    unfold Task.isFree
    split
    · next at_ => simp [Task.advance, at_] at last
    · rfl
  simp [taskStep, busy, last]

theorem callStep_of_advance {stage : CallStage} {t' : Task Reader} (at_ : r.calls[n]? = some stage)
    (onTask : stage.role.any Role.isOnTask) (last : r.task.advance = some t') :
    r.callStep n = some { r with task := t' } := by
  cases stage with
  | start source uri place =>
    cases place with
    | joining | launching => simp [callStep, at_, startStep, taskStep_of_advance last]
    | _ => simp [CallStage.role, Role.isOnTask] at onTask
  | join place =>
    cases place with
    | joining => simp [callStep, at_, joinStep, taskStep_of_advance last]
    | lock => simp [CallStage.role, Role.isOnTask] at onTask
  | drop place =>
    cases place with
    | dropTask => simp [callStep, at_, dropStep, taskStep_of_advance last]
    | stop => simp [CallStage.role, Role.isOnTask] at onTask
  | _ => simp [CallStage.role] at onTask

/-- What the task reaches by the steps of its call, the call that acts on it reaches with it. -/
theorem reaches_of_advances {stage : CallStage} {t' : Task Reader} (at_ : r.calls[n]? = some stage)
    (onTask : stage.role.any Role.isOnTask) (path : r.task.Advances t') :
    Reaches callStep r { r with task := t' } := by
  induction path with
  | refl => exact .refl r
  | @tail t u _ _ last ih =>
    exact ih.tail (callStep_of_advance (r := { r with task := t }) at_ onTask last)

theorem sound_reaches (sound : r.control.Sound) (path : Reaches callStep r t) : t.control.Sound := by
  induction path with
  | refl => exact sound
  | tail _ last ih => exact sound_callStep ih last

/-- A call that holds the task at rest to join gives it back by its own steps. -/
theorem exists_freed (sound : r.control.Sound) (rest : r.task.IsAtRest)
    (at_ : r.calls[n]? = some (.join .joining)) : ∃ begun, Reaches callStep r
      ({ r with task := { r.task with position := .returned begun } }.answerFreeing n .joined) := by
  have role : r.control.role n = some (.join .joining) := by simp [control, at_, CallStage.role]
  obtain ⟨begun, path⟩ := rest.exists_joined sound.coherent (sound.fits n _ role)
  refine ⟨begun, (reaches_of_advances at_ rfl path).tail (l := n) ?_⟩
  simp [callStep, at_, joinStep, taskStep, Task.isFree]

/-- A start that holds the task at rest waits for nobody. -/
theorem exists_joined (sound : r.control.Sound) (rest : r.task.IsAtRest)
    (at_ : r.calls[n]? = some (.start source uri .joining)) : ∃ begun, Reaches callStep r
      ({ r with task := { r.task with position := .returned begun } }.setCall n
        (.start source uri .openSource)) := by
  have role : r.control.role n = some (.start source .joining) := by
    simp [control, at_, CallStage.role]
  obtain ⟨begun, path⟩ := rest.exists_joined sound.coherent (sound.fits n _ role)
  refine ⟨begun, (reaches_of_advances at_ rfl path).tail (l := n) ?_⟩
  simp [callStep, at_, startStep, taskStep, Task.isFree]

/-- A start that has come to the task at rest begins a new run. -/
theorem exists_begun (sound : r.control.Sound) (rest : r.task.IsAtRest) (running : r.running = true)
    (at_ : r.calls[n]? = some (.start source uri .launching))
    (position : r.task.position = .checkStart { source := source }) : ∃ t,
      Reaches callStep r t ∧ t.calls[n]? = some (.returned (.started none)) ∧
        r.HasBegun source t := by
  obtain ⟨t', path, begun, current, -, thread⟩ := rest.exists_launched sound.coherent position
  have there := (List.getElem?_eq_some_iff.mp at_).1
  let u := { r with task := t' }.setCall n (.start source uri .shareToken)
  have at_u : u.calls[n]? = some (.start source uri .shareToken) := getElem?_setCall there
  have launched := (reaches_of_advances at_ rfl path).tail (l := n) (u := u) (by
    simp [callStep, at_, startStep, taskStep, Task.isFree, begun, afterLaunch, u])
  let t := { u with token := some u.task.current }.answerFreeing n (.started none)
  have last : u.callStep n = some t := (callStep_start at_u).trans rfl
  have returned : t.calls[n]? = some (.returned (.started none)) :=
    getElem?_setCall (List.getElem?_eq_some_iff.mp at_u).1
  exact ⟨t, launched.tail last, returned, running, thread, current, congrArg some current⟩

/-- A start whose source opens comes from there to the task. -/
theorem exists_opened {s s' : ScriptedSource}
    (at_ : r.calls[n]? = some (.start source uri .openSource))
    (there : r.sources[source]? = some s) (gate : s.isShut = false) (opens : s.openAt uri = .ok s') :
    ∃ t, Reaches callStep r t ∧ t.calls[n]? = some (.start source uri .launching) ∧
      t.task = r.task.begin .outside (.start { source := source }) ∧ t.running = r.running := by
  have length : ∀ {u : Relay} {stage : CallStage}, u.calls[n]? = some stage → n < u.calls.length :=
    fun at_ => (List.getElem?_eq_some_iff.mp at_).1
  let opened := (r.setSource source s').setCall n (.start source uri .setVideo)
  have at_opened : opened.calls[n]? = _ := getElem?_setCall (length at_)
  have first : r.callStep n = some opened :=
    (callStep_start at_).trans (by simp [startStep, openSource, there, gate, opens, opened])
  let viewed := { opened with video := opened.declared source (·.video) }.setCall n
    (.start source uri .setAudio)
  have at_viewed : viewed.calls[n]? = _ := getElem?_setCall (length at_opened)
  let heard := { viewed with audio := viewed.declared source (·.audio) }.setCall n
    (.start source uri .setUri)
  have at_heard : heard.calls[n]? = _ := getElem?_setCall (length at_viewed)
  let addressed := { heard with uri := some uri }.setCall n (.start source uri .clearStop)
  have at_addressed : addressed.calls[n]? = _ := getElem?_setCall (length at_heard)
  let launching := ({ addressed with stopRequested := false }.beginTask
    (.start { source := source })).setCall n (.start source uri .launching)
  have path : Reaches callStep addressed launching :=
    .head (callStep_start at_addressed) (.refl launching)
  refine ⟨launching, ?_, getElem?_setCall (length at_addressed), rfl, rfl⟩
  exact .head first (.head (callStep_start at_opened) (.head (callStep_start at_viewed)
    (.head (callStep_start at_heard) path)))

/-- A start begins a new run by its own steps, if no run is reserved and the task is free and at rest.
-/
theorem exists_start_of_free {s s' : ScriptedSource} (sound : r.control.Sound)
    (rest : r.task.IsAtRest) (idle : r.running = false) (free : r.taskHolder = none)
    (at_ : r.calls[n]? = some (.start source uri .lock)) (there : r.sources[source]? = some s)
    (gate : s.isShut = false) (opens : s.openAt uri = .ok s') :
    ∃ t, Reaches callStep r t ∧ t.calls[n]? = some (.returned (.started none)) ∧
      r.HasBegun source t := by
  have length : ∀ {u : Relay} {stage : CallStage}, u.calls[n]? = some stage → n < u.calls.length :=
    fun at_ => (List.getElem?_eq_some_iff.mp at_).1
  let locked := { r with taskHolder := some n }.setCall n (.start source uri .reserve)
  have at_locked : locked.calls[n]? = _ := getElem?_setCall (length at_)
  have first : r.callStep n = some locked :=
    (callStep_start at_).trans (by simp [startStep, acquireTask, free, locked])
  let reserved := ({ locked with running := true }.beginTask .join).setCall n
    (.start source uri .joining)
  have at_reserved : reserved.calls[n]? = _ := getElem?_setCall (length at_locked)
  have second : locked.callStep n = some reserved :=
    (callStep_start at_locked).trans (by simp [startStep, locked, setCall, idle, reserved])
  have sound_reserved := sound_callStep (sound_callStep sound first) second
  obtain ⟨begun, joined⟩ := exists_joined sound_reserved rest at_reserved
  let waited := { reserved with task := { reserved.task with position := .returned begun } }.setCall n
    (.start source uri .openSource)
  have at_waited : waited.calls[n]? = _ := getElem?_setCall (length at_reserved)
  obtain ⟨u, opened, at_u, task, running⟩ := exists_opened at_waited there gate opens
  have path : Reaches callStep r u := .head first (.head second (joined.trans opened))
  have contexts : u.task.contexts = r.task.contexts := by
    rw [task]
    rfl
  have rest_u : u.task.IsAtRest := by
    unfold Task.IsAtRest
    rw [contexts]
    exact rest
  obtain ⟨t, launched, returned, ran, thread, current, token⟩ :=
    exists_begun (sound_reaches sound path) rest_u running at_u (by rw [task]; rfl)
  rw [contexts] at thread current token
  exact ⟨t, path.trans launched, returned, ran, thread, current, token⟩

end Start

/-- At rest a call that holds the task is one that joins. -/
theorem IsAtRest.eq_join {r : Relay} (rest : r.IsAtRest) (sound : r.control.Sound) {n : Nat}
    (holder : r.taskHolder = some n) : r.calls[n]? = some (.join .joining) := by
  have held := (sound.holder n).mp holder
  simp only [control] at held
  cases found : r.calls[n]? with
  | none => simp [found] at held
  | some stage =>
    cases stage with
    | start source uri at_ => exact absurd rfl (rest.noStart _ (List.mem_of_getElem? found) _ _ _)
    | join at_ =>
      cases at_ with
      | joining => rfl
      | lock => simp [found, CallStage.role, Role.holds] at held
    | _ => simp [found, CallStage.role, Role.holds] at held

/-- At rest a start that begins now, with a source that opens, begins a new run. -/
theorem IsAtRest.exists_start_returned {r : Relay} (rest : r.IsAtRest) (sound : r.control.Sound)
    (idle : r.running = false) {source : Nat} {uri : String} {s : ScriptedSource}
    (accepted : r.accepts (.start source uri)) (there : r.sources[source]? = some s)
    (gate : s.isShut = false) (opens : (s.openAt uri).isOk) : ∃ t,
      Reaches callStep (r.begin (.start source uri)) t ∧
        t.calls[r.calls.length]? = some (.returned (.started none)) ∧ r.HasBegun source t := by
  let begun := r.begin (.start source uri)
  have at_ : begun.calls[r.calls.length]? = some (.start source uri .lock) := getElem?_begin
  have sound_begun : begun.control.Sound := by
    rcases control_begin accepted with same | move
    · rw [same]
      exact sound
    · exact sound.move move
  have spent : begun.sources[source]? = some { s with spent := true } := by
    simp [begun, Relay.begin, prepare, there]
  obtain ⟨s', opens⟩ : ∃ s', ({ s with spent := true } : ScriptedSource).openAt uri = .ok s' := by
    unfold ScriptedSource.openAt at opens ⊢
    split at opens
    · next memory same =>
      simp only [same]
      exact ⟨_, rfl⟩
    · next e same =>
      simp only [same]
      split at opens
      · next lets => exact ⟨_, if_pos lets⟩
      · simp [Except.isOk, Except.toBool] at opens
  cases holder : r.taskHolder with
  | none =>
    obtain ⟨t, path, returned, ran, thread, current, token⟩ :=
      exists_start_of_free sound_begun rest.exited idle holder at_ spent gate opens
    exact ⟨t, path, returned, ran, thread, current, token⟩
  | some m =>
    -- A call that joins holds the task, and returns first.
    have join := rest.eq_join sound holder
    have old := (List.getElem?_eq_some_iff.mp join).1
    have at_m : begun.calls[m]? = some (.join .joining) :=
      (List.getElem?_append_left old).trans join
    obtain ⟨done, freed⟩ := exists_freed sound_begun rest.exited at_m
    have other : (begun.calls.set m (.returned .joined))[r.calls.length]? = _ :=
      (List.getElem?_set_ne (Nat.ne_of_lt old)).trans at_
    obtain ⟨t, path, returned, ran, thread, current, token⟩ := exists_start_of_free
      (sound_reaches sound_begun freed) rest.exited idle rfl other spent gate opens
    exact ⟨t, freed.trans path, returned, ran, thread, current, token⟩

/-- **At rest a publisher is restartable, or a read loop has panicked.** After a panic, the only one
there can be, both marks stay up. -/
theorem restartable_or_panicked {settings : PublisherSettings} {log : List Nat} {r : Relay}
    (run : Records step (fun _ => True) panic? (ofSettings settings) log r) (rest : r.IsAtRest) :
    (log = [] ∧ r.IsRestartable) ∨
      ∃ k, log = [k] ∧ r.running = true ∧ r.started = true := by
  obtain ⟨sound, k, kept, told⟩ := exists_keeper run
  rcases rest.keeper kept with rfl | rfl
  · left
    have idle : r.running = false := kept.running
    have off : r.started = false := kept.started
    refine ⟨(told.resolve_right (by simp)).2, idle, off, ?_, ?_, ?_⟩
    · rintro s rfl there
      simp [Station.Session.answer, Station.Session.onPublisher, there, idle]
    · exact fun p _ => exists_publish_returned off
    · exact fun source uri s accepted there gate opens =>
        rest.exists_start_returned sound idle accepted there gate opens
  · right
    obtain ⟨n, same⟩ := (told.resolve_left (by simp)).2
    exact ⟨n, same, kept.running, kept.started⟩

/-- One run on a source that has ended or panics at once: the start, the thread before its loop, a
number of steps of the loop, and the thread behind it. -/
def oneRun (source : ScriptedSource) (steps : Nat) : List Label :=
  List.flatten [[.addSource source, .begin (.start 0 "")], List.replicate 19 (.call 0),
    List.replicate 4 (.thread 1), List.replicate steps (.reader 1), List.replicate 3 (.thread 1)]

theorem isAtRest_of_roles {r : Relay} (rest : r.task.IsAtRest)
    (roles : ∀ stage ∈ r.calls, stage.role = none) : r.IsAtRest :=
  ⟨rest, fun stage there source uri at_ same => by simpa [same, CallStage.role] using roles stage there⟩

/-- After a run whose source has ended, the publisher is restartable. -/
theorem restartable_after_end : ∃ r : Relay,
    Records step (fun _ => True) panic? (ofSettings {}) [] r ∧ r.IsAtRest ∧
      r.task.contexts.length = 2 ∧ r.IsRestartable := by
  let ended : ScriptedSource := { memory.feed.finished := true, allowNoStreams := true }
  have ran : (record? step panic? (ofSettings {}) (oneRun ended 8)).any (fun x => x.1 = [] ∧
      (∀ c ∈ x.2.task.contexts, c.stage = none ∨ c.stage = some .exited) ∧
      (∀ stage ∈ x.2.calls, stage.role = none) ∧ x.2.task.contexts.length = 2) := by
    decide +kernel
  obtain ⟨log, r, run, facts⟩ := exists_records_of_any (fun _ _ => trivial) ran
  obtain ⟨rfl, exited, roles, runs⟩ := of_decide_eq_true facts
  have rest := isAtRest_of_roles exited roles
  obtain ⟨-, restartable⟩ := (restartable_or_panicked run rest).resolve_right (by simp)
  exact ⟨r, run, rest, runs, restartable⟩

/-- After a run whose source has panicked, a publisher at rest has both marks up. -/
theorem marks_up_after_panic : ∃ r : Relay,
    Reaches step (ofSettings {}) r ∧ r.IsAtRest ∧ r.running = true ∧ r.started = true := by
  let panics : ScriptedSource :=
    { memory.feed.units := [{ stream := 0, data := [] }], allowNoStreams := true, panicAt := some 1 }
  have ran : (record? step panic? (ofSettings {}) (oneRun panics 6)).any (fun x =>
      (∀ c ∈ x.2.task.contexts, c.stage = none ∨ c.stage = some .exited) ∧
      (∀ stage ∈ x.2.calls, stage.role = none) ∧ x.2.running ∧ x.2.started) := by
    decide +kernel
  obtain ⟨log, r, run, facts⟩ := exists_records_of_any (fun _ _ => trivial) ran
  obtain ⟨exited, roles, running, started⟩ := of_decide_eq_true facts
  exact ⟨r, run.reaches, isAtRest_of_roles exited roles, running, started⟩

end PacketRelay.Relay
