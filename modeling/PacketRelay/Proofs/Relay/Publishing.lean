import PacketRelay.Proofs.Relay.Delivery
import PacketRelay.Proofs.Relay.Intake

/-!
# The threads that publish

A call may publish one packet and a read loop many. What a thread is doing there lasts from before
it takes the registry until after it has given it back: whether it begins at all, and what it
answers, is decided outside the lock. Until it takes the registry it has the packet that it was given.
All that a step of a publisher can do to the threads that publish, and to what has been counted of
packets, is listed here once, together with what the step shows.

## Main definitions

* `Relay.fanout?`: where a thread is that publishes
* `Fanout.entering?`: its packet, until it takes the registry
* `Relay.Brings`: a step gives a thread a packet to publish
* `Counters.outgoing`: what has been counted of packets
* `Relay.Pace`: what a step can do to both

## Main results

* `Relay.entering?_cases`: a thread takes its packet to the registry, or gives up
* `Relay.pace_step`: every step does one of these things
-/

namespace PacketRelay

/-- Where a call is that publishes. One that has returned stays where it was at its end. -/
def CallStage.fanout? : CallStage → Option Fanout
  | .publish f => some f
  | .returned (.reached n) => some (.finished n)
  | _ => none

/-- Where a read loop is that publishes. -/
def Reading.fanout? : Reading → Option Fanout
  | .publish f => some f
  | _ => none

/-- The packet of a thread that publishes and has not taken the registry yet. -/
def Fanout.entering? : Fanout → Option Packet
  | .checkStop p | .checkStarted p | .acquire p => some p
  | _ => none

/-- What has been counted of packets, without the units that have been read. -/
def Counters.outgoing (c : Counters) : Counters :=
  { c with unitsRead := 0 }

namespace Relay

/-- Where a thread is that publishes. -/
def fanout? (r : Relay) : Actor → Option Fanout
  | .call n => r.calls[n]?.bind CallStage.fanout?
  | .reader run => (r.task.target? run).bind fun reader => reader.at_.fanout?

/-- By this step a thread is given a packet to publish: a call begins that publishes it, or a loop
makes it of a unit. -/
def Brings (r : Relay) (a : Actor) (p : Packet) : Label → Prop
  | .begin call => call = .publish p ∧ a = .call r.calls.length
  | .reader run => a = .reader run ∧ ∃ reader u kind, r.task.target? run = some reader ∧
      reader.at_ = .number u kind ∧ Packet.ofUnit? (r.lastId + 1) u kind = some p
  | _ => False

/-- Does an event say nothing about a delivery? -/
def Event.isAside : Event → Bool
  | .read .. | .subscribed _ | .unsubscribed _ | .dequeued .. => true
  | _ => false

/-- What a step does to the threads that publish and to what has been counted of packets, and what
it shows. -/
inductive Pace (l : Label) (r r' : Relay) : Option Event → Prop
  -- A thread that publishes makes an access.
  | access {a : Actor} {f f' : Fanout} {s : Relay} (at_ : r.fanout? a = some f)
      (last : f.step a r = some (s, f')) (counters : r'.counters = s.counters)
      (next : r'.fanout? = Function.update r.fanout? a (some f')) :
      Pace l r r' (observeFanout a r f)
  -- A thread begins to publish.
  | begins {a : Actor} (p : Packet) (brought : r.Brings a p l) (off : r.fanout? a = none)
      (counters : r'.counters.outgoing = r.counters.outgoing)
      (next : r'.fanout? = Function.update r.fanout? a (some (.checkStop p))) : Pace l r r' none
  -- A read loop is done with a packet.
  | ends {run reached : Nat} (at_ : r.fanout? (.reader run) = some (.finished reached))
      (counters : r'.counters.outgoing = r.counters.outgoing)
      (next : r'.fanout? = Function.update r.fanout? (.reader run) none) : Pace l r r' none
  -- Something else.
  | aside {e : Option Event} (quiet : ∀ x, e = some x → x.isAside)
      (counters : r'.counters.outgoing = r.counters.outgoing) (same : r'.fanout? = r.fanout?) :
      Pace l r r' e

section Entering

variable {p : Packet} {entries entry reached : Nat} {r r' : Relay} {a : Actor} {f f' : Fanout}

@[simp] theorem entering?_close : (Fanout.close p reached).entering? = none := by
  unfold Fanout.close
  split <;> rfl

@[simp] theorem entering?_afterSweep : (Fanout.afterSweep p entries).entering? = none := by
  unfold Fanout.afterSweep
  split <;> rfl

@[simp] theorem entering?_afterServe :
    (Fanout.afterServe p entries entry reached).entering? = none := by
  unfold Fanout.afterServe
  split
  · rfl
  · exact entering?_close

@[simp] theorem entering?_afterChoice {stop : Bool} :
    (Fanout.afterChoice p entries entry reached stop).entering? = none := by
  unfold Fanout.afterChoice
  dsimp only
  split
  · split
    · exact entering?_close
    · rfl
  · rfl

theorem taken_observeFanout : taken (observeFanout a r f).toList =
    match f with
    | .acquire p => [p]
    | _ => [] := by
  cases f with
  | serve p entry reached at_ =>
    cases shown : observeFanout a r (.serve p entry reached at_) with
    | none => rfl
    | some e =>
      simp only [observeFanout, Option.bind_eq_bind, Option.bind_eq_some_iff] at shown
      obtain ⟨n, -, x, -, shown⟩ := shown
      rcases eq_of_observeEnqueue shown with ⟨_, rfl⟩ | ⟨_, -, rfl⟩ <;> rfl
  | sweep =>
    simp only [observeFanout]
    split <;> rfl
  | _ => rfl

/-- **A thread takes its packet to the registry**, unless it gives up before that, since a stop is
requested or the loop is off. -/
theorem entering?_cases (last : f.step a r = some (r', f')) :
    f.entering?.toList = taken (observeFanout a r f).toList ++ f'.entering?.toList ∨
      taken (observeFanout a r f).toList = [] ∧ f'.entering? = none ∧
        (r.stopRequested = true ∨ r.started = false) := by
  rw [taken_observeFanout]
  cases f with
  | checkStop p =>
    obtain ⟨rfl, rfl⟩ := Prod.mk.inj (Option.some.inj last)
    cases stop : r.stopRequested with
    | false => exact .inl rfl
    | true => exact .inr ⟨rfl, rfl, .inl rfl⟩
  | checkStarted p =>
    obtain ⟨rfl, rfl⟩ := Prod.mk.inj (Option.some.inj last)
    cases on : r.started with
    | true => exact .inl rfl
    | false => exact .inr ⟨rfl, rfl, .inr rfl⟩
  | acquire p =>
    obtain ⟨-, rfl, rfl⟩ := step_acquire last
    exact .inl rfl
  | sweep p entry =>
    left
    rcases step_sweep last with ⟨next, -, rfl⟩ | ⟨-, rfl, rfl⟩
    · rfl
    · rw [entering?_afterSweep]
      rfl
  | choose p entry reached =>
    obtain ⟨rfl, rfl⟩ := Prod.mk.inj (Option.some.inj last)
    left
    rw [entering?_afterChoice]
    rfl
  | serve p entry reached at_ =>
    left
    rcases step_serve last with ⟨rfl, rfl, rfl⟩ | ⟨m, s, s', e', -, -, -, rfl, rfl⟩
    · rw [entering?_afterServe]
      rfl
    · rfl
  | countBytes p reached =>
    obtain ⟨rfl, rfl⟩ := Prod.mk.inj (Option.some.inj last)
    left
    cases p.isKeyframe <;> rfl
  | countDiscarded | countPublished | countKeyframe | release =>
    obtain ⟨rfl, rfl⟩ := Prod.mk.inj (Option.some.inj last)
    exact .inl rfl
  | finished reached => simp [Fanout.step] at last

end Entering

section Frames

variable {r r' : Relay} {n run : Nat}

theorem fanout?_setCall {stage : CallStage} (there : n < r.calls.length) :
    (r.setCall n stage).fanout? = Function.update r.fanout? (.call n) stage.fanout? := by
  funext a
  cases a with
  | reader run => rfl
  | call m =>
    by_cases same : m = n
    · subst same
      simp [fanout?, setCall, there]
    · rw [Function.update_of_ne (by simpa using same)]
      simp [fanout?, setCall, List.getElem?_set_ne (Ne.symm same)]

theorem fanout?_call {stage : CallStage} (here : r.calls[n]? = some stage) :
    r.fanout? (.call n) = stage.fanout? := by
  simp [fanout?, here]

theorem fanout?_reader {reader : Reader} (executing : r.task.target? run = some reader) :
    r.fanout? (.reader run) = reader.at_.fanout? := by
  simp [fanout?, executing]

/-- The threads that publish are told by the calls and the read loops. -/
theorem fanout?_congr (calls : r'.calls = r.calls)
    (targets : ∀ run, r'.task.target? run = r.task.target? run) : r'.fanout? = r.fanout? := by
  funext a
  cases a with
  | call n => simp [fanout?, calls]
  | reader run => simp [fanout?, targets]

/-- A call goes on that does not publish, and counts nothing. -/
structure Spares (n : Nat) (r r' : Relay) : Prop where
  stage : ∃ stage : CallStage, r'.calls = r.calls.set n stage ∧ stage.fanout? = none
  settings : r'.settings = r.settings
  counters : r'.counters = r.counters
  targets : ∀ run, r'.task.target? run = r.task.target? run

theorem Spares.fanout? {stage : CallStage} (spares : Spares n r r')
    (here : r.calls[n]? = some stage) (off : stage.fanout? = none) : r'.fanout? = r.fanout? := by
  obtain ⟨stage', calls, off'⟩ := spares.stage
  have there := (List.getElem?_eq_some_iff.mp here).1
  have same : r'.fanout? = (r.setCall n stage').fanout? := fanout?_congr calls spares.targets
  rw [same, fanout?_setCall there, off', ← off, ← fanout?_call here]
  exact Function.update_eq_self _ _

end Frames

section Calls

variable {r r' : Relay} {n : Nat}

theorem spares_taskStep {stage : CallStage} {atEnd : Relay} (here : r.calls[n]? = some stage)
    (off : stage.fanout? = none) (ended : Spares n r atEnd) (last : r.taskStep atEnd = some r') :
    Spares n r r' := by
  rcases taskStep_cases last with ⟨-, rfl⟩ | ⟨t, step, rfl⟩
  · exact ended
  · exact ⟨⟨stage, calls_eq_set here, off⟩, rfl, rfl, Task.target?_run_advance step⟩

theorem spares_startStep {source : Nat} {uri : String} {at_ : Starting}
    (here : r.calls[n]? = some (.start source uri at_))
    (last : r.startStep n source uri at_ = some r') : Spares n r r' := by
  cases at_ with
  | lock =>
    obtain ⟨-, rfl⟩ := startStep_lock last
    exact ⟨⟨_, rfl, rfl⟩, rfl, rfl, fun _ => rfl⟩
  | reserve =>
    obtain rfl := Option.some.inj last
    split <;> exact ⟨⟨_, rfl, rfl⟩, rfl, rfl, fun _ => rfl⟩
  | joining | launching =>
    refine spares_taskStep here rfl ?_ last
    exact ⟨⟨_, rfl, rfl⟩, rfl, rfl, fun _ => rfl⟩
  | openSource =>
    obtain ⟨s, -, -, ⟨s', -, rfl⟩ | ⟨e, -, rfl⟩⟩ := startStep_openSource last
    · exact ⟨⟨_, rfl, rfl⟩, rfl, rfl, fun _ => rfl⟩
    · exact ⟨⟨_, rfl, rfl⟩, rfl, rfl, fun _ => rfl⟩
  | _ =>
    obtain rfl := Option.some.inj last
    exact ⟨⟨_, rfl, rfl⟩, rfl, rfl, fun _ => rfl⟩

theorem spares_joinStep {at_ : Joining} (here : r.calls[n]? = some (.join at_))
    (last : r.joinStep n at_ = some r') : Spares n r r' := by
  cases at_ with
  | lock =>
    obtain ⟨-, rfl⟩ := joinStep_lock last
    exact ⟨⟨_, rfl, rfl⟩, rfl, rfl, fun _ => rfl⟩
  | joining =>
    refine spares_taskStep here rfl ?_ last
    exact ⟨⟨_, rfl, rfl⟩, rfl, rfl, fun _ => rfl⟩

theorem spares_describeStep {at_ : Describing} (last : r.describeStep n at_ = some r') :
    Spares n r r' := by
  cases at_ with
  | countEntries uri started stop =>
    obtain ⟨-, rfl⟩ := describeStep_countEntries last
    exact ⟨⟨_, rfl, rfl⟩, rfl, rfl, fun _ => rfl⟩
  | _ =>
    obtain rfl := Option.some.inj last
    exact ⟨⟨_, rfl, rfl⟩, rfl, rfl, fun _ => rfl⟩

theorem spares_subscribeStep {m : Nat} {at_ : Subscribing}
    (last : r.subscribeStep n m at_ = some r') : Spares n r r' := by
  cases at_ with
  | checkStop =>
    obtain rfl := Option.some.inj last
    split <;> exact ⟨⟨_, rfl, rfl⟩, rfl, rfl, fun _ => rfl⟩
  | acquire =>
    obtain ⟨-, rfl⟩ := subscribeStep_acquire last
    exact ⟨⟨_, rfl, rfl⟩, rfl, rfl, fun _ => rfl⟩
  | sweep entry =>
    rcases subscribeStep_sweep last with ⟨t, next, swept, rfl⟩ | ⟨-, rfl⟩
    · rw [sweep_frame swept]
      exact ⟨⟨_, rfl, rfl⟩, rfl, rfl, fun _ => rfl⟩
    · unfold register
      split <;> exact ⟨⟨_, rfl, rfl⟩, rfl, rfl, fun _ => rfl⟩

theorem spares_unsubscribeStep {m : Nat} {at_ : Unsubscribing}
    (last : r.unsubscribeStep n m at_ = some r') : Spares n r r' := by
  cases at_ with
  | acquire =>
    obtain ⟨-, rfl⟩ := unsubscribeStep_acquire last
    exact ⟨⟨_, rfl, rfl⟩, rfl, rfl, fun _ => rfl⟩
  | sweep entry removed =>
    rcases unsubscribeStep_sweep last with ⟨t, next, swept, rfl⟩ | ⟨-, rfl⟩
    · rw [sweep_frame swept]
      exact ⟨⟨_, rfl, rfl⟩, rfl, rfl, fun _ => rfl⟩
    · exact ⟨⟨_, rfl, rfl⟩, rfl, rfl, fun _ => rfl⟩

theorem spares_enqueueStep {m : Nat} {e : Enqueue} (last : r.enqueueStep n m e = some r') :
    Spares n r r' := by
  rcases enqueueStep_cases last with ⟨rfl, rfl⟩ | ⟨x, x', e', -, -, rfl⟩
  · exact ⟨⟨_, rfl, rfl⟩, rfl, rfl, fun _ => rfl⟩
  · exact ⟨⟨_, rfl, rfl⟩, rfl, rfl, fun _ => rfl⟩

theorem target?_cancelShared (run : Nat) :
    r.cancelShared.task.target? run = r.task.target? run := by
  unfold cancelShared
  split
  · simp [Task.target?_eq_bind]
  · rfl

theorem counters_cancelShared : r.cancelShared.counters = r.counters := by
  unfold cancelShared
  split <;> rfl

theorem settings_cancelShared : r.cancelShared.settings = r.settings := by
  unfold cancelShared
  split <;> rfl

theorem spares_dropStep {at_ : Dropping} (here : r.calls[n]? = some (.drop at_))
    (last : r.dropStep n at_ = some r') : Spares n r r' := by
  rcases at_ with (_ | _) | _
  · obtain rfl := Option.some.inj last
    exact ⟨⟨_, rfl, rfl⟩, rfl, rfl, fun _ => rfl⟩
  · obtain rfl := Option.some.inj last
    exact ⟨⟨.drop .dropTask, congrArg (List.set · n _) calls_cancelShared, rfl⟩,
      settings_cancelShared, counters_cancelShared, target?_cancelShared⟩
  · refine spares_taskStep here rfl ?_ last
    exact ⟨⟨_, rfl, rfl⟩, rfl, rfl, fun _ => rfl⟩

theorem isAside_of_observeCall {stage : CallStage} {x : Event} (off : stage.fanout? = none)
    (shown : r.observeCall n stage = some x) : x.isAside := by
  cases stage with
  | publish f => simp [CallStage.fanout?] at off
  | subscribe m at_ | unsubscribe m at_ =>
    cases at_ <;> simp only [observeCall, reduceCtorEq] at shown
    split at shown
    · obtain rfl := Option.some.inj shown
      rfl
    · simp at shown
  | _ => simp [observeCall] at shown

/-- **A call that does not publish counts nothing.** -/
theorem spares_callStep {stage : CallStage} (here : r.calls[n]? = some stage)
    (off : stage.fanout? = none) (last : r.callStep n = some r') : Spares n r r' := by
  simp only [callStep, here, Option.bind_eq_bind, Option.bind_some] at last
  cases stage with
  | publish f => simp [CallStage.fanout?] at off
  | enqueue m e => exact spares_enqueueStep last
  | subscribe m at_ => exact spares_subscribeStep last
  | unsubscribe m at_ => exact spares_unsubscribeStep last
  | start source uri at_ => exact spares_startStep here last
  | stop at_ =>
    cases at_ with
    | raiseStop =>
      obtain rfl := Option.some.inj last
      exact ⟨⟨_, rfl, rfl⟩, rfl, rfl, fun _ => rfl⟩
    | cancel =>
      obtain rfl := Option.some.inj last
      exact ⟨⟨.returned .stopped, congrArg (List.set · n _) calls_cancelShared, rfl⟩,
        settings_cancelShared, counters_cancelShared, target?_cancelShared⟩
  | join at_ => exact spares_joinStep here last
  | describe at_ => exact spares_describeStep last
  | drop at_ => exact spares_dropStep here last
  | returned reply => simp at last

/-- What a call does. -/
theorem pace_callStep (last : r.callStep n = some r') :
    Pace (.call n) r r' (r.observe (.call n)) := by
  obtain ⟨stage, here⟩ := exists_stage_of_callStep last
  have there := (List.getElem?_eq_some_iff.mp here).1
  have shown : r.observe (.call n) = r.observeCall n stage := by simp [observe, here]
  rw [shown]
  by_cases off : stage.fanout? = none
  · have spares := spares_callStep here off last
    exact .aside (fun x => isAside_of_observeCall off) (congrArg Counters.outgoing spares.counters)
      (spares.fanout? here off)
  cases stage with
  | publish f =>
    rcases callStep_publish here last with ⟨reached, rfl, rfl⟩ | ⟨s, f', step, rfl⟩
    · -- The call returns, and stays where it was at its end.
      refine .aside (by simp [observeCall, observeFanout]) rfl ?_
      have stays : (CallStage.returned (.reached reached)).fanout? = r.fanout? (.call n) :=
        (fanout?_call here).symm
      rw [answer, fanout?_setCall there, stays]
      exact Function.update_eq_self _ _
    · have frame := Fanout.step_frame step
      refine .access (fanout?_call here) step rfl ?_
      rw [fanout?_setCall (by rw [frame]; exact there)]
      congr 1
      rw [frame]
      rfl
  | returned reply =>
    simp only [callStep, here, Option.bind_eq_bind, Option.bind_some] at last
    cases last
  | _ => exact absurd rfl off

/-- A call leaves the settings. -/
theorem settings_callStep (last : r.callStep n = some r') : r'.settings = r.settings := by
  obtain ⟨stage, here⟩ := exists_stage_of_callStep last
  by_cases off : stage.fanout? = none
  · exact (spares_callStep here off last).settings
  cases stage with
  | publish f =>
    rcases callStep_publish here last with ⟨reached, rfl, rfl⟩ | ⟨s, f', step, rfl⟩
    · rfl
    · have frame := Fanout.step_frame step
      show s.settings = r.settings
      rw [frame]
  | returned reply =>
    simp only [callStep, here, Option.bind_eq_bind, Option.bind_some] at last
    cases last
  | _ => exact absurd rfl off

end Calls

section Readers

variable {r r' : Relay} {run : Nat} {reader : Reader}

/-- A read loop does not touch the calls. -/
theorem calls_readerStep (last : r.readerStep run = some r') : r'.calls = r.calls :=
  (readerStep_frame last).2.1

/-- A read loop that does not publish counts no packets. -/
theorem outgoing_readerStep (executing : r.task.target? run = some reader)
    (off : ∀ f, reader.at_ = .publish f → ∃ reached, f = .finished reached)
    (last : r.readerStep run = some r') : r'.counters.outgoing = r.counters.outgoing := by
  have whole := last
  simp only [readerStep, executing, Option.bind_eq_bind, Option.bind_some] at last
  obtain ⟨source, video, audio, at_⟩ := reader
  cases at_ with
  | read =>
    obtain ⟨x, -, ⟨outcome, -, rfl⟩ | ⟨-, rfl⟩⟩ := readUnit_cases last
    · rfl
    · rfl
  | publish f =>
    obtain ⟨reached, rfl⟩ := off f rfl
    obtain rfl := Option.some.inj last
    rfl
  | pause =>
    rcases readerStep_pause executing rfl whole with ⟨delay, -, rfl⟩ | ⟨-, rfl⟩
    · rfl
    · rfl
  | _ =>
    obtain rfl := Option.some.inj last
    rfl

theorem fanout?_of_round {x : Option Reader} (calls : r'.calls = r.calls)
    (next : r'.task.target? run = x)
    (others : ∀ other, run ≠ other → r'.task.target? other = r.task.target? other) :
    r'.fanout? =
      Function.update r.fanout? (.reader run) (x.bind fun reader => reader.at_.fanout?) := by
  subst next
  funext a
  cases a with
  | call n => simp [fanout?, calls]
  | reader other =>
    by_cases same : other = run
    · subst same
      simp [fanout?]
    · rw [Function.update_of_ne (by simpa using same)]
      simp [fanout?, others other (Ne.symm same)]

theorem Reading.fanout?_of_isBetween {at_ : Reading} (between : at_.isBetween) :
    at_.fanout? = none := by
  cases at_ <;> simp_all [Reading.isBetween, Reading.isHandling, Reading.fanout?]

/-- A read loop that does not publish goes on without publishing, or with a packet to be published that
it has made of a unit. -/
theorem Round.fanout?_next {e : Option Event} {lastId : Int} {next : Option Reader}
    (round : Round r run reader e lastId next) (off : reader.at_.fanout? = none) :
    (∀ x, e = some x → x.isAside) ∧
      ((next.bind fun reader => reader.at_.fanout?) = none ∨
        e = none ∧ ∃ p u kind, reader.at_ = .number u kind ∧
          Packet.ofUnit? (r.lastId + 1) u kind = some p ∧
          (next.bind fun reader => reader.at_.fanout?) = some (.checkStop p)) := by
  cases round with
  | video | audio | leave => exact ⟨by simp, .inl rfl⟩
  | pass before after => exact ⟨by simp, .inl (Reading.fanout?_of_isBetween after)⟩
  | read => exact ⟨by rintro _ ⟨⟩; rfl, .inl rfl⟩
  | count at_ =>
    refine ⟨by simp, .inl ?_⟩
    show (afterCount r reader _).fanout? = none
    unfold afterCount
    split <;> rfl
  | @number _ u kind at_ =>
    refine ⟨by simp, ?_⟩
    cases made : Packet.ofUnit? (r.lastId + 1) u kind with
    | none => exact .inl (by simp [afterNumber, made, Reading.fanout?])
    | some p =>
      exact .inr ⟨rfl, p, u, kind, at_, made, by simp [afterNumber, made, Reading.fanout?]⟩
  | publish at_ | published at_ => simp [at_, Reading.fanout?] at off

/-- What the read loop of a run does. -/
theorem pace_readerStep (last : r.readerStep run = some r') :
    Pace (.reader run) r r' (r.observe (.reader run)) := by
  obtain ⟨reader, executing⟩ := exists_target_of_readerStep last
  have at_ := fanout?_reader executing
  have publishes := fanout?_of_round (calls_readerStep last) rfl (round_readerStep executing last).2
  by_cases off : reader.at_.fanout? = none
  · have idle : ∀ f, reader.at_ = .publish f → ∃ reached, f = .finished reached := by
      intro f same
      simp [same, Reading.fanout?] at off
    have counters := outgoing_readerStep executing idle last
    obtain ⟨quiet, stays | ⟨silent, p, u, kind, place, made, begins⟩⟩ :=
      (round_readerStep executing last).1.fanout?_next off
    · refine .aside quiet counters ?_
      rw [publishes, stays, ← off, ← at_]
      exact Function.update_eq_self _ _
    · rw [silent]
      rw [begins] at publishes
      have brought : r.Brings (.reader run) p (.reader run) :=
        ⟨rfl, reader, u, kind, executing, place, made⟩
      exact .begins p brought (at_.trans off) counters publishes
  · obtain ⟨f, here⟩ : ∃ f, reader.at_ = .publish f := by
      cases same : reader.at_ <;> simp_all [Reading.fanout?]
    have shown : r.observe (.reader run) = observeFanout (.reader run) r f := by
      simp [observe, executing, observeReading, here]
    rw [here] at at_
    rw [shown]
    rcases readerStep_publish executing here last with ⟨reached, rfl, rfl⟩ | ⟨s, f', step, rfl⟩
    · refine .ends at_ rfl ?_
      rw [publishes, target?_goOn executing]
      simp [Reading.fanout?]
    · have still : s.task.target? run = some reader := by
        rw [Fanout.step_frame step]
        exact executing
      refine .access at_ step rfl ?_
      rw [publishes, target?_goOn still]
      simp [Reading.fanout?]

end Readers

section Steps

variable {r r' : Relay}

theorem fanout?_append {stage : CallStage} :
    ({ r with calls := r.calls ++ [stage] } : Relay).fanout? =
      Function.update r.fanout? (.call r.calls.length) stage.fanout? := by
  funext a
  cases a with
  | reader run => rfl
  | call m =>
    by_cases same : m = r.calls.length
    · subst same
      simp [fanout?]
    · rw [Function.update_of_ne (by simpa using same)]
      show (r.calls ++ [stage])[m]?.bind _ = r.calls[m]?.bind _
      rw [getElem?_snoc, if_neg same]

/-- A call begins. -/
theorem pace_begin (call : RelayCall) : Pace (.begin call) r (r.begin call) none := by
  have fresh : r.fanout? (.call r.calls.length) = none := by simp [fanout?]
  have stays : Function.update r.fanout? (.call r.calls.length) none = r.fanout? := by
    rw [← fresh]
    exact Function.update_eq_self _ _
  cases call with
  | publish p => exact .begins p ⟨rfl, rfl⟩ fresh rfl fanout?_append
  | _ => exact .aside (by simp) rfl (fanout?_append.trans stays)

/-- **What a step does to the threads that publish.** -/
theorem pace_step {l : Label} (sound : r.control.Sound) (last : r.step l = some r') :
    Pace l r r' (r.observe l) := by
  cases l with
  | begin call =>
    simp only [step] at last
    split at last
    · obtain rfl := Option.some.inj last
      exact pace_begin call
    · simp at last
  | call n => exact pace_callStep last
  | reader run => exact pace_readerStep last
  | thread run =>
    obtain ⟨t, step, rfl⟩ := Option.map_eq_some_iff.mp last
    refine .aside (by simp [observe]) rfl ?_
    funext a
    cases a with
    | call n => rfl
    | reader other =>
      refine Task.bind_target?_advanceThread sound.coherent step ?_ other
      intro reader fresh
      simp [fresh, Reading.fanout?]
  | consumer n action =>
    simp only [step, Option.bind_eq_bind, Option.bind_eq_some_iff, Option.some.injEq] at last
    obtain ⟨s, there, rfl⟩ := last
    refine .aside ?_ rfl rfl
    intro x shown
    cases action with
    | dequeue pick =>
      simp only [observe, there, Option.bind_some] at shown
      obtain ⟨p, -, rfl⟩ := Option.map_eq_some_iff.mp shown
      rfl
    | _ => simp [observe] at shown
  | writer source action =>
    simp only [step, Option.bind_eq_bind, Option.bind_eq_some_iff, Option.some.injEq] at last
    obtain ⟨s, -, rfl⟩ := last
    exact .aside (by simp [observe]) rfl rfl
  | addSubscriber s | addSource s =>
    obtain rfl := Option.some.inj last
    exact .aside (by simp [observe]) rfl rfl

/-- **Nothing changes the settings.** -/
theorem settings_step (last : r.step l = some r') : r'.settings = r.settings := by
  cases l with
  | begin call =>
    simp only [step] at last
    split at last
    · obtain rfl := Option.some.inj last
      cases call <;> rfl
    · simp at last
  | call n => exact settings_callStep last
  | reader run => exact (readerStep_frame last).2.2.1
  | thread run =>
    obtain ⟨t, -, rfl⟩ := Option.map_eq_some_iff.mp last
    rfl
  | consumer n action | writer n action =>
    simp only [step, Option.bind_eq_bind, Option.bind_eq_some_iff, Option.some.injEq] at last
    obtain ⟨s, -, rfl⟩ := last
    rfl
  | addSubscriber s | addSource s =>
    obtain rfl := Option.some.inj last
    rfl

theorem settings_of_reaches {settings : PublisherSettings}
    (path : Schedule.Reaches step (ofSettings settings) r) : r.settings = settings := by
  induction path with
  | refl => rfl
  | tail _ last ih => exact (settings_step last).trans ih

end Steps

end Relay

end PacketRelay
