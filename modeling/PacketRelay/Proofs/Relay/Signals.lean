import PacketRelay.Proofs.Relay.Publishing
import PacketRelay.Proofs.Relay.Restart
import PacketRelay.Proofs.Task.Tokens

/-!
# Requests to stop

A call that stops the publisher raises the request to stop and then cancels the token that is
shared. A start acts on both as well: it clears the request on its way to making the new run, and at
its end it shares the token of that run. Here a schedule is recorded with these accesses, and with
those by which a start reserves its run and makes it.

While a start is in progress all others wait for it, so that between two of its accesses nothing
happens to the task of the publisher, and to what the start has to do with, but for requests to
stop.

## Main definitions

* `Signal`, `Relay.signal`: what a step shows of the calls that start and stop
* `Relay.Shows`: what a signal tells of the access that shows it
* `Relay.flags`, `Signal.after`: the request to stop and the token that is shared
* `Relay.Known`: the runs that a publisher speaks of are there
* `Control.Solitary`: no start but a given one has come past reserving its run
* `Relay.Disturbs`: what a step can do that is not taken by a given start

## Main results

* `Relay.flags_step`: the signals tell the flags
* `Relay.disturbs_step`: what the steps of others do
-/

namespace PacketRelay

/-- What is shown of the calls that start and stop. -/
inductive Signal
  -- A start reserves the run.
  | claimed (n : Nat)
  -- A start clears the request to stop.
  | cleared (n : Nat)
  -- A start makes a new run.
  | spawned (n run : Nat)
  -- A start shares the token of its run.
  | shared (n run : Nat)
  -- A call requests the stop.
  | raised (n : Nat)
  -- A call cancels the token that is shared.
  | cancelled (n : Nat)
deriving DecidableEq, Repr

namespace Signal

/-- Is it the signal of a call that stops? -/
def isOfStop : Signal → Bool
  | .raised _ | .cancelled _ => true
  | _ => false

/-- Is the token that is shared cancelled? -/
def isCancelling : Signal → Bool
  | .cancelled _ => true
  | _ => false

/-- Is a stop requested, after a signal? -/
def stopAfter (stop : Bool) : Option Signal → Bool
  | some (.cleared _) => false
  | some (.raised _) => true
  | _ => stop

/-- The token that is shared, after a signal. -/
def tokenAfter (token : Option Nat) : Option Signal → Option Nat
  | some (.shared _ run) => some run
  | _ => token

/-- The request to stop and the token that is shared, after a signal. -/
def after (e : Option Signal) (flags : Bool × Option Nat) : Bool × Option Nat :=
  (stopAfter flags.1 e, tokenAfter flags.2 e)

end Signal

namespace Relay

/-- What an access of a start shows. -/
def signalStart (r : Relay) (n : Nat) : Starting → Option Signal
  | .reserve => if r.running then none else some (.claimed n)
  | .clearStop => some (.cleared n)
  | .launching =>
    match r.task.position with
    | .spawn _ => some (.spawned n r.task.contexts.length)
    | _ => none
  | .shareToken => some (.shared n r.task.current)
  | _ => none

/-- What an access of a call shows. -/
def signalCall (r : Relay) (n : Nat) : CallStage → Option Signal
  | .start _ _ at_ => r.signalStart n at_
  | .stop .raiseStop | .drop (.stop .raiseStop) => some (.raised n)
  | .stop .cancel | .drop (.stop .cancel) => some (.cancelled n)
  | _ => none

/-- What a step shows of the calls that start and stop. -/
def signal (r : Relay) : Label → Option Signal
  | .call n => r.calls[n]?.bind (r.signalCall n)
  | _ => none

/-- What the signals of a start tell of the access that shows them. -/
inductive Shows (r : Relay) (n : Nat) : CallStage → Signal → Prop
  | claimed {source : Nat} {uri : String} (idle : r.running = false) :
      Shows r n (.start source uri .reserve) (.claimed n)
  | cleared {source : Nat} {uri : String} : Shows r n (.start source uri .clearStop) (.cleared n)
  | spawned {source : Nat} {uri : String} {target : Reader}
      (at_ : r.task.position = .spawn target) :
      Shows r n (.start source uri .launching) (.spawned n r.task.contexts.length)
  | shared {source : Nat} {uri : String} :
      Shows r n (.start source uri .shareToken) (.shared n r.task.current)
  -- It is the signal of a call that stops.
  | ofStop {stage : CallStage} {e : Signal} (stops : e.isOfStop) : Shows r n stage e

/-- The request to stop and the token that is shared. -/
def flags (r : Relay) : Bool × Option Nat := (r.stopRequested, r.token)

section Flags

variable {r r' : Relay} {n : Nat}

theorem signal_call {stage : CallStage} (here : r.calls[n]? = some stage) :
    r.signal (.call n) = r.signalCall n stage := by
  simp [signal, here]

theorem shows_of_signalCall {stage : CallStage} {e : Signal}
    (shown : r.signalCall n stage = some e) : r.Shows n stage e := by
  cases stage with
  | start source uri at_ =>
    cases at_ with
    | reserve =>
      simp only [signalCall, signalStart] at shown
      split at shown
      · simp at shown
      · next idle => exact Option.some.inj shown ▸ .claimed (by simpa using idle)
    | clearStop => exact Option.some.inj shown ▸ .cleared
    | launching =>
      simp only [signalCall, signalStart] at shown
      split at shown
      · next at_ => exact Option.some.inj shown ▸ .spawned at_
      · simp at shown
    | shareToken => exact Option.some.inj shown ▸ .shared
    | _ => simp [signalCall, signalStart] at shown
  | stop at_ => cases at_ <;> exact Option.some.inj shown ▸ .ofStop rfl
  | drop at_ =>
    rcases at_ with (_ | _) | _
    · exact Option.some.inj shown ▸ .ofStop rfl
    · exact Option.some.inj shown ▸ .ofStop rfl
    · simp [signalCall] at shown
  | _ => simp [signalCall] at shown

theorem exists_shows_of_signal {l : Label} {e : Signal} (shown : r.signal l = some e) :
    ∃ m stage, l = .call m ∧ r.calls[m]? = some stage ∧ r.Shows m stage e := by
  cases l with
  | call m =>
    obtain ⟨stage, here, shown⟩ := Option.bind_eq_some_iff.mp shown
    exact ⟨m, stage, rfl, here, shows_of_signalCall shown⟩
  | _ => simp [signal] at shown

theorem flags_taskStep {atEnd : Relay} (ended : atEnd.flags = r.flags)
    (last : r.taskStep atEnd = some r') : r'.flags = r.flags := by
  rcases taskStep_cases last with ⟨-, rfl⟩ | ⟨t, -, rfl⟩
  · exact ended
  · rfl

theorem flags_fanout {a : Actor} {f f' : Fanout} (last : f.step a r = some (r', f')) :
    r'.flags = r.flags := by
  rw [Fanout.step_frame last]
  rfl

theorem flags_sweep {entry next : Nat} (last : r.sweep entry = some (r', next)) :
    r'.flags = r.flags := by
  rw [sweep_frame last]
  rfl

theorem flags_subscribeStep {m : Nat} {at_ : Subscribing}
    (last : r.subscribeStep n m at_ = some r') : r'.flags = r.flags := by
  cases at_ with
  | checkStop =>
    obtain rfl := Option.some.inj last
    split <;> rfl
  | acquire =>
    obtain ⟨-, rfl⟩ := subscribeStep_acquire last
    rfl
  | sweep entry =>
    rcases subscribeStep_sweep last with ⟨t, next, swept, rfl⟩ | ⟨-, rfl⟩
    · show t.flags = r.flags
      exact flags_sweep swept
    · unfold register
      split <;> rfl

theorem flags_unsubscribeStep {m : Nat} {at_ : Unsubscribing}
    (last : r.unsubscribeStep n m at_ = some r') : r'.flags = r.flags := by
  cases at_ with
  | acquire =>
    obtain ⟨-, rfl⟩ := unsubscribeStep_acquire last
    rfl
  | sweep entry removed =>
    rcases unsubscribeStep_sweep last with ⟨t, next, swept, rfl⟩ | ⟨-, rfl⟩
    · show t.flags = r.flags
      exact flags_sweep swept
    · rfl

theorem flags_enqueueStep {m : Nat} {e : Enqueue} (last : r.enqueueStep n m e = some r') :
    r'.flags = r.flags := by
  rcases enqueueStep_cases last with ⟨rfl, rfl⟩ | ⟨x, x', e', -, -, rfl⟩
  · rfl
  · rfl

theorem flags_describeStep {at_ : Describing} (last : r.describeStep n at_ = some r') :
    r'.flags = r.flags := by
  cases at_ with
  | countEntries uri started stop =>
    obtain ⟨-, rfl⟩ := describeStep_countEntries last
    rfl
  | _ =>
    obtain rfl := Option.some.inj last
    rfl

theorem flags_joinStep {at_ : Joining} (last : r.joinStep n at_ = some r') :
    r'.flags = r.flags := by
  cases at_ with
  | lock =>
    obtain ⟨-, rfl⟩ := joinStep_lock last
    rfl
  | joining =>
    refine flags_taskStep ?_ last
    rfl

theorem flags_startStep {source : Nat} {uri : String} {at_ : Starting}
    (last : r.startStep n source uri at_ = some r') :
    r'.flags = Signal.after (r.signalStart n at_) r.flags := by
  cases at_ with
  | lock =>
    obtain ⟨-, rfl⟩ := startStep_lock last
    rfl
  | reserve =>
    obtain rfl := Option.some.inj last
    simp only [signalStart]
    split <;> rfl
  | joining =>
    refine flags_taskStep ?_ last
    rfl
  | launching =>
    have same : r'.flags = r.flags := by
      refine flags_taskStep ?_ last
      rfl
    rw [same, signalStart]
    split <;> rfl
  | openSource =>
    obtain ⟨s, -, -, ⟨s', -, rfl⟩ | ⟨e, -, rfl⟩⟩ := startStep_openSource last
    · rfl
    · rfl
  | _ =>
    obtain rfl := Option.some.inj last
    rfl

theorem flags_cancelShared : r.cancelShared.flags = r.flags := by
  unfold cancelShared
  split <;> rfl

theorem flags_dropStep {at_ : Dropping} (last : r.dropStep n at_ = some r') :
    r'.flags = Signal.after (r.signalCall n (.drop at_)) r.flags := by
  rcases at_ with (_ | _) | _
  · obtain rfl := Option.some.inj last
    rfl
  · obtain rfl := Option.some.inj last
    exact flags_cancelShared
  · refine flags_taskStep ?_ last
    rfl

theorem flags_callStep {stage : CallStage} (here : r.calls[n]? = some stage)
    (last : r.callStep n = some r') : r'.flags = Signal.after (r.signalCall n stage) r.flags := by
  have whole := last
  simp only [callStep, here, Option.bind_eq_bind, Option.bind_some] at last
  cases stage with
  | publish f =>
    rcases callStep_publish here whole with ⟨reached, rfl, rfl⟩ | ⟨s, f', step, rfl⟩
    · rfl
    · show s.flags = r.flags
      exact flags_fanout step
  | enqueue m e => exact flags_enqueueStep last
  | subscribe m at_ => exact flags_subscribeStep last
  | unsubscribe m at_ => exact flags_unsubscribeStep last
  | start source uri at_ => exact flags_startStep last
  | stop at_ =>
    cases at_ <;> obtain rfl := Option.some.inj last
    · rfl
    · exact flags_cancelShared
  | join at_ => exact flags_joinStep last
  | describe at_ => exact flags_describeStep last
  | drop at_ => exact flags_dropStep last
  | returned reply => simp at last

end Flags

section Readers

variable {r r' : Relay} {run : Nat}

/-- A read loop touches the task by the state of its own target only. -/
theorem steady_readerStep (last : r.readerStep run = some r') :
    r'.flags = r.flags ∧ r.task.Steady r'.task := by
  have goes : ∀ (t : Relay) (reader : Reader) (at_ : Reading), t.flags = r.flags → t.task = r.task →
      (t.goOn run reader at_).flags = r.flags ∧ r.task.Steady (t.goOn run reader at_).task :=
    fun t reader at_ flags task => ⟨flags, task ▸ Task.steady_setTarget⟩
  have leaves : ∀ t : Relay, t.flags = r.flags → t.task = r.task →
      (t.leave run).flags = r.flags ∧ r.task.Steady (t.leave run).task :=
    fun t flags task => ⟨flags, task ▸ Task.steady_leave⟩
  obtain ⟨⟨source, video, audio, at_⟩, executing⟩ := exists_target_of_readerStep last
  have whole := last
  simp only [readerStep, executing, Option.bind_eq_bind, Option.bind_some] at last
  cases at_ with
  | read =>
    obtain ⟨x, -, ⟨outcome, -, rfl⟩ | ⟨-, rfl⟩⟩ := readUnit_cases last
    · exact goes _ _ _ rfl rfl
    · exact leaves _ rfl rfl
  | publish f =>
    rcases readerStep_publish executing rfl whole with ⟨reached, rfl, rfl⟩ | ⟨t, f', step, rfl⟩
    · exact goes _ _ _ rfl rfl
    · exact goes _ _ _ (flags_fanout step) (by rw [Fanout.step_frame step])
  | pause =>
    rcases readerStep_pause executing rfl whole with ⟨delay, -, rfl⟩ | ⟨-, rfl⟩
    · exact goes _ _ _ rfl rfl
    · exact leaves _ rfl rfl
  | lowerRunning =>
    obtain rfl := Option.some.inj last
    exact leaves { r with running := false } rfl rfl
  | lowerStarted =>
    obtain rfl := Option.some.inj last
    exact goes { r with started := false } _ _ rfl rfl
  | raiseStarted =>
    obtain rfl := Option.some.inj last
    exact goes { r with started := true } _ _ rfl rfl
  | _ =>
    obtain rfl := Option.some.inj last
    exact goes _ _ _ rfl rfl

/-- **The signals tell the flags.** -/
theorem flags_step {l : Label} (last : r.step l = some r') :
    r'.flags = Signal.after (r.signal l) r.flags := by
  cases l with
  | begin call =>
    simp only [step] at last
    split at last
    · obtain rfl := Option.some.inj last
      cases call <;> rfl
    · simp at last
  | call n =>
    obtain ⟨stage, here⟩ := exists_stage_of_callStep last
    rw [signal_call here]
    exact flags_callStep here last
  | reader run => exact (steady_readerStep last).1
  | thread run =>
    obtain ⟨t, -, rfl⟩ := Option.map_eq_some_iff.mp last
    rfl
  | consumer n action | writer n action =>
    simp only [step, Option.bind_eq_bind, Option.bind_eq_some_iff, Option.some.injEq] at last
    obtain ⟨s, -, rfl⟩ := last
    rfl
  | addSubscriber s | addSource s =>
    obtain rfl := Option.some.inj last
    rfl

end Readers

end Relay

namespace Control

/-- No start but a given one has come past reserving its run. -/
def Solitary (n : Nat) (c : Control) : Prop :=
  ∀ m source at_, m ≠ n → c.role m = some (.start source at_) → at_ = .lock ∨ at_ = .reserve

variable {c d : Control} {n m : Nat}

theorem Solitary.setRole {role : Option Role} (solitary : c.Solitary n)
    (same : d.role = (c.setRole m role).role)
    (early : ∀ source at_, role = some (.start source at_) → at_ = .lock ∨ at_ = .reserve) :
    d.Solitary n := by
  intro j source at_ ne there
  rw [same, role_setRole] at there
  split at there
  · exact early source at_ there
  · exact solitary j source at_ ne there

/-- The current run of a task stays within its runs. -/
theorem Move.current_lt {fresh : Reader → Prop} {e : Option Nat} (move : Move e c d)
    (coherent : c.task.Coherent fresh) (inside : c.task.current < c.task.contexts.length) :
    d.task.current < d.task.contexts.length ∧
      c.task.contexts.length ≤ d.task.contexts.length := by
  have still : ∀ t : Task Reader, t.current = c.task.current →
      t.contexts.length = c.task.contexts.length →
      t.current < t.contexts.length ∧ c.task.contexts.length ≤ t.contexts.length := by
    intro t current length
    omega
  have steady : ∀ {t : Task Reader}, c.task.Steady t →
      t.current < t.contexts.length ∧ c.task.contexts.length ≤ t.contexts.length :=
    fun steady => still _ steady.current steady.length
  cases move with
  | advance at_ onTask last => exact Task.current_lt_advance coherent inside last
  | thread last => exact steady (Task.steady_advanceThread last)
  | enter | raise | loop | lower => exact steady Task.steady_setTarget
  | finish | panic => exact steady Task.steady_leave
  | cancel run => exact still (c.task.cancelRun run) rfl (List.length_modify ..)
  | dropTask token at_ =>
    cases token with
    | none => exact still c.task rfl rfl
    | some run => exact still (c.task.cancelRun run) rfl (List.length_modify ..)
  | _ => exact still c.task rfl rfl

end Control

namespace Relay

/-- The runs that a publisher speaks of are there. -/
structure Known (r : Relay) : Prop where
  current : r.task.current < r.task.contexts.length
  token : ∀ run, r.token = some run → run < r.task.contexts.length

/-- What a step does that is not taken by a given call, which starts a run. -/
structure Disturbs (n : Nat) (r r' : Relay) (e : Option Signal) : Prop where
  call : r'.calls[n]? = r.calls[n]?
  signal : ∀ x, e = some x → x.isOfStop
  solitary : r'.control.Solitary n
  -- A call that drops the task has cancelled the token that is shared.
  dropping : ∀ m, r'.control.role m = some (.drop .dropTask) →
    r.control.role m = some (.drop .dropTask) ∨ e = some (.cancelled m)
  tokens : ∀ run,
    r'.task.isCancelled run =
        (r.task.isCancelled run || e.any Signal.isCancelling && r.token == some run) ∨
      (∃ m, r.control.role m = some (.drop .dropTask)) ∧ r'.task.isCancelled run = true
  handle : r.taskHolder = some n →
    r'.task.position = r.task.position ∧ r'.task.current = r.task.current

section Known

variable {r r' : Relay} {n : Nat}

theorem known_ofSettings {settings : PublisherSettings} : (ofSettings settings).Known where
  current := Nat.zero_lt_one
  token run found := by simp [ofSettings] at found

/-- A start shares the token of the current run. -/
theorem eq_current_of_signal {l : Label} {run : Nat} (shown : r.signal l = some (.shared n run)) :
    run = r.task.current := by
  obtain ⟨m, stage, -, -, shows⟩ := exists_shows_of_signal shown
  cases shows with
  | shared => rfl
  | ofStop stops => simp [Signal.isOfStop] at stops

theorem Known.step {l : Label} (known : r.Known) (sound : r.control.Sound)
    (last : r.step l = some r') : r'.Known := by
  obtain ⟨current, more⟩ : r'.task.current < r'.task.contexts.length ∧
      r.task.contexts.length ≤ r'.task.contexts.length := by
    rcases control_step last with ⟨same, -⟩ | move
    · have task : r'.task = r.task := congrArg Control.task same
      rw [task]
      exact ⟨known.current, Nat.le_refl _⟩
    · exact move.current_lt sound.coherent known.current
  refine ⟨current, ?_⟩
  intro run found
  have token : r'.token = Signal.tokenAfter r.token (r.signal l) :=
    congrArg Prod.snd (flags_step last)
  rw [found] at token
  unfold Signal.tokenAfter at token
  split at token
  · next shown =>
    rw [Option.some.inj token, eq_current_of_signal shown]
    exact Nat.lt_of_lt_of_le known.current more
  · exact Nat.lt_of_lt_of_le (known.token run token.symm) more

end Known

section Calls

variable {r r' : Relay} {n m : Nat} {stage : CallStage}

/-- A call changes the place of no other one. -/
theorem exists_calls_eq_set (here : r.calls[m]? = some stage) (last : r.callStep m = some r') :
    ∃ stage', r'.calls = r.calls.set m stage' := by
  by_cases off : stage.fanout? = none
  · exact (spares_callStep here off last).stage.imp fun _ facts => facts.1
  cases stage with
  | publish f =>
    rcases callStep_publish here last with ⟨reached, rfl, rfl⟩ | ⟨s, f', step, rfl⟩
    · exact ⟨_, rfl⟩
    · rw [Fanout.step_frame step]
      exact ⟨_, rfl⟩
  | returned reply =>
    simp only [callStep, here, Option.bind_eq_bind, Option.bind_some] at last
    cases last
  | _ => exact absurd rfl off

theorem getElem?_of_callStep (ne : m ≠ n) (last : r.callStep m = some r') :
    r'.calls[n]? = r.calls[n]? := by
  obtain ⟨stage, here⟩ := exists_stage_of_callStep last
  obtain ⟨stage', calls⟩ := exists_calls_eq_set here last
  rw [calls, List.getElem?_set_ne ne]

/-- A call that acts neither on the run nor on the flags leaves the control alone. -/
theorem control_of_role_eq_none (here : r.calls[m]? = some stage) (off : stage.role = none)
    (silent : r.signalCall m stage = none) (last : r.callStep m = some r') :
    r'.control = r.control := by
  have whole := last
  simp only [callStep, here, Option.bind_eq_bind, Option.bind_some] at last
  cases stage with
  | publish f => exact control_publishStep here whole
  | enqueue k e => exact control_enqueueStep here last
  | subscribe k at_ => exact control_subscribeStep here last
  | unsubscribe k at_ => exact control_unsubscribeStep here last
  | describe at_ => exact control_describeStep here last
  | stop at_ => cases at_ <;> simp [signalCall] at silent
  | returned reply => simp at last
  | start | join | drop => simp [CallStage.role] at off

theorem role_setCall (there : m < r.calls.length) :
    (r.setCall m stage).control.role = (r.control.setRole m stage.role).role :=
  congrArg Control.role (control_setCall there)

theorem role_append : ({ r with calls := r.calls ++ [stage] } : Relay).control.role =
    (r.control.setRole r.calls.length stage.role).role :=
  congrArg Control.role control_append

/-- A step that leaves the calls, the handle and the tokens alone disturbs nobody. -/
theorem Disturbs.of_steady {e : Option Signal} (solitary : r.control.Solitary n)
    (call : r'.calls[n]? = r.calls[n]?) (role : r'.control.role = r.control.role)
    (steady : r.task.Steady r'.task) (raises : ∀ x, e = some x → ∃ j, x = .raised j) :
    Disturbs n r r' e where
  call := call
  signal x shown := by
    obtain ⟨j, rfl⟩ := raises x shown
    rfl
  solitary j source at_ ne there := solitary j source at_ ne (role ▸ there)
  dropping j there := .inl (role ▸ there)
  tokens run := by
    left
    rw [steady.tokens]
    cases e with
    | none => simp
    | some x =>
      obtain ⟨j, rfl⟩ := raises x rfl
      simp [Signal.isCancelling]
  handle _ := ⟨steady.position, steady.current⟩

/-- Another call goes on with the run, which is not yet in a task that is dropped. -/
theorem Disturbs.of_setRole {e : Option Signal} (m : Nat) (role : Option Role)
    (solitary : r.control.Solitary n) (call : r'.calls[n]? = r.calls[n]?)
    (next : r'.control.role = (r.control.setRole m role).role)
    (early : ∀ source at_, role = some (.start source at_) → at_ = .lock ∨ at_ = .reserve)
    (dropping : role = some (.drop .dropTask) → e = some (.cancelled m))
    (signal : ∀ x, e = some x → x.isOfStop)
    (tokens : ∀ run, r'.task.isCancelled run =
        (r.task.isCancelled run || e.any Signal.isCancelling && r.token == some run))
    (handle : r.taskHolder = some n →
      r'.task.position = r.task.position ∧ r'.task.current = r.task.current) :
    Disturbs n r r' e where
  call := call
  signal := signal
  solitary := solitary.setRole next early
  dropping j there := by
    rw [next, Control.role_setRole] at there
    split at there
    · next same =>
      subst same
      exact .inr (dropping there)
    · exact .inl there
  tokens run := .inl (tokens run)
  handle := handle

theorem isCancelled_cancelShared (known : r.Known) (run : Nat) :
    r.cancelShared.task.isCancelled run = (r.task.isCancelled run || r.token == some run) := by
  unfold cancelShared
  split
  · next k shared =>
    rw [shared, Task.isCancelled_cancelRun, Bool.or_comm]
    congr 1
    have there := known.token k shared
    by_cases same : k = run
    · subst same
      simp [there]
    · simp [same]
  · next nobody => simp [nobody]

theorem role_cancelShared : r.cancelShared.control.role = r.control.role := by
  unfold cancelShared
  split <;> rfl

theorem handle_cancelShared : r.cancelShared.task.position = r.task.position ∧
    r.cancelShared.task.current = r.task.current := by
  unfold cancelShared
  split <;> exact ⟨rfl, rfl⟩

/-- While a start holds the task no other call does. -/
theorem not_holds (sound : r.control.Sound) (ne : m ≠ n) (held : r.taskHolder = some n)
    {role : Role} (at_ : r.control.role m = some role)
    (holds : role.holds ∨ ∃ place, role = .drop place) : False := by
  rcases holds with holds | ⟨place, rfl⟩
  · have other := (sound.holder m).mpr (by simp [at_, holds])
    exact ne (Option.some.inj (other.symm.trans held))
  · have there := (sound.holder n).mp held
    obtain ⟨role, found, -⟩ := Option.any_eq_true _ _ |>.mp there
    exact ne (sound.drop_alone at_ (by simp [found])).symm

/-- What a start does to others that has not come to its run. -/
theorem disturbs_startStep {source : Nat} {uri : String} {at_ : Starting} (ne : m ≠ n)
    (solitary : r.control.Solitary n) (here : r.calls[m]? = some (.start source uri at_))
    (unclaimed : ∀ x, r.signalStart m at_ ≠ some (.claimed x)) (call : r'.calls[n]? = r.calls[n]?)
    (last : r.startStep m source uri at_ = some r') : Disturbs n r r' (r.signalStart m at_) := by
  have there := (List.getElem?_eq_some_iff.mp here).1
  have role : r.control.role m = some (.start source at_) := by simp [control, here, CallStage.role]
  rcases solitary m source at_ ne role with rfl | rfl
  · obtain ⟨-, rfl⟩ := startStep_lock last
    refine .of_setRole m (some (.start source .reserve)) solitary call ?_ ?_ (by simp)
      (by simp [signalStart]) (by simp [signalStart, setCall]) fun _ => ⟨rfl, rfl⟩
    · exact role_setCall (r := { r with taskHolder := some m }) there
    · rintro _ _ ⟨⟩
      exact .inr rfl
  · obtain rfl := Option.some.inj last
    by_cases running : r.running
    · rw [if_pos running] at call ⊢
      refine .of_setRole m none solitary call ?_ (by simp) (by simp)
        (by simp [signalStart, running])
        (by simp [signalStart, running, answerFreeing, answer, setCall]) fun _ => ⟨rfl, rfl⟩
      exact role_setCall (r := { r with taskHolder := none }) there
    · simp [signalStart, running] at unclaimed

/-- What a call does to others that waits for the run to end. -/
theorem disturbs_joinStep {at_ : Joining} (ne : m ≠ n) (sound : r.control.Sound)
    (solitary : r.control.Solitary n) (here : r.calls[m]? = some (.join at_))
    (call : r'.calls[n]? = r.calls[n]?) (last : r.joinStep m at_ = some r') :
    Disturbs n r r' none := by
  have there := (List.getElem?_eq_some_iff.mp here).1
  have role : r.control.role m = some (.join at_) := by simp [control, here, CallStage.role]
  cases at_ with
  | lock =>
    obtain ⟨free, rfl⟩ := joinStep_lock last
    refine .of_setRole m (some (.join .joining)) solitary call ?_ (by simp) (by simp) (by simp)
      ?_ fun held => by simp [held] at free
    · exact role_setCall (r := ({ r with taskHolder := some m } : Relay).beginTask .join) there
    · intro run
      simp [beginTask, setCall, Task.begin, Task.isCancelled]
  | joining =>
    have held (held : r.taskHolder = some n) : r'.task.position = r.task.position ∧
        r'.task.current = r.task.current := (not_holds sound ne held role (.inl rfl)).elim
    rcases taskStep_cases last with ⟨-, rfl⟩ | ⟨t, step, rfl⟩
    · refine .of_setRole m none solitary call ?_ (by simp) (by simp) (by simp)
        (by simp [answerFreeing, answer, setCall]) held
      exact role_setCall (r := { r with taskHolder := none }) there
    · have joining : r.task.position.isJoining := sound.fits m _ role
      refine .of_setRole m (r.control.role m) solitary call ?_ ?_ ?_ (by simp) ?_ held
      · exact (congrArg Control.role (Control.setRole_of_eq rfl)).symm
      · simp [role]
      · simp [role]
      · intro run
        rcases Task.isCancelled_advance step run with same | ⟨at_, -⟩
        · simp [same]
        · simp [at_, Task.Position.isJoining] at joining

/-- What a call does to others that gives up the publisher. -/
theorem disturbs_dropStep {at_ : Dropping} (ne : m ≠ n) (sound : r.control.Sound) (known : r.Known)
    (solitary : r.control.Solitary n) (here : r.calls[m]? = some (.drop at_))
    (call : r'.calls[n]? = r.calls[n]?) (last : r.dropStep m at_ = some r') :
    Disturbs n r r' (r.signalCall m (.drop at_)) := by
  have there := (List.getElem?_eq_some_iff.mp here).1
  have role : r.control.role m = some (.drop at_) := by simp [control, here, CallStage.role]
  have held (held : r.taskHolder = some n) : r'.task.position = r.task.position ∧
      r'.task.current = r.task.current := (not_holds sound ne held role (.inr ⟨_, rfl⟩)).elim
  rcases at_ with (_ | _) | _
  · obtain rfl := Option.some.inj last
    refine .of_setRole m (some (.drop (.stop .cancel))) solitary call ?_ (by simp) (by simp)
      (by simp [signalCall, Signal.isOfStop])
      (by simp [signalCall, Signal.isCancelling, setCall]) held
    exact role_setCall (r := { r with stopRequested := true }) there
  · obtain rfl := Option.some.inj last
    refine .of_setRole m (some (.drop .dropTask)) solitary call ?_ (by simp) (fun _ => rfl)
      (by simp [signalCall, Signal.isOfStop]) ?_ held
    · have inside : m < (r.cancelShared.beginTask .drop).calls.length := by
        show m < r.cancelShared.calls.length
        rw [calls_cancelShared]
        exact there
      rw [role_setCall inside]
      show Function.update r.cancelShared.control.role m _ = _
      rw [role_cancelShared]
      rfl
    · intro run
      exact (isCancelled_cancelShared known run).trans (by simp [signalCall, Signal.isCancelling])
  · rcases taskStep_cases last with ⟨-, rfl⟩ | ⟨t, step, rfl⟩
    · refine .of_setRole m none solitary call ?_ (by simp) (by simp) (by simp [signalCall])
        (by simp [signalCall, answer, setCall]) held
      exact role_setCall there
    · refine ⟨call, by simp [signalCall], solitary, fun _ => .inl, ?_, held⟩
      intro run
      rcases Task.isCancelled_advance step run with same | ⟨-, set⟩
      · exact .inl (by simp [same, signalCall])
      · exact .inr ⟨⟨m, role⟩, set⟩

/-- What a call does to others that stops the run. -/
theorem disturbs_stopStep {at_ : Stopping} (known : r.Known) (solitary : r.control.Solitary n)
    (here : r.calls[m]? = some (.stop at_)) (call : r'.calls[n]? = r.calls[n]?)
    (last : r.callStep m = some r') : Disturbs n r r' (r.signalCall m (.stop at_)) := by
  have there := (List.getElem?_eq_some_iff.mp here).1
  simp only [callStep, here, Option.bind_eq_bind, Option.bind_some] at last
  cases at_ with
  | raiseStop =>
    obtain rfl := Option.some.inj last
    have same : (({ r with stopRequested := true } : Relay).setCall m (.stop .cancel)).control =
        r.control := control_setCall_of_role_eq here rfl rfl
    exact .of_steady solitary call (congrArg Control.role same) (.refl _)
      fun x shown => ⟨m, (Option.some.inj shown).symm⟩
  | cancel =>
    obtain rfl := Option.some.inj last
    refine .of_setRole m none solitary call ?_ (by simp) (by simp)
      (fun x shown => Option.some.inj shown ▸ rfl) ?_ fun _ => handle_cancelShared
    · rw [answer, role_setCall (by rw [calls_cancelShared]; exact there), Control.setRole,
        role_cancelShared]
      rfl
    · intro run
      exact (isCancelled_cancelShared known run).trans (by simp [signalCall, Signal.isCancelling])

/-- What a call does to others. -/
theorem disturbs_callStep (ne : m ≠ n) (sound : r.control.Sound) (known : r.Known)
    (solitary : r.control.Solitary n) (unclaimed : ∀ x, r.signal (.call m) ≠ some (.claimed x))
    (last : r.callStep m = some r') : Disturbs n r r' (r.signal (.call m)) := by
  obtain ⟨stage, here⟩ := exists_stage_of_callStep last
  have call := getElem?_of_callStep ne last
  rw [signal_call here] at unclaimed ⊢
  have whole := last
  simp only [callStep, here, Option.bind_eq_bind, Option.bind_some] at whole
  cases stage with
  | stop at_ => exact disturbs_stopStep known solitary here call last
  | start source uri at_ => exact disturbs_startStep ne solitary here unclaimed call whole
  | join at_ => exact disturbs_joinStep ne sound solitary here call whole
  | drop at_ => exact disturbs_dropStep ne sound known solitary here call whole
  | publish | enqueue | subscribe | unsubscribe | describe | returned =>
    have same := control_of_role_eq_none here rfl rfl last
    have task : r'.task = r.task := congrArg Control.task same
    exact .of_steady solitary call (congrArg Control.role same) (task ▸ .refl _)
      (by simp [signalCall])

/-- **What a step does that is not taken by a given start.** -/
theorem disturbs_step {l : Label} (other : l ≠ .call n) (there : n < r.calls.length)
    (sound : r.control.Sound) (known : r.Known) (solitary : r.control.Solitary n)
    (unclaimed : ∀ m, r.signal l ≠ some (.claimed m)) (last : r.step l = some r') :
    Disturbs n r r' (r.signal l) := by
  cases l with
  | begin call =>
    simp only [step] at last
    split at last
    · next accepted =>
      obtain rfl := Option.some.inj last
      have roles : (r.begin call).control.role =
          (r.control.setRole r.calls.length (entry call).role).role := by
        cases call <;> exact role_append
      have task : (r.begin call).task = r.task := by cases call <;> rfl
      refine .of_setRole _ _ solitary ?_ roles ?_ ?_ (by simp [signal]) ?_ ?_
      · have calls : (r.begin call).calls = r.calls ++ [entry call] := by cases call <;> rfl
        rw [calls, List.getElem?_append_left there]
      · cases call <;> rintro source at_ ⟨⟩
        exact .inl rfl
      · cases call <;> simp [entry, CallStage.role]
      · simp [task, signal]
      · simp [task]
    · simp at last
  | call m =>
    have ne : m ≠ n := fun same => other (same ▸ rfl)
    exact disturbs_callStep ne sound known solitary unclaimed last
  | reader run =>
    refine .of_steady solitary ?_ ?_ (steady_readerStep last).2 (by simp [signal])
    · rw [calls_readerStep last]
    · rw [control, control]
      simp [calls_readerStep last]
  | thread run =>
    obtain ⟨t, step, rfl⟩ := Option.map_eq_some_iff.mp last
    exact .of_steady solitary rfl rfl (Task.steady_advanceThread step) (by simp [signal])
  | consumer k action | writer k action =>
    simp only [step, Option.bind_eq_bind, Option.bind_eq_some_iff, Option.some.injEq] at last
    obtain ⟨s, -, rfl⟩ := last
    exact .of_steady solitary rfl rfl (.refl _) (by simp [signal])
  | addSubscriber s | addSource s =>
    obtain rfl := Option.some.inj last
    exact .of_steady solitary rfl rfl (.refl _) (by simp [signal])

end Calls

end Relay

end PacketRelay
