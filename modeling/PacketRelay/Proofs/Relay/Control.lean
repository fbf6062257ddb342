import PacketRelay.Proofs.Relay.Frame
import Mathlib.Logic.Function.Basic
import Mathlib.Tactic.Common

/-!
# What a step does to the run of a publisher

Whether a publisher can be started is decided by two marks, the task, and the calls that act on them:
starting, joining and giving up. This is a small part of the publisher, and most steps leave it
alone. It is taken out here as a state of its own, and all that a step of the publisher can do to it
is listed once.

## Main definitions

* `Role`: the calls that act on the run, and where they are
* `Control`: the part of a publisher that they act on
* `Control.Move`: what a step can do to it
* `Relay.panic?`: the steps by which a read loop panics

## Main results

* `Relay.control_step`: a step leaves the control alone or makes a move
-/

namespace PacketRelay

/-- A call that acts on the run, and where it is. -/
inductive Role
  | start (source : Nat) (at_ : Starting)
  | join (at_ : Joining)
  | drop (at_ : Dropping)
deriving DecidableEq

/-- What a call does to the run; nothing, if it only looks or has returned. -/
def CallStage.role : CallStage → Option Role
  | .start source _ at_ => some (.start source at_)
  | .join at_ => some (.join at_)
  | .drop at_ => some (.drop at_)
  | _ => none

/-- The part of a publisher that decides whether it can be started. -/
structure Control where
  /-- A run is reserved and not over. -/
  running : Bool
  /-- The read loop is on. -/
  started : Bool
  /-- The publisher has been given up. -/
  dropped : Bool
  /-- The task of the read loop -/
  task : Task Reader
  /-- The call that holds the task -/
  holder : Option Nat
  /-- The calls -/
  role : Nat → Option Role

/-- Is the loop between saying that it is on and saying that it is off? -/
def Reading.isLooping : Reading → Bool
  | .readVideo | .readAudio | .raiseStarted | .lowerRunning => false
  | _ => true

/-- Is the loop about to begin? -/
def Reading.isEntering : Reading → Bool
  | .readVideo | .readAudio | .raiseStarted => true
  | _ => false

/-- Is a start between waiting for the thread before and starting the task? -/
def Starting.isPreparing : Starting → Bool
  | .openSource | .setVideo | .setAudio | .setUri | .clearStop | .refuse _ => true
  | _ => false

/-- Does a call act on the task? -/
def Role.isOnTask : Role → Bool
  | .start _ .joining | .start _ .launching | .join .joining | .drop .dropTask => true
  | _ => false

namespace Control

/-- One call at another place. -/
def setRole (c : Control) (n : Nat) (role : Option Role) : Control :=
  { c with role := Function.update c.role n role }

@[simp] theorem setRole_task {c : Control} {n : Nat} {role : Option Role} :
    (c.setRole n role).task = c.task := rfl

theorem setRole_of_eq {c : Control} {n : Nat} {role : Option Role} (same : c.role n = role) :
    c.setRole n role = c := by
  subst same
  simp [setRole]

/-- What a step of a publisher can do to its control. A panic goes along with its run. -/
inductive Move : Option Nat → Control → Control → Prop
  -- A call that starts or joins begins.
  | begin {c : Control} {n : Nat} (role : Role) (fresh : c.role n = none) (there : c.dropped = false)
      (entry : role = .join .lock ∨ ∃ source, role = .start source .lock) :
      Move none c (c.setRole n (some role))
  -- A call that gives up the publisher begins; no other one is in progress.
  | beginDrop {c : Control} {n : Nat} (alone : ∀ m, c.role m = none) :
      Move none c { c.setRole n (some (.drop (.stop .raiseStop))) with dropped := true }
  -- A start takes the task.
  | lock {c : Control} {n source : Nat} (at_ : c.role n = some (.start source .lock))
      (free : c.holder = none) :
      Move none c { c.setRole n (some (.start source .reserve)) with holder := some n }
  -- A run is reserved already.
  | pass {c : Control} {n source : Nat} (at_ : c.role n = some (.start source .reserve))
      (running : c.running = true) : Move none c { c.setRole n none with holder := none }
  -- A start reserves the run.
  | reserve {c : Control} {n source : Nat} (at_ : c.role n = some (.start source .reserve))
      (idle : c.running = false) :
      Move none c { c.setRole n (some (.start source .joining)) with
        running := true
        task := c.task.begin .outside .join }
  -- The thread of the run before is gone.
  | joined {c : Control} {n source : Nat} (at_ : c.role n = some (.start source .joining))
      (free : c.task.isFree) : Move none c (c.setRole n (some (.start source .openSource)))
  -- A start opens its source and notes what it has to note.
  | prepare {c : Control} {n source : Nat} {a b : Starting} (at_ : c.role n = some (.start source a))
      (before : a.isPreparing) (after : b.isPreparing) :
      Move none c (c.setRole n (some (.start source b)))
  -- A start gives the run back.
  | refuse {c : Control} {n source : Nat} {a : Starting} (at_ : c.role n = some (.start source a))
      (refuses : a = .refuseThread ∨ ∃ e, a = .refuse e) :
      Move none c { c.setRole n none with running := false, holder := none }
  -- A start starts the task.
  | launch {c : Control} {n source : Nat} (at_ : c.role n = some (.start source .clearStop)) :
      Move none c { c.setRole n (some (.start source .launching)) with
        task := c.task.begin .outside (.start { source := source }) }
  -- The task has answered a start.
  | launched {c : Control} {n source : Nat} (begun : Bool)
      (at_ : c.role n = some (.start source .launching)) (reply : c.task.position = .returned begun) :
      Move none c
        (c.setRole n (some (.start source (if begun then .shareToken else .refuseThread))))
  -- A start shares the token of the new run.
  | share {c : Control} {n source : Nat} (at_ : c.role n = some (.start source .shareToken)) :
      Move none c { c.setRole n none with holder := none }
  -- A call that joins takes the task.
  | lockJoin {c : Control} {n : Nat} (at_ : c.role n = some (.join .lock)) (free : c.holder = none) :
      Move none c { c.setRole n (some (.join .joining)) with
        holder := some n
        task := c.task.begin .outside .join }
  -- A call that joins returns.
  | endJoin {c : Control} {n : Nat} (at_ : c.role n = some (.join .joining))
      (free : c.task.isFree) : Move none c { c.setRole n none with holder := none }
  -- A call that gives up the publisher has requested the stop.
  | dropStop {c : Control} {n : Nat} (at_ : c.role n = some (.drop (.stop .raiseStop))) :
      Move none c (c.setRole n (some (.drop (.stop .cancel))))
  -- A call that gives up the publisher cancels the token that is shared and goes on to the task.
  | dropTask {c : Control} {n : Nat} (token : Option Nat)
      (at_ : c.role n = some (.drop (.stop .cancel))) :
      Move none c { c.setRole n (some (.drop .dropTask)) with
        task := (token.elim c.task c.task.cancelRun).begin .outside .drop }
  -- A call that gives up the publisher returns.
  | endDrop {c : Control} {n : Nat} (at_ : c.role n = some (.drop .dropTask))
      (free : c.task.isFree) : Move none c (c.setRole n none)
  -- A call makes an access on the task.
  | advance {c : Control} {n : Nat} {role : Role} {t : Task Reader} (at_ : c.role n = some role)
      (onTask : role.isOnTask) (last : c.task.advance = some t) : Move none c { c with task := t }
  -- The token of a run is cancelled.
  | cancel {c : Control} (run : Nat) : Move none c { c with task := c.task.cancelRun run }
  -- A read thread makes an access outside the loop.
  | thread {c : Control} {run : Nat} {t : Task Reader} (last : c.task.advanceThread run = some t) :
      Move none c { c with task := t }
  -- A read loop goes on towards its beginning.
  | enter {c : Control} {run : Nat} {a b : Reader} (executing : c.task.target? run = some a)
      (before : a.at_.isEntering) (after : b.at_.isEntering) :
      Move none c { c with task := c.task.setTarget run b }
  -- A read loop says that it is on.
  | raise {c : Control} {run : Nat} {a b : Reader} (executing : c.task.target? run = some a)
      (before : a.at_.isEntering) (after : b.at_.isLooping) :
      Move none c { c with task := c.task.setTarget run b, started := true }
  -- A read loop goes around.
  | loop {c : Control} {run : Nat} {a b : Reader} (executing : c.task.target? run = some a)
      (before : a.at_.isLooping) (after : b.at_.isLooping) :
      Move none c { c with task := c.task.setTarget run b }
  -- A read loop says that it is off.
  | lower {c : Control} {run : Nat} {a b : Reader} (executing : c.task.target? run = some a)
      (before : a.at_.isLooping) (after : b.at_ = .lowerRunning) :
      Move none c { c with task := c.task.setTarget run b, started := false }
  -- A read loop ends and says that the run is over.
  | finish {c : Control} {run : Nat} {a : Reader} (executing : c.task.target? run = some a)
      (at_ : a.at_ = .lowerRunning) :
      Move none c { c with task := c.task.leave run, running := false }
  -- A read loop panics.
  | panic {c : Control} {run : Nat} {a : Reader} (executing : c.task.target? run = some a)
      (before : a.at_.isLooping) : Move (some run) c { c with task := c.task.leave run }

end Control

namespace Relay

/-- The part of a publisher that decides whether it can be started. -/
def control (r : Relay) : Control where
  running := r.running
  started := r.started
  dropped := r.dropped
  task := r.task
  holder := r.taskHolder
  role n := r.calls[n]?.bind CallStage.role

/-- The run whose read loop panics in a step: when its source panics, or when it begins a pause
without end. -/
def panic? (r : Relay) : Label → Option Nat
  | .reader run =>
    match r.task.target? run with
    | some { at_ := .read, source := source, .. } =>
      if r.sources[source]?.any fun s => s.read.2.isNone then some run else none
    | some { at_ := .pause, .. } => if r.settings.retryDelay.isNone then some run else none
    | _ => none
  | _ => none

section Steps

variable {r r' : Relay} {n : Nat}

theorem control_setCall {stage : CallStage} (there : n < r.calls.length) :
    (r.setCall n stage).control = r.control.setRole n stage.role := by
  unfold control setCall Control.setRole
  congr 1
  funext m
  by_cases same : m = n
  · subst same
    simp [there]
  · simp [List.getElem?_set_ne (Ne.symm same), Function.update_of_ne same]

/-- A call that does to the run what it did before may go anywhere. -/
theorem control_setCall_of_role_eq {stage stage' : CallStage} (at_ : r.calls[n]? = some stage)
    (same : stage.role = stage'.role) (frame : r.control = r'.control) :
    (r.setCall n stage').control = r'.control := by
  rw [control_setCall (List.getElem?_eq_some_iff.mp at_).1, ← same, ← frame]
  exact Control.setRole_of_eq (by simp [control, at_])

theorem control_setCall_fanout {a : Actor} {f f' : Fanout} {stage stage' : CallStage}
    (at_ : r.calls[n]? = some stage) (same : stage.role = stage'.role)
    (last : f.step a r = some (r', f')) : (r'.setCall n stage').control = r.control := by
  rw [Fanout.step_frame last]
  exact control_setCall_of_role_eq at_ same rfl

variable {c : Control} {stage : CallStage}

theorem move_setCall (there : n < r.calls.length)
    (move : Control.Move none c (r.control.setRole n stage.role)) :
    Control.Move none c (r.setCall n stage).control :=
  control_setCall there ▸ move

/-- A step on the task, at whose end the call goes on. -/
theorem move_taskStep {role : Role} {atEnd : Relay} (at_ : r.control.role n = some role)
    (onTask : role.isOnTask) (last : r.taskStep atEnd = some r')
    (move : r.task.isFree → Control.Move none r.control atEnd.control) :
    Control.Move none r.control r'.control := by
  rcases taskStep_cases last with ⟨free, rfl⟩ | ⟨t, step, rfl⟩
  · exact move free
  · exact .advance at_ onTask step

/-- What a start does. -/
theorem move_startStep {source : Nat} {uri : String} {at_ : Starting}
    (here : r.calls[n]? = some (.start source uri at_))
    (last : r.startStep n source uri at_ = some r') : Control.Move none r.control r'.control := by
  have there := (List.getElem?_eq_some_iff.mp here).1
  have role : r.control.role n = some (.start source at_) := by simp [control, here, CallStage.role]
  cases at_ with
  | lock =>
    obtain ⟨free, rfl⟩ := startStep_lock last
    exact move_setCall there (.lock role free)
  | reserve =>
    obtain rfl := Option.some.inj last
    split
    · next running => exact move_setCall there (.pass role running)
    · next idle => exact move_setCall there (.reserve role (Bool.eq_false_iff.mpr idle))
  | joining =>
    exact move_taskStep role rfl last fun free => move_setCall there (.joined role free)
  | openSource =>
    obtain ⟨s, -, -, ⟨s', -, rfl⟩ | ⟨e, -, rfl⟩⟩ := startStep_openSource last
    · exact move_setCall there (.prepare role rfl rfl)
    · exact move_setCall there (.prepare role rfl rfl)
  | refuse e =>
    obtain rfl := Option.some.inj last
    exact move_setCall there (.refuse role (.inr ⟨e, rfl⟩))
  | clearStop =>
    obtain rfl := Option.some.inj last
    exact move_setCall there (.launch role)
  | launching =>
    apply move_taskStep role rfl last
    intro free
    obtain ⟨begun, reply⟩ : ∃ begun, r.task.position = .returned begun := by
      unfold Task.isFree at free
      split at free
      · exact ⟨_, ‹_›⟩
      · simp at free
    have next : r.afterLaunch = if begun then .shareToken else .refuseThread := by
      cases begun <;> simp [afterLaunch, reply]
    rw [next]
    exact move_setCall there (.launched begun role reply)
  | refuseThread =>
    obtain rfl := Option.some.inj last
    exact move_setCall there (.refuse role (.inl rfl))
  | shareToken =>
    obtain rfl := Option.some.inj last
    exact move_setCall there (.share role)
  | setVideo | setAudio | setUri =>
    obtain rfl := Option.some.inj last
    exact move_setCall there (.prepare role rfl rfl)

/-- What a call does that joins. -/
theorem move_joinStep {at_ : Joining} (here : r.calls[n]? = some (.join at_))
    (last : r.joinStep n at_ = some r') : Control.Move none r.control r'.control := by
  have there := (List.getElem?_eq_some_iff.mp here).1
  have role : r.control.role n = some (.join at_) := by simp [control, here, CallStage.role]
  cases at_ with
  | lock =>
    obtain ⟨free, rfl⟩ := joinStep_lock last
    exact move_setCall there (.lockJoin role free)
  | joining => exact move_taskStep role rfl last fun free => move_setCall there (.endJoin role free)

/-- What a call does that gives up the publisher. -/
theorem move_dropStep {at_ : Dropping} (here : r.calls[n]? = some (.drop at_))
    (last : r.dropStep n at_ = some r') : Control.Move none r.control r'.control := by
  have there := (List.getElem?_eq_some_iff.mp here).1
  have role : r.control.role n = some (.drop at_) := by simp [control, here, CallStage.role]
  rcases at_ with (_ | _) | _
  · obtain rfl := Option.some.inj last
    exact move_setCall there (.dropStop role)
  · obtain rfl := Option.some.inj last
    unfold cancelShared
    split
    · next run _ => exact move_setCall there (.dropTask (some run) role)
    · exact move_setCall there (.dropTask none role)
  · exact move_taskStep role rfl last fun free => move_setCall there (.endDrop role free)

/-- Adding a subscriber does not act on the run. -/
theorem control_subscribeStep {subscriber : Nat} {at_ : Subscribing}
    (here : r.calls[n]? = some (.subscribe subscriber at_))
    (last : r.subscribeStep n subscriber at_ = some r') : r'.control = r.control := by
  cases at_ with
  | checkStop =>
    obtain rfl := Option.some.inj last
    split <;> exact control_setCall_of_role_eq here rfl rfl
  | acquire =>
    obtain ⟨-, rfl⟩ := subscribeStep_acquire last
    exact control_setCall_of_role_eq here rfl rfl
  | sweep entry =>
    rcases subscribeStep_sweep last with ⟨s, _, swept, rfl⟩ | ⟨-, rfl⟩
    · rw [sweep_frame swept]
      exact control_setCall_of_role_eq here rfl rfl
    · unfold register
      split <;> exact control_setCall_of_role_eq here rfl rfl

/-- Removing a subscriber does not act on the run. -/
theorem control_unsubscribeStep {subscriber : Nat} {at_ : Unsubscribing}
    (here : r.calls[n]? = some (.unsubscribe subscriber at_))
    (last : r.unsubscribeStep n subscriber at_ = some r') : r'.control = r.control := by
  cases at_ with
  | acquire =>
    obtain ⟨-, rfl⟩ := unsubscribeStep_acquire last
    exact control_setCall_of_role_eq here rfl rfl
  | sweep entry removed =>
    rcases unsubscribeStep_sweep last with ⟨s, _, swept, rfl⟩ | ⟨-, rfl⟩
    · rw [sweep_frame swept]
      exact control_setCall_of_role_eq here rfl rfl
    · exact control_setCall_of_role_eq here rfl rfl

/-- Describing the publisher does not act on the run. -/
theorem control_describeStep {at_ : Describing} (here : r.calls[n]? = some (.describe at_))
    (last : r.describeStep n at_ = some r') : r'.control = r.control := by
  cases at_ with
  | countEntries uri started stop =>
    obtain ⟨-, rfl⟩ := describeStep_countEntries last
    exact control_setCall_of_role_eq here rfl rfl
  | _ =>
    obtain rfl := Option.some.inj last
    exact control_setCall_of_role_eq here rfl rfl

/-- Nor does putting a packet into a queue. -/
theorem control_enqueueStep {subscriber : Nat} {e : Enqueue}
    (here : r.calls[n]? = some (.enqueue subscriber e))
    (last : r.enqueueStep n subscriber e = some r') : r'.control = r.control := by
  rcases enqueueStep_cases last with ⟨rfl, rfl⟩ | ⟨s, s', e', -, -, rfl⟩ <;>
    exact control_setCall_of_role_eq here rfl rfl

/-- Nor does publishing. -/
theorem control_publishStep {f : Fanout} (here : r.calls[n]? = some (.publish f))
    (last : r.callStep n = some r') : r'.control = r.control := by
  rcases callStep_publish here last with ⟨reached, rfl, rfl⟩ | ⟨s, f', step, rfl⟩
  · exact control_setCall_of_role_eq here rfl rfl
  · exact control_setCall_fanout here rfl step

/-- What a call does. -/
theorem control_callStep (last : r.callStep n = some r') :
    r'.control = r.control ∨ Control.Move none r.control r'.control := by
  obtain ⟨stage, here⟩ := exists_stage_of_callStep last
  have whole := last
  simp only [callStep, here, Option.bind_eq_bind, Option.bind_some] at last
  cases stage with
  | publish f => exact .inl (control_publishStep here whole)
  | enqueue subscriber e => exact .inl (control_enqueueStep here last)
  | subscribe subscriber at_ => exact .inl (control_subscribeStep here last)
  | unsubscribe subscriber at_ => exact .inl (control_unsubscribeStep here last)
  | start source uri at_ => exact .inr (move_startStep here last)
  | stop at_ =>
    cases at_ with
    | raiseStop =>
      obtain rfl := Option.some.inj last
      exact .inl (control_setCall_of_role_eq here rfl rfl)
    | cancel =>
      obtain rfl := Option.some.inj last
      unfold cancelShared
      split
      · next run _ =>
        right
        have same : ({ r with task := r.task.cancelRun run }.answer n .stopped).control =
            ({ r with task := r.task.cancelRun run } : Relay).control :=
          control_setCall_of_role_eq here rfl rfl
        rw [same]
        exact .cancel run
      · exact .inl (control_setCall_of_role_eq here rfl rfl)
  | join at_ => exact .inr (move_joinStep here last)
  | describe at_ => exact .inl (control_describeStep here last)
  | drop at_ => exact .inr (move_dropStep here last)
  | returned reply => simp at last

/-- What the read loop of a run does. -/
theorem move_readerStep {run : Nat} (last : r.readerStep run = some r') :
    Control.Move (r.panic? (.reader run)) r.control r'.control := by
  obtain ⟨reader, found⟩ := exists_target_of_readerStep last
  have executing : r.control.task.target? run = some reader := found
  have whole := last
  simp only [readerStep, found, Option.bind_eq_bind, Option.bind_some] at last
  simp only [panic?, found]
  obtain ⟨source, videoIndex, audioIndex, at_⟩ := reader
  cases at_ with
  | readVideo | readAudio =>
    obtain rfl := Option.some.inj last
    exact .enter executing rfl rfl
  | raiseStarted =>
    obtain rfl := Option.some.inj last
    exact .raise executing rfl rfl
  | checkToken | checkStop | paused =>
    obtain rfl := Option.some.inj last
    refine .loop executing rfl ?_
    dsimp only
    split <;> rfl
  | read =>
    obtain ⟨s, there, ⟨outcome, given, rfl⟩ | ⟨panics, rfl⟩⟩ := readUnit_cases last
    · simp only [there, given, Option.any_some, Option.isNone_some, Bool.false_eq_true, if_false]
      refine .loop executing rfl ?_
      cases outcome <;> rfl
    · simp only [there, panics, Option.any_some, Option.isNone_none, if_true]
      exact .panic executing rfl
  | countRead u =>
    obtain rfl := Option.some.inj last
    refine .loop executing rfl ?_
    simp only [afterCount]
    split <;> rfl
  | number u kind =>
    obtain rfl := Option.some.inj last
    refine .loop executing rfl ?_
    simp only [afterNumber]
    split <;> rfl
  | publish f =>
    rcases readerStep_publish found rfl whole with ⟨reached, rfl, rfl⟩ | ⟨s, f', step, rfl⟩
    · exact .loop executing rfl rfl
    · rw [Fanout.step_frame step]
      exact .loop executing rfl rfl
  | pause =>
    rcases readerStep_pause found rfl whole with ⟨delay, given, rfl⟩ | ⟨missing, rfl⟩
    · rw [given]
      exact .loop executing rfl rfl
    · rw [missing]
      exact .panic executing rfl
  | lowerStarted =>
    obtain rfl := Option.some.inj last
    exact .lower executing rfl rfl
  | lowerRunning =>
    obtain rfl := Option.some.inj last
    exact .finish executing rfl

theorem role_eq_none_of_isOnPublisher_eq_false {stage : CallStage}
    (off : stage.isOnPublisher = false) : stage.role = none := by
  cases stage <;> simp_all [CallStage.isOnPublisher, CallStage.role]

theorem control_append {stage : CallStage} :
    ({ r with calls := r.calls ++ [stage] } : Relay).control =
      r.control.setRole r.calls.length stage.role := by
  unfold control Control.setRole
  congr 1
  funext m
  by_cases same : m = r.calls.length
  · subst same
    simp
  · rw [Function.update_of_ne same]
    show (r.calls ++ [stage])[m]?.bind _ = r.calls[m]?.bind _
    rw [getElem?_snoc, if_neg same]

/-- A call begins. -/
theorem control_begin {call : RelayCall} (accepted : r.accepts call) :
    (r.begin call).control = r.control ∨ Control.Move none r.control (r.begin call).control := by
  have fresh : r.control.role r.calls.length = none := by simp [control]
  unfold begin
  cases call with
  | start source uri =>
    right
    have there : r.dropped = false := by
      simp only [accepts, Bool.and_eq_true, Bool.not_eq_true'] at accepted
      exact accepted.1
    rw [control_append]
    exact .begin (.start source .lock) fresh there (.inr ⟨source, rfl⟩)
  | join =>
    right
    have there : r.dropped = false := by simpa [accepts] using accepted
    rw [control_append]
    exact .begin (.join .lock) fresh there (.inl rfl)
  | drop =>
    right
    rw [control_append]
    refine .beginDrop ?_
    intro m
    simp only [accepts, isInUse, Bool.and_eq_true, Bool.not_eq_true', List.any_eq_false] at accepted
    cases found : r.calls[m]? with
    | none => simp [control, found]
    | some stage =>
      have off := accepted.2 stage (List.mem_of_getElem? found)
      simp [control, found, role_eq_none_of_isOnPublisher_eq_false (by simpa using off)]
  | _ =>
    left
    rw [control_append]
    exact Control.setRole_of_eq fresh

/-- **A step of a publisher leaves the control alone or makes a move.** It panics only in a move. -/
theorem control_step {l : Label} (last : r.step l = some r') :
    (r'.control = r.control ∧ r.panic? l = none) ∨
      Control.Move (r.panic? l) r.control r'.control := by
  cases l with
  | begin call =>
    simp only [step] at last
    split at last
    · next accepted =>
      obtain rfl := Option.some.inj last
      exact (control_begin accepted).imp_left fun same => ⟨same, rfl⟩
    · simp at last
  | call n => exact (control_callStep last).imp_left fun same => ⟨same, rfl⟩
  | reader run => exact .inr (move_readerStep last)
  | thread run =>
    obtain ⟨t, step, rfl⟩ := Option.map_eq_some_iff.mp last
    exact .inr (.thread step)
  | consumer subscriber action =>
    simp only [step, Option.bind_eq_bind, Option.bind_eq_some_iff, Option.some.injEq] at last
    obtain ⟨s, -, rfl⟩ := last
    exact .inl ⟨rfl, rfl⟩
  | writer source action =>
    simp only [step, Option.bind_eq_bind, Option.bind_eq_some_iff, Option.some.injEq] at last
    obtain ⟨s, -, rfl⟩ := last
    exact .inl ⟨rfl, rfl⟩
  | addSubscriber s | addSource s =>
    obtain rfl := Option.some.inj last
    exact .inl ⟨rfl, rfl⟩

end Steps

end Relay

end PacketRelay
