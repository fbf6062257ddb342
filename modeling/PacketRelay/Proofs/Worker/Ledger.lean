import PacketRelay.Proofs.Task.Tokens
import PacketRelay.Proofs.Worker.Retire

/-!
# The ledger of a worker

A worker is followed here among others who may do what they like with its subscriber: they put
packets into the queue, clear it, or stop the subscriber accepting any, and they change the world
that its handlers act on. A record shows every access to the queue, every start that has begun a
run, and whatever a drain loop has to do with its handler.

Of an access of a drain loop only a few things matter: where the loop is and where it goes, what it
shows, whether it counts a packet as handled, and what it does with the handler and its world. What a
record tells of one run follows from where the thread of the run is.

## Main definitions

* `Site.Turn`, `Site.turn`: a worker and its subscriber among others
* `Site.Event`, `Site.observe`: what a step shows
* `Site.Stride`: what an access of a drain loop can do
* `Site.Serves`: what it does with the handler and the world, by what it shows
* `Site.Aside`: what a step outside the drain loops does to the task of a worker
* `Site.queueLog`, `Site.runLog`: what a record tells of the queue, and of a run
* `Site.Ran`: what it tells of a run is what the place of its thread says
* `Site.Kept`: the record and the site agree

## Main results

* `exists_stride_of_drain`: an access of a drain loop does nothing else
* `aside_turn`: nobody else counts a packet, or has to do with a handler or its world
* `exists_serves_of_observe`, `untouched_of_quiet`: a handler is called when that shows, and only then
* `queue_turn`: a step makes the access to the queue that it is said to make
* `Kept.turn`: the record and the site stay in agreement
-/

namespace PacketRelay

open Schedule

/-- A drain loop that has just been entered -/
def Drain.IsFresh {η : Type} (d : Drain η) : Prop := d.at_ = .checkToken

namespace Site

variable {ω η : Type}

/-- What may take a step where others have a hand in it, too. -/
inductive Turn (ω η : Type)
  -- The worker, or a thread that puts a packet into the queue
  | inside (l : Label η)
  -- Somebody else stops the subscriber accepting packets.
  | terminate
  -- Somebody else discards the packets in the queue.
  | clear
  -- Somebody else changes the world of the handlers.
  | change (world : ω)
deriving DecidableEq

/-- The site after a step. -/
def turn (h : Handler ω η) (s : Site ω η) : Turn ω η → Option (Site ω η)
  | .inside l => s.step h l
  | .terminate => some { s with subscriber := s.subscriber.act .terminate }
  | .clear => some { s with subscriber := s.subscriber.act .clear }
  | .change world => some { s with worker := { s.worker with world := world } }

/-- What a step shows. -/
inductive Event
  -- The queue is accessed.
  | queue (e : Queue.Event Nat Packet)
  -- A start says that it has begun a run.
  | started (run : Nat)
  -- The drain loop of a run calls its handler for a packet.
  | passed (run : Nat) (p : Packet)
  -- The handler comes back from a packet.
  | answered (run : Nat) (verdict : Verdict)
  -- A pause without end makes the drain loop of a run panic.
  | overflowed (run : Nat)
  -- The drain loop of a run finishes its handler.
  | finished (run : Nat)
deriving DecidableEq

/-- The access to the queue that a step makes. -/
def access? (s : Site ω η) : Turn ω η → Option (Queue.Access Nat Packet)
  | .inside (.worker .owner) =>
    match s.worker.owner with
    | .clear _ | .clearAgain _ => some .clear
    | _ => none
  | .inside (.worker (.drain run pick)) =>
    match s.worker.task.target? run with
    | some { at_ := .take, .. } => some (.pop pick)
    | _ => none
  | .inside (.producer n) =>
    match s.producers[n]? with
    | some (.push p) => some (.push n p)
    | some .waiting => some (.resume n)
    | _ => none
  | .inside (.stir n) => some (.stir n)
  | .clear => some .clear
  | _ => none

/-- What an access of a drain loop shows that is not one to the queue. -/
def remark? (h : Handler ω η) (w : Worker ω η) (run : Nat) (d : Drain η) : Option Event :=
  match d.at_ with
  | .receive p => some (.passed run p)
  | .conclude p => (h.conclude w.world d.handler p).map fun x => .answered run x.2.2
  | .pause => if w.settings.pollInterval.isNone then some (.overflowed run) else none
  | .finish => some (.finished run)
  | _ => none

/-- What a start shows that returns: its run, if it has begun one. -/
def answer? (w : Worker ω η) : Option Event :=
  match w.owner with
  | .starting => if w.hasStartedTask then some (.started w.task.current) else none
  | _ => none

/-- What a step shows. -/
def observe (h : Handler ω η) (s : Site ω η) (l : Turn ω η) : Option Event :=
  match s.access? l with
  | some a => (s.subscriber.queue.observe a).map .queue
  | none =>
    match l with
    | .inside (.worker .owner) => answer? s.worker
    | .inside (.worker (.drain run _)) => (s.worker.task.target? run).bind (remark? h s.worker run)
    | _ => none

/-- What an access of the drain loop of a run can do: where the loop is, what it shows, where it
goes on unless it is left, and how many packets are handled then. -/
inductive Stride (cancelled : Bool) (items : List Packet) (run handled : Nat) :
    Draining → Option Event → Option Draining → Nat → Prop
  -- The loop looks at the token.
  | look : Stride cancelled items run handled .checkToken none
      (some (if cancelled then .finish else .take)) handled
  -- It takes a packet, if there is one.
  | take : Stride cancelled items run handled .take (some (.queue (.popped items.head?)))
      (some (Worker.afterTake items.head?)) handled
  -- It calls the handler.
  | receive (p : Packet) : Stride cancelled items run handled (.receive p) (some (.passed run p))
      (some (.conclude p)) handled
  -- The handler comes back.
  | answer (p : Packet) {verdict : Verdict} (calm : verdict ≠ .panicked) :
      Stride cancelled items run handled (.conclude p) (some (.answered run verdict)) (some .count)
        handled
  -- The handler panics.
  | panic (p : Packet) :
      Stride cancelled items run handled (.conclude p) (some (.answered run .panicked)) none handled
  -- The packet counts as handled.
  | count : Stride cancelled items run handled .count none (some .checkToken)
      (Counters.increase handled 1)
  -- The loop begins a pause.
  | pause : Stride cancelled items run handled .pause none (some .paused) handled
  -- The pause has no end.
  | overflow : Stride cancelled items run handled .pause (some (.overflowed run)) none handled
  -- The pause is over.
  | wake : Stride cancelled items run handled .paused none
      (some (if cancelled then .finish else .checkToken)) handled
  -- The loop finishes the handler.
  | finish : Stride cancelled items run handled .finish (some (.finished run)) none handled

/-- What an access of a drain loop does with its handler and with the world, by what it shows. The
handler is called as the event says, which leaves the world and the handler as they are afterwards, and
it is called for nothing else. -/
def Serves (h : Handler ω η) (world : ω) (d : Drain η) (world' : ω) (next : Option (Drain η)) :
    Option Event → Prop
  -- It hands a packet to the handler.
  | some (.passed _ p) => d.at_ = .receive p ∧ world' = (h.receive world d.handler p).1 ∧
      next = some { handler := (h.receive world d.handler p).2, at_ := .conclude p }
  -- The handler comes back from a packet.
  | some (.answered _ verdict) => ∃ p handler, d.at_ = .conclude p ∧
      h.conclude world d.handler p = some (world', handler, verdict) ∧
      next = if verdict = .panicked then none else some { handler := handler, at_ := .count }
  -- It finishes the handler.
  | some (.finished _) => d.at_ = .finish ∧ world' = (h.finish world d.handler).1 ∧ next = none
  | some (.overflowed _) => world' = world ∧ next = none
  | some (.queue _) | some (.started _) | none => world' = world ∧
      ∃ at_, next = some { d with at_ := at_ }

/-- What a record tells of the queue. -/
def queueLog (log : List Event) : List (Queue.Event Nat Packet) :=
  log.filterMap fun
    | .queue e => some e
    | _ => none

/-- The run whose drain loop shows an event that is not one of the queue. -/
def Event.run? : Event → Option Nat
  | .passed run _ | .answered run _ | .overflowed run | .finished run => some run
  | .queue _ | .started _ => none

/-- Is this the last thing that a drain loop shows? -/
def Event.isLast : Event → Bool
  | .answered _ .panicked | .overflowed _ | .finished _ => true
  | _ => false

/-- What a record tells of a run, but for the queue. -/
def runLog (run : Nat) (log : List Event) : List Event :=
  log.filter (·.run? = some run)

/-- What has been told of a run is what the place of its thread says: nothing yet, or everything but
the last, or all of it. -/
def Ran (told : List Event) : Option (Task.Stage (Drain η)) → Prop
  | some (.executing _) => ∀ e ∈ told, e.isLast = false
  | some .returned | some .idle | some (.releasing _) | some .exited =>
    ∃ before last, told = before ++ [last] ∧ (∀ e ∈ before, e.isLast = false) ∧ last.isLast
  | _ => told = []

/-- The record and the site agree. -/
structure Kept (capacity : Nat) (log : List Event) (s : Site ω η) : Prop where
  tended : s.Tended capacity
  /-- The loops that come up are fresh. -/
  fresh : s.worker.task.Coherent Drain.IsFresh
  queue : Queue.Conserved (queueLog log) s.subscriber.queue
  runs : ∀ run, Ran (runLog run log) (s.worker.task.stage? run)

section Records

variable {log : List Event} {run : Nat} {shown : Option Event}

theorem queueLog_append (log more : List Event) :
    queueLog (log ++ more) = queueLog log ++ queueLog more :=
  List.filterMap_append

theorem runLog_append (run : Nat) (log more : List Event) :
    runLog run (log ++ more) = runLog run log ++ runLog run more :=
  List.filter_append ..

theorem runLog_toList_of_ne (other : shown.bind Event.run? ≠ some run) :
    runLog run shown.toList = [] := by
  cases shown with
  | none => rfl
  | some e =>
    simp only [Option.bind_some] at other
    simp [runLog, other]

/-- Only the last thing that a drain loop has shown may be the last one of its run. -/
theorem Ran.isLast_eq_false {told : List Event} {stage : Option (Task.Stage (Drain η))}
    (ran : Ran told stage) : ∀ e ∈ told.dropLast, e.isLast = false := by
  unfold Ran at ran
  split at ran
  · intro e inside
    exact ran e ((List.dropLast_sublist told).subset inside)
  iterate 4
    obtain ⟨before, last, rfl, quiet, -⟩ := ran
    rwa [List.dropLast_concat]
  · simp [ran]

/-- After the last thing of its run a drain loop has shown nothing. -/
theorem Ran.eq_nil_of_isLast {before after : List Event} {e : Event}
    {stage : Option (Task.Stage (Drain η))} (ran : Ran (before ++ e :: after) stage)
    (last : e.isLast) : after = [] := by
  by_contra more
  have inside : e ∈ (before ++ e :: after).dropLast := by
    simp [List.dropLast_cons_of_ne_nil more]
  simp [ran.isLast_eq_false e inside] at last

end Records

section Drains

variable {h : Handler ω η} {s s' : Site ω η} {run pick : Nat}

@[simp] theorem handled_goOn {w : Worker ω η} {d : Drain η} {at_ : Draining} :
    (w.goOn run d at_).handled = w.handled := rfl

@[simp] theorem handled_leave {w : Worker ω η} : (w.leave run).handled = w.handled := rfl

@[simp] theorem world_goOn {w : Worker ω η} {d : Drain η} {at_ : Draining} :
    (w.goOn run d at_).world = w.world := rfl

@[simp] theorem world_leave {w : Worker ω η} : (w.leave run).world = w.world := rfl

/-- Where the threads are once a drain loop has gone on, or has been left. -/
theorem stage?_of_goOn {w : Worker ω η} {d : Drain η} (executing : w.task.target? run = some d)
    (x : Drain η) (at_ : Draining) (other : Nat) :
    (w.goOn run x at_).task.stage? other =
      if run = other then some (.executing { x with at_ := at_ }) else w.task.stage? other :=
  Task.stage?_modify_stage _ executing other

theorem stage?_of_leave {w : Worker ω η} {d : Drain η} (executing : w.task.target? run = some d)
    (other : Nat) :
    (w.leave run).task.stage? other = if run = other then some .returned else w.task.stage? other :=
  Task.stage?_modify_stage _ executing other

/-- **An access of a drain loop does nothing else.** -/
theorem exists_stride_of_drain
    (last : s.turn h (.inside (.worker (.drain run pick))) = some s') :
    ∃ d, ∃ next : Option (Drain η), s.worker.task.target? run = some d ∧
      Stride (s.worker.task.isCancelled run) s.subscriber.queue.items run s.worker.handled d.at_
        (s.observe h (.inside (.worker (.drain run pick)))) (next.map (·.at_)) s'.worker.handled ∧
      Serves h s.worker.world d s'.worker.world next
        (s.observe h (.inside (.worker (.drain run pick)))) ∧
      ∀ other, s'.worker.task.stage? other =
        if run = other then some (next.elim .returned .executing)
        else s.worker.task.stage? other := by
  obtain ⟨⟨w, x⟩, step, rfl⟩ := Option.map_eq_some_iff.mp last
  obtain ⟨d, executing, step⟩ := Option.bind_eq_some_iff.mp step
  have shown : s.observe h (.inside (.worker (.drain run pick))) =
      match s.access? (.inside (.worker (.drain run pick))) with
      | some a => (s.subscriber.queue.observe a).map .queue
      | none => remark? h s.worker run d := by
    simp [observe, executing]
  rw [shown]
  obtain ⟨handler, at_⟩ := d
  cases at_ with
  | checkToken =>
    obtain ⟨rfl, rfl⟩ := Prod.mk.inj (Option.some.inj step)
    refine ⟨_, some _, executing, ?_, ?_, stage?_of_goOn executing _ _⟩
    · simpa [access?, executing, remark?] using Stride.look
    · simp [access?, executing, remark?, Serves]
  | take =>
    obtain ⟨rfl, rfl⟩ := Prod.mk.inj (Option.some.inj step)
    refine ⟨_, some _, executing, ?_, ?_, stage?_of_goOn executing _ _⟩
    · simpa [access?, executing, Queue.observe, Queue.step, Queue.pop_fst] using Stride.take
    · simp [access?, executing, Queue.observe, Queue.step, Serves]
  | receive p =>
    obtain ⟨rfl, rfl⟩ := Prod.mk.inj (Option.some.inj step)
    refine ⟨_, some _, executing, ?_, ?_, stage?_of_goOn executing _ _⟩
    · simpa [access?, executing, remark?] using Stride.receive p
    · simp [access?, executing, remark?, Serves]
  | conclude p =>
    obtain ⟨⟨world, handler', verdict⟩, came, step⟩ := Option.bind_eq_some_iff.mp step
    obtain ⟨rfl, rfl⟩ := Prod.mk.inj (Option.some.inj step)
    cases verdict with
    | panicked =>
      refine ⟨_, none, executing, ?_, ?_, stage?_of_leave executing⟩
      · simpa [access?, executing, remark?, came, Worker.afterVerdict] using Stride.panic p
      · simp [access?, executing, remark?, came, Worker.afterVerdict, Serves]
    | accepted | refused =>
      refine ⟨_, some _, executing, ?_, ?_, stage?_of_goOn executing _ _⟩
      · simpa [access?, executing, remark?, came, Worker.afterVerdict] using Stride.answer p (by simp)
      · simp [access?, executing, remark?, came, Worker.afterVerdict, Serves]
  | count =>
    obtain ⟨rfl, rfl⟩ := Prod.mk.inj (Option.some.inj step)
    refine ⟨_, some _, executing, ?_, ?_, stage?_of_goOn executing _ _⟩
    · simpa [access?, executing, remark?, Worker.countHandled] using Stride.count
    · simp [access?, executing, remark?, Worker.countHandled, Serves]
  | pause =>
    cases limit : s.worker.settings.pollInterval with
    | some millis =>
      simp only [limit] at step
      obtain ⟨rfl, rfl⟩ := Prod.mk.inj (Option.some.inj step)
      refine ⟨_, some _, executing, ?_, ?_, stage?_of_goOn executing _ _⟩
      · simpa [access?, executing, remark?, limit] using Stride.pause
      · simp [access?, executing, remark?, limit, Serves]
    | none =>
      simp only [limit] at step
      obtain ⟨rfl, rfl⟩ := Prod.mk.inj (Option.some.inj step)
      refine ⟨_, none, executing, ?_, ?_, stage?_of_leave executing⟩
      · simpa [access?, executing, remark?, limit] using Stride.overflow
      · simp [access?, executing, remark?, limit, Serves]
  | paused =>
    obtain ⟨rfl, rfl⟩ := Prod.mk.inj (Option.some.inj step)
    refine ⟨_, some _, executing, ?_, ?_, stage?_of_goOn executing _ _⟩
    · simpa [access?, executing, remark?] using Stride.wake
    · simp [access?, executing, remark?, Serves]
  | finish =>
    obtain ⟨rfl, rfl⟩ := Prod.mk.inj (Option.some.inj step)
    refine ⟨_, none, executing, ?_, ?_, stage?_of_leave executing⟩
    · simpa [access?, executing, remark?] using Stride.finish
    · simp [access?, executing, remark?, Serves]

/-- Where a drain loop is once it has made an access. -/
theorem target?_of_stages {w w' : Worker ω η} {next : Option (Drain η)}
    (stages : ∀ other, w'.task.stage? other =
      if run = other then some (next.elim .returned .executing) else w.task.stage? other)
    (other : Nat) :
    w'.task.target? other = if run = other then next else w.task.target? other := by
  rw [Task.target?_eq_bind, Task.target?_eq_bind, stages]
  split
  · cases next <;> rfl
  · rfl

end Drains

section Others

variable {h : Handler ω η} {s s' : Site ω η} {l : Turn ω η} {t t' : Task (Drain η)} {run : Nat}

/-- What a step outside the drain loops does to the task of a worker. -/
inductive Aside (t : Task (Drain η)) : Task (Drain η) → Prop
  -- Nothing
  | same : Aside t t
  -- A call begins on it.
  | begin {call : Task.Call (Drain η)} (fresh : ∀ d, call = .start d → d.IsFresh) :
      Aside t (t.begin .outside call)
  -- Its current run is cancelled.
  | cancel : Aside t t.cancel
  -- The call in progress makes an access.
  | call {t' : Task (Drain η)} (last : t.advance = some t') : Aside t t'
  -- The thread of a run makes an access.
  | thread {run : Nat} {t' : Task (Drain η)} (last : t.advanceThread run = some t') : Aside t t'

/-- Does the drain loop of a run take the step? -/
def Turn.isDrain : Turn ω η → Bool
  | .inside (.worker (.drain ..)) => true
  | _ => false

theorem Turn.eq_of_isDrain (drains : l.isDrain) :
    ∃ run pick, l = .inside (.worker (.drain run pick)) := by
  unfold Turn.isDrain at drains
  split at drains
  · exact ⟨_, _, rfl⟩
  · simp at drains

theorem run?_map_queue (shown : Option (Queue.Event Nat Packet)) :
    (shown.map Event.queue).bind Event.run? = none := by
  cases shown <;> rfl

/-- What the owner of a worker does has nothing to do with a handler. -/
theorem aside_ownerMove {w : Worker ω η} {x : Subscriber Nat}
    (move : Worker.OwnerMove s.worker s.subscriber w x) :
    Aside s.worker.task w.task ∧ w.handled = s.worker.handled ∧ w.world = s.worker.world ∧
      (s.observe h (.inside (.worker .owner))).bind Event.run? = none := by
  cases move with
  | refuse at_ | terminate at_ | joined at_ | dropped at_ =>
    exact ⟨.same, rfl, rfl, by simp [observe, access?, answer?, at_]⟩
  | launch at_ =>
    refine ⟨.begin ?_, rfl, rfl, by simp [observe, access?, answer?, at_]⟩
    rintro d same
    obtain rfl := Task.Call.start.inj same
    rfl
  | launched at_ =>
    refine ⟨.same, rfl, rfl, ?_⟩
    simp only [observe, access?, answer?, at_]
    split <;> rfl
  | cancel at_ => exact ⟨.cancel, rfl, rfl, by simp [observe, access?, answer?, at_]⟩
  | clear at_ =>
    refine ⟨.begin (by simp), rfl, rfl, ?_⟩
    simp only [observe, access?, at_]
    exact run?_map_queue _
  | @clearAgain next at_ =>
    refine ⟨?_, ?_, ?_, ?_⟩
    · cases next with
      | done => exact .same
      | drop => exact .begin (by simp)
    · cases next <;> rfl
    · cases next <;> rfl
    · simp only [observe, access?, at_]
      exact run?_map_queue _
  | advance at_ advanced =>
    refine ⟨.call advanced, rfl, rfl, ?_⟩
    rcases at_ with at_ | ⟨next, at_⟩ | at_
    · simp only [observe, access?, answer?, at_]
      split <;> rfl
    · simp [observe, access?, answer?, at_]
    · simp [observe, access?, answer?, at_]

/-- **Nobody but a drain loop counts a packet or has to do with a handler**, and nobody else acts on the
world, but for whoever changes it from outside. -/
theorem aside_turn (other : l.isDrain = false) (last : s.turn h l = some s') :
    Aside s.worker.task s'.worker.task ∧ s'.worker.handled = s.worker.handled ∧
      ((∀ world, l ≠ .change world) → s'.worker.world = s.worker.world) ∧
      (s.observe h l).bind Event.run? = none := by
  cases l with
  | inside l =>
    cases l with
    | worker l =>
      obtain ⟨⟨w, x⟩, step, rfl⟩ := Option.map_eq_some_iff.mp last
      cases l with
      | begin call =>
        simp only [Worker.step] at step
        split at step
        · obtain ⟨rfl, -⟩ := Prod.mk.inj (Option.some.inj step)
          cases call <;> exact ⟨.same, rfl, fun _ => rfl, rfl⟩
        · simp at step
      | owner =>
        obtain ⟨aside, handled, world, quiet⟩ :=
          aside_ownerMove (Worker.ownerMove_of_ownerStep step)
        exact ⟨aside, handled, fun _ => world, quiet⟩
      | thread run =>
        obtain ⟨t, advanced, same⟩ := Option.map_eq_some_iff.mp step
        obtain ⟨rfl, -⟩ := Prod.mk.inj same
        exact ⟨.thread advanced, rfl, fun _ => rfl, rfl⟩
      | drain => simp [Turn.isDrain] at other
    | begin p =>
      obtain rfl := Option.some.inj last
      exact ⟨.same, rfl, fun _ => rfl, rfl⟩
    | producer n =>
      simp only [turn, step, Option.bind_eq_bind, Option.bind_eq_some_iff,
        Option.some.injEq] at last
      obtain ⟨e, here, ⟨x, e'⟩, -, rfl⟩ := last
      refine ⟨.same, rfl, fun _ => rfl, ?_⟩
      cases e <;> simp only [observe, access?, here] <;> first | rfl | exact run?_map_queue _
    | stir n =>
      obtain rfl := Option.some.inj last
      exact ⟨.same, rfl, fun _ => rfl, run?_map_queue (s.subscriber.queue.observe (.stir n))⟩
  | terminate =>
    obtain rfl := Option.some.inj last
    exact ⟨.same, rfl, fun _ => rfl, rfl⟩
  | change world =>
    obtain rfl := Option.some.inj last
    exact ⟨.same, rfl, fun inside => absurd rfl (inside world), rfl⟩
  | clear =>
    obtain rfl := Option.some.inj last
    exact ⟨.same, rfl, fun _ => rfl, run?_map_queue (s.subscriber.queue.observe .clear)⟩

/-- The loops that come up stay fresh. -/
theorem Aside.coherent (aside : Aside t t') (coherent : t.Coherent Drain.IsFresh) :
    t'.Coherent Drain.IsFresh := by
  cases aside with
  | same => exact coherent
  | begin fresh => exact coherent.begin fresh
  | cancel => exact coherent.cancelRun _
  | call last => exact coherent.advance last
  | thread last => exact coherent.advanceThread last

/-- No drain loop goes on, but for a fresh one that comes up. -/
theorem Aside.target? (aside : Aside t t') (coherent : t.Coherent Drain.IsFresh) (run : Nat) :
    t'.target? run = t.target? run ∨
      t.target? run = none ∧ ∃ d, t'.target? run = some d ∧ d.IsFresh := by
  cases aside with
  | same | begin => exact .inl rfl
  | cancel =>
    left
    simp only [Task.target?_eq_bind, Task.cancel, Task.stage?_cancelRun]
  | call last => exact .inl (Task.target?_run_advance last run)
  | thread last => exact Task.target?_advanceThread coherent last run

/-- A drain loop comes up only while there is none. -/
theorem Aside.target?_eq_none {d : Drain η} (aside : Aside t t')
    (coherent : t.Coherent Drain.IsFresh) (sole : t'.Sole) (before : t.target? run = none)
    (came : t'.target? run = some d) (other : Nat) : t.target? other = none := by
  by_contra some_
  obtain ⟨x, found⟩ := Option.ne_none_iff_exists'.mp some_
  have stays : t'.target? other = some x := by
    rcases aside.target? coherent other with same | ⟨none_, -⟩
    · exact same.trans found
    · simp [none_] at found
  obtain rfl := sole.eq_of_isLive (Task.isLive_of_target? came) (Task.isLive_of_target? stays)
  simp [before] at found

/-- A token that is set stays set. -/
theorem Aside.isCancelled (aside : Aside t t') (run : Nat) (cancelled : t.isCancelled run) :
    t'.isCancelled run := by
  cases aside with
  | same | begin => exact cancelled
  | cancel => rw [Task.cancel, Task.isCancelled_cancelRun, cancelled, Bool.or_true]
  | call last =>
    rcases Task.isCancelled_advance last run with same | ⟨-, set⟩
    · exact same.trans cancelled
    · exact set
  | thread last => exact ((Task.steady_advanceThread last).tokens run).trans cancelled

/-- What has been told of a run stays what the place of its thread says. -/
theorem Ran.access {told : List Event} {c d : Task.Context (Drain η)} (ran : Ran told c.stage)
    (coherent : c.Coherent Drain.IsFresh) (last : c.Access d) : Ran told d.stage := by
  cases last with
  | enter at_ found =>
    rw [at_] at ran
    obtain rfl : told = [] := ran
    intro e inside
    cases inside
  | skip at_ missing =>
    obtain ⟨-, target, found, -⟩ := coherent.pending (by simp [at_, Task.Stage.isPending])
    simp [missing] at found
  | @release r at_ =>
    rw [at_] at ran
    show Ran told (some ((r.step c).2.elim .exited .releasing))
    cases (r.step c).2 <;> exact ran
  | _ at_ =>
    rw [at_] at ran
    exact ran

/-- A thread stays where it is, or is made, or makes an access. -/
theorem Aside.stage? (aside : Aside t t') (coherent : t.Coherent Drain.IsFresh) (run : Nat) :
    t'.stage? run = t.stage? run ∨ t.stage? run = none ∧ t'.stage? run = some .spawned ∨
      ∃ c d : Task.Context (Drain η), c.Coherent Drain.IsFresh ∧ c.Access d ∧
        t.stage? run = c.stage ∧ t'.stage? run = d.stage := by
  cases aside with
  | same | begin => exact .inl rfl
  | cancel => exact .inl (Task.stage?_cancelRun _ _)
  | call last =>
    rcases Task.stage?_advance last with ⟨-, -, -, stages⟩ | ⟨-, stages⟩
    · rw [stages]
      split
      · next new => exact .inr (.inl ⟨by simp [Task.stage?, new], rfl⟩)
      · exact .inl rfl
    · exact .inl (stages run)
  | @thread other _ last =>
    obtain ⟨c, d, found, step, rfl⟩ := Task.exists_access_of_advanceThread last
    rw [Task.stage?_modify]
    split
    · next own =>
      subst own
      exact .inr (.inr ⟨c, d, coherent.contexts other c found, step, by simp [Task.stage?, found],
        by simp [found]⟩)
    · exact .inl rfl

theorem Aside.ran {told : List Event} (aside : Aside t t') (coherent : t.Coherent Drain.IsFresh)
    (ran : Ran told (t.stage? run)) : Ran told (t'.stage? run) := by
  rcases aside.stage? coherent run with same | ⟨nothing, made⟩ | ⟨c, d, kept, step, before, after⟩
  · rwa [same]
  · rw [made]
    rwa [nothing] at ran
  · rw [after]
    rw [before] at ran
    exact ran.access kept step

end Others

section Together

variable {h : Handler ω η} {s s' : Site ω η} {l : Turn ω η} {log : List Event} {capacity : Nat}

/-- A drain loop leaves the subscriber alone, unless it takes a packet. -/
theorem subscriber_of_drainStep {w w' : Worker ω η} {x x' : Subscriber Nat} {d : Drain η}
    {run pick : Nat} (executing : w.task.target? run = some d)
    (last : w.drainStep h x run pick = some (w', x')) :
    x' = if d.at_ = .take then x.act (.dequeue pick) else x := by
  simp only [Worker.drainStep, executing, Option.bind_eq_bind, Option.bind_some] at last
  obtain ⟨handler, at_⟩ := d
  cases at_ with
  | conclude p =>
    obtain ⟨answer, -, same⟩ := Option.bind_eq_some_iff.mp last
    exact (Prod.mk.inj (Option.some.inj same)).2.symm
  | pause =>
    dsimp only at last
    split at last <;> exact (Prod.mk.inj (Option.some.inj last)).2.symm
  | _ => exact (Prod.mk.inj (Option.some.inj last)).2.symm

/-- A step makes the access to the queue that it is said to make, and no other. -/
theorem queue_turn (tended : s.Tended capacity) (last : s.turn h l = some s') :
    match s.access? l with
    | some a => s.subscriber.queue.step a = some s'.subscriber.queue
    | none => s'.subscriber.queue = s.subscriber.queue := by
  cases l with
  | inside l =>
    cases l with
    | worker l =>
      obtain ⟨⟨w, x⟩, step, rfl⟩ := Option.map_eq_some_iff.mp last
      cases l with
      | begin call =>
        simp only [Worker.step] at step
        split at step
        · obtain ⟨-, rfl⟩ := Prod.mk.inj (Option.some.inj step)
          rfl
        · simp at step
      | owner =>
        cases Worker.ownerMove_of_ownerStep step with
        | advance at_ =>
          rcases at_ with at_ | ⟨next, at_⟩ | at_ <;> simp only [access?, at_]
        | terminate at_ | clear at_ | clearAgain at_ =>
          simp only [access?, at_]
          rfl
        | _ at_ => simp only [access?, at_]
      | thread run =>
        obtain ⟨t, -, same⟩ := Option.map_eq_some_iff.mp step
        obtain ⟨-, rfl⟩ := Prod.mk.inj same
        rfl
      | drain run pick =>
        obtain ⟨d, executing, -⟩ := Option.bind_eq_some_iff.mp step
        obtain rfl := subscriber_of_drainStep executing step
        obtain ⟨handler, at_⟩ := d
        simp only [access?, executing]
        cases at_ <;> rfl
    | begin p =>
      obtain rfl := Option.some.inj last
      rfl
    | producer n =>
      simp only [turn, step, Option.bind_eq_bind, Option.bind_eq_some_iff,
        Option.some.injEq] at last
      obtain ⟨e, here, ⟨x, e'⟩, step, rfl⟩ := last
      simp only [access?, here]
      cases e with
      | check p =>
        obtain ⟨rfl, -⟩ := Prod.mk.inj (Option.some.inj step)
        rfl
      | push p =>
        obtain ⟨rfl, -⟩ := Prod.mk.inj (Option.some.inj step)
        have awake : s.subscriber.queue.isWaiting n = false := by
          by_contra waits
          have there := (tended.waits n).mpr (by simpa using waits)
          simp [here] at there
        simp [Queue.step, awake]
      | waiting =>
        obtain ⟨q, resumed, rfl, -⟩ := Enqueue.exists_resume_of_step step
        exact resumed
      | finished => simp [Enqueue.step] at step
    | stir n =>
      obtain rfl := Option.some.inj last
      rfl
  | terminate | clear | change =>
    obtain rfl := Option.some.inj last
    rfl

/-- What holds at a site at all times is kept by everybody. -/
theorem tended_turn (tended : s.Tended capacity) (last : s.turn h l = some s') :
    s'.Tended capacity := by
  cases l with
  | inside l => exact tended.step last
  | terminate =>
    obtain rfl := Option.some.inj last
    exact ⟨tended.worker, tended.size, tended.bounded, tended.distinct, fun _ => rfl, tended.waits⟩
  | clear =>
    obtain rfl := Option.some.inj last
    have access : s.subscriber.queue.step .clear = some s.subscriber.queue.clear := rfl
    refine tended.of_access tended.worker access tended.inactive ?_
    intro n
    rw [tended.waits n]
    have still := (Queue.move_of_step access).isWaiting_eq (t := n) (by simp [Queue.Access.pusher?])
    exact still ▸ Iff.rfl
  | change world =>
    obtain rfl := Option.some.inj last
    obtain ⟨coherent, outside, sole, owner⟩ := tended.worker
    exact ⟨⟨coherent, outside, sole, owner⟩, tended.size, tended.bounded, tended.distinct,
      tended.inactive, tended.waits⟩

/-- The loops that come up stay fresh. -/
theorem fresh_turn (fresh : s.worker.task.Coherent Drain.IsFresh) (last : s.turn h l = some s') :
    s'.worker.task.Coherent Drain.IsFresh := by
  cases drains : l.isDrain with
  | false => exact (aside_turn drains last).1.coherent fresh
  | true =>
    obtain ⟨run, pick, rfl⟩ := Turn.eq_of_isDrain drains
    obtain ⟨⟨w, x⟩, step, rfl⟩ := Option.map_eq_some_iff.mp last
    obtain ⟨-, ⟨d, executing⟩, ⟨d', same⟩ | same, -⟩ := Worker.exists_of_drainStep step
    · exact same ▸ fresh.setTarget executing
    · exact same ▸ fresh.leave executing

/-- A step that does not access the queue shows nothing of it. -/
theorem queueLog_of_access?_eq_none (none_ : s.access? l = none) :
    queueLog (s.observe h l).toList = [] := by
  simp only [observe, none_]
  split
  · unfold answer?
    split
    · split <;> rfl
    · rfl
  · next run pick =>
    cases s.worker.task.target? run with
    | none => rfl
    | some d =>
      simp only [Option.bind_some, remark?]
      split
      · rfl
      · next p _ => cases h.conclude s.worker.world d.handler p <;> rfl
      · split <;> rfl
      · rfl
      · rfl
  · rfl

/-- The record and the queue stay in agreement. -/
theorem conserved_turn (tended : s.Tended capacity)
    (queue : Queue.Conserved (queueLog log) s.subscriber.queue) (last : s.turn h l = some s') :
    Queue.Conserved (queueLog (log ++ (s.observe h l).toList)) s'.subscriber.queue := by
  have access := queue_turn tended last
  rw [queueLog_append]
  cases made : s.access? l with
  | some a =>
    rw [made] at access
    have shown : queueLog (s.observe h l).toList = (s.subscriber.queue.observe a).toList := by
      simp only [observe, made]
      cases s.subscriber.queue.observe a <;> rfl
    rw [shown]
    exact Queue.conserved_step tended.distinct queue access
  | none =>
    rw [made] at access
    rw [queueLog_of_access?_eq_none made, List.append_nil, access]
    exact queue

section Strides

variable {cancelled : Bool} {items : List Packet} {run handled handled' : Nat} {at_ : Draining}
  {shown : Option Event} {next : Option Draining}

/-- What a drain loop shows is of its run, or of the queue. -/
theorem Stride.run?_ne (stride : Stride cancelled items run handled at_ shown next handled')
    {other : Nat} (ne : run ≠ other) : shown.bind Event.run? ≠ some other := by
  cases stride <;> simp [Event.run?, ne]

/-- A drain loop is left with the last thing that it shows, and goes on until then. -/
theorem Stride.isLast (stride : Stride cancelled items run handled at_ shown next handled') :
    (next.isSome ∧ ∀ e ∈ shown.toList, e.isLast = false) ∨
      next = none ∧ ∃ e, shown = some e ∧ e.run? = some run ∧ e.isLast := by
  cases stride with
  | @answer p verdict calm => cases verdict <;> simp_all [Event.isLast]
  | _ => simp [Event.isLast, Event.run?]

/-- What has been told of the run of a drain loop stays what the place of its thread says. -/
theorem Ran.stride {d : Drain η} {next : Option (Drain η)} {told : List Event}
    (ran : Ran told (some (.executing d)))
    (stride : Stride cancelled items run handled d.at_ shown (next.map (·.at_)) handled') :
    Ran (told ++ runLog run shown.toList) (some (next.elim .returned .executing)) := by
  have quiet : ∀ e ∈ told, e.isLast = false := ran
  rcases stride.isLast with ⟨on, more⟩ | ⟨off, e, rfl, own, last⟩
  · obtain ⟨d', rfl⟩ := Option.isSome_iff_exists.mp (by simpa using on)
    intro e inside
    rcases List.mem_append.mp inside with earlier | new
    · exact quiet e earlier
    · exact more e (List.mem_filter.mp new).1
  · obtain rfl : next = none := by simpa using off
    exact ⟨told, e, by simp [runLog, own], quiet, last⟩

end Strides

/-- **What a record tells of a run is what its drain loop does with the handler and the world.** -/
theorem exists_serves_of_observe {e : Event} {run : Nat} (own : e.run? = some run)
    (shown : s.observe h l = some e) (last : s.turn h l = some s') :
    ∃ d, s.worker.task.target? run = some d ∧
      Serves h s.worker.world d s'.worker.world (s'.worker.task.target? run) (some e) := by
  cases drains : l.isDrain with
  | false =>
    obtain ⟨-, -, -, quiet⟩ := aside_turn drains last
    simp [shown, own] at quiet
  | true =>
    obtain ⟨other, pick, rfl⟩ := Turn.eq_of_isDrain drains
    obtain ⟨d, next, executing, stride, serves, stages⟩ := exists_stride_of_drain last
    rw [shown] at stride serves
    obtain rfl : other = run := by
      by_contra ne
      exact stride.run?_ne ne own
    refine ⟨d, executing, ?_⟩
    rwa [target?_of_stages stages, if_pos rfl]

/-- **A step that tells nothing of a run leaves the world and the handlers as they are**, unless it
changes the world from outside. -/
theorem untouched_of_quiet (coherent : s.worker.task.Coherent Drain.IsFresh)
    (inside : ∀ world, l ≠ .change world) (quiet : (s.observe h l).bind Event.run? = none)
    (last : s.turn h l = some s') : s'.worker.world = s.worker.world ∧
      ∀ run d, s.worker.task.target? run = some d →
        ∃ at_, s'.worker.task.target? run = some { d with at_ := at_ } := by
  cases drains : l.isDrain with
  | false =>
    obtain ⟨aside, -, world, -⟩ := aside_turn drains last
    refine ⟨world inside, fun run d executing => ?_⟩
    rcases aside.target? coherent run with same | ⟨nobody, -⟩
    · exact ⟨d.at_, same.trans executing⟩
    · simp [executing] at nobody
  | true =>
    obtain ⟨own, pick, rfl⟩ := Turn.eq_of_isDrain drains
    obtain ⟨d, next, executing, -, serves, stages⟩ := exists_stride_of_drain last
    obtain ⟨world, at_, goes⟩ : s'.worker.world = s.worker.world ∧
        ∃ at_, next = some { d with at_ := at_ } := by
      cases shown : s.observe h (.inside (.worker (.drain own pick))) with
      | none => rwa [shown] at serves
      | some e =>
        rw [shown] at quiet serves
        cases e with
        | queue | started => exact serves
        | _ => cases quiet
    refine ⟨world, fun run x found => ?_⟩
    rw [target?_of_stages stages]
    split
    · next same =>
      subst same
      obtain rfl := Option.some.inj (executing.symm.trans found)
      exact ⟨at_, goes⟩
    · exact ⟨x.at_, found⟩

/-- **The record and the site stay in agreement.** -/
theorem Kept.turn (kept : s.Kept capacity log) (last : s.turn h l = some s') :
    s'.Kept capacity (log ++ (s.observe h l).toList) where
  tended := tended_turn kept.tended last
  fresh := fresh_turn kept.fresh last
  queue := conserved_turn kept.tended kept.queue last
  runs run := by
    rw [runLog_append]
    cases drains : l.isDrain with
    | false =>
      obtain ⟨aside, -, -, quiet⟩ := aside_turn drains last
      rw [runLog_toList_of_ne (by simp [quiet]), List.append_nil]
      exact aside.ran kept.fresh (kept.runs run)
    | true =>
      obtain ⟨own, pick, rfl⟩ := Turn.eq_of_isDrain drains
      obtain ⟨d, next, executing, stride, -, stages⟩ := exists_stride_of_drain last
      rw [stages]
      split
      · next same =>
        subst same
        have ran := kept.runs own
        rw [Task.target?_eq_some_iff_stage?.mp executing] at ran
        exact ran.stride stride
      · next ne =>
        rw [runLog_toList_of_ne (stride.run?_ne ne), List.append_nil]
        exact kept.runs run

theorem kept_of_records {name suffix : String} {settings : DrainSettings} {world : ω}
    (run : Records (turn h) (fun _ => True) (observe h) (ofSettings name suffix settings world) log
      s) : s.Kept (max settings.queueCapacity 1) log := by
  induction run with
  | refl =>
    exact ⟨tended (h := h) (.refl _), Task.coherent_ofName _, ⟨rfl, fun _ => rfl, fun _ => rfl⟩,
      fun run => by cases run <;> rfl⟩
  | tail _ _ last ih => exact ih.turn last

end Together

end Site

end PacketRelay
