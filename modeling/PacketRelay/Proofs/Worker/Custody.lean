import PacketRelay.Proofs.Worker.Ledger
import PacketRelay.Worker.Scripted

/-!
# What becomes of the packets of a worker

A packet that has been appended to the queue of a worker is taken by a drain loop or discarded by a
clear, and one that has been taken is given to the handler next. There is one drain loop at most, so
that packets are handled one at a time and in the order of the queue, however often the worker is
started, whatever the handler answers, and whoever clears the queue in between.

A drain loop looks at its token before it takes a packet, and not between taking it and giving it to
the handler. So one packet more may be handled in a run that has been cancelled.

The handler is the one that the worker was given: with each packet it goes on from the state and in the
world that it has left before, and it comes back from the packet that it was last called for.

## Main definitions

* `Site.taken`, `Site.discarded`, `Site.passed`, `Site.answers`: what a record tells
* `Site.Tally`: the record of the handlers, the counter and the place of the drain loop agree
* `Site.AtWork`: a handler is at work on the packet that it was last called for
* `Site.Fate`, `Site.Parted`: what becomes of packets, and that they fall into parts by it

## Main results

* `Tally.stride`, `Tallied.turn`: the record and the counter stay in agreement
* `passesLeft_turn`: a run that has been cancelled uses up the one packet it may have left
* `each_packet_once`: every packet has one fate, and those that are handled are handled in order
-/

namespace PacketRelay

open Schedule

/-- The packet that a drain loop has taken and is about to give to the handler -/
def Draining.held : Draining → List Packet
  | .receive p => [p]
  | _ => []

/-- Is the handler at work on a packet? -/
def Draining.isAnswering : Draining → Bool
  | .conclude _ => true
  | _ => false

/-- Is a packet yet to be counted that the handler has come back from? -/
def Draining.isCounting : Draining → Bool
  | .count => true
  | _ => false

/-- Does the loop have a packet in hand, from taking it until it has been counted? -/
def Draining.isBusy : Draining → Bool
  | .receive _ | .conclude _ | .count => true
  | _ => false

/-- The number of packets that a loop whose token is set gives to its handler yet -/
def Draining.passesLeft : Draining → Nat
  | .take | .receive _ => 1
  | _ => 0

/-- Where the drain loop is, if there is one. -/
def Worker.place? {ω η : Type} (w : Worker ω η) : Option Draining :=
  w.task.contexts.findSome? fun c => (c.stage.bind Task.Stage.target?).map (·.at_)

namespace Site

variable {ω η : Type}

/-- All packets that drain loops have taken from the queue. -/
def taken (es : List (Queue.Event Nat Packet)) : List Packet :=
  es.flatMap fun
    | .popped answer => answer.toList
    | _ => []

/-- All packets that have been discarded by a clear. -/
def discarded (es : List (Queue.Event Nat Packet)) : List Packet :=
  es.flatMap fun
    | .cleared ps => ps
    | _ => []

/-- All packets that handlers have been called for. -/
def passed (log : List Event) : List Packet :=
  log.filterMap fun
    | .passed _ p => some p
    | _ => none

/-- The packets that the handler of a run has been called for. -/
def passedBy (run : Nat) (log : List Event) : List Packet :=
  passed (runLog run log)

/-- What the handlers have answered. -/
def answers (log : List Event) : List Verdict :=
  log.filterMap fun
    | .answered _ verdict => some verdict
    | _ => none

/-- The number of calls that handlers have returned from. -/
def returned (log : List Event) : Nat :=
  (answers log).countP (· ≠ .panicked)

/-- The record of the handlers, the counter and the place of the drain loop agree. -/
structure Tally (log : List Event) (handled : Nat) (at_ : Option Draining) : Prop where
  /-- The handlers have been called for the packets taken, in this order, but for one in hand. -/
  order : taken (queueLog log) = passed log ++ at_.elim [] Draining.held
  /-- They have come back from every call, but for one at work. -/
  calls : (passed log).length = (answers log).length + (at_.any Draining.isAnswering).toNat
  /-- The calls that they have returned from are counted, but for one about to be. -/
  count : ∃ n, returned log = n + (at_.any Draining.isCounting).toNat ∧ handled = n % counterRange

/-- They agree whether there is a drain loop or not. -/
structure Tallied (log : List Event) (s : Site ω η) : Prop where
  draining : ∀ run d, s.worker.task.target? run = some d →
    Tally log s.worker.handled (some d.at_)
  idle : (∀ run, s.worker.task.target? run = none) → Tally log s.worker.handled none

section Records

theorem taken_append (es fs : List (Queue.Event Nat Packet)) :
    taken (es ++ fs) = taken es ++ taken fs :=
  List.flatMap_append

theorem passed_append (log more : List Event) :
    passed (log ++ more) = passed log ++ passed more :=
  List.filterMap_append

theorem answers_append (log more : List Event) :
    answers (log ++ more) = answers log ++ answers more :=
  List.filterMap_append

theorem returned_append (log more : List Event) :
    returned (log ++ more) = returned log + returned more := by
  rw [returned, answers_append, List.countP_append]
  rfl

end Records

section Loops

variable {h : Handler ω η} {s s' : Site ω η} {l : Turn ω η} {log : List Event} {capacity : Nat}
  {cancelled : Bool} {items : List Packet} {run handled handled' : Nat} {at_ : Draining}
  {shown : Option Event} {next : Option Draining}

/-- What a step has to show for the record to stay in agreement. -/
theorem Tally.of_shown {before after : Option Draining} (tally : Tally log handled before)
    (order : before.elim [] Draining.held ++ taken (queueLog shown.toList) =
      passed shown.toList ++ after.elim [] Draining.held)
    (calls : (passed shown.toList).length + (before.any Draining.isAnswering).toNat =
      (answers shown.toList).length + (after.any Draining.isAnswering).toNat)
    (count : returned shown.toList + (before.any Draining.isCounting).toNat =
      (after.any Draining.isCounting).toNat) : Tally (log ++ shown.toList) handled after where
  order := by
    rw [queueLog_append, taken_append, tally.order, List.append_assoc, order, passed_append,
      List.append_assoc]
  calls := by
    have earlier := tally.calls
    rw [passed_append, answers_append, List.length_append, List.length_append]
    omega
  count := by
    obtain ⟨n, earlier, same⟩ := tally.count
    refine ⟨n, ?_, same⟩
    rw [returned_append]
    omega

/-- **An access of the drain loop keeps the record and the counter in agreement.** -/
theorem Tally.stride (tally : Tally log handled (some at_))
    (stride : Stride cancelled items run handled at_ shown next handled') :
    Tally (log ++ shown.toList) handled' next := by
  cases stride with
  | look | wake => cases cancelled <;> exact tally.of_shown rfl rfl rfl
  | take => cases items.head? <;> exact tally.of_shown rfl rfl rfl
  | receive | panic | pause | overflow | finish => exact tally.of_shown rfl rfl rfl
  | @answer p verdict calm =>
    cases verdict with
    | panicked => exact absurd rfl calm
    | accepted | refused => exact tally.of_shown rfl rfl rfl
  | count =>
    obtain ⟨n, returned, same⟩ := tally.count
    rw [Option.toList_none, List.append_nil]
    refine ⟨tally.order, tally.calls, n + 1, returned, ?_⟩
    rw [same, Counters.increase, Nat.mod_add_mod]

end Loops

section Others

variable {h : Handler ω η} {s s' : Site ω η} {l : Turn ω η} {log : List Event} {capacity : Nat}
  {shown : Option Event}

/-- An event that is not of a run tells nothing of the handlers. -/
theorem passed_of_run?_eq_none (quiet : shown.bind Event.run? = none) :
    passed shown.toList = [] ∧ answers shown.toList = [] := by
  cases shown with
  | none => exact ⟨rfl, rfl⟩
  | some e =>
    cases e with
    | queue | started => exact ⟨rfl, rfl⟩
    | _ => cases quiet

/-- Nobody but a drain loop takes packets. -/
theorem taken_of_isDrain_eq_false (other : l.isDrain = false) :
    taken (queueLog (s.observe h l).toList) = [] := by
  cases made : s.access? l with
  | none =>
    rw [queueLog_of_access?_eq_none made]
    rfl
  | some a =>
    have observed : s.observe h l = (s.subscriber.queue.observe a).map .queue := by
      simp only [observe, made]
    rw [observed]
    cases a with
    | pop pick =>
      unfold access? at made
      split at made <;> try split at made
      all_goals simp_all [Turn.isDrain]
    | stir t => rfl
    | clear => rfl
    | push t p =>
      cases moved : s.subscriber.queue.step (.push t p) <;> simp [Queue.observe, moved] <;> rfl
    | resume t =>
      cases moved : s.subscriber.queue.step (.resume t) <;> simp [Queue.observe, moved] <;> rfl

/-- A step outside the drain loops leaves the record and the counter in agreement. -/
theorem Tallied.of_aside (tallied : Tallied log s) (kept : s.Kept capacity log)
    (other : l.isDrain = false) (last : s.turn h l = some s') :
    Tallied (log ++ (s.observe h l).toList) s' := by
  obtain ⟨aside, handled, -, quiet⟩ := aside_turn other last
  obtain ⟨passed, answers⟩ := passed_of_run?_eq_none quiet
  have rest {at_ : Option Draining} (tally : Tally log s.worker.handled at_) :
      Tally (log ++ (s.observe h l).toList) s'.worker.handled at_ := by
    rw [handled]
    exact tally.of_shown (by simp [taken_of_isDrain_eq_false other, passed])
      (by simp [passed, answers]) (by simp [returned, answers])
  constructor
  · intro run d found
    rcases aside.target? kept.fresh run with same | ⟨before, x, came, fresh⟩
    · exact rest (tallied.draining run d (same.symm.trans found))
    · obtain rfl := Option.some.inj (came.symm.trans found)
      have sole := (kept.turn last).tended.worker.sole
      have tally := rest (tallied.idle (aside.target?_eq_none kept.fresh sole before came))
      have at_ : x.at_ = .checkToken := fresh
      rw [at_]
      exact ⟨tally.order, tally.calls, tally.count⟩
  · intro none_
    refine rest (tallied.idle fun run => ?_)
    rcases aside.target? kept.fresh run with same | ⟨before, -⟩
    · exact same.symm.trans (none_ run)
    · exact before

/-- So does an access of the drain loop, which is the only one. -/
theorem Tallied.of_drain {run pick : Nat} (tallied : Tallied log s) (kept : s.Kept capacity log)
    (last : s.turn h (.inside (.worker (.drain run pick))) = some s') :
    Tallied (log ++ (s.observe h (.inside (.worker (.drain run pick)))).toList) s' := by
  obtain ⟨d, next, executing, stride, -, stages⟩ := exists_stride_of_drain last
  have tally := (tallied.draining run d executing).stride stride
  have goes := target?_of_stages stages
  constructor
  · intro other x found
    rw [goes] at found
    split at found
    · subst found
      exact tally
    · next ne =>
      have same := kept.tended.worker.sole.eq_of_isLive (Task.isLive_of_target? executing)
        (Task.isLive_of_target? found)
      exact absurd same ne
  · intro none_
    obtain rfl : next = none := by
      rw [← none_ run, goes, if_pos rfl]
    exact tally

/-- **The record and the counter stay in agreement.** -/
theorem Tallied.turn (tallied : Tallied log s) (kept : s.Kept capacity log)
    (last : s.turn h l = some s') : Tallied (log ++ (s.observe h l).toList) s' := by
  cases drains : l.isDrain with
  | false => exact tallied.of_aside kept drains last
  | true =>
    obtain ⟨run, pick, rfl⟩ := Turn.eq_of_isDrain drains
    exact tallied.of_drain kept last

end Others

section Calls

variable {h : Handler ω η} {s s' : Site ω η} {l : Turn ω η} {log : List Event} {run : Nat}

/-- A handler that is at work on a packet was last called for this packet. -/
def AtWork (log : List Event) (s : Site ω η) : Prop :=
  ∀ run d p, s.worker.task.target? run = some d → d.at_ = .conclude p →
    (passedBy run log).getLast? = some p

/-- A drain loop waits for its handler once it has called it, and at no other time. -/
theorem Stride.passed_of_conclude {cancelled : Bool} {items : List Packet} {handled handled' : Nat}
    {at_ : Draining} {shown : Option Event} {next : Option Draining} {p : Packet}
    (stride : Stride cancelled items run handled at_ shown next handled')
    (goes : next = some (.conclude p)) : shown = some (.passed run p) := by
  cases stride with
  | look | wake => cases cancelled <;> simp at goes
  | take => cases taken : items.head? <;> simp [taken, Worker.afterTake] at goes
  | receive q =>
    obtain rfl : q = p := by simpa using goes
    rfl
  | _ => simp at goes

theorem passedBy_append (log more : List Event) :
    passedBy run (log ++ more) = passedBy run log ++ passedBy run more := by
  rw [passedBy, runLog_append, passed_append]
  rfl

/-- What another thread shows tells nothing of the packets of a run. -/
theorem passedBy_toList_of_ne {shown : Option Event} (other : shown.bind Event.run? ≠ some run) :
    passedBy run shown.toList = [] := by
  rw [passedBy, runLog_toList_of_ne other]
  rfl

/-- **A handler stays at work on the packet that it was last called for.** -/
theorem AtWork.turn (atWork : AtWork log s) (fresh : s.worker.task.Coherent Drain.IsFresh)
    (last : s.turn h l = some s') : AtWork (log ++ (s.observe h l).toList) s' := by
  intro k d p found at_
  rw [passedBy_append]
  cases drains : l.isDrain with
  | false =>
    obtain ⟨aside, -, -, quiet⟩ := aside_turn drains last
    rw [passedBy_toList_of_ne (by simp [quiet]), List.append_nil]
    rcases aside.target? fresh k with same | ⟨-, x, came, start⟩
    · exact atWork k d p (same.symm.trans found) at_
    · obtain rfl := Option.some.inj (came.symm.trans found)
      have start : x.at_ = .checkToken := start
      simp [start] at at_
  | true =>
    obtain ⟨own, pick, rfl⟩ := Turn.eq_of_isDrain drains
    obtain ⟨x, next, -, stride, -, stages⟩ := exists_stride_of_drain last
    rw [target?_of_stages stages] at found
    split at found
    · next same =>
      subst same
      subst found
      have goes : (some d).map (·.at_) = some (.conclude p) := by simp [at_]
      rw [stride.passed_of_conclude goes]
      simp [passedBy, runLog, passed, Event.run?]
    · next ne =>
      rw [passedBy_toList_of_ne (stride.run?_ne ne), List.append_nil]
      exact atWork k d p found at_

end Calls

section Cancelled

variable {h : Handler ω η} {s s' : Site ω η} {l : Turn ω η} {log : List Event} {run : Nat}

/-- The number of packets that the drain loop of a cancelled run gives to its handler yet -/
def passesLeft (s : Site ω η) (run : Nat) : Nat :=
  (s.worker.task.target? run).elim 0 (·.at_.passesLeft)

/-- A drain loop whose token is set gives one packet more to its handler if it has looked before. -/
theorem Stride.passesLeft {items : List Packet} {handled handled' : Nat} {at_ : Draining}
    {shown : Option Event} {next : Option Draining}
    (stride : Stride true items run handled at_ shown next handled') :
    (passedBy run shown.toList).length + next.elim 0 Draining.passesLeft ≤ at_.passesLeft := by
  cases stride with
  | take => cases items.head? <;> simp [passedBy, runLog, passed, Event.run?, Worker.afterTake,
      Draining.passesLeft]
  | _ => simp [passedBy, runLog, passed, Event.run?, Draining.passesLeft]

/-- A token that is set stays set. -/
theorem isCancelled_turn (cancelled : s.worker.task.isCancelled run) (last : s.turn h l = some s') :
    s'.worker.task.isCancelled run := by
  cases drains : l.isDrain with
  | false => exact (aside_turn drains last).1.isCancelled run cancelled
  | true =>
    obtain ⟨own, pick, rfl⟩ := Turn.eq_of_isDrain drains
    obtain ⟨⟨w, x⟩, step, rfl⟩ := Option.map_eq_some_iff.mp last
    obtain ⟨-, -, ⟨d, same⟩ | same, -⟩ := Worker.exists_of_drainStep step
    · exact same ▸ (Task.steady_setTarget.tokens run).trans cancelled
    · exact same ▸ (Task.steady_leave.tokens run).trans cancelled

/-- A run that has been cancelled uses up the one packet it may have left. -/
theorem passesLeft_turn (fresh : s.worker.task.Coherent Drain.IsFresh)
    (cancelled : s.worker.task.isCancelled run) (last : s.turn h l = some s') :
    (passedBy run (s.observe h l).toList).length + s'.passesLeft run ≤ s.passesLeft run := by
  cases drains : l.isDrain with
  | false =>
    obtain ⟨aside, -, -, quiet⟩ := aside_turn drains last
    rw [passedBy_toList_of_ne (by simp [quiet]), List.length_nil, Nat.zero_add, passesLeft,
      passesLeft]
    rcases aside.target? fresh run with same | ⟨-, d, came, at_⟩
    · exact Nat.le_of_eq (by rw [same])
    · have at_ : d.at_ = .checkToken := at_
      simp [came, at_, Draining.passesLeft]
  | true =>
    obtain ⟨own, pick, rfl⟩ := Turn.eq_of_isDrain drains
    obtain ⟨d, next, executing, stride, -, stages⟩ := exists_stride_of_drain last
    rw [passesLeft, target?_of_stages stages]
    split
    · next same =>
      subst same
      rw [cancelled] at stride
      rw [passesLeft, executing]
      simpa [Function.comp_def] using stride.passesLeft
    · next ne =>
      rw [passedBy_toList_of_ne (stride.run?_ne ne), List.length_nil, Nat.zero_add]
      exact Nat.le_refl _

/-- One packet more at most is handled in a run that has been cancelled. -/
theorem length_passedBy_of_isCancelled {t : Site ω η}
    (fresh : s.worker.task.Coherent Drain.IsFresh) (cancelled : s.worker.task.isCancelled run)
    (later : Records (turn h) (fun _ => True) (observe h) s log t) :
    (passedBy run log).length + t.passesLeft run ≤ s.passesLeft run ∧
      t.worker.task.isCancelled run ∧ t.worker.task.Coherent Drain.IsFresh := by
  induction later with
  | refl => exact ⟨by simp [passedBy, runLog, passed], cancelled, fresh⟩
  | tail _ _ last ih =>
    obtain ⟨few, still, coherent⟩ := ih
    have step := passesLeft_turn coherent still last
    refine ⟨?_, isCancelled_turn still last, fresh_turn coherent last⟩
    rw [passedBy_append, List.length_append]
    omega

end Cancelled

section Fates

/-- What becomes of a packet once it has been appended. -/
inductive Fate
  -- A handler has been called for it.
  | passed
  -- A clear has discarded it.
  | discarded
  -- A drain loop has taken it and is yet to give it to its handler.
  | held
  -- It is in the queue.
  | queued
deriving DecidableEq

/-- The packets of which this has become. -/
def share (fate : Fate) (fates : List (Packet × Fate)) : List Packet :=
  (fates.filter (·.2 = fate)).map Prod.fst

/-- All packets fall into these parts, each of them in order. -/
structure Parted (fates : List (Packet × Fate)) (all passed discarded held queued : List Packet) :
    Prop where
  all : fates.map Prod.fst = all
  passed : share .passed fates = passed
  discarded : share .discarded fates = discarded
  held : share .held fates = held
  queued : share .queued fates = queued

/-- More packets fall into parts behind the others. -/
theorem Parted.append {xs ys : List (Packet × Fate)}
    {all passed discarded held queued all' passed' discarded' held' queued' : List Packet}
    (first : Parted xs all passed discarded held queued)
    (second : Parted ys all' passed' discarded' held' queued') :
    Parted (xs ++ ys) (all ++ all') (passed ++ passed') (discarded ++ discarded') (held ++ held')
      (queued ++ queued') := by
  obtain ⟨rfl, rfl, rfl, rfl, rfl⟩ := first
  obtain ⟨rfl, rfl, rfl, rfl, rfl⟩ := second
  constructor <;> simp [share]

/-- Packets of which all the same becomes are one part. -/
theorem parted_map (fate : Fate) (ps : List Packet) :
    Parted (ps.map fun p => (p, fate)) ps (if fate = .passed then ps else [])
      (if fate = .discarded then ps else []) (if fate = .held then ps else [])
      (if fate = .queued then ps else []) := by
  have same (other : Fate) :
      share other (ps.map fun p => (p, fate)) = if fate = other then ps else [] := by
    by_cases own : fate = other <;> simp [share, own, List.filter_map, Function.comp_def]
  exact ⟨by simp [Function.comp_def], same _, same _, same _, same _⟩

/-- The packets that have left the queue have been taken or discarded. Of those taken the first ones
have been given to a handler, if the others are in hand. -/
theorem exists_parted (es : List (Queue.Event Nat Packet)) {done held : List Packet}
    (split : taken es = done ++ held) :
    ∃ fates, Parted fates (Queue.removed es) done (discarded es) held [] := by
  induction es generalizing done held with
  | nil =>
    obtain ⟨rfl, rfl⟩ := List.nil_eq_append_iff.mp split
    exact ⟨[], rfl, rfl, rfl, rfl, rfl⟩
  | cons e es ih =>
    cases e with
    | popped answer =>
      cases answer with
      | none => exact ih split
      | some p =>
        have split : p :: taken es = done ++ held := split
        cases done with
        | nil =>
          obtain rfl : p :: taken es = held := split
          obtain ⟨fates, rest⟩ := ih (List.nil_append _).symm
          exact ⟨_, (parted_map .held [p]).append rest⟩
        | cons d done =>
          obtain ⟨rfl, later⟩ : p = d ∧ taken es = done ++ held := by simpa using split
          obtain ⟨fates, rest⟩ := ih later
          exact ⟨_, (parted_map .passed [p]).append rest⟩
    | cleared ps =>
      obtain ⟨fates, rest⟩ := ih split
      exact ⟨_, (parted_map .discarded ps).append rest⟩
    | pushed | resumed => exact ih split

end Fates

section Runs

variable {h : Handler ω η} {s : Site ω η} {log : List Event} {name suffix : String}
  {settings : DrainSettings} {world : ω}

/-- The packet in the hands of the drain loop that is yet to be given to the handler, if any -/
def held (s : Site ω η) : List Packet := s.worker.place?.elim [] Draining.held

theorem Tallied.tally (tallied : Tallied log s) : Tally log s.worker.handled s.worker.place? := by
  cases at_ : s.worker.place? with
  | none =>
    apply tallied.idle
    intro run
    by_contra some_
    obtain ⟨d, executing⟩ := Option.ne_none_iff_exists'.mp some_
    obtain ⟨c, found, stage⟩ := Task.target?_eq_some.mp executing
    have nowhere := List.findSome?_eq_none_iff.mp at_ c (List.mem_of_getElem? found)
    simp [stage, Task.Stage.target?] at nowhere
  | some place =>
    obtain ⟨c, there, here⟩ := List.exists_of_findSome?_eq_some at_
    obtain ⟨d, target, rfl⟩ := Option.map_eq_some_iff.mp here
    obtain ⟨run, found⟩ := List.mem_iff_getElem?.mp there
    refine tallied.draining run d ?_
    rw [Task.target?_eq_bind, Task.stage?, found]
    exact target

/-- The record and the counter of a worker are in agreement. -/
theorem tallied_of_records
    (run : Records (turn h) (fun _ => True) (observe h) (ofSettings name suffix settings world) log
      s) : Tallied log s := by
  induction run with
  | refl =>
    have off (run : Nat) :
        (ofSettings name suffix settings world : Site ω η).worker.task.target? run = none := by
      cases run <;> rfl
    exact ⟨fun run d executing => by simp [off] at executing, fun _ => ⟨rfl, rfl, 0, rfl, rfl⟩⟩
  | tail run _ last ih => exact ih.turn (kept_of_records run) last

theorem atWork_of_records
    (run : Records (turn h) (fun _ => True) (observe h) (ofSettings name suffix settings world) log
      s) : AtWork log s := by
  induction run with
  | refl =>
    intro run d p executing
    have off : (ofSettings name suffix settings world : Site ω η).worker.task.target? run = none := by
      cases run <;> rfl
    simp [off] at executing
  | tail run _ last ih => exact ih.turn (kept_of_records run).fresh last

/-- **Every packet is handled once at most, and in order.** The packets that have been appended to
the queue of a worker fall into those that its handlers have been called for, those that a clear
has discarded, the one in the hands of the drain loop if there is one, and those still in the
queue, each of these in the order of appending. A handler is called for a packet only once it has
come back from the one before, whatever it has answered. While the drain loop has no packet in
hand, as many are counted as handled as there were calls that handlers returned from, by a counter
of 64 bits. In a run that has been cancelled its handler is called for one packet more at most,
and for none once the handler has been finished.

Whenever a record shows it, the handler is called for the packet, or comes back from the one that it
was last called for, and leaves its own state and the world as it does. No other step of the worker or
of anybody else does anything with the handlers, or with the world unless it changes it from outside. -/
theorem each_packet_once
    (run : Records (turn h) (fun _ => True) (observe h) (ofSettings name suffix settings world) log
      s) :
    (∃ fates, Parted fates (Queue.appended (queueLog log)) (passed log) (discarded (queueLog log))
      s.held s.subscriber.queue.items) ∧
    s.held.length ≤ 1 ∧
    (passed log).length = (answers log).length + (s.worker.place?.any Draining.isAnswering).toNat ∧
    (s.worker.place?.any Draining.isBusy = false → s.worker.handled = returned log % counterRange) ∧
    (∀ k later t, s.worker.task.isCancelled k →
      Records (turn h) (fun _ => True) (observe h) s later t → (passedBy k later).length ≤ 1) ∧
    (∀ k before after, log = before ++ .finished k :: after → passedBy k after = []) ∧
    (∀ k before e after, log = before ++ e :: after → e.run? = some k → ∃ u l v d,
      Records (turn h) (fun _ => True) (observe h) (ofSettings name suffix settings world) before
        u ∧
      u.turn h l = some v ∧ u.worker.task.target? k = some d ∧
      Serves h u.worker.world d v.worker.world (v.worker.task.target? k) (some e) ∧
      Records (turn h) (fun _ => True) (observe h) v after s) ∧
    (∀ k d p, s.worker.task.target? k = some d → d.at_ = .conclude p →
      (passedBy k log).getLast? = some p) ∧
    ∀ l t, s.turn h l = some t → (∀ other, l ≠ .change other) →
      (s.observe h l).bind Event.run? = none → t.worker.world = s.worker.world ∧
        ∀ k d, s.worker.task.target? k = some d →
          ∃ at_, t.worker.task.target? k = some { d with at_ := at_ } := by
  have kept := kept_of_records run
  have tally := (tallied_of_records run).tally
  refine ⟨?_, ?_, tally.calls, ?_, ?_, ?_, ?_, atWork_of_records run, ?_⟩
  · obtain ⟨fates, gone⟩ := exists_parted (queueLog log) tally.order
    rw [kept.queue.order]
    have both := gone.append (parted_map .queued s.subscriber.queue.items)
    simp only [reduceCtorEq, if_false, if_true, List.append_nil, List.nil_append] at both
    exact ⟨_, both⟩
  · cases at_ : s.worker.place? with
    | none => simp [held, at_]
    | some place => cases place <;> simp [held, at_, Draining.held]
  · intro free
    obtain ⟨n, returned, same⟩ := tally.count
    have counted : s.worker.place?.any Draining.isCounting = false := by
      cases at_ : s.worker.place? with
      | none => rfl
      | some place =>
        rw [at_] at free
        cases place <;> simp_all [Draining.isBusy, Draining.isCounting]
    rw [counted] at returned
    rw [same, returned]
    rfl
  · intro k later t cancelled followed
    have few := (length_passedBy_of_isCancelled kept.fresh cancelled followed).1
    have one : s.passesLeft k ≤ 1 := by
      unfold passesLeft
      cases s.worker.task.target? k with
      | none => exact Nat.zero_le 1
      | some d => cases at_ : d.at_ <;> simp [at_, Draining.passesLeft]
    omega
  · rintro k before after rfl
    have ran := kept.runs k
    have split : runLog k (before ++ .finished k :: after) =
        runLog k before ++ .finished k :: runLog k after := by
      simp [runLog, Event.run?]
    rw [split] at ran
    rw [passedBy, ran.eq_nil_of_isLast rfl]
    rfl
  · intro k before e after split own
    obtain ⟨u, l, v, earlier, step, shown, later⟩ := run.exists_of_split split
    obtain ⟨d, executing, serves⟩ := exists_serves_of_observe own shown step
    exact ⟨u, l, v, d, earlier, step, executing, serves, later⟩
  · intro l t last inside quiet
    exact untouched_of_quiet kept.fresh inside quiet last

/-- Five packets. Two are handled, of which the second is refused, and one is discarded. The run is
cancelled after the loop has looked at its token, so that it takes the fourth packet all the same;
the last one stays in the queue. -/
def fiveFates : List (Turn Bench ScriptedHandler) :=
  let owner (n : Nat) : List (Turn Bench ScriptedHandler) :=
    List.replicate n (.inside (.worker .owner))
  let drain (n : Nat) : List (Turn Bench ScriptedHandler) :=
    List.replicate n (.inside (.worker (.drain 1 0)))
  let arrival (n : Nat) (id : Int) : List (Turn Bench ScriptedHandler) :=
    [.inside (.begin (.video id)), .inside (.producer n), .inside (.producer n)]
  List.flatten [
    [.inside (.worker (.begin (.start { refused := [2] })))], owner 10,
    List.replicate 4 (.inside (.worker (.thread 1))),
    arrival 0 1, arrival 1 2, drain 10, arrival 2 3, drain 1, [.clear], drain 3, arrival 3 4,
    drain 1, [.inside (.worker (.begin .stop))], owner 1, drain 1, arrival 4 5]

/-- Each of the five packets has its fate, and one call more at most is to come. The handler has noted
the two packets that it was called for. -/
theorem custody_of_fiveFates : ∃ log s,
    Records (turn ScriptedHandler.handler) (fun _ => True) (observe ScriptedHandler.handler)
      (ofSettings "w" "" { queueCapacity := 2 } {}) log s ∧
    s.worker.task.isCancelled 1 ∧ answers log = [.accepted, .refused] ∧ s.worker.handled = 2 ∧
    s.worker.world.log = [.received 1, .received 2] ∧
    (∃ fates, Parted fates [.video 1, .video 2, .video 3, .video 4, .video 5] [.video 1, .video 2]
      [.video 3] [.video 4] [.video 5]) ∧
    ∀ later t, Records (turn ScriptedHandler.handler) (fun _ => True)
      (observe ScriptedHandler.handler) s later t → (passedBy 1 later).length ≤ 1 := by
  have ran : (record? (turn ScriptedHandler.handler) (observe ScriptedHandler.handler)
      (ofSettings "w" "" { queueCapacity := 2 } {}) fiveFates).any (fun x =>
        x.2.worker.task.isCancelled 1 ∧ answers x.1 = [.accepted, .refused] ∧
          x.2.worker.handled = 2 ∧ x.2.worker.world.log = [.received 1, .received 2] ∧
          Queue.appended (queueLog x.1) = [.video 1, .video 2, .video 3, .video 4, .video 5] ∧
          passed x.1 = [.video 1, .video 2] ∧ discarded (queueLog x.1) = [.video 3] ∧
          x.2.held = [.video 4] ∧ x.2.subscriber.queue.items = [.video 5]) := by
    decide +kernel
  obtain ⟨log, s, run, facts⟩ := exists_records_of_any (fun _ _ => trivial) ran
  obtain ⟨cancelled, verdicts, handled, noted, appended, given, gone, inHand, items⟩ :=
    of_decide_eq_true facts
  obtain ⟨fates, -, -, -, few, -⟩ := each_packet_once run
  rw [appended, given, gone, inHand, items] at fates
  exact ⟨log, s, run, cancelled, verdicts, handled, noted, fates,
    fun later t => few 1 later t cancelled⟩

end Runs

end Site

end PacketRelay
