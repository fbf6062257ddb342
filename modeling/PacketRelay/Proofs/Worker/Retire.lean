import PacketRelay.Proofs.Queue.Fifo
import PacketRelay.Proofs.Record
import PacketRelay.Proofs.Worker.Owner

/-!
# Retiring the subscriber of a worker

A worker that is stopped terminates its subscriber and clears the queue twice, before and after it
waits for its drain thread. A thread that has passed the mark of the subscriber before it was
terminated goes on to push all the same, and a push that a clear has woken finds room or does not,
like any other. Nobody takes packets once the worker has been stopped. So what becomes of the queue
is settled by the number of threads that are past the mark when it is cleared for the second time:
each of them fills one slot, as long as there are slots, and all others wait without end.

Here a worker is followed together with its subscriber and with any number of threads that put
packets into its queue.

## Main definitions

* `Site`, `Site.step`: a worker, its subscriber, and the threads that put packets into the queue
* `Site.past`: the number of threads that have passed the mark and are not done
* `Site.Tended`, `Site.Retired`: what holds at all times, and once the worker has been stopped

## Main results

* `Tended.step`, `Retired.step`: the steps keep this
* `retired_iff`: a stop retires the queue exactly if nobody is past the mark when it is cleared for
  the second time
-/

namespace PacketRelay

open Schedule

/-- Is a thread past the mark of the subscriber, and not done? -/
def Enqueue.isPast : Enqueue → Bool
  | .push _ | .waiting => true
  | .check _ | .finished => false

/-- Is the owner of a worker past terminating the subscriber? -/
def Ownership.isRetiring {η : Type} : Ownership η → Bool
  | .clear _ | .joining _ | .clearAgain _ => true
  | _ => false

/-- A worker, its subscriber, and the threads that put packets into the queue. -/
structure Site (ω η : Type) where
  worker : Worker ω η
  subscriber : Subscriber Nat
  /-- All threads there have been that put a packet into the queue, numbered by their order -/
  producers : List Enqueue := []
deriving DecidableEq

namespace Site

variable {ω η : Type}

/-- A worker that has not been started, and its subscriber. -/
def ofSettings (name suffix : String) (settings : DrainSettings) (world : ω) : Site ω η where
  worker := .ofSettings 0 settings world
  subscriber := .ofName name suffix settings.queueCapacity

/-- What may take a step. -/
inductive Label (η : Type)
  -- The owner of the worker, or its drain thread
  | worker (l : Worker.Label η)
  -- A thread begins to put a packet into the queue.
  | begin (p : Packet)
  -- A thread that puts a packet into the queue makes an access.
  | producer (n : Nat)
  -- A waiting thread wakes up by itself.
  | stir (n : Nat)
deriving DecidableEq

/-- The site after a step. -/
def step (h : Handler ω η) (s : Site ω η) : Label η → Option (Site ω η)
  | .worker l => (s.worker.step h s.subscriber l).map fun x =>
    { s with worker := x.1, subscriber := x.2 }
  | .begin p => some { s with producers := s.producers ++ [.check p] }
  | .producer n => do
    let e ← s.producers[n]?
    let (x, e) ← e.step n s.subscriber
    some { s with subscriber := x, producers := s.producers.set n e }
  | .stir n => some { s with subscriber := s.subscriber.act (.stir n) }

/-- The owner of the worker begins no call. -/
def Later : Label η → Prop
  | .worker (.begin _) => False
  | _ => True

/-- The number of threads that have passed the mark and are not done. -/
def past (s : Site ω η) : Nat := s.producers.countP Enqueue.isPast

/-- The number of threads that wait in the queue. -/
def blocked (s : Site ω η) : Nat := s.producers.countP (· = .waiting)

/-- The labels of all threads there are. -/
def labels (s : Site ω η) : List (Label η) :=
  let runs := List.range s.worker.task.contexts.length
  .worker .owner :: (List.range s.producers.length).map .producer ++
    runs.map (fun run => .worker (.thread run)) ++ runs.map fun run => .worker (.drain run 0)

/-- Every thread that can take a step has done so. -/
def isAtRest (h : Handler ω η) (s : Site ω η) : Bool :=
  s.labels.all fun l => (s.step h l).isNone

end Site

section Accesses

variable {ι : Type} [DecidableEq ι] {a : ι} {x x' : Subscriber ι} {e e' : Enqueue}

/-- A thread looks at the mark of the subscriber, or makes one access to its queue, after which it
waits or is done. -/
theorem Enqueue.access_of_step (last : e.step a x = some (x', e'))
    (awake : e ≠ .waiting → x.queue.isWaiting a = false) :
    (∃ p, e = .check p ∧ x' = x ∧ e' = if x.active then .push p else .finished) ∨
    (e.isPast ∧ x'.active = x.active ∧ (e' = if x'.queue.isWaiting a then .waiting else .finished) ∧
      ((∃ p, x.queue.step (.push a p) = some x'.queue) ∨
        x.queue.step (.resume a) = some x'.queue)) := by
  cases e with
  | check p =>
    obtain ⟨rfl, rfl⟩ := Prod.mk.inj (Option.some.inj last)
    exact .inl ⟨p, rfl, rfl, rfl⟩
  | push p =>
    have fresh := awake (by simp)
    obtain ⟨rfl, rfl⟩ := Prod.mk.inj (Option.some.inj last)
    refine .inr ⟨rfl, rfl, ?_, .inl ⟨p, by simp [Queue.step, fresh]⟩⟩
    dsimp only
    rw [Queue.push]
    by_cases full : x.queue.isFull
    · rw [if_pos full, if_pos full, if_pos]
      simp [Queue.isWaiting]
    · rw [if_neg full, if_neg full, if_neg]
      simpa [Queue.isWaiting] using fresh
  | waiting =>
    obtain ⟨q, resumed, rfl, rfl⟩ := exists_resume_of_step last
    exact .inr ⟨rfl, rfl, rfl, .inr resumed⟩
  | finished => simp [Enqueue.step] at last

namespace Queue

/-- The thread that makes an access, if it pushes. -/
def Access.pusher? {α : Type} : Access ι α → Option ι
  | .push t _ | .resume t => some t
  | _ => none

/-- An access concerns no other thread that waits. -/
theorem Move.isWaiting_eq {α : Type} {q q' : Queue ι α} {l : Access ι α} {t : ι}
    (move : Move q q' l)
    (other : l.pusher? ≠ some t) : q'.isWaiting t = q.isWaiting t := by
  simp only [Queue.isWaiting_eq]
  cases move with
  | append _ _ _ same | again _ _ _ same | stir _ same | pop _ same | clear _ same => rw [same]
  | @wait u y _ _ _ more =>
    have ne : u ≠ t := fun same => other (congrArg some same)
    simp [more, ne]
  | @enter u y _ _ _ fewer =>
    have ne : u ≠ t := fun same => other (congrArg some same)
    rw [fewer, Bool.eq_iff_iff, List.any_eq_true, List.any_eq_true]
    constructor
    · rintro ⟨p, there, own⟩
      exact ⟨p, List.mem_of_mem_filter there, own⟩
    · rintro ⟨p, there, own⟩
      have at_ : p.1 = t := of_decide_eq_true own
      exact ⟨p, List.mem_filter.mpr ⟨there, by simpa [at_] using Ne.symm ne⟩, own⟩

/-- A push fills a slot, or its thread waits. -/
theorem Move.length_items {α : Type} {q q' : Queue ι α} {l : Access ι α} {t : ι}
    (move : Move q q' l)
    (own : l.pusher? = some t) : q'.items.length + (q'.isWaiting t).toNat = q.items.length + 1 := by
  cases move with
  | append fresh _ items same =>
    obtain rfl := Option.some.inj own
    have idle := not_isWaiting_iff.mpr (same ▸ fresh)
    simp [items, idle]
  | @wait u y _ _ items more =>
    obtain rfl := Option.some.inj own
    have waits : q'.isWaiting u = true := isWaiting_of_mem (x := y) (by simp [more])
    simp [items, waits]
  | @enter u y _ _ items fewer =>
    obtain rfl := Option.some.inj own
    have idle : q'.isWaiting u = false := not_isWaiting_iff.mpr (by simp [fewer])
    simp [items, idle]
  | again there _ items same =>
    obtain rfl := Option.some.inj own
    have waits := isWaiting_of_mem (same ▸ there)
    simp [items, waits]
  | _ => simp [Access.pusher?] at own

end Queue

end Accesses

namespace Site

variable {ω η : Type} {h : Handler ω η} {s s' : Site ω η} {l : Label η} {n capacity m : Nat}

/-- What holds at all times: the worker knows its drain thread, the queue keeps within its capacity,
and those who wait in it are those who say so. -/
structure Tended (capacity : Nat) (s : Site ω η) : Prop where
  worker : s.worker.Sound
  size : s.subscriber.queue.capacity = capacity
  bounded : s.subscriber.queue.items.length ≤ capacity
  distinct : s.subscriber.queue.Distinct
  inactive : s.worker.owner.isRetiring → s.subscriber.active = false
  waits : ∀ n, s.producers[n]? = some .waiting ↔ s.subscriber.queue.isWaiting n

/-- What holds once the worker has been stopped, by the number of threads that were past the mark
when the queue was cleared for the second time: each of them fills a slot or is still past the mark,
and nobody sleeps beside a free slot of which nobody has been told. -/
structure Retired (m : Nat) (s : Site ω η) : Prop where
  worker : s.worker.IsRetired
  inactive : s.subscriber.active = false
  covered : s.subscriber.queue.Covered 0
  conserved : s.subscriber.queue.items.length + s.past = m

section Producers

theorem getElem?_set_producer {e : Enqueue} (there : n < s.producers.length) (k : Nat) :
    (s.producers.set n e)[k]? = if k = n then some e else s.producers[k]? := by
  by_cases own : k = n
  · simp [own, there]
  · simp [own, List.getElem?_set_ne (Ne.symm own)]

theorem past_append {p : Packet} :
    past { s with producers := s.producers ++ [.check p] } = s.past := by
  simp [past, Enqueue.isPast]

/-- The count of those past the mark, when one thread goes on. -/
theorem countP_set_add {e : Enqueue} (e' : Enqueue) (here : s.producers[n]? = some e) :
    (s.producers.set n e').countP Enqueue.isPast + e.isPast.toNat =
      s.past + e'.isPast.toNat := by
  obtain ⟨there, found⟩ := List.getElem?_eq_some_iff.mp here
  have counted : e.isPast → 0 < s.past := by
    intro own
    exact List.countP_pos_iff.mpr ⟨e, List.mem_of_getElem? here, own⟩
  rw [List.countP_set there, found]
  unfold past at counted ⊢
  cases own : e.isPast <;> cases e'.isPast <;> simp_all

/-- What a producer does, in terms of the queue. -/
theorem producer_cases (tended : s.Tended capacity) (last : s.step h (.producer n) = some s') :
    ∃ e e' x', s.producers[n]? = some e ∧
      s' = { s with subscriber := x', producers := s.producers.set n e' } ∧
      ((∃ p, e = .check p ∧ x' = s.subscriber ∧
          e' = if s.subscriber.active then .push p else .finished) ∨
        e.isPast ∧ x'.active = s.subscriber.active ∧
          (e' = if x'.queue.isWaiting n then .waiting else .finished) ∧
          ∃ a, a.pusher? = some n ∧ s.subscriber.queue.step a = some x'.queue ∧
            s.subscriber.queue.silence? a = none) := by
  simp only [step, Option.bind_eq_bind, Option.bind_eq_some_iff, Option.some.injEq] at last
  obtain ⟨e, here, ⟨x', e'⟩, step, rfl⟩ := last
  refine ⟨e, e', x', here, rfl, ?_⟩
  have awake : e ≠ .waiting → s.subscriber.queue.isWaiting n = false := by
    intro other
    by_contra waits
    have there := (tended.waits n).mpr (by simpa using waits)
    exact other (Option.some.inj (here.symm.trans there))
  rcases Enqueue.access_of_step step awake with
    checked | ⟨beyond, active, next, ⟨p, access⟩ | access⟩
  · exact .inl checked
  · exact .inr ⟨beyond, active, next, .push n p, rfl, access, rfl⟩
  · exact .inr ⟨beyond, active, next, .resume n, rfl, access, rfl⟩

end Producers

section Always

theorem Tended.of_access {a : Queue.Access Nat Packet} (tended : s.Tended capacity)
    (worker : s'.worker.Sound) (access : s.subscriber.queue.step a = some s'.subscriber.queue)
    (inactive : s'.worker.owner.isRetiring → s'.subscriber.active = false)
    (waits : ∀ n, s'.producers[n]? = some .waiting ↔ s'.subscriber.queue.isWaiting n) :
    s'.Tended capacity where
  worker := worker
  size := (Queue.capacity_step access).trans tended.size
  bounded := by
    have bounded := tended.bounded
    rw [← tended.size] at bounded ⊢
    exact Queue.length_le_capacity_step bounded access
  distinct := Queue.distinct_step tended.distinct access
  inactive := inactive
  waits := waits

/-- What a worker does at its subscriber. -/
theorem access_of_worker {w : Worker ω η} {x : Subscriber Nat} {l : Worker.Label η}
    (last : s.worker.step h s.subscriber l = some (w, x)) :
    x.queue = s.subscriber.queue ∨
      ∃ a, a.pusher? = none ∧ s.subscriber.queue.step a = some x.queue := by
  cases l with
  | begin call =>
    simp only [Worker.step] at last
    split at last
    · obtain ⟨-, rfl⟩ := Prod.mk.inj (Option.some.inj last)
      exact .inl rfl
    · simp at last
  | owner =>
    cases Worker.ownerMove_of_ownerStep last with
    | clear | clearAgain => exact .inr ⟨.clear, rfl, rfl⟩
    | _ => exact .inl rfl
  | thread run =>
    obtain ⟨t, -, same⟩ := Option.map_eq_some_iff.mp last
    obtain ⟨-, rfl⟩ := Prod.mk.inj same
    exact .inl rfl
  | drain run pick =>
    obtain ⟨-, -, -, rfl | rfl⟩ := Worker.exists_of_drainStep last
    · exact .inl rfl
    · exact .inr ⟨.pop pick, rfl, rfl⟩

/-- The owner terminates the subscriber before it clears its queue, and nobody undoes it. -/
theorem inactive_of_worker {w : Worker ω η} {x : Subscriber Nat} {l : Worker.Label η}
    (before : s.worker.owner.isRetiring → s.subscriber.active = false)
    (last : s.worker.step h s.subscriber l = some (w, x)) :
    w.owner.isRetiring → x.active = false := by
  cases l with
  | begin call =>
    simp only [Worker.step] at last
    split at last
    · obtain ⟨rfl, rfl⟩ := Prod.mk.inj (Option.some.inj last)
      cases call <;> simp [Worker.begin, Ownership.isRetiring]
    · simp at last
  | owner =>
    cases Worker.ownerMove_of_ownerStep last with
    | refuse | launch | launched | cancel | dropped => simp [Worker.goTo, Ownership.isRetiring]
    | terminate => exact fun _ => rfl
    | clear at_ | joined at_ =>
      rw [at_] at before
      exact fun _ => before rfl
    | @clearAgain next at_ =>
      cases next <;> simp [Worker.afterStop, Worker.goTo, Ownership.isRetiring]
    | advance => exact before
  | thread run =>
    obtain ⟨t, -, same⟩ := Option.map_eq_some_iff.mp last
    obtain ⟨rfl, rfl⟩ := Prod.mk.inj same
    exact before
  | drain run pick =>
    obtain ⟨owner, -, -, rfl | rfl⟩ := Worker.exists_of_drainStep last
    all_goals
      rw [owner]
      exact before

/-- **What holds at all times is kept by every step.** -/
theorem Tended.step (tended : s.Tended capacity) (last : s.step h l = some s') :
    s'.Tended capacity := by
  cases l with
  | worker l =>
    obtain ⟨⟨w, x⟩, step, rfl⟩ := Option.map_eq_some_iff.mp last
    have worker := tended.worker.step step
    have inactive := inactive_of_worker tended.inactive step
    rcases access_of_worker step with same | ⟨a, pusher, access⟩
    · have same : x.queue = s.subscriber.queue := same
      exact ⟨worker, same ▸ tended.size, same ▸ tended.bounded, same ▸ tended.distinct, inactive,
        same ▸ tended.waits⟩
    · refine tended.of_access worker access inactive ?_
      intro n
      have still := (Queue.move_of_step access).isWaiting_eq (t := n) (by simp [pusher])
      rw [still]
      exact tended.waits n
  | begin p =>
    obtain rfl := Option.some.inj last
    refine ⟨tended.worker, tended.size, tended.bounded, tended.distinct, tended.inactive, ?_⟩
    intro n
    rw [← tended.waits n]
    dsimp only
    rw [getElem?_snoc]
    split
    · next last => simp [last]
    · rfl
  | producer n =>
    obtain ⟨e, e', x', here, rfl, ⟨p, rfl, rfl, next⟩ | ⟨-, active, next, a, pusher, access, -⟩⟩ :=
      producer_cases tended last
    · refine ⟨tended.worker, tended.size, tended.bounded, tended.distinct, tended.inactive, ?_⟩
      intro k
      have there := (List.getElem?_eq_some_iff.mp here).1
      rw [← tended.waits k, getElem?_set_producer there]
      split
      · next own =>
        rw [own, here, next]
        split <;> simp
      · rfl
    · refine tended.of_access tended.worker access
        (fun owner => active.trans (tended.inactive owner)) ?_
      intro k
      have there := (List.getElem?_eq_some_iff.mp here).1
      rw [getElem?_set_producer there]
      split
      · next own =>
        rw [own, next]
        dsimp only
        cases x'.queue.isWaiting n <;> simp
      · next other =>
        have still := (Queue.move_of_step access).isWaiting_eq (t := k)
          (by simpa [pusher] using Ne.symm other)
        rw [still]
        exact tended.waits k
  | stir n =>
    obtain rfl := Option.some.inj last
    have access : s.subscriber.queue.step (.stir n) = some (s.subscriber.queue.stir n) := rfl
    refine tended.of_access tended.worker access tended.inactive ?_
    intro k
    have still := (Queue.move_of_step access).isWaiting_eq (t := k) (by simp [Queue.Access.pusher?])
    rw [show (s.subscriber.act (.stir n)).queue = s.subscriber.queue.stir n from rfl, still]
    exact tended.waits k

end Always

section Later

theorem Tended.covered_of_access {a : Queue.Access Nat Packet} (tended : s.Tended capacity)
    (covered : s.subscriber.queue.Covered 0)
    (access : s.subscriber.queue.step a = some s'.subscriber.queue)
    (told : s.subscriber.queue.silence? a = none) : s'.subscriber.queue.Covered 0 := by
  have next := Queue.covered_step tended.distinct covered access
  rwa [told] at next

/-- **Once the worker has been stopped, its queue is settled by those who were past the mark.** -/
theorem Retired.step (retired : s.Retired m) (tended : s.Tended capacity) (later : Later l)
    (last : s.step h l = some s') : s'.Retired m := by
  cases l with
  | worker l =>
    obtain ⟨⟨w, x⟩, step, rfl⟩ := Option.map_eq_some_iff.mp last
    have other : ∀ call, l ≠ .begin call := by
      rintro call rfl
      exact later
    obtain ⟨worker, rfl⟩ := retired.worker.step other step
    exact ⟨worker, retired.inactive, retired.covered, retired.conserved⟩
  | begin p =>
    obtain rfl := Option.some.inj last
    exact ⟨retired.worker, retired.inactive, retired.covered,
      (congrArg (_ + ·) past_append).trans retired.conserved⟩
  | producer n =>
    have conserved := retired.conserved
    obtain ⟨e, e', x', here, rfl, ⟨p, rfl, rfl, next⟩ |
      ⟨beyond, active, next, a, pusher, access, told⟩⟩ := producer_cases tended last
    · -- The subscriber is terminated, and the packet is not accepted.
      rw [retired.inactive, if_neg (by simp)] at next
      have count := countP_set_add e' here
      rw [next] at count
      refine ⟨retired.worker, retired.inactive, retired.covered, ?_⟩
      rw [next]
      simp only [Enqueue.isPast, Bool.toNat_false, Nat.add_zero] at count
      show _ + List.countP _ _ = m
      rw [count]
      exact conserved
    · refine ⟨retired.worker, active.trans retired.inactive,
        tended.covered_of_access retired.covered access told, ?_⟩
      have filled := (Queue.move_of_step access).length_items pusher
      have count := countP_set_add e' here
      have stays : e'.isPast = x'.queue.isWaiting n := by
        rw [next]
        cases x'.queue.isWaiting n <;> rfl
      rw [beyond, stays, Bool.toNat_true] at count
      show _ + List.countP _ _ = m
      dsimp only
      omega
  | stir n =>
    obtain rfl := Option.some.inj last
    have access : s.subscriber.queue.step (.stir n) = some (s.subscriber.queue.stir n) := rfl
    exact ⟨retired.worker, retired.inactive, tended.covered_of_access retired.covered access rfl,
      retired.conserved⟩

/-- With the second clearing of the queue the worker has been stopped. -/
theorem Tended.retired {next : AfterStop} (tended : s.Tended capacity)
    (at_ : s.worker.owner = .clearAgain next) (last : s.step h (.worker .owner) = some s') :
    s'.Retired s'.past := by
  obtain ⟨⟨w, x⟩, step, rfl⟩ := Option.map_eq_some_iff.mp last
  obtain ⟨worker, rfl⟩ := tended.worker.isRetired at_ step
  refine ⟨worker, tended.inactive (by rw [at_]; rfl), ?_, ?_⟩
  · intro asleep
    simp [Queue.asleep, Subscriber.act, Queue.clear, Queue.notifyAll] at asleep
  · show List.length [] + _ = _
    simp

/-- At rest a thread that is past the mark waits. -/
theorem eq_waiting_of_rest {e : Enqueue} (rest : ∀ n, s.step h (.producer n) = none)
    (there : e ∈ s.producers) (beyond : e.isPast) : e = .waiting := by
  obtain ⟨n, here⟩ := List.mem_iff_getElem?.mp there
  cases e with
  | push p => simpa [step, here, Enqueue.step] using rest n
  | waiting => rfl
  | check | finished => simp [Enqueue.isPast] at beyond

/-- At rest nobody who waits has been notified. -/
theorem Tended.notified_eq_nil (tended : s.Tended capacity)
    (rest : ∀ n, s.step h (.producer n) = none) : s.subscriber.queue.notified = [] := by
  apply List.filter_eq_nil_iff.mpr
  intro w there woken
  have waits : s.subscriber.queue.isWaiting w.thread = true :=
    List.any_eq_true.mpr ⟨w, there, by simp⟩
  have here := (tended.waits w.thread).mpr waits
  have found :
      (s.subscriber.queue.waiting.find? fun v => v.thread == w.thread && v.notified).isSome :=
    List.find?_isSome.mpr ⟨w, there, by simpa using woken⟩
  obtain ⟨v, found⟩ := Option.isSome_iff_exists.mp found
  have stuck := rest w.thread
  by_cases full : s.subscriber.queue.isFull <;>
    simp [Site.step, here, Enqueue.step, Queue.resume, found, full] at stuck

/-- At rest those who were past the mark have filled the queue as far as they fit, and all others of
them wait. -/
theorem Retired.eq_min (retired : s.Retired m) (tended : s.Tended capacity)
    (rest : ∀ n, s.step h (.producer n) = none) :
    s.subscriber.queue.items.length = min m capacity ∧ s.blocked = m - capacity := by
  have conserved := retired.conserved
  have bounded := tended.bounded
  have same : s.past = s.blocked := by
    refine List.countP_congr fun e there => ?_
    constructor
    · intro beyond
      simp [eq_waiting_of_rest rest there beyond]
    · intro waits
      rw [of_decide_eq_true waits]
      rfl
  by_cases nobody : s.blocked = 0
  · omega
  · obtain ⟨e, there, waits⟩ := List.countP_pos_iff.mp (Nat.pos_of_ne_zero nobody)
    obtain ⟨n, here⟩ := List.mem_iff_getElem?.mp there
    rw [of_decide_eq_true waits, tended.waits n] at here
    obtain ⟨w, inside, -⟩ := List.any_eq_true.mp here
    have unaware := tended.notified_eq_nil rest
    have asleep : w ∈ s.subscriber.queue.asleep := by
      have quiet := List.filter_eq_nil_iff.mp unaware w inside
      exact List.mem_filter.mpr ⟨inside, by simpa using quiet⟩
    have full := retired.covered (List.ne_nil_of_mem asleep)
    rw [unaware, tended.size] at full
    simp only [List.length_nil] at full
    omega

end Later

section Runs

variable {name suffix : String} {settings : DrainSettings} {world : ω} {u v : Site ω η} {ε : Type}
  {shows : Site ω η → Label η → Option ε} {log : List ε} {next : AfterStop}

theorem tended (run : Reaches (step h) (ofSettings name suffix settings world) s) :
    s.Tended (max settings.queueCapacity 1) := by
  induction run with
  | refl =>
    refine ⟨Worker.sound_ofSettings, rfl, Nat.zero_le _, List.nodup_nil, by simp [ofSettings,
      Worker.ofSettings, Ownership.isRetiring], ?_⟩
    intro n
    simp [ofSettings, Subscriber.ofName, Queue.ofCapacity, Queue.isWaiting]
  | tail _ last ih => exact ih.step last

theorem retired_of_records (retired : u.Retired m) (tended : u.Tended capacity)
    (later : Records (step h) Later shows u log v) : v.Retired m ∧ v.Tended capacity := by
  induction later with
  | refl => exact ⟨retired, tended⟩
  | tail _ admitted last ih => exact ⟨ih.1.step ih.2 admitted last, ih.2.step last⟩

/-- Every thread that puts a packet into the queue has done what it can. -/
theorem producer_of_isAtRest (rest : v.isAtRest h) (n : Nat) : v.step h (.producer n) = none := by
  rcases Nat.lt_or_ge n v.producers.length with there | beyond
  · have all := List.all_eq_true.mp rest (.producer n) (by simp [labels, there])
    exact Option.isNone_iff_eq_none.mp all
  · simp [step, List.getElem?_eq_none beyond]

/-- **A stop retires the queue exactly if nobody is past the mark when it is cleared for the second
time.** Otherwise those who are past the mark fill the queue again as far as they fit, and all
others of them wait without end. What others put into the queue later does not matter. -/
theorem retired_iff (run : Reaches (step h) (ofSettings name suffix settings world) s)
    (at_ : s.worker.owner = .clearAgain next) (last : s.step h (.worker .owner) = some u)
    (later : Records (step h) Later shows u log v) :
    (u.past = 0 → v.subscriber.queue.items = [] ∧ v.blocked = 0) ∧
    (v.isAtRest h →
      v.subscriber.queue.items.length = min u.past (max settings.queueCapacity 1) ∧
      v.blocked = u.past - max settings.queueCapacity 1 ∧
      (v.subscriber.queue.items = [] ∧ v.blocked = 0 ↔ u.past = 0)) := by
  have before := tended run
  obtain ⟨retired, tended⟩ := retired_of_records (before.retired at_ last) (before.step last) later
  constructor
  · intro nobody
    have conserved := retired.conserved
    rw [nobody] at conserved
    have fewer : v.blocked ≤ v.past := List.countP_mono_left fun e _ waits => by
      rw [of_decide_eq_true waits]
      rfl
    exact ⟨List.length_eq_zero_iff.mp (by omega), by omega⟩
  · intro rest
    obtain ⟨items, blocked⟩ := retired.eq_min tended (producer_of_isAtRest rest)
    refine ⟨items, blocked, ?_⟩
    rw [← List.length_eq_zero_iff, items, blocked]
    omega

/-- A handler that accepts everything. -/
def acceptAll : Handler Unit Unit where
  receive world handler _ := (world, handler)
  conclude world handler _ := some (world, handler, .accepted)
  finish world handler := (world, handler)

/-- Threads that put a packet into the queue, up to where they have appended it or wait. -/
def arrivals (count : Nat) : List (Label Unit) :=
  (List.range count).flatMap fun n => [.begin (.video 1), .producer n, .producer n]

/-- A stop up to its first clear, and the rest of it up to the second one. -/
def firstClear : List (Label Unit) :=
  .worker (.begin .stop) :: List.replicate 3 (.worker .owner)

def joined : List (Label Unit) :=
  List.replicate 2 (.worker .owner)

/-- One producer waits at a full slot, and gets in between the two clears. Another one that comes
later is not accepted. -/
theorem retired_between_clears : ∃ s u v log,
    Reaches (step acceptAll) (ofSettings "w" "" { queueCapacity := 1 } ()) s ∧
    s.worker.owner = .clearAgain .done ∧ s.step acceptAll (.worker .owner) = some u ∧
    Records (step acceptAll) Later (fun _ _ => (none : Option Unit)) u log v ∧
    v.isAtRest acceptAll ∧ u.past = 0 ∧ v.producers.length = 3 ∧
    v.subscriber.queue.items = [] ∧ v.blocked = 0 := by
  have ran : (record? (step acceptAll) (fun _ _ => (none : Option Unit))
      (ofSettings "w" "" { queueCapacity := 1 } ())
      (arrivals 2 ++ firstClear ++ [.producer 1] ++ joined)).any (fun x =>
        x.2.worker.owner = .clearAgain .done ∧
          (x.2.step acceptAll (.worker .owner)).any fun u => u.past = 0 ∧
            (record? (step acceptAll) (fun _ _ => (none : Option Unit)) u
              [.begin (.video 2), .producer 2]).any fun y =>
                y.2.isAtRest acceptAll ∧ y.2.producers.length = 3) := by
    decide +kernel
  obtain ⟨log, s, run, facts⟩ := exists_records_of_any (fun _ _ => trivial) ran
  obtain ⟨at_, facts⟩ := of_decide_eq_true facts
  obtain ⟨u, last, facts⟩ := (Option.any_eq_true _ _).mp facts
  obtain ⟨nobody, facts⟩ := of_decide_eq_true facts
  have admitted : ∀ l ∈ ([.begin (.video 2), .producer 2] : List (Label Unit)), Later l := by
    simp [Later]
  obtain ⟨later, v, followed, facts⟩ := exists_records_of_any admitted facts
  obtain ⟨rest, length⟩ := of_decide_eq_true facts
  obtain ⟨items, blocked⟩ := ((retired_iff run.reaches at_ last followed).2 rest).2.2.mpr nobody
  exact ⟨s, u, v, later, run.reaches, at_, last, followed, rest, nobody, length, items, blocked⟩

/-- Three producers wait at a full slot. One gets in between the two clears, one after the second,
and the third waits without end at a queue that nobody drains. -/
theorem blocked_of_three : ∃ v, Reaches (step acceptAll)
      (ofSettings "w" "" { queueCapacity := 1 } ()) v ∧
    v.isAtRest acceptAll ∧ v.worker.owner = .free false ∧ v.subscriber.active = false ∧
    v.subscriber.queue.items.length = 1 ∧ v.blocked = 1 := by
  have ran : (record? (step acceptAll) (fun _ _ => (none : Option Unit))
      (ofSettings "w" "" { queueCapacity := 1 } ())
      (arrivals 4 ++ firstClear ++ [.producer 1, .producer 2, .producer 3] ++ joined ++
        [.worker .owner, .producer 2, .producer 3])).any (fun x =>
          x.2.isAtRest acceptAll ∧ x.2.worker.owner = .free false ∧ x.2.subscriber.active = false ∧
            x.2.subscriber.queue.items.length = 1 ∧ x.2.blocked = 1) := by
    decide +kernel
  obtain ⟨log, v, run, facts⟩ := exists_records_of_any (fun _ _ => trivial) ran
  exact ⟨v, run.reaches, of_decide_eq_true facts⟩

end Runs

end Site

end PacketRelay
