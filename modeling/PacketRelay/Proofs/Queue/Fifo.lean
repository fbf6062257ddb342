import PacketRelay.Proofs.Queue.Wakeup

/-!
# The order of a queue

A record of a schedule shows every call: a push with what it appends and whether it returns or goes
to sleep, the same each time a sleeping push has been woken, the answer of a pop, and what a clear
discards. What is appended is read off the items of the queue, and whether a push returns is read
off its waiters, so that neither is known from the record of the other.

For the order only two things matter of a step: the items, and which thread wants to append which
item. Who has been notified, by whom and how often, does not.

## Main definitions

* `Queue.pending`: the pushes that wait
* `Queue.Move`: what an access can do to the items and to the pushes that wait
* `Queue.Event`, `Queue.observe`: what an access shows
* `Queue.appended`, `Queue.removed`, `Queue.calledBy`, `Queue.appendedBy`, `Queue.returned`: what a
  record tells
* `Queue.Conserved`: the record and the queue agree

## Main results

* `move_of_step`: an access does nothing else
* `conserved_step`: the record and the queue stay in agreement
* `bounded_fifo`: a queue is bounded, keeps its order, and loses and duplicates nothing
-/

namespace PacketRelay.Queue

open Schedule

variable {ι α : Type}

/-- The pushes that wait, oldest first: each thread with its item. -/
def pending (q : Queue ι α) : List (ι × α) :=
  q.waiting.map fun w => (w.thread, w.item)

/-- What an access can do to the items and to the pushes that wait. -/
inductive Move [DecidableEq ι] (q q' : Queue ι α) : Access ι α → Prop
  -- A push finds room.
  | append {t : ι} {x : α} (fresh : ∀ y, (t, y) ∉ q.pending) (room : q.items.length < q.capacity)
      (items : q'.items = q.items ++ [x]) (same : q'.pending = q.pending) : Move q q' (.push t x)
  -- A push finds the queue full.
  | wait {t : ι} {x : α} (fresh : ∀ y, (t, y) ∉ q.pending) (full : q.capacity ≤ q.items.length)
      (items : q'.items = q.items) (more : q'.pending = q.pending ++ [(t, x)]) :
      Move q q' (.push t x)
  -- A push that has been woken finds room.
  | enter {t : ι} {x : α} (there : (t, x) ∈ q.pending) (room : q.items.length < q.capacity)
      (items : q'.items = q.items ++ [x])
      (fewer : q'.pending = q.pending.filter fun p => p.1 ≠ t) : Move q q' (.resume t)
  -- A push that has been woken finds the queue full again.
  | again {t : ι} {x : α} (there : (t, x) ∈ q.pending) (full : q.capacity ≤ q.items.length)
      (items : q'.items = q.items) (same : q'.pending = q.pending) : Move q q' (.resume t)
  -- A push is woken without a notification.
  | stir {t : ι} (items : q'.items = q.items) (same : q'.pending = q.pending) : Move q q' (.stir t)
  -- The oldest item is taken.
  | pop {pick : Nat} (items : q'.items = q.items.tail) (same : q'.pending = q.pending) :
      Move q q' (.pop pick)
  -- All items are discarded.
  | clear (items : q'.items = []) (same : q'.pending = q.pending) : Move q q' .clear

/-- What an access shows. -/
inductive Event (ι α : Type)
  -- A push is called, appends this, and returns or goes to sleep.
  | pushed (thread : ι) (item : α) (appends : List α) (returns : Bool)
  -- A push that has been woken appends this, and returns or goes to sleep again.
  | resumed (thread : ι) (appends : List α) (returns : Bool)
  -- A pop gives its answer.
  | popped (answer : Option α)
  -- A clear discards this.
  | cleared (discards : List α)
deriving DecidableEq

/-- What an access shows. A push appends what comes to stand behind the items that were there, and
it has returned if its thread does not wait. -/
def observe [DecidableEq ι] (q : Queue ι α) (a : Access ι α) : Option (Event ι α) :=
  (q.step a).bind fun q' =>
    match a with
    | .push t x => some (.pushed t x (q'.items.drop q.items.length) (!q'.isWaiting t))
    | .resume t => some (.resumed t (q'.items.drop q.items.length) (!q'.isWaiting t))
    | .stir _ => none
    | .pop pick => some (.popped (q.pop pick).1)
    | .clear => some (.cleared q.items)

/-- The thread whose push an event is about. -/
def Event.pusher? : Event ι α → Option ι
  | .pushed t .. | .resumed t .. => some t
  | _ => none

def Event.appends : Event ι α → List α
  | .pushed _ _ xs _ | .resumed _ xs _ => xs
  | _ => []

def Event.returns : Event ι α → Bool
  | .pushed _ _ _ back | .resumed _ _ back => back
  | _ => false

def Event.removes : Event ι α → List α
  | .popped answer => answer.toList
  | .cleared xs => xs
  | _ => []

/-- All items appended so far, in the order in which they were. -/
def appended (log : List (Event ι α)) : List α :=
  log.flatMap (·.appends)

/-- All items removed so far, in the order in which they were: one by each pop that has returned
one, and all that were there by each clear. -/
def removed (log : List (Event ι α)) : List α :=
  log.flatMap (·.removes)

section Threads

variable [DecidableEq ι]

/-- The pushes that a thread has called: their items, in order. -/
def calledBy (t : ι) (log : List (Event ι α)) : List α :=
  log.filterMap fun
    | .pushed u x _ _ => if u = t then some x else none
    | _ => none

/-- What the pushes of a thread have appended. -/
def appendedBy (t : ι) (log : List (Event ι α)) : List α :=
  appended (log.filter fun e => e.pusher? = some t)

/-- The number of pushes of a thread that have returned. -/
def returned (t : ι) (log : List (Event ι α)) : Nat :=
  log.countP fun e => e.pusher? = some t ∧ e.returns

/-- What the pushes of a thread that wait are to append. -/
def awaited (t : ι) (q : Queue ι α) : List α :=
  (q.pending.filter fun p => p.1 = t).map (·.2)

/-- The record and the queue agree: the items are those that have been appended and not removed,
and of the pushes of a thread those have appended their item that have returned. -/
structure Conserved (log : List (Event ι α)) (q : Queue ι α) : Prop where
  order : appended log = removed log ++ q.items
  calls : ∀ t, calledBy t log = appendedBy t log ++ awaited t q
  returns : ∀ t, returned t log = (appendedBy t log).length

end Threads

section Steps

variable [DecidableEq ι] {q q' : Queue ι α}

omit [DecidableEq ι] in
/-- Waking waiters or putting them to sleep does not change what they want to append. -/
theorem map_pending_map {f : Waiter ι α → Waiter ι α}
    (keeps : ∀ w, (f w).thread = w.thread ∧ (f w).item = w.item) (ws : List (Waiter ι α)) :
    (ws.map f).map (fun w => (w.thread, w.item)) = ws.map fun w => (w.thread, w.item) := by
  rw [List.map_map]
  exact List.map_congr_left fun w _ => Prod.ext (keeps w).1 (keeps w).2

omit [DecidableEq ι] in
theorem map_pending_notifyAt (n : Nat) (ws : List (Waiter ι α)) :
    (notifyAt n ws).map (fun w => (w.thread, w.item)) = ws.map fun w => (w.thread, w.item) := by
  induction ws generalizing n with
  | nil => cases n <;> rfl
  | cons w ws ih =>
    unfold notifyAt
    split
    · simp [ih]
    · cases n <;> simp [ih]

theorem isWaiting_eq (q : Queue ι α) (t : ι) :
    q.isWaiting t = q.pending.any fun p => p.1 = t := by
  rw [isWaiting, pending, List.any_map]
  congr

theorem not_isWaiting_iff {t : ι} : q.isWaiting t = false ↔ ∀ x, (t, x) ∉ q.pending := by
  rw [isWaiting_eq]
  simp only [List.any_eq_false, decide_eq_true_eq, Prod.forall]
  constructor
  · intro other x there
    exact other t x there rfl
  · rintro fresh u x there rfl
    exact fresh x there

theorem isWaiting_of_mem {t : ι} {x : α} (there : (t, x) ∈ q.pending) : q.isWaiting t = true := by
  rw [isWaiting_eq]
  exact List.any_eq_true.mpr ⟨(t, x), there, by simp⟩

/-- An access does nothing else. -/
theorem move_of_step {a : Access ι α} (last : q.step a = some q') : Move q q' a := by
  cases a with
  | push t x =>
    obtain ⟨fresh, rfl⟩ : q.isWaiting t = false ∧ q.push t x = q' := by simpa [step] using last
    rw [not_isWaiting_iff] at fresh
    unfold push
    by_cases full : q.capacity ≤ q.items.length
    · rw [if_pos (by simpa [isFull] using full)]
      exact .wait fresh full rfl (by simp [pending])
    · rw [if_neg (by simpa [isFull] using full)]
      exact .append fresh (by omega) rfl rfl
  | resume t =>
    obtain ⟨w, found, moves⟩ := resume_cases last
    have there : (t, w.item) ∈ q.pending := by
      obtain ⟨inside, rfl, -⟩ := notified_of_find? found
      exact List.mem_map_of_mem inside
    rcases moves with ⟨full, rfl⟩ | ⟨room, rfl⟩
    · refine .again there (by simpa [isFull] using full) rfl ?_
      exact map_pending_map (fun v => by split <;> simp) _
    · refine .enter there (by simpa [isFull] using room) rfl ?_
      simp only [pending, List.filter_map, Function.comp_def]
  | stir t =>
    obtain rfl := Option.some.inj last
    exact .stir rfl (map_pending_map (fun w => by split <;> simp) _)
  | pop pick =>
    obtain rfl := Option.some.inj last
    rcases q.pop_snd_cases pick with popped | ⟨k, popped⟩ <;> rw [popped]
    · exact .pop rfl rfl
    · exact .pop rfl (map_pending_notifyAt _ _)
  | clear =>
    obtain rfl := Option.some.inj last
    exact .clear rfl (map_pending_map (f := fun w => { w with notified := true })
      (fun _ => ⟨rfl, rfl⟩) q.waiting)

omit [DecidableEq ι] in
theorem pop_fst (q : Queue ι α) (pick : Nat) : (q.pop pick).1 = q.items.head? := by
  unfold pop
  cases q.items <;> rfl

theorem length_le_capacity_step {a : Access ι α} (bounded : q.items.length ≤ q.capacity)
    (last : q.step a = some q') : q'.items.length ≤ q.capacity := by
  cases move_of_step last with
  | append _ room items | enter _ room items =>
    rw [items, List.length_append, List.length_singleton]
    exact room
  | wait _ _ items | again _ _ items | stir items =>
    rw [items]
    exact bounded
  | pop items =>
    rw [items, List.length_tail]
    omega
  | clear items =>
    rw [items]
    exact Nat.zero_le _

omit [DecidableEq ι] in
theorem Distinct.nodup_pending (distinct : q.Distinct) : (q.pending.map (·.1)).Nodup := by
  rw [pending, List.map_map]
  exact distinct

/-- A thread that waits has one push that waits. -/
theorem awaited_eq_singleton {t : ι} {x : α} (distinct : q.Distinct) (there : (t, x) ∈ q.pending) :
    awaited t q = [x] := by
  rw [awaited, filter_key_eq_singleton distinct.nodup_pending there]
  rfl

/-- That another push has got in does not change what the pushes of a thread are to append. -/
theorem awaited_of_others {t u : ι} (other : t ≠ u)
    (fewer : q'.pending = q.pending.filter fun p => p.1 ≠ u) : awaited t q' = awaited t q := by
  unfold awaited
  rw [fewer, List.filter_filter]
  congr 1
  apply List.filter_congr
  rintro ⟨v, x⟩ _
  by_cases own : v = t <;> simp [own, other]

theorem awaited_eq_nil {t : ι} (fresh : ∀ x, (t, x) ∉ q.pending) : awaited t q = [] := by
  unfold awaited
  rw [List.map_eq_nil_iff, List.filter_eq_nil_iff]
  rintro ⟨u, x⟩ there same
  obtain rfl : u = t := by simpa using same
  exact fresh x there

end Steps

section Records

variable [DecidableEq ι] {q q' : Queue ι α} {log : List (Event ι α)} {e : Event ι α} {t : ι}

omit [DecidableEq ι] in
theorem appended_snoc : appended (log ++ [e]) = appended log ++ e.appends := by
  simp [appended]

omit [DecidableEq ι] in
theorem removed_snoc : removed (log ++ [e]) = removed log ++ e.removes := by
  simp [removed]

theorem calledBy_snoc : calledBy t (log ++ [e]) = calledBy t log ++ calledBy t [e] :=
  List.filterMap_append

theorem appendedBy_snoc :
    appendedBy t (log ++ [e]) =
      appendedBy t log ++ if e.pusher? = some t then e.appends else [] := by
  unfold appendedBy appended
  rw [List.filter_append, List.flatMap_append]
  by_cases own : e.pusher? = some t <;> simp [own]

theorem returned_snoc :
    returned t (log ++ [e]) = returned t log + if e.pusher? = some t ∧ e.returns then 1 else 0 := by
  unfold returned
  rw [List.countP_append]
  by_cases own : e.pusher? = some t ∧ e.returns <;> simp [own]

/-- What an event has to tell for the record to stay in agreement with the queue. -/
theorem Conserved.snoc (before : Conserved log q)
    (order : q.items ++ e.appends = e.removes ++ q'.items)
    (calls : ∀ t, awaited t q ++ calledBy t [e] =
      (if e.pusher? = some t then e.appends else []) ++ awaited t q')
    (returns : e.pusher?.isSome → e.appends.length = e.returns.toNat) :
    Conserved (log ++ [e]) q' where
  order := by
    rw [appended_snoc, removed_snoc, before.order, List.append_assoc, List.append_assoc, order]
  calls t := by
    rw [calledBy_snoc, appendedBy_snoc, before.calls, List.append_assoc, List.append_assoc, calls]
  returns t := by
    rw [returned_snoc, appendedBy_snoc, before.returns, List.length_append]
    by_cases own : e.pusher? = some t
    · have count := returns (by rw [own]; rfl)
      cases back : e.returns <;> simp [own, back, count]
    · simp [own]

/-- The record and the queue stay in agreement. -/
theorem conserved_step {a : Access ι α} (distinct : q.Distinct) (before : Conserved log q)
    (last : q.step a = some q') : Conserved (log ++ (q.observe a).toList) q' := by
  have shown : q.observe a = (q.step a).bind _ := rfl
  rw [last, Option.bind_some] at shown
  cases move_of_step last with
  | @append u x fresh room items same =>
    have back : q'.isWaiting u = false := not_isWaiting_iff.mpr (same ▸ fresh)
    rw [shown]
    simp only [back, items, List.drop_left, Option.toList_some]
    apply before.snoc
    · simp [Event.appends, Event.removes, items]
    · intro t
      by_cases own : u = t
      · subst own
        have idle : awaited u q' = [] := awaited_eq_nil (same ▸ fresh)
        simp [Event.pusher?, Event.appends, calledBy, awaited_eq_nil fresh, idle]
      · simp [Event.pusher?, calledBy, own, awaited, same]
    · simp [Event.appends, Event.returns]
  | @wait u x fresh full items more =>
    have asleep : q'.isWaiting u = true := isWaiting_of_mem (x := x) (by simp [more])
    rw [shown]
    simp only [asleep, items, List.drop_length, Option.toList_some]
    apply before.snoc
    · simp [Event.appends, Event.removes, items]
    · intro t
      by_cases own : u = t <;>
        simp [Event.appends, calledBy, own, awaited, more]
    · simp [Event.appends, Event.returns]
  | @enter u x there room items fewer =>
    have back : q'.isWaiting u = false := not_isWaiting_iff.mpr (by simp [fewer])
    rw [shown]
    simp only [back, items, List.drop_left, Option.toList_some]
    apply before.snoc
    · simp [Event.appends, Event.removes, items]
    · intro t
      by_cases own : u = t
      · subst own
        have idle : awaited u q' = [] := awaited_eq_nil (by simp [fewer])
        simp [Event.pusher?, Event.appends, calledBy, awaited_eq_singleton distinct there, idle]
      · simp [Event.pusher?, calledBy, own, awaited_of_others (Ne.symm own) fewer]
    · simp [Event.appends, Event.returns]
  | @again u x there full items same =>
    have asleep : q'.isWaiting u = true := isWaiting_of_mem (same ▸ there)
    rw [shown]
    simp only [asleep, items, List.drop_length, Option.toList_some]
    apply before.snoc
    · simp [Event.appends, Event.removes, items]
    · intro t
      simp [Event.appends, calledBy, awaited, same]
    · simp [Event.appends, Event.returns]
  | stir items same =>
    rw [shown]
    simpa using Conserved.mk (items ▸ before.order) (by simpa [awaited, same] using before.calls)
      before.returns
  | pop items same =>
    rw [shown]
    apply before.snoc
    · simp only [Event.appends, Event.removes, pop_fst, items]
      cases q.items <;> simp
    · simp [Event.pusher?, calledBy, awaited, same]
    · simp [Event.pusher?]
  | clear items same =>
    rw [shown]
    apply before.snoc
    · simp [Event.appends, Event.removes, items]
    · simp [Event.pusher?, calledBy, awaited, same]
    · simp [Event.pusher?]

/-- A push that finds room appends its item without waiting. -/
theorem push_of_room {x : α} (fresh : q.isWaiting t = false) (room : q.items.length < q.capacity) :
    ∃ q', q.step (.push t x) = some q' ∧ q'.items = q.items ++ [x] ∧ q'.isWaiting t = false := by
  refine ⟨q.push t x, by simp [step, fresh], ?_⟩
  have notFull : q.isFull = false := by simpa [isFull] using room
  rw [push, notFull]
  exact ⟨rfl, fresh⟩

/-- So does a push that has been woken. -/
theorem resume_of_room (distinct : q.Distinct) (room : q.items.length < q.capacity)
    (last : q.step (.resume t) = some q') :
    ∃ x, awaited t q = [x] ∧ q'.items = q.items ++ [x] ∧ q'.isWaiting t = false := by
  cases move_of_step last with
  | @enter _ x there _ items fewer =>
    exact ⟨x, awaited_eq_singleton distinct there, items, not_isWaiting_iff.mpr (by simp [fewer])⟩
  | again _ full => exact absurd room (Nat.not_lt.mpr full)

end Records

section Runs

variable [DecidableEq ι] {n : Nat} {q : Queue ι α} {log : List (Event ι α)}

theorem length_le_capacity_reaches (run : Reaches step (ofCapacity n) q) :
    q.items.length ≤ q.capacity := by
  induction run with
  | refl => exact Nat.zero_le _
  | tail _ last ih =>
    rw [capacity_step last]
    exact length_le_capacity_step ih last

theorem conserved (run : Records step (fun _ => True) observe (ofCapacity n) log q) :
    Conserved log q := by
  induction run with
  | refl => exact ⟨rfl, fun _ => rfl, fun _ => rfl⟩
  | tail run _ last ih => exact conserved_step (distinct_reaches run.reaches) ih last

/-- **A bounded queue that loses and duplicates nothing.** Whatever its threads do and whenever they
are woken: the queue holds no more than it may; what has been appended is what has been removed,
followed by what is there; each thread has appended the items of its pushes that have returned, each
once, and not that of a push that waits; a pop answers the oldest item, and none only if there is
none; and a push that finds room, whether it has waited before or not, appends without waiting. -/
theorem bounded_fifo (run : Records step (fun _ => True) observe (ofCapacity n) log q) :
    q.items.length ≤ max n 1 ∧
    appended log = removed log ++ q.items ∧
    (∀ t, calledBy t log = appendedBy t log ++ awaited t q ∧
      returned t log = (appendedBy t log).length) ∧
    (∀ pick, (q.pop pick).1 = q.items.head?) ∧
    ∀ t, q.items.length < max n 1 →
      (∀ x, q.isWaiting t = false → ∃ q', q.step (.push t x) = some q' ∧
        q'.items = q.items ++ [x] ∧ q'.isWaiting t = false) ∧
      ∀ q', q.step (.resume t) = some q' → ∃ x, awaited t q = [x] ∧
        q'.items = q.items ++ [x] ∧ q'.isWaiting t = false := by
  have history := conserved run
  have capacity := capacity_reaches run.reaches
  refine ⟨?_, history.order, fun t => ⟨history.calls t, history.returns t⟩, pop_fst q, ?_⟩
  · rw [← capacity]
    exact length_le_capacity_reaches run.reaches
  · intro t room
    rw [← capacity] at room
    constructor
    · intro x fresh
      exact push_of_room fresh room
    · intro q' last
      exact resume_of_room (distinct_reaches run.reaches) room last

/-- Three producers at a queue whose capacity zero is taken as one. Two of them wait; one is woken
for nothing and sleeps again; a pop lets one in and a clear the other. -/
theorem bounded_fifo_of_race : ∃ (log : List (Event Nat Nat)) (q : Queue Nat Nat),
    Records step (fun _ => True) observe (ofCapacity 0) log q ∧
    appended log = [10, 30, 20] ∧ removed log = [10, 30] ∧ q.items = [20] ∧
    calledBy 2 log = [20, 21] ∧ appendedBy 2 log = [20] ∧ awaited 2 q = [21] ∧
    q.items.length ≤ 1 ∧ appended log = removed log ++ q.items ∧
    (q.pop 0).1 = some 20 := by
  have ran : (record? step observe (ofCapacity 0 : Queue Nat Nat) [.push 1 10, .push 2 20,
      .push 3 30, .stir 2, .resume 2, .pop 1, .resume 3, .clear, .resume 2, .push 2 21]).any
      (fun x =>
        appended x.1 = [10, 30, 20] ∧ removed x.1 = [10, 30] ∧ x.2.items = [20] ∧
          calledBy 2 x.1 = [20, 21] ∧ appendedBy 2 x.1 = [20] ∧ awaited 2 x.2 = [21]) := by
    decide +kernel
  obtain ⟨log, q, run, shown⟩ := exists_records_of_any (fun _ _ => trivial) ran
  obtain ⟨all, gone, left, called, back, waits⟩ := of_decide_eq_true shown
  obtain ⟨bound, order, -, oldest, -⟩ := bounded_fifo run
  exact ⟨log, q, run, all, gone, left, called, back, waits, bound, order, by rw [oldest, left]; rfl⟩

end Runs

end PacketRelay.Queue
