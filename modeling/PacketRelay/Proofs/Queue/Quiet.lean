import PacketRelay.Proofs.Queue.Fifo
import PacketRelay.Queue.Session

/-!
# The counts of a queue at rest

A queue is at rest when nobody who waits has been notified. Calls are made at rest, one after the
other, and after each of them the woken threads go on until the queue is at rest again: in any
order, with any choice of whom a pop notifies, and with threads that wake up for nothing. Who gets in
depends on all that. How many do does not: the numbers of items, of pushes that wait, and of
whatever has been pushed, popped and discarded are those of a machine that only counts.

What keeps the two in step is that at rest nobody sleeps beside a free slot. A pop at rest is
therefore never a silent one, and the free slots stay covered by the threads that have been notified
until none of them is left.

## Main definitions

* `Queue.IsAtRest`: no thread can take a step
* `Queue.Turn`: a call at rest, and the way of the woken threads to the next rest
* `Queue.Paced`: calls that are made in this way from the beginning
* `Queue.Counts`, `Queue.Counts.after`: the machine that counts

## Main results

* `Queue.exists_turn`: after a call the threads do come to rest
* `Queue.counts_at_rest`: the counts are those of the machine, whatever the order of the threads
* `Queue.Session.paced`: calls in a session are made in this way
-/

namespace PacketRelay.Queue

open Schedule

variable {ι α : Type}

/-- What a call asks of a queue, whoever makes it. -/
inductive Kind
  | push
  | pop
  | clear
deriving DecidableEq, Repr

/-- The kind of call that an access begins; nothing for a thread that goes on or wakes up. -/
def Access.kind? : Access ι α → Option Kind
  | .push .. => some .push
  | .pop _ => some .pop
  | .clear => some .clear
  | .resume _ | .stir _ => none

/-- What a queue at rest has come to. -/
structure Counts where
  /-- The items that are there -/
  length : Nat := 0
  /-- The pushes that wait -/
  blocked : Nat := 0
  /-- The pushes that have been called -/
  pushed : Nat := 0
  /-- The items that have been taken -/
  popped : Nat := 0
  /-- The items that have been discarded -/
  discarded : Nat := 0
deriving DecidableEq, Repr

/-- The counts after one more call on a queue of the given capacity. -/
def Counts.after (capacity : Nat) (c : Counts) : Kind → Counts
  | .push =>
    if c.length < capacity then { c with length := c.length + 1, pushed := c.pushed + 1 }
    else { c with blocked := c.blocked + 1, pushed := c.pushed + 1 }
  | .pop =>
    if c.length = 0 then c
    else if 0 < c.blocked then { c with blocked := c.blocked - 1, popped := c.popped + 1 }
    else { c with length := c.length - 1, popped := c.popped + 1 }
  | .clear =>
    { c with
      length := min c.blocked capacity
      blocked := c.blocked - min c.blocked capacity
      discarded := c.discarded + c.length }

def Event.isPush : Event ι α → Bool
  | .pushed .. => true
  | _ => false

/-- The items that an event takes. -/
def Event.answers : Event ι α → List α
  | .popped answer => answer.toList
  | _ => []

/-- The items that an event discards. -/
def Event.discards : Event ι α → List α
  | .cleared xs => xs
  | _ => []

/-- The counts that a record and a queue show. -/
def countsOf (log : List (Event ι α)) (q : Queue ι α) : Counts where
  length := q.items.length
  blocked := q.pending.length
  pushed := log.countP Event.isPush
  popped := (log.flatMap Event.answers).length
  discarded := (log.flatMap Event.discards).length

section Turns

variable [DecidableEq ι]

/-- No thread can take a step. -/
def IsAtRest (q : Queue ι α) : Prop :=
  ∀ t, q.resume t = none

/-- The woken threads go on in some order, and others may wake up for nothing. -/
def Wakes (q : Queue ι α) (log : List (Event ι α)) (q' : Queue ι α) : Prop :=
  Records step (fun a => a.kind? = none) observe q log q'

/-- A call is made, and the threads go on until none can take a step. -/
structure Turn (q : Queue ι α) (a : Access ι α) (log : List (Event ι α)) (q' : Queue ι α) : Prop where
  run : ∃ u later, q.step a = some u ∧ u.Wakes later q' ∧ log = (q.observe a).toList ++ later
  rest : q'.IsAtRest

/-- Calls of these kinds have been made one after the other, each of them at rest. -/
inductive Paced (n : Nat) : List Kind → List (Event ι α) → Queue ι α → Prop
  -- No call has been made.
  | start : Paced n [] [] (ofCapacity n)
  -- One more call
  | turn {ks : List Kind} {k : Kind} {log during : List (Event ι α)} {q q' : Queue ι α}
      {a : Access ι α} (before : Paced n ks log q) (kind : a.kind? = some k)
      (turn : q.Turn a during q') : Paced n (ks ++ [k]) (log ++ during) q'

/-- The pushes that waited in the first queue and have returned in the second. -/
def completed (q q' : Queue ι α) : List (ι × α) :=
  q.pending.filter fun p => !q'.isWaiting p.1

end Turns

section Rest

variable [DecidableEq ι] {q q' : Queue ι α} {t : ι}

/-- At rest everybody who waits is asleep. -/
theorem isAtRest_iff : q.IsAtRest ↔ q.notified = [] := by
  simp only [IsAtRest, resume_eq_none_iff, notified, List.filter_eq_nil_iff, Bool.not_eq_true]
  exact ⟨fun rest w there => rest w.thread w there rfl, fun asleep _ w there _ => asleep w there⟩

/-- A thread that has gone on is in, or asleep again. -/
theorem not_notified_of_resume (last : q.resume t = some q') :
    ∀ w ∈ q'.waiting, w.notified = true → w ∈ q.waiting ∧ w.thread ≠ t := by
  obtain ⟨_, -, ⟨-, rfl⟩ | ⟨-, rfl⟩⟩ := resume_cases last
  · intro w there woken
    obtain ⟨v, waits, rfl⟩ := List.mem_map.mp there
    split at woken
    · simp at woken
    · next other => exact ⟨by simpa [other] using waits, by simp [other]⟩
  · intro w there _
    simpa using List.mem_filter.mp there

/-- Some threads go on one after the other, those of them that can. -/
def resumeAll (q : Queue ι α) (ts : List ι) : Queue ι α :=
  ts.foldl (fun q t => (q.resume t).getD q) q

/-- Once all that were woken have gone on, the queue is at rest. -/
theorem isAtRest_resumeAll {ts : List ι} (all : ∀ w ∈ q.waiting, w.notified = true → w.thread ∈ ts) :
    (q.resumeAll ts).IsAtRest := by
  induction ts generalizing q with
  | nil =>
    intro t
    refine resume_eq_none_iff.mpr fun w there _ => ?_
    simpa using all w there
  | cons t ts ih =>
    refine ih (q := (q.resume t).getD q) fun w there woken => ?_
    cases gone : q.resume t with
    | none =>
      rw [gone] at there
      have other : w.thread ≠ t := by
        rintro own
        simp [resume_eq_none_iff.mp gone w there own] at woken
      exact (List.mem_cons.mp (all w there woken)).resolve_left other
    | some u =>
      rw [gone] at there
      obtain ⟨waits, other⟩ := not_notified_of_resume gone w there woken
      exact (List.mem_cons.mp (all w waits woken)).resolve_left other

theorem exists_wakes_resumeAll (q : Queue ι α) (ts : List ι) : ∃ log, q.Wakes log (q.resumeAll ts) := by
  induction ts generalizing q with
  | nil => exact ⟨[], .refl q⟩
  | cons t ts ih =>
    cases gone : q.resume t with
    | none =>
      have same : q.resumeAll (t :: ts) = q.resumeAll ts := by simp [resumeAll, gone]
      exact same ▸ ih q
    | some u =>
      have next : q.resumeAll (t :: ts) = u.resumeAll ts := by simp [resumeAll, gone]
      obtain ⟨later, path⟩ := ih u
      have first : q.Wakes ([] ++ _) u := (Records.refl q).tail (l := Access.resume t) rfl gone
      exact ⟨_, next ▸ first.trans path⟩

/-- After a call the threads come to rest once each of those who wait has had its turn. -/
theorem exists_turn_resumeAll {a : Access ι α} {u : Queue ι α} (called : q.step a = some u) :
    ∃ log, q.Turn a log (u.resumeAll (u.waiting.map (·.thread))) := by
  obtain ⟨later, path⟩ := u.exists_wakes_resumeAll (u.waiting.map (·.thread))
  refine ⟨_, ⟨u, later, called, path, rfl⟩, ?_⟩
  exact isAtRest_resumeAll fun w there _ => List.mem_map_of_mem there

/-- **After a call the threads come to rest.** -/
theorem exists_turn {a : Access ι α} (can : (q.step a).isSome) : ∃ log q', q.Turn a log q' := by
  obtain ⟨u, called⟩ := Option.isSome_iff_exists.mp can
  obtain ⟨log, turn⟩ := exists_turn_resumeAll called
  exact ⟨log, _, turn⟩

end Rest

section Wakes

variable [DecidableEq ι] {q q' : Queue ι α} {log : List (Event ι α)}

/-- What the woken threads do: they carry items in as long as there is room, and call for nothing. -/
structure Woken (q : Queue ι α) (log : List (Event ι α)) (q' : Queue ι α) : Prop where
  capacity : q'.capacity = q.capacity
  distinct : q'.Distinct
  bounded : q'.items.length ≤ q'.capacity
  covered : q'.Covered 0
  /-- Whoever has carried his item in waits no more. -/
  total : q'.items.length + q'.pending.length = q.items.length + q.pending.length
  fewer : q'.pending.Sublist q.pending
  silent : ∀ e ∈ log, e.isPush = false ∧ e.answers = [] ∧ e.discards = []

theorem silent_of_kind?_eq_none {a : Access ι α} (none : a.kind? = none) :
    ∀ e ∈ (q.observe a).toList, e.isPush = false ∧ e.answers = [] ∧ e.discards = [] := by
  intro e shown
  obtain ⟨u, -, told⟩ := Option.bind_eq_some_iff.mp (Option.mem_toList.mp shown)
  cases a with
  | resume t =>
    obtain rfl := Option.some.inj told
    exact ⟨rfl, rfl, rfl⟩
  | stir t => simp at told
  | _ => simp [Access.kind?] at none

/-- Whoever gets in is one fewer who waits. -/
theorem length_pending_filter {t : ι} {x : α} (distinct : q.Distinct) (there : (t, x) ∈ q.pending) :
    (q.pending.filter fun p => p.1 ≠ t).length + 1 = q.pending.length := by
  have split := List.length_eq_length_filter_add (l := q.pending) (fun p => decide (p.1 = t))
  rw [filter_key_eq_singleton distinct.nodup_pending there] at split
  simp only [List.length_singleton, decide_not, ne_eq] at split ⊢
  omega

theorem wakes_woken (distinct : q.Distinct) (bounded : q.items.length ≤ q.capacity)
    (covered : q.Covered 0) (run : q.Wakes log q') : q.Woken log q' := by
  induction run with
  | refl =>
    exact ⟨rfl, distinct, bounded, covered, rfl, .refl _, by simp⟩
  | @tail u v log a _ admitted last woken =>
    have silence : u.silence? a = none := by cases a <;> first | rfl | simp [Access.kind?] at admitted
    have told : ∀ e ∈ log ++ (u.observe a).toList,
        e.isPush = false ∧ e.answers = [] ∧ e.discards = [] := by
      intro e inside
      exact (List.mem_append.mp inside).elim (woken.silent e) (silent_of_kind?_eq_none admitted e)
    have moved : v.items.length + v.pending.length = u.items.length + u.pending.length ∧
        v.pending.Sublist u.pending := by
      cases move_of_step last with
      | enter there _ items fewer =>
        have := length_pending_filter woken.distinct there
        rw [items, fewer, List.length_append, List.length_singleton]
        exact ⟨by omega, List.filter_sublist⟩
      | again _ _ items same | stir items same => rw [items, same]; exact ⟨rfl, .refl _⟩
      | _ => simp [Access.kind?] at admitted
    exact {
      capacity := (capacity_step last).trans woken.capacity
      distinct := distinct_step woken.distinct last
      bounded := capacity_step last ▸ length_le_capacity_step woken.bounded last
      covered := by simpa [silence] using covered_step woken.distinct woken.covered last
      total := moved.1.trans woken.total
      fewer := moved.2.trans woken.fewer
      silent := told }

end Wakes

section Counting

variable [DecidableEq ι] {n : Nat} {q q' u : Queue ι α} {a : Access ι α} {k : Kind} {ks : List Kind}
  {log during : List (Event ι α)}

/-- What is known of a queue at rest: whoever waits there waits for room. -/
structure Rested (q : Queue ι α) : Prop where
  rest : q.IsAtRest
  distinct : q.Distinct
  bounded : q.items.length ≤ q.capacity
  full : q.pending ≠ [] → q.items.length = q.capacity

omit [DecidableEq ι] in
theorem asleep_eq_of_notified_eq_nil (none : q.notified = []) : q.asleep = q.waiting := by
  refine List.filter_eq_self.mpr fun w there => ?_
  simpa using List.filter_eq_nil_iff.mp none w there

theorem Woken.rested (woken : u.Woken log q) (rest : q.IsAtRest) : q.Rested where
  rest := rest
  distinct := woken.distinct
  bounded := woken.bounded
  full waits := by
    have none := isAtRest_iff.mp rest
    have asleep : q.asleep ≠ [] := by
      rw [asleep_eq_of_notified_eq_nil none]
      simpa [pending] using waits
    have covered := woken.covered asleep
    rw [none, List.length_nil] at covered
    exact Nat.le_antisymm woken.bounded (by omega)

/-- At rest somebody sleeps at a full queue only. -/
theorem Rested.full_of_asleep (rested : q.Rested) (asleep : q.asleep ≠ []) :
    q.items.length = q.capacity := by
  refine rested.full ?_
  intro none
  have nobody : q.waiting = [] := by simpa [pending] using none
  simp [Queue.asleep, nobody] at asleep

/-- No pop at rest is silent: whoever sleeps is notified by it. -/
theorem Rested.silence? (rested : q.Rested) (a : Access ι α) : q.silence? a = none := by
  cases a with
  | pop pick =>
    refine if_neg ?_
    rintro ⟨-, room, asleep⟩
    exact room (by simp [isFull, rested.full_of_asleep asleep])
  | _ => rfl

theorem Rested.covered (rested : q.Rested) : q.Covered 0 := by
  intro asleep
  have := rested.full_of_asleep asleep
  omega

/-- A call at rest, and what the woken threads then do. -/
theorem Rested.woken (rested : q.Rested) (turn : q.Turn a during q') :
    ∃ u later, q.step a = some u ∧ u.capacity = q.capacity ∧ u.Woken later q' ∧ q'.Rested ∧
      during = (q.observe a).toList ++ later := by
  obtain ⟨⟨u, later, called, path, told⟩, rest⟩ := turn
  have covered : u.Covered 0 := by
    simpa [rested.silence? a] using covered_step rested.distinct rested.covered called
  have capacity := capacity_step called
  have woken := wakes_woken (distinct_step rested.distinct called)
    (capacity ▸ length_le_capacity_step rested.bounded called) covered path
  exact ⟨u, later, called, capacity, woken, woken.rested rest, told⟩

/-- At rest as many are in as fit, and the others wait. -/
theorem Woken.lengths (woken : u.Woken log q) (rested : q.Rested) :
    q.items.length = min (u.items.length + u.pending.length) u.capacity ∧
      q.pending.length = u.items.length + u.pending.length - u.capacity := by
  have bounded := woken.bounded
  have total := woken.total
  rw [woken.capacity] at bounded
  by_cases waits : q.pending = []
  · simp only [waits, List.length_nil] at total ⊢
    omega
  · have full := rested.full waits
    rw [woken.capacity] at full
    omega

/-- Those who wait no more have returned. -/
theorem length_completed (distinct : q.Distinct) (fewer : q'.pending.Sublist q.pending) :
    (completed q q').length + q'.pending.length = q.pending.length := by
  have once := distinct.nodup_pending
  have still : (q.pending.filter fun p => q'.isWaiting p.1).length = q'.pending.length := by
    refine List.Perm.length_eq ((List.perm_ext_iff_of_nodup (once.of_map.filter _)
      (once.of_map.sublist fewer)).mpr ?_)
    rintro ⟨t, x⟩
    rw [List.mem_filter]
    constructor
    · rintro ⟨there, waits⟩
      rw [isWaiting_eq] at waits
      obtain ⟨⟨u, y⟩, inside, own⟩ := List.any_eq_true.mp waits
      obtain rfl : u = t := by simpa using own
      have same := List.inj_on_of_nodup_map once there (fewer.subset inside) rfl
      exact same ▸ inside
    · exact fun inside => ⟨fewer.subset inside, isWaiting_of_mem inside⟩
  have split := List.length_eq_length_filter_add (l := q.pending) fun p => q'.isWaiting p.1
  unfold completed
  omega

omit [DecidableEq ι] in
theorem countsOf_snoc (e : Event ι α) : countsOf (log ++ [e]) q = { countsOf log q with
    pushed := (countsOf log q).pushed + e.isPush.toNat
    popped := (countsOf log q).popped + e.answers.length
    discarded := (countsOf log q).discarded + e.discards.length } := by
  cases push : e.isPush <;> simp [countsOf, push]

omit [DecidableEq ι] in
/-- What the woken threads show does not count. -/
theorem countsOf_append_of_silent
    (silent : ∀ e ∈ during, e.isPush = false ∧ e.answers = [] ∧ e.discards = []) :
    countsOf (log ++ during) q = countsOf log q := by
  induction during generalizing log with
  | nil => rw [List.append_nil]
  | cons e during ih =>
    obtain ⟨push, answers, discards⟩ := silent e (by simp)
    rw [List.append_cons, ih fun d inside => silent d (by simp [inside]), countsOf_snoc]
    simp [push, answers, discards]

/-- A push at rest gets in exactly if there is room, and lets nobody else in. -/
theorem Rested.push {t : ι} {x : α} (rested : q.Rested) (turn : q.Turn (.push t x) during q') :
    countsOf (log ++ during) q' = (countsOf log q).after q.capacity .push ∧
      (q'.isWaiting t = false ↔ q.items.length < q.capacity) ∧ completed q q' = [] := by
  obtain ⟨u, later, called, capacity, woken, rested', rfl⟩ := rested.woken turn
  have lengths := woken.lengths rested'
  have shown : q.observe (.push t x) =
      some (.pushed t x (u.items.drop q.items.length) (!u.isWaiting t)) := by
    simp [observe, called]
  rw [shown, Option.toList_some, ← List.append_assoc, countsOf_append_of_silent woken.silent,
    countsOf_snoc]
  rw [capacity] at lengths
  cases move_of_step called with
  | append fresh room items same =>
    -- Nobody waits beside a free slot.
    have none : q.pending = [] := by
      by_contra waits
      exact absurd (rested.full waits) (Nat.ne_of_lt room)
    have nobody : q'.pending = [] := by simpa [same, none] using woken.fewer
    simp only [items, same, none, List.length_append, List.length_singleton, List.length_nil] at lengths
    refine ⟨?_, iff_of_true (not_isWaiting_iff.mpr (by simp [nobody])) room, by simp [completed, none]⟩
    simp only [countsOf, Counts.after, room, if_true, Event.isPush, Event.answers, Event.discards,
      Bool.toNat_true, List.length_nil, Nat.add_zero, nobody, none, Counts.mk.injEq, and_true]
    omega
  | wait fresh full items more =>
    simp only [items, more, List.length_append, List.length_singleton] at lengths
    have bounded := rested.bounded
    -- Nobody gets in, so that the new push waits behind those who waited before.
    have all : q'.pending = q.pending ++ [(t, x)] := by
      rw [← more]
      refine woken.fewer.eq_of_length ?_
      rw [more, List.length_append, List.length_singleton]
      omega
    refine ⟨?_, iff_of_false ?_ (Nat.not_lt.mpr full), ?_⟩
    · simp only [countsOf, Counts.after, Nat.not_lt.mpr full, if_false, Event.isPush, Event.answers,
        Event.discards, Bool.toNat_true, List.length_nil, Nat.add_zero, Counts.mk.injEq, and_true]
      omega
    · rw [isWaiting_of_mem (x := x) (by simp [all])]
      exact Bool.noConfusion
    · refine List.filter_eq_nil_iff.mpr ?_
      rintro ⟨v, y⟩ there
      simp [isWaiting_of_mem (q := q') (x := y) (t := v) (by simp [all, there])]

/-- A pop at rest takes an item, if there is one, and lets one in who waits, if there is one. -/
theorem Rested.pop {pick : Nat} (rested : q.Rested) (slots : 0 < q.capacity)
    (turn : q.Turn (.pop pick) during q') :
    countsOf (log ++ during) q' = (countsOf log q).after q.capacity .pop ∧
      (completed q q').length = if q.items = [] then 0 else min 1 q.pending.length := by
  obtain ⟨u, later, called, capacity, woken, rested', rfl⟩ := rested.woken turn
  have lengths := woken.lengths rested'
  have shown : q.observe (.pop pick) = some (.popped q.items.head?) := by
    simp [observe, called, pop_fst]
  rw [shown, Option.toList_some, ← List.append_assoc, countsOf_append_of_silent woken.silent,
    countsOf_snoc]
  cases move_of_step called with
  | pop items same =>
    have bounded := rested.bounded
    have full : 0 < q.pending.length → q.items.length = q.capacity :=
      fun waits => rested.full (List.length_pos_iff.mp waits)
    have back := length_completed rested.distinct (same ▸ woken.fewer)
    rw [capacity, items, same, List.length_tail] at lengths
    simp only [countsOf, Counts.after, Event.isPush, Event.answers, Event.discards, Bool.toNat_false,
      List.length_nil, Nat.add_zero]
    by_cases empty : q.items = []
    · have none := List.length_eq_zero_iff.mpr empty
      simp only [empty, List.length_nil, if_true, List.head?_nil, Option.toList_none, Nat.add_zero,
        Counts.mk.injEq, and_true]
      omega
    · have some := List.length_pos_of_ne_nil empty
      have taken : q.items.head?.toList.length = 1 := by simp [List.head?_eq_some_head empty]
      simp only [empty, Nat.ne_of_gt some, if_false, taken]
      by_cases waits : 0 < q.pending.length
      · simp only [waits, if_true, Counts.mk.injEq, and_true]
        omega
      · simp only [waits, if_false, Counts.mk.injEq, and_true]
        omega

/-- A clear at rest discards all items, and lets in as many as fit. -/
theorem Rested.clear (rested : q.Rested) (turn : q.Turn .clear during q') :
    countsOf (log ++ during) q' = (countsOf log q).after q.capacity .clear ∧
      (completed q q').length = min q.pending.length q.capacity := by
  obtain ⟨u, later, called, capacity, woken, rested', rfl⟩ := rested.woken turn
  have lengths := woken.lengths rested'
  have shown : q.observe .clear = some (.cleared q.items) := by simp [observe, called]
  rw [shown, Option.toList_some, ← List.append_assoc, countsOf_append_of_silent woken.silent,
    countsOf_snoc]
  cases move_of_step called with
  | clear items same =>
    have back := length_completed rested.distinct (same ▸ woken.fewer)
    rw [capacity, items, same, List.length_nil] at lengths
    simp only [countsOf, Counts.after, Event.isPush, Event.answers, Event.discards, Bool.toNat_false,
      List.length_nil, Nat.add_zero, Counts.mk.injEq, and_true]
    omega

theorem Rested.turn (rested : q.Rested) (slots : 0 < q.capacity) (kind : a.kind? = some k)
    (turn : q.Turn a during q') :
    countsOf (log ++ during) q' = (countsOf log q).after q.capacity k := by
  cases a with
  | push t x => exact Option.some.inj kind ▸ (rested.push turn).1
  | pop pick => exact Option.some.inj kind ▸ (rested.pop slots turn).1
  | clear => exact Option.some.inj kind ▸ (rested.clear turn).1
  | _ => simp [Access.kind?] at kind

end Counting

section Runs

variable [DecidableEq ι] {n : Nat} {q q' : Queue ι α} {ks : List Kind} {log : List (Event ι α)}

theorem rested_ofCapacity : (ofCapacity n : Queue ι α).Rested where
  rest := isAtRest_iff.mpr rfl
  distinct := List.nodup_nil
  bounded := Nat.zero_le _
  full waits := absurd rfl waits

theorem rested_of_paced (history : Paced n ks log q) : q.Rested ∧ q.capacity = max n 1 := by
  induction history with
  | start => exact ⟨rested_ofCapacity, rfl⟩
  | turn _ _ turn ih =>
    obtain ⟨u, later, -, capacity, woken, rested, -⟩ := ih.1.woken turn
    exact ⟨rested, by rw [woken.capacity, capacity, ih.2]⟩

theorem countsOf_of_paced (slots : 0 < n) (history : Paced n ks log q) :
    countsOf log q = ks.foldl (Counts.after n) {} := by
  induction history with
  | start => rfl
  | turn before kind turn ih =>
    obtain ⟨rested, capacity⟩ := rested_of_paced before
    rw [Nat.max_eq_left slots] at capacity
    rw [rested.turn (capacity ▸ slots) kind turn, ih, capacity, List.foldl_append]
    rfl

theorem Counts.sum_after {c : Counts} {k : Kind} (capacity : Nat)
    (sum : c.pushed = c.popped + c.discarded + c.length + c.blocked) :
    (c.after capacity k).pushed = (c.after capacity k).popped + (c.after capacity k).discarded +
      (c.after capacity k).length + (c.after capacity k).blocked := by
  cases k with
  | push =>
    simp only [Counts.after]
    split <;> dsimp only <;> omega
  | pop =>
    simp only [Counts.after]
    split
    · exact sum
    · split <;> dsimp only <;> omega
  | clear =>
    simp only [Counts.after]
    omega

/-- Whatever has been pushed is somewhere. -/
theorem Counts.sum_foldl (capacity : Nat) (ks : List Kind) {c : Counts}
    (sum : c.pushed = c.popped + c.discarded + c.length + c.blocked) :
    let d := ks.foldl (Counts.after capacity) c
    d.pushed = d.popped + d.discarded + d.length + d.blocked := by
  induction ks generalizing c with
  | nil => exact sum
  | cons k ks ih => exact ih (Counts.sum_after capacity sum)

/-- **The accounts of a queue at rest.** Calls are made at rest, and after each of them the threads
go on in some order until none can. The counts are then those of a machine that knows the kinds of
the calls only. So whoever waits, waits at a full queue, and whatever has been pushed has been taken
or discarded, or is there, or waits. Of the next call: the threads come to rest behind it, and
however they do, a push has returned exactly if there was room, and nobody else has; a pop that takes
an item lets one push in that waited, if there was one; and a clear lets in as many as fit. -/
theorem counts_at_rest (slots : 0 < n) (history : Paced n ks log q) :
    countsOf log q = ks.foldl (Counts.after n) {} ∧
    (0 < (countsOf log q).blocked → (countsOf log q).length = n) ∧
    (countsOf log q).pushed = (countsOf log q).popped + (countsOf log q).discarded +
      (countsOf log q).length + (countsOf log q).blocked ∧
    ∀ a k, a.kind? = some k → (q.step a).isSome →
      (∃ during q', q.Turn a during q') ∧ ∀ during q', q.Turn a during q' →
        countsOf (log ++ during) q' = (countsOf log q).after n k ∧
        (∀ t x, a = .push t x →
          (q'.isWaiting t = false ↔ q.items.length < n) ∧ completed q q' = []) ∧
        (∀ pick, a = .pop pick →
          (completed q q').length = if q.items = [] then 0 else min 1 q.pending.length) ∧
        (a = .clear → (completed q q').length = min q.pending.length n) := by
  obtain ⟨rested, capacity⟩ := rested_of_paced history
  rw [Nat.max_eq_left slots] at capacity
  have counts := countsOf_of_paced slots history
  refine ⟨counts, fun waits => ?_, ?_, ?_⟩
  · rw [← capacity]
    exact rested.full (List.length_pos_iff.mp waits)
  · rw [counts]
    exact Counts.sum_foldl n ks rfl
  · intro a k kind can
    refine ⟨exists_turn can, fun during q' turn => ?_⟩
    rw [← capacity]
    refine ⟨rested.turn (capacity ▸ slots) kind turn, ?_, ?_, ?_⟩
    · rintro t x rfl
      obtain ⟨-, completes⟩ : countsOf (log ++ during) q' = _ ∧ _ := rested.push turn
      exact completes
    · rintro pick rfl
      obtain ⟨-, completes⟩ : countsOf (log ++ during) q' = _ ∧ _ :=
        rested.pop (capacity ▸ slots) turn
      exact completes
    · rintro rfl
      obtain ⟨-, completes⟩ : countsOf (log ++ during) q' = _ ∧ _ := rested.clear turn
      exact completes

end Runs

/-- The kind of call that a request makes; nothing for one that only looks. -/
def Request.kind? : Request α → Option Kind
  | .push _ => some .push
  | .pop => some .pop
  | .clear => some .clear
  | .describe => none

namespace Session

variable {n : Nat} {ks : List Kind}

/-- The calls of a session have been made at rest, and its next thread is a new one. -/
def IsPaced (n : Nat) (ks : List Kind) (s : Session α) : Prop :=
  (∃ log, Paced n ks log s.queue) ∧ ∀ p ∈ s.queue.pending, p.1 < s.next

theorem rest_eq_resumeAll (q : Queue Nat α) : q.rest = q.resumeAll (q.waiting.map (·.thread)) := by
  rw [rest, resumeAll, List.foldl_map]

/-- Nobody goes on who has not been woken. -/
theorem rest_eq_self {q : Queue Nat α} (rest : q.IsAtRest) : q.rest = q := by
  rw [rest_eq_resumeAll]
  induction q.waiting.map (·.thread) with
  | nil => rfl
  | cons t ts ih => simpa [resumeAll, rest t] using ih

/-- A call in a session is a turn. -/
theorem IsPaced.turn {s : Session α} {k : Kind} {a : Access Nat α} {u : Queue Nat α}
    (paced : s.IsPaced n ks) (kind : a.kind? = some k) (called : s.queue.step a = some u)
    (own : ∀ t x, a = .push t x → t = s.next) :
    IsPaced n (ks ++ [k]) { queue := u.rest, next := s.next + 1 } := by
  obtain ⟨⟨log, history⟩, older⟩ := paced
  obtain ⟨during, turn⟩ := exists_turn_resumeAll called
  rw [← rest_eq_resumeAll] at turn
  refine ⟨⟨_, history.turn kind turn⟩, fun p inside => ?_⟩
  obtain ⟨v, later, called', -, woken, -⟩ := (rested_of_paced history).1.woken turn
  obtain rfl := Option.some.inj (called.symm.trans called')
  have before := woken.fewer.subset inside
  cases move_of_step called with
  | @wait t x _ _ _ more =>
    rw [more] at before
    rcases List.mem_append.mp before with old | new
    · exact Nat.lt_succ_of_lt (older p old)
    · obtain rfl := List.mem_singleton.mp new
      exact Nat.lt_succ_of_le (Nat.le_of_eq (own t x rfl))
  | append _ _ _ same | pop _ same | clear _ same =>
    rw [same] at before
    exact Nat.lt_succ_of_lt (older p before)
  | _ => simp [Access.kind?] at kind

theorem IsPaced.call {s : Session α} (paced : s.IsPaced n ks) (r : Request α) :
    (s.call r).1.IsPaced n (ks ++ r.kind?.toList) := by
  cases r with
  | push item =>
    have fresh : s.queue.isWaiting s.next = false :=
      not_isWaiting_iff.mpr fun x inside => Nat.lt_irrefl _ (paced.2 _ inside)
    have called : s.queue.step (.push s.next item) = some (s.queue.push s.next item) := by
      simp [step, fresh]
    exact paced.turn rfl called fun t x same => by cases same; rfl
  | pop => exact paced.turn (a := .pop 0) rfl rfl (by simp)
  | clear => exact paced.turn (a := .clear) rfl rfl (by simp)
  | describe =>
    obtain ⟨⟨log, history⟩, older⟩ := paced
    have same := rest_eq_self (rested_of_paced history).1.rest
    have looked : (s.call .describe).1 = { queue := s.queue, next := s.next + 1 } :=
      congrArg (Session.mk · (s.next + 1)) same
    rw [looked, Request.kind?, Option.toList_none, List.append_nil]
    exact ⟨⟨log, history⟩, fun p inside => Nat.lt_succ_of_lt (older p inside)⟩

/-- **The calls of a session are made at rest**, so that the accounts are right in every session. -/
theorem paced (n : Nat) (rs : List (Request α)) : ∃ log, Paced n (rs.filterMap Request.kind?) log
    (rs.foldl (fun s r => (s.call r).1) ({ queue := ofCapacity n } : Session α)).queue := by
  suffices going : ∀ {ks : List Kind} {s : Session α}, s.IsPaced n ks →
      (rs.foldl (fun s r => (s.call r).1) s).IsPaced n (ks ++ rs.filterMap Request.kind?) by
    have fresh : ({ queue := ofCapacity n } : Session α).IsPaced n [] :=
      ⟨⟨[], .start⟩, by simp [ofCapacity, pending]⟩
    simpa using (going fresh).1
  induction rs with
  | nil => simp
  | cons r rs ih =>
    intro ks s paced
    have next := ih (paced.call r)
    cases found : r.kind? <;> simpa [List.filterMap_cons, found] using next

end Session

/-- Seven producers at a queue of two slots: five wait, a pop lets one in, and a clear two more. -/
theorem accounts_of_seven_pushes : ∃ (log : List (Event Nat Nat)) (q : Queue Nat Nat),
    Paced 2 (List.replicate 7 .push ++ [.pop, .clear]) log q ∧
    countsOf log q = { length := 2, blocked := 2, pushed := 7, popped := 1, discarded := 2 } ∧
    ∀ pick during q', q.Turn (.pop pick) during q' → (completed q q').length = 1 := by
  obtain ⟨log, history⟩ := Session.paced 2 (List.replicate 7 (.push 0) ++ [.pop, .clear])
  obtain ⟨counts, -, -, next⟩ := counts_at_rest (by decide) history
  have shown : _ = ({ length := 2, blocked := 2, pushed := 7, popped := 1, discarded := 2 } : Counts) :=
    counts
  refine ⟨log, _, history, shown, fun pick during q' turn => ?_⟩
  have lets := ((next _ .pop rfl rfl).2 during q' turn).2.2.1 pick rfl
  have there : _ = 2 := congrArg Counts.length shown
  have waits : _ = 2 := congrArg Counts.blocked shown
  simp only [countsOf] at there waits
  rw [lets, waits, if_neg (List.ne_nil_of_length_pos (by omega))]
  rfl

end PacketRelay.Queue
