import PacketRelay.Proofs.Record
import PacketRelay.Queue
import Mathlib.Data.List.Nodup
import Mathlib.Logic.Nontrivial.Defs
import Mathlib.Tactic.Common

/-!
# Wake-ups of producers

A pop notifies a waiting producer only if it finds the queue full. Pops that follow before the
notified producer has run find room in the queue, and free a slot without a notification: they are
silent. As long as a producer sleeps there are never more free slots than notified producers and
silent pops together, and this is all that holds in general. With two producers and two slots one
silent pop is enough to leave a producer asleep beside a free slot, with nobody to wake it.

## Main definitions

* `Queue.notified`: the waiters that are yet to run
* `Queue.Abandons`: a producer waits beside a free slot and nobody has been notified
* `Queue.silence?`: the silent pops

## Main results

* `free_le_notified_add_silent`: free slots are covered by notifications and silent pops
* `reaches_filled`: a producer fills a queue without waiting
* `notified_of_room_iff`: no wake-up is lost exactly if there is one slot or one producer
-/

namespace PacketRelay.Queue

open Schedule

variable {ι α : Type}

/-- The waiters that have been notified and are yet to run. -/
def notified (q : Queue ι α) : List (Waiter ι α) :=
  q.waiting.filter fun w => w.notified

/-- A producer waits although there is room, and nobody has been notified. -/
def Abandons (q : Queue ι α) : Prop :=
  q.waiting ≠ [] ∧ q.items.length < q.capacity ∧ ∀ w ∈ q.waiting, w.notified = false

/-- No thread waits twice. -/
def Distinct (q : Queue ι α) : Prop :=
  (q.waiting.map (·.thread)).Nodup

/-- While a producer sleeps, the free slots are covered by notified producers and by a number of
slots that nobody has been told of. -/
def Covered (q : Queue ι α) (untold : Nat) : Prop :=
  q.asleep ≠ [] → q.capacity ≤ q.items.length + q.notified.length + untold

/-- What a step shows of silent pops: one that takes an item from a queue that is not full while a
producer sleeps. -/
def silence? (q : Queue ι α) : Access ι α → Option Unit
  | .pop _ => if q.items ≠ [] ∧ ¬ q.isFull ∧ q.asleep ≠ [] then some () else none
  | _ => none

section Waiters

/-- Waking waiters or putting them to sleep does not change which threads wait. -/
theorem map_thread_map {f : Waiter ι α → Waiter ι α} (keeps : ∀ w, (f w).thread = w.thread)
    (ws : List (Waiter ι α)) : (ws.map f).map (·.thread) = ws.map (·.thread) := by
  rw [List.map_map]
  exact List.map_congr_left fun w _ => keeps w

theorem map_thread_notifyAt (n : Nat) (ws : List (Waiter ι α)) :
    (notifyAt n ws).map (·.thread) = ws.map (·.thread) := by
  induction ws generalizing n with
  | nil => cases n <;> rfl
  | cons w ws ih =>
    unfold notifyAt
    split
    · simp [ih]
    · cases n <;> simp [ih]

/-- Notifying one of the sleeping waiters makes one more that is notified. -/
theorem length_filter_notifyAt {n : Nat} {ws : List (Waiter ι α)}
    (valid : n < (ws.filter fun w => !w.notified).length) :
    ((notifyAt n ws).filter fun w => w.notified).length =
      (ws.filter fun w => w.notified).length + 1 := by
  induction ws generalizing n with
  | nil => simp at valid
  | cons w ws ih =>
    unfold notifyAt
    by_cases woken : w.notified
    · simp only [woken, Bool.not_true, Bool.false_eq_true, not_false_eq_true,
        List.filter_cons_of_neg] at valid
      simp [woken, ih valid]
    · cases n with
      | zero => simp [woken]
      | succ n =>
        have fewer : n < (ws.filter fun w => !w.notified).length := by
          simpa [woken] using valid
        simp [woken, ih fewer]

theorem filter_notifyAt_eq_nil {n : Nat} {ws : List (Waiter ι α)}
    (none_asleep : ws.filter (fun w => !w.notified) = []) : notifyAt n ws = ws := by
  induction ws generalizing n with
  | nil => rfl
  | cons w ws ih =>
    obtain ⟨woken, rest⟩ : w.notified = true ∧ ws.filter (fun w => !w.notified) = [] := by
      by_cases woken : w.notified <;> simp_all
    simp [notifyAt, woken, ih rest]

theorem length_notified_notifyOne {q : Queue ι α} (pick : Nat) (asleep : q.asleep ≠ []) :
    (q.notifyOne pick).notified.length = q.notified.length + 1 :=
  length_filter_notifyAt (Nat.mod_lt _ (List.length_pos_of_ne_nil asleep))

theorem asleep_notifyOne_of_nil {q : Queue ι α} (pick : Nat) (none_asleep : q.asleep = []) :
    (q.notifyOne pick).asleep = [] := by
  simp only [asleep, notifyOne]
  rw [filter_notifyAt_eq_nil none_asleep]
  exact none_asleep

end Waiters

section Steps

variable [DecidableEq ι] {q q' : Queue ι α}

theorem distinct_step {a : Access ι α} (distinct : q.Distinct) (last : q.step a = some q') :
    q'.Distinct := by
  unfold Distinct at *
  cases a with
  | push thread item =>
    obtain ⟨fresh, rfl⟩ : q.isWaiting thread = false ∧ q.push thread item = q' := by
      simpa [step] using last
    unfold push
    split
    · have absent : ∀ w ∈ q.waiting, ¬ w.thread = thread := by simpa [isWaiting] using fresh
      simpa [List.nodup_append, distinct] using absent
    · exact distinct
  | resume thread =>
    obtain ⟨_, -, ⟨-, rfl⟩ | ⟨-, rfl⟩⟩ := resume_cases last
    · rwa [map_thread_map fun v => by split <;> rfl]
    · exact distinct.sublist (List.filter_sublist.map _)
  | stir thread =>
    obtain rfl := Option.some.inj last
    unfold stir
    rwa [map_thread_map fun w => by split <;> rfl]
  | pop pick =>
    obtain rfl := Option.some.inj last
    rcases q.pop_snd_cases pick with popped | ⟨k, popped⟩ <;> rw [popped]
    · exact distinct
    · rwa [map_thread_notifyAt]
  | clear =>
    obtain rfl := Option.some.inj last
    unfold clear notifyAll
    rwa [map_thread_map (f := fun w => { w with notified := true }) fun _ => rfl]

theorem capacity_step {a : Access ι α} (last : q.step a = some q') : q'.capacity = q.capacity := by
  cases a with
  | push thread item =>
    obtain ⟨-, rfl⟩ : q.isWaiting thread = false ∧ q.push thread item = q' := by
      simpa [step] using last
    unfold push
    split <;> rfl
  | resume thread =>
    obtain ⟨_, -, ⟨-, rfl⟩ | ⟨-, rfl⟩⟩ := resume_cases last <;> rfl
  | stir thread => exact Option.some.inj last ▸ rfl
  | pop pick =>
    obtain rfl := Option.some.inj last
    rcases q.pop_snd_cases pick with popped | ⟨k, popped⟩ <;> rw [popped]
  | clear => exact Option.some.inj last ▸ rfl

/-- At most one of the notified waiters is a given thread. -/
theorem length_notified_le (distinct : q.Distinct) (thread : ι) :
    q.notified.length ≤
      ((q.waiting.filter fun v => v.thread ≠ thread).filter fun w => w.notified).length + 1 := by
  have once : (q.waiting.filter fun v => v.thread = thread).length ≤ 1 := by
    have := List.nodup_iff_count_le_one.mp distinct thread
    rwa [List.count, List.countP_map, List.countP_eq_length_filter] at this
  have split := List.countP_eq_countP_filter_add q.waiting (fun w => w.notified)
    (fun v => decide (v.thread ≠ thread))
  have few := List.countP_le_length (p := fun w : Waiter ι α => w.notified)
    (l := q.waiting.filter fun v => v.thread = thread)
  simp only [List.countP_eq_length_filter, ne_eq, decide_not, Bool.not_not] at split few ⊢
  unfold notified
  omega

section Covered

variable {untold : Nat}

omit [DecidableEq ι] in
theorem Covered.push (covered : q.Covered untold) (thread : ι) (item : α) :
    (q.push thread item).Covered untold := by
  intro asleep
  unfold Queue.push at asleep ⊢
  by_cases full : q.isFull
  · have : q.capacity ≤ q.items.length := by simpa [isFull] using full
    simp only [full, if_true]
    omega
  · simp only [full, Bool.false_eq_true, if_false] at asleep ⊢
    have := covered asleep
    simp only [notified, List.length_append] at this ⊢
    omega

theorem Covered.resume {thread : ι} (covered : q.Covered untold) (distinct : q.Distinct)
    (last : q.resume thread = some q') : q'.Covered untold := by
  obtain ⟨_, -, ⟨full, rfl⟩ | ⟨-, rfl⟩⟩ := resume_cases last
  · have : q.capacity ≤ q.items.length := by simpa [isFull] using full
    intro _
    dsimp only
    omega
  · intro asleep
    have still : q.asleep ≠ [] := fun none_asleep => asleep (by
      simp only [Queue.asleep, List.filter_eq_nil_iff] at none_asleep ⊢
      exact fun w hw => none_asleep w (List.mem_of_mem_filter hw))
    have := covered still
    have := length_notified_le distinct thread
    simp only [notified, List.length_append, List.length_singleton, ne_eq, decide_not] at *
    omega

theorem Covered.stir (covered : q.Covered untold) (thread : ι) : (q.stir thread).Covered untold := by
  intro asleep
  have still : q.asleep ≠ [] := fun none_asleep => asleep (by
    simp only [Queue.asleep, Queue.stir, List.filter_eq_nil_iff, List.mem_map] at none_asleep ⊢
    rintro _ ⟨w, hw, rfl⟩
    split
    · simp
    · exact none_asleep w hw)
  have := covered still
  have more : q.notified.length ≤ (q.stir thread).notified.length := by
    unfold notified Queue.stir
    rw [← List.countP_eq_length_filter, ← List.countP_eq_length_filter, List.countP_map]
    exact List.countP_mono_left fun w _ woken => by simp only [Function.comp]; split <;> simp [woken]
  simp only [Queue.stir] at more ⊢
  omega

omit [DecidableEq ι] in
/-- A pop from a full queue tells a waiter of the slot that it frees. -/
theorem Covered.pop (covered : q.Covered untold) (pick : Nat) :
    (q.pop pick).2.Covered (untold + (q.silence? (.pop pick)).toList.length) := by
  cases items : q.items with
  | nil => simpa [Queue.pop, items, silence?] using covered
  | cons x xs =>
    by_cases full : q.isFull
    · have room : q.capacity ≤ xs.length + 1 := by simpa [isFull, items] using full
      intro asleep
      simp only [Queue.pop, items, full, if_true] at asleep ⊢
      have still : q.asleep ≠ [] := fun none_asleep =>
        asleep (asleep_notifyOne_of_nil (q := { q with items := xs }) pick none_asleep)
      have := length_notified_notifyOne (q := { q with items := xs }) pick still
      simp only [notifyOne] at this ⊢
      omega
    · intro asleep
      simp only [Queue.pop, items, full, Bool.false_eq_true, if_false] at asleep ⊢
      have still : q.asleep ≠ [] := asleep
      have := covered still
      have silent : q.silence? (.pop pick) = some () := by simp [silence?, items, full, still]
      simp only [silent, items, List.length_cons, Option.toList_some, List.length_nil,
        notified] at this ⊢
      omega

/-- A step leaves the free slots covered, and only a silent pop leaves one more of them untold. -/
theorem covered_step {a : Access ι α} (distinct : q.Distinct) (covered : q.Covered untold)
    (last : q.step a = some q') : q'.Covered (untold + (q.silence? a).toList.length) := by
  cases a with
  | push thread item =>
    obtain ⟨-, rfl⟩ : q.isWaiting thread = false ∧ q.push thread item = q' := by
      simpa [step] using last
    exact covered.push thread item
  | resume thread => exact covered.resume distinct last
  | stir thread =>
    obtain rfl := Option.some.inj last
    exact covered.stir thread
  | pop pick =>
    obtain rfl := Option.some.inj last
    exact covered.pop pick
  | clear =>
    obtain rfl := Option.some.inj last
    intro asleep
    simp [Queue.asleep, clear, notifyAll] at asleep

end Covered

end Steps

section Runs

variable [DecidableEq ι] {n : Nat} {q : Queue ι α}

theorem capacity_reaches (run : Reaches step (ofCapacity n) q) : q.capacity = max n 1 := by
  induction run with
  | refl => rfl
  | tail _ last ih => rw [capacity_step last, ih]

theorem distinct_reaches (run : Reaches step (ofCapacity n) q) : q.Distinct := by
  induction run with
  | refl => exact List.nodup_nil
  | tail _ last ih => exact distinct_step ih last

/-- Along every schedule the free slots are covered by the producers that have been notified and by
the silent pops so far. -/
theorem free_le_notified_add_silent {log : List Unit}
    (run : Records step (fun _ => True) silence? (ofCapacity n) log q) (asleep : q.asleep ≠ []) :
    q.capacity - q.items.length ≤ q.notified.length + log.length := by
  suffices covered : q.Covered log.length by
    have := covered asleep
    omega
  clear asleep
  induction run with
  | refl => exact fun asleep => absurd rfl asleep
  | tail run _ last ih =>
    rw [List.length_append]
    exact covered_step (distinct_reaches run.reaches) ih last

/-- A producer fills an empty queue without waiting. -/
theorem reaches_filled (thread : ι) (x : α) {k : Nat} (fits : k ≤ max n 1) :
    Reaches step (ofCapacity n)
      ({ capacity := max n 1, items := List.replicate k x } : Queue ι α) := by
  induction k with
  | zero => exact .refl _
  | succ k ih =>
    apply (ih (by omega)).tail (l := .push thread x)
    have room : ¬ max n 1 ≤ k := by omega
    simp [step, isWaiting, push, isFull, room, List.replicate_succ']

/-- Two producers wait at a full queue of two slots or more. The first pop notifies one of them and
the second pop is silent; when the notified producer has run, the other one is abandoned. -/
theorem exists_abandons [Inhabited α] {a b : ι} (distinct : a ≠ b) (slots : 2 ≤ n) :
    ∃ q : Queue ι α, Reaches step (ofCapacity n) q ∧ q.Abandons := by
  obtain ⟨m, rfl⟩ := Nat.exists_eq_add_of_le' slots
  have most : max (m + 2) 1 = m + 2 := by omega
  let x : α := default
  have full := reaches_filled (n := m + 2) a x (Nat.le_refl _)
  rw [most] at full
  let waiting : Queue ι α :=
    { capacity := m + 2, items := List.replicate (m + 2) x,
      waiting := [{ thread := a, item := x }, { thread := b, item := x }] }
  have both : Reaches step (ofCapacity (m + 2)) waiting := by
    have first := full.tail (l := .push a x) (by simp [step, isWaiting, push, isFull]; rfl)
    exact first.tail (l := .push b x) (by simp [step, isWaiting, push, isFull, waiting, distinct])
  let popped : Queue ι α :=
    { capacity := m + 2, items := List.replicate m x,
      waiting := [{ thread := a, item := x, notified := true }, { thread := b, item := x }] }
  have twice : Reaches step (ofCapacity (m + 2)) popped := by
    have first := both.tail (l := .pop 0) (by
      simp [step, pop, isFull, waiting, List.replicate_succ, notifyOne, notifyAt]; rfl)
    exact first.tail (l := .pop 0) (by simp [step, pop, isFull, popped])
  let left : Queue ι α :=
    { capacity := m + 2, items := List.replicate m x ++ [x],
      waiting := [{ thread := b, item := x }] }
  have resumed : Reaches step (ofCapacity (m + 2)) left := twice.tail (l := .resume a) (by
    have room : ¬ m + 2 ≤ m := by omega
    simp [step, resume, isFull, popped, left, room, distinct.symm])
  exact ⟨left, resumed, by simp [Abandons, left]⟩

omit [DecidableEq ι] in
/-- A single producer that sleeps is not notified. -/
theorem notified_eq_nil_of_subsingleton [Subsingleton ι] (distinct : q.Distinct)
    (asleep : q.asleep ≠ []) : q.notified = [] := by
  obtain ⟨w, hw⟩ := List.exists_mem_of_ne_nil _ asleep
  obtain ⟨waits, sleeps⟩ := List.mem_filter.mp hw
  apply List.filter_eq_nil_iff.mpr
  intro v hv
  have same := List.inj_on_of_nodup_map distinct hv waits (Subsingleton.elim _ _)
  simpa [same] using sleeps

/-- With one slot or one producer no pop is silent: a producer sleeps only at a full queue. -/
theorem log_eq_nil {log : List Unit} (few : n ≤ 1 ∨ Subsingleton ι)
    (run : Records step (fun _ => True) silence? (ofCapacity n : Queue ι α) log q) :
    log = [] := by
  induction run with
  | refl => rfl
  | @tail t u log l run _ _ ih =>
    subst ih
    suffices quiet : t.silence? l = none by simp [quiet]
    cases l with
    | pop pick =>
      apply if_neg
      rintro ⟨some_items, notFull, asleep⟩
      have covered := free_le_notified_add_silent run asleep
      have some := List.length_pos_of_ne_nil some_items
      have notFull : t.items.length < t.capacity := by simpa [isFull] using notFull
      rcases few with one | single
      · rw [capacity_reaches run.reaches] at notFull
        omega
      · rw [notified_eq_nil_of_subsingleton (distinct_reaches run.reaches) asleep] at covered
        simp only [List.length_nil] at covered
        omega
    | _ => rfl

/-- **No wake-up is lost exactly if the queue has one slot or one producer.** A producer that waits
beside a free slot has then been notified, or another one has been and is yet to run. -/
theorem notified_of_room_iff [Inhabited α] :
    (∀ q : Queue ι α, Reaches step (ofCapacity n) q → q.waiting ≠ [] →
      q.items.length < q.capacity → ∃ w ∈ q.waiting, w.notified = true) ↔
    n ≤ 1 ∨ Subsingleton ι := by
  constructor
  · intro always
    by_contra many
    obtain ⟨slots, producers⟩ := not_or.mp many
    obtain ⟨a, b, distinct⟩ := not_subsingleton_iff_nontrivial.mp producers
    obtain ⟨q, run, waits, room, unaware⟩ :=
      exists_abandons (n := n) (α := α) distinct (by omega)
    obtain ⟨w, hw, woken⟩ := always q run waits room
    simp [unaware w hw] at woken
  · intro few q run waits room
    by_contra unaware
    have asleep : q.asleep = q.waiting := List.filter_eq_self.mpr fun w hw => by
      simpa using fun woken => unaware ⟨w, hw, woken⟩
    have notified : q.notified = [] := List.filter_eq_nil_iff.mpr fun w hw woken =>
      unaware ⟨w, hw, woken⟩
    obtain ⟨log, recorded⟩ := run.exists_records silence?
    have covered := free_le_notified_add_silent recorded (asleep ▸ waits)
    rw [notified, log_eq_nil few recorded] at covered
    simp only [List.length_nil] at covered
    omega

/-- With two slots, two producers and two pops in a row a wake-up is lost. -/
theorem abandons_of_two_pops :
    ∃ q : Queue Nat Nat, Reaches step (ofCapacity 2) q ∧ q.Abandons :=
  exists_abandons (a := 0) (b := 1) (by decide) (Nat.le_refl 2)

end Runs

end PacketRelay.Queue
