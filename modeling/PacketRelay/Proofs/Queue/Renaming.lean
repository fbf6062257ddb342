import PacketRelay.Subscriber
import Mathlib.Logic.Function.Basic
import Mathlib.Tactic.Common

/-!
# Threads by other names

A queue knows its waiting threads by their names and compares these for equality only. Under other
names, as long as different threads keep different ones, it does the same: every access of a thread
commutes with the renaming, and a name that no thread has got wakes nobody.

## Main definitions

* `Queue.rename`, `Subscriber.rename`, `Subscriber.Action.rename`: the same under other names

## Main results

* `Queue.push_rename`, `Queue.resume_rename`, `Queue.pop_rename`: the accesses to a queue
* `Subscriber.act_rename`, `Enqueue.step_rename`: what consumers and producers do
-/

namespace PacketRelay

variable {ι κ α : Type}

def Waiter.rename (f : ι → κ) (w : Waiter ι α) : Waiter κ α where
  thread := f w.thread
  item := w.item
  notified := w.notified

namespace Queue

def rename (f : ι → κ) (q : Queue ι α) : Queue κ α where
  capacity := q.capacity
  items := q.items
  waiting := q.waiting.map (.rename f)

section Accesses

variable {f : ι → κ} {q : Queue ι α}

@[simp] theorem isFull_rename : (q.rename f).isFull = q.isFull := rfl

theorem push_rename (t : ι) (x : α) : (q.rename f).push (f t) x = (q.push t x).rename f := by
  unfold push
  rw [isFull_rename]
  split
  · simp [rename, Waiter.rename]
  · rfl

theorem notifyAt_map (n : Nat) (ws : List (Waiter ι α)) :
    notifyAt n (ws.map (.rename f)) = (notifyAt n ws).map (.rename f) := by
  induction ws generalizing n with
  | nil => rfl
  | cons w ws ih =>
    cases awake : w.notified with
    | true => simp [notifyAt, awake, Waiter.rename, ih]
    | false =>
      cases n with
      | zero => simp [notifyAt, awake, Waiter.rename]
      | succ n => simp [notifyAt, awake, Waiter.rename, ih]

theorem notifyOne_rename (pick : Nat) :
    (q.rename f).notifyOne pick = (q.notifyOne pick).rename f := by
  have awake : (q.rename f).asleep.length = q.asleep.length := by
    simp [asleep, rename, List.filter_map, Function.comp_def, Waiter.rename]
  simp only [notifyOne, awake]
  simp only [rename, notifyAt_map]

theorem pop_rename (pick : Nat) :
    (q.rename f).pop pick = ((q.pop pick).1, (q.pop pick).2.rename f) := by
  obtain ⟨capacity, items, waiting⟩ := q
  cases items with
  | nil => rfl
  | cons x xs =>
    let rest : Queue ι α := { capacity, items := xs, waiting }
    show (some x, if _ then (rest.rename f).notifyOne pick else rest.rename f) = _
    rw [notifyOne_rename]
    exact congrArg (Prod.mk (some x)) (apply_ite (rename f) ..).symm

theorem clear_rename : (q.rename f).clear = q.clear.rename f := by
  simp [clear, notifyAll, rename, Function.comp_def, Waiter.rename]

/-- A name that no thread has got wakes nobody. -/
theorem stir_of_unnamed [DecidableEq κ] {t : κ} (unnamed : ∀ u, f u ≠ t) :
    (q.rename f).stir t = q.rename f := by
  simp only [stir, rename, List.map_map]
  congr 1
  refine List.map_congr_left fun w _ => ?_
  simp [Waiter.rename, unnamed]

end Accesses

section Names

variable [DecidableEq ι] [DecidableEq κ] {f : ι → κ} {q : Queue ι α}

theorem beq_of_injective (inj : Function.Injective f) (t u : ι) : (f t == f u) = (t == u) := by
  rw [Bool.eq_iff_iff, beq_iff_eq, beq_iff_eq, inj.eq_iff]

theorem isWaiting_rename (inj : Function.Injective f) (t : ι) :
    (q.rename f).isWaiting (f t) = q.isWaiting t := by
  simp [isWaiting, rename, Function.comp_def, Waiter.rename, beq_of_injective inj]

theorem stir_rename (inj : Function.Injective f) (t : ι) :
    (q.rename f).stir (f t) = (q.stir t).rename f := by
  simp only [stir, rename, List.map_map]
  congr 1
  refine List.map_congr_left fun w _ => ?_
  by_cases own : w.thread = t <;> simp [Waiter.rename, inj.eq_iff, own]

theorem resume_rename (inj : Function.Injective f) (t : ι) :
    (q.rename f).resume (f t) = (q.resume t).map (.rename f) := by
  have find : (q.rename f).waiting.find? (fun w => w.thread == f t && w.notified) =
      (q.waiting.find? fun w => w.thread == t && w.notified).map (.rename f) := by
    simp [rename, List.find?_map, Function.comp_def, Waiter.rename, beq_of_injective inj]
  unfold resume
  rw [find, isFull_rename]
  cases q.waiting.find? fun w => w.thread == t && w.notified with
  | none => rfl
  | some w =>
    simp only [Option.map_some]
    split
    · simp only [rename, List.map_map, Option.map_some, Option.some.injEq, mk.injEq, true_and]
      refine List.map_congr_left fun v _ => ?_
      by_cases own : v.thread = t <;> simp [Waiter.rename, inj.eq_iff, own]
    · simp [rename, Waiter.rename, List.filter_map, Function.comp_def, inj.eq_iff]

end Names

end Queue

namespace Subscriber

def rename (f : ι → κ) (s : Subscriber ι) : Subscriber κ where
  name := s.name
  suffix := s.suffix
  active := s.active
  queue := s.queue.rename f

def Action.rename (f : ι → κ) : Action ι → Action κ
  | .dequeue pick => .dequeue pick
  | .terminate => .terminate
  | .clear => .clear
  | .stir thread => .stir (f thread)

variable {f : ι → κ} {s : Subscriber ι}

theorem act_rename [DecidableEq ι] [DecidableEq κ] (inj : Function.Injective f) (a : Action ι) :
    (s.rename f).act (a.rename f) = (s.act a).rename f := by
  cases a with
  | dequeue pick => simp [act, Action.rename, rename, Queue.pop_rename]
  | terminate => rfl
  | clear => simp [act, Action.rename, rename, Queue.clear_rename]
  | stir thread => simp [act, Action.rename, rename, Queue.stir_rename inj]

end Subscriber

/-- A producer does the same under another name. -/
theorem Enqueue.step_rename [DecidableEq ι] [DecidableEq κ] {f : ι → κ} (inj : Function.Injective f)
    (t : ι) (s : Subscriber ι) (e : Enqueue) :
    e.step (f t) (s.rename f) = (e.step t s).map fun x => (x.1.rename f, x.2) := by
  cases e with
  | check p => rfl
  | push p =>
    simp only [step, Subscriber.rename, Queue.push_rename]
    rfl
  | waiting =>
    simp only [step, Subscriber.rename, Queue.resume_rename inj, Option.bind_eq_bind]
    cases s.queue.resume t with
    | none => rfl
    | some q => simp [Queue.isWaiting_rename inj]
  | finished => rfl

end PacketRelay
