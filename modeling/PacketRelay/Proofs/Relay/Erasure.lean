import PacketRelay.Proofs.Relay.Refusal
import PacketRelay.Proofs.Relay.Vain
import Mathlib.Data.Nat.Nth

/-!
# Records without some calls

Calls that are taken out of a record leave the others, numbered anew in their order. What is left of
a record speaks of what is left of the publisher: a step that both can take shows the same in both,
under the number of the call.

## Main definitions

* `Relay.rank`, `Relay.seen`: the number that a call has among those that are left, and back
* `Relay.View.without`: what is left of a record
* `Relay.Vain`: calls that are starts whose source has not opened

## Main results

* `Relay.Reduces.view_renumber`: a step that both take shows the same in both
* `Relay.Reduces.step_kept`, `Relay.Reduces.step_restored`: a step of the one is a step of the other
-/

namespace PacketRelay

open Schedule

namespace Relay

section Numbers

variable {hidden : List Nat} {n : Nat}

/-- The number of a call among those that are left. -/
def rank (hidden : List Nat) (n : Nat) : Nat := Nat.count (· ∉ hidden) n

/-- The number that a call had before. -/
noncomputable def seen (hidden : List Nat) : Nat → Nat := Nat.nth (· ∉ hidden)

theorem infinite_kept (hidden : List Nat) : {n | n ∉ hidden}.Infinite :=
  (List.finite_toSet hidden).infinite_compl

@[simp] theorem rank_seen (hidden : List Nat) (i : Nat) : rank hidden (seen hidden i) = i :=
  Nat.count_nth_of_infinite (infinite_kept hidden) i

@[simp] theorem seen_notMem (hidden : List Nat) (i : Nat) : seen hidden i ∉ hidden :=
  Nat.nth_mem_of_infinite (infinite_kept hidden) i

theorem seen_rank (kept : n ∉ hidden) : seen hidden (rank hidden n) = n := Nat.nth_count kept

theorem seen_strictMono (hidden : List Nat) : StrictMono (seen hidden) :=
  Nat.nth_strictMono (infinite_kept hidden)

theorem seen_ne (taken : n ∈ hidden) (i : Nat) : seen hidden i ≠ n := by
  rintro rfl
  exact seen_notMem hidden i taken

end Numbers

section Logs

/-- What is seen, where the calls have other numbers. -/
def View.renumber (f : Nat → Nat) : View → View
  | .asked n call => .asked (f n) call
  | .opened n e => .opened (f n) e
  | .answered n reply => .answered (f n) reply
  | .taken subscriber p => .taken subscriber p

/-- Which call it is that is seen. -/
def View.call? : View → Option Nat
  | .asked n _ | .opened n _ | .answered n _ => some n
  | .taken _ _ => none

/-- What is left of what is seen, without some calls. -/
def View.without (hidden : List Nat) (v : View) : Option View :=
  if v.call?.any (· ∈ hidden) then none else some (v.renumber (rank hidden))

/-- The source that a call which is taken out has been given. -/
def View.gift? (hidden : List Nat) : View → Option Nat
  | .asked n (.start source _) => if n ∈ hidden then some source else none
  | _ => none

/-- The sources that the calls which are taken out have been given. -/
def given (hidden : List Nat) (log : List View) : List Nat := log.filterMap (View.gift? hidden)

/-- Calls that are starts, none of which has had its source opened. -/
def Vain (hidden : List Nat) (log : List View) : Prop :=
  ∀ n ∈ hidden, (∀ call, .asked n call ∈ log → ∃ source uri, call = .start source uri) ∧
    .opened n none ∉ log

variable {hidden : List Nat} {log log' : List View}

theorem View.without_renumber_seen (v : View) : (v.renumber (seen hidden)).without hidden = some v := by
  cases v <;> simp [without, renumber, call?]

theorem given_append : given hidden (log ++ log') = given hidden log ++ given hidden log' :=
  List.filterMap_append

theorem Vain.left (vain : Vain hidden (log ++ log')) : Vain hidden log := fun n taken =>
  ⟨fun call asked => (vain n taken).1 call (List.mem_append_left _ asked),
    fun opened => (vain n taken).2 (List.mem_append_left _ opened)⟩

theorem Vain.right (vain : Vain hidden (log ++ log')) : Vain hidden log' := fun n taken =>
  ⟨fun call asked => (vain n taken).1 call (List.mem_append_right _ asked),
    fun opened => (vain n taken).2 (List.mem_append_right _ opened)⟩

end Logs

variable {seen : Nat → Nat} {given : List Nat} {r r' q q' : Relay} {n i : Nat}

section Views

theorem refusal?_mark {x : ScriptedSource} {spent : Bool} (uri : String) :
    (x.mark spent).refusal? uri = x.refusal? uri := by
  unfold ScriptedSource.refusal?
  rw [ScriptedSource.openAt_mark]
  cases x.openAt uri <;> rfl

/-- An access of a call that both can make shows the same in both. -/
theorem Reduces.viewCall_renumber (reduces : r.Reduces seen given q)
    (both : Option.Rel (Reduces seen given) (r.callStep (seen i)) (q.callStep i)) (stage : CallStage) :
    r.viewCall (seen i) stage = (q.viewCall i stage).map (.renumber seen) := by
  unfold Relay.viewCall
  split
  · next source uri =>
    have same := reduces.sources source
    generalize r.sources[source]? = x at same
    generalize q.sources[source]? = y at same
    cases same with
    | none => rfl
    | some echo =>
      obtain ⟨spent, rfl, -⟩ := echo
      simp [refusal?_mark, View.renumber]
  · generalize r.callStep (seen i) = x at both
    generalize q.callStep i = y at both
    cases both with
    | none => rfl
    | some after =>
      simp only [Option.bind_some, after.calls, Option.map_map]
      rfl

/-- **A step that both can take shows the same in both**, under the number of the call. -/
theorem Reduces.view_renumber {l : Label} (reduces : r.Reduces seen given q)
    (both : Option.Rel (Reduces seen given) (r.step (l.renumber seen)) (q.step l))
    (next : ∀ call, l = .begin call → seen q.calls.length = r.calls.length) :
    view r (l.renumber seen) = (view q l).map (.renumber seen) := by
  cases l with
  | begin call => simp [Label.renumber, Relay.view, View.renumber, next call rfl]
  | call i =>
    simp only [Label.renumber, Relay.view, reduces.calls]
    cases q.calls[i]? with
    | none => rfl
    | some stage => exact reduces.viewCall_renumber both stage
  | consumer subscriber action =>
    cases action with
    | dequeue pick =>
      simp only [Label.renumber, Subscriber.Action.rename, Relay.view, reduces.getElem?_subscribers]
      cases q.subscribers[subscriber]? with
      | none => rfl
      | some s => simp [Subscriber.rename, Queue.pop_rename, View.renumber]
    | _ => rfl
  | _ => rfl

end Views

section Kept

/-- Nobody holds the task of what is left, if nobody holds it before. -/
theorem Reduces.unheld (reduces : r.Reduces seen given q) (regular : r.Regular ∧ q.Regular)
    (free : r.taskHolder = none) : q.taskHolder = none := by
  by_contra held
  obtain ⟨i, holder⟩ := Option.ne_none_iff_exists'.mp held
  have role : q.control.role i = r.control.role (seen i) := by simp [control, reduces.calls]
  have holds := (regular.2.sound.holder i).mp holder
  have holder : r.taskHolder = some (seen i) := (regular.1.sound.holder _).mpr (role ▸ holds)
  simp [free] at holder

/-- A call that takes the task finds that nobody holds it. -/
theorem taskHolder_of_isLocking {stage : CallStage} (here : r.calls[n]? = some stage)
    (locks : stage.isLocking = true) (last : r.callStep n = some r') : r.taskHolder = none := by
  simp only [callStep, here, Option.bind_eq_bind, Option.bind_some] at last
  cases stage with
  | start source uri at_ =>
    cases at_ with
    | lock => exact (startStep_lock last).1
    | _ => simp [CallStage.isLocking] at locks
  | join at_ =>
    cases at_ with
    | lock => exact (joinStep_lock last).1
    | _ => simp [CallStage.isLocking] at locks
  | _ => simp [CallStage.isLocking] at locks

theorem Reduces.length_subscribers (reduces : r.Reduces seen given q) :
    r.subscribers.length = q.subscribers.length := by
  rw [reduces.subscribers, List.length_map]

/-- A publisher that nobody uses is used by none of the calls that are left. -/
theorem Reduces.isInUse (reduces : r.Reduces seen given q) (free : r.isInUse = false) :
    q.isInUse = false := by
  simp only [Relay.isInUse, List.any_eq_false] at free ⊢
  intro stage inside
  obtain ⟨i, here⟩ := List.mem_iff_getElem?.mp inside
  exact free stage (List.mem_of_getElem? ((reduces.calls i).trans here))

/-- A call that may begin may begin on what is left. -/
theorem Reduces.accepts (reduces : r.Reduces seen given q) {call : RelayCall}
    (accepted : r.accepts call = true) : q.accepts call = true := by
  cases call with
  | start source uri =>
    have same := reduces.sources source
    simp only [Relay.accepts, reduces.dropped, Bool.and_eq_true] at accepted ⊢
    refine ⟨accepted.1, ?_⟩
    replace accepted := accepted.2
    generalize r.sources[source]? = x at same accepted
    generalize q.sources[source]? = y at same ⊢
    cases same with
    | none => simp at accepted
    | @some _ s' echo =>
      obtain ⟨spent, rfl, stays, -⟩ := echo
      cases own : s'.spent with
      | false => simp [own]
      | true => simp [ScriptedSource.mark, stays own] at accepted
  | drop =>
    simp only [Relay.accepts, reduces.dropped, Bool.and_eq_true, Bool.not_eq_true'] at accepted ⊢
    exact ⟨accepted.1, reduces.isInUse accepted.2⟩
  | _ =>
    simpa only [Relay.accepts, reduces.dropped, reduces.length_subscribers] using accepted

end Kept

section Restored

variable {hidden : List Nat}

/-- The next call has the number that comes next, if it is left. -/
theorem Reduces.next (reduces : r.Reduces (Relay.seen hidden) given q) (kept : r.calls.length ∉ hidden) :
    Relay.seen hidden q.calls.length = r.calls.length := by
  have own := seen_rank kept
  have beyond : ¬ rank hidden r.calls.length < q.calls.length := by
    rw [← reduces.lt_iff, own]
    exact Nat.lt_irrefl _
  rcases Nat.eq_or_lt_of_le (Nat.le_of_not_lt beyond) with same | less
  · rw [same, own]
  · have before := seen_strictMono hidden less
    rw [own] at before
    exact absurd ((reduces.lt_iff _).mp before) (Nat.lt_irrefl _)

/-- **A step of the publisher is a step of what is left of it**, if the call that takes it is left. -/
theorem Reduces.step_kept {l : Label} (reduces : r.Reduces (Relay.seen hidden) given q)
    (regular : r.Regular ∧ q.Regular) (last : r.step (l.renumber (Relay.seen hidden)) = some r')
    (kept : ∀ call, l = .begin call → r.calls.length ∉ hidden) :
    ∃ q', q.step l = some q' ∧ r'.Reduces (Relay.seen hidden) given q' ∧
      view r (l.renumber (Relay.seen hidden)) = (view q l).map (.renumber (Relay.seen hidden)) := by
  have inj := (seen_strictMono hidden).injective
  have level : Level r q l := by
    cases l with
    | call i =>
      intro locks
      obtain ⟨stage, here, locks⟩ := (Option.any_eq_true _ _).mp locks
      have free := taskHolder_of_isLocking ((reduces.calls i).trans here) locks last
      rw [free, reduces.unheld regular free]
    | _ => trivial
  have fits : Matches (Relay.seen hidden) r q l := by
    cases l with
    | begin call =>
      have accepted : r.accepts call = true := by
        by_contra refused
        simp [Label.renumber, Relay.step, refused] at last
      exact ⟨accepted.trans (reduces.accepts accepted).symm, reduces.next (kept call rfl)⟩
    | _ => trivial
  have both := reduces.step inj regular l level fits
  obtain ⟨q', stepped, after⟩ := exists_of_rel_left both last
  exact ⟨q', stepped, after,
    reduces.view_renumber both fun call same => reduces.next (kept call same)⟩

/-- All calls that are taken out have returned. -/
def HasReturned (r : Relay) (hidden : List Nat) : Prop :=
  ∀ n ∈ hidden, ∃ reply, r.calls[n]? = some (.returned reply)

/-- A step that gives none of the listed sources to a start. -/
def Label.Avoids (given : List Nat) : Label → Prop
  | .begin (.start source _) => source ∉ given
  | _ => True

variable (returned : r.HasReturned hidden)

include returned

/-- Nobody holds the task, if none of the calls that are left does. -/
theorem Reduces.unheld_back (reduces : r.Reduces (Relay.seen hidden) given q)
    (regular : r.Regular ∧ q.Regular) (free : q.taskHolder = none) : r.taskHolder = none := by
  by_contra held
  obtain ⟨n, holder⟩ := Option.ne_none_iff_exists'.mp held
  have holds := (regular.1.sound.holder n).mp holder
  by_cases taken : n ∈ hidden
  · obtain ⟨reply, ended⟩ := returned n taken
    simp [control, ended, CallStage.role] at holds
  · have role : q.control.role (rank hidden n) = r.control.role n := by
      simp only [control, ← reduces.calls, seen_rank taken]
    have holder : q.taskHolder = some (rank hidden n) :=
      (regular.2.sound.holder _).mpr (role ▸ holds)
    simp [free] at holder

theorem Reduces.isInUse_back (reduces : r.Reduces (Relay.seen hidden) given q)
    (free : q.isInUse = false) : r.isInUse = false := by
  simp only [Relay.isInUse, List.any_eq_false] at free ⊢
  intro stage inside
  obtain ⟨n, here⟩ := List.mem_iff_getElem?.mp inside
  by_cases taken : n ∈ hidden
  · obtain ⟨reply, ended⟩ := returned n taken
    obtain rfl := Option.some.inj (ended.symm.trans here)
    simp [CallStage.isOnPublisher]
  · rw [← seen_rank taken, reduces.calls] at here
    exact free stage (List.mem_of_getElem? here)

/-- A call that may begin on what is left may begin, unless it asks for a source that is gone. -/
theorem Reduces.accepts_back (reduces : r.Reduces (Relay.seen hidden) given q) {call : RelayCall}
    (avoids : (Label.begin call).Avoids given) (accepted : q.accepts call = true) :
    r.accepts call = true := by
  cases call with
  | start source uri =>
    have same := reduces.sources source
    simp only [Relay.accepts, reduces.dropped, Bool.and_eq_true] at accepted ⊢
    refine ⟨accepted.1, ?_⟩
    replace accepted := accepted.2
    generalize r.sources[source]? = x at same ⊢
    generalize q.sources[source]? = y at same accepted
    cases same with
    | none => simp at accepted
    | @some _ s' echo =>
      obtain ⟨spent, rfl, -, allowed⟩ := echo
      cases spent with
      | false => rfl
      | true => simp [(allowed rfl).resolve_right avoids] at accepted
  | drop =>
    simp only [Relay.accepts, reduces.dropped, Bool.and_eq_true, Bool.not_eq_true'] at accepted ⊢
    exact ⟨accepted.1, reduces.isInUse_back returned accepted.2⟩
  | _ =>
    simpa only [Relay.accepts, reduces.dropped, reduces.length_subscribers] using accepted

/-- **A step of what is left is a step of the publisher**, once the calls that are taken out have
returned. -/
theorem Reduces.step_restored {l : Label} (reduces : r.Reduces (Relay.seen hidden) given q)
    (regular : r.Regular ∧ q.Regular) (last : q.step l = some q') (avoids : l.Avoids given) :
    ∃ r', r.step (l.renumber (Relay.seen hidden)) = some r' ∧
      r'.Reduces (Relay.seen hidden) given q' ∧
      view r (l.renumber (Relay.seen hidden)) = (view q l).map (.renumber (Relay.seen hidden)) := by
  have inj := (seen_strictMono hidden).injective
  have next : Relay.seen hidden q.calls.length = r.calls.length := by
    refine reduces.next fun taken => ?_
    obtain ⟨reply, ended⟩ := returned _ taken
    simp at ended
  have level : Level r q l := by
    cases l with
    | call i =>
      intro locks
      obtain ⟨stage, here, locks⟩ := (Option.any_eq_true _ _).mp locks
      have free := taskHolder_of_isLocking here locks last
      rw [free, reduces.unheld_back returned regular free]
    | _ => trivial
  have fits : Matches (Relay.seen hidden) r q l := by
    cases l with
    | begin call =>
      have accepted : q.accepts call = true := by
        by_contra refused
        simp [Relay.step, refused] at last
      exact ⟨(reduces.accepts_back returned avoids accepted).trans accepted.symm, next⟩
    | _ => trivial
  have both := reduces.step inj regular l level fits
  obtain ⟨r', stepped, after⟩ := exists_of_rel_right both last
  exact ⟨r', stepped, after, reduces.view_renumber both fun _ _ => next⟩

end Restored

end Relay

end PacketRelay
