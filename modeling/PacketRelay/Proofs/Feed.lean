import PacketRelay.Feed
import PacketRelay.Proofs.Record
import Mathlib.Data.List.Induction
import Mathlib.Tactic.Common

/-!
# The order of a feed

Any number of writers share a feed with its reader, and each access is one critical section. A record
shows what was written and by whom, and what each read has answered. Everything that a read answers
is told by the record before it: the units come in the order in which they were pushed, a failure
waits behind them and takes the place of one not yet reported, and the end waits behind both.

The end is no last word: a unit pushed after it is still read, and a failure still reported.

## Main definitions

* `Feed.Write`, `Feed.Access`, `Feed.step`: the feed as a machine
* `Feed.Event`, `Feed.observe`: what an access shows
* `Feed.unitsPushed`, `Feed.unitsRead`, `Feed.waiting`, `Feed.outstanding`, `Feed.HasEnd`: what a
  record tells
* `Feed.Kept`: the record and the feed agree

## Main results

* `kept_step`: the record and the feed stay in agreement
* `Answers.of_split`: what a read answers
* `all_read_of_often`, `exists_failed_of_outstanding`: what waits is delivered to a reader that goes on
  reading
* `feed_in_order`: all of it
-/

namespace PacketRelay.Feed

open Schedule

/-- What a writer does. -/
inductive Write
  | push (u : MediaUnit)
  | extend (us : List MediaUnit)
  | finish
  | fail (reason : String)
deriving DecidableEq

def write (f : Feed) : Write → Feed
  | .push u => f.push u
  | .extend us => f.extend us
  | .finish => f.finish
  | .fail reason => f.fail reason

/-- One access to a feed. Its writers are told apart by their numbers alone. -/
inductive Access
  | write (writer : Nat) (w : Write)
  | read
deriving DecidableEq

/-- The feed after an access. Nobody ever waits. -/
def step (f : Feed) : Access → Option Feed
  | .write _ w => some (f.write w)
  | .read => some f.read.1

/-- What an access shows. -/
inductive Event
  -- A writer has written.
  | wrote (writer : Nat) (w : Write)
  -- A read gives its answer.
  | answered (o : ReadOutcome)
deriving DecidableEq

def observe (f : Feed) : Access → Option Event
  | .write n w => some (.wrote n w)
  | .read => some (.answered f.read.2)

/-- The units that an event adds. -/
def Event.pushes : Event → List MediaUnit
  | .wrote _ (.push u) => [u]
  | .wrote _ (.extend us) => us
  | _ => []

/-- The unit that an event has read. -/
def Event.unit? : Event → Option MediaUnit
  | .answered (.unit u) => some u
  | _ => none

def Event.isAnswer : Event → Bool
  | .answered _ => true
  | .wrote .. => false

/-- A writer scripts a failure. -/
def Event.isFail : Event → Bool
  | .wrote _ (.fail _) => true
  | _ => false

/-- A read reports a failure. -/
def Event.isFailed : Event → Bool
  | .answered (.failed _) => true
  | _ => false

/-- All units pushed so far, in the order in which they were. -/
def unitsPushed (log : List Event) : List MediaUnit :=
  log.flatMap Event.pushes

/-- All units read so far, in the order in which they were. -/
def unitsRead (log : List Event) : List MediaUnit :=
  log.filterMap Event.unit?

/-- The units that have been pushed and not read, if the order is kept. -/
def waiting (log : List Event) : List MediaUnit :=
  (unitsPushed log).drop (unitsRead log).length

/-- The reason of the last failure that was scripted since one was reported. -/
def outstanding (log : List Event) : Option String :=
  log.foldl (fun due e => match e with
    | .wrote _ (.fail reason) => some reason
    | .answered (.failed _) => none
    | _ => due) none

/-- The end has been announced. -/
def HasEnd (log : List Event) : Prop :=
  ∃ n, .wrote n .finish ∈ log

variable {f f' : Feed} {log before after : List Event} {e : Event} {o : ReadOutcome}

section Views

theorem unitsPushed_append : unitsPushed (before ++ after) = unitsPushed before ++ unitsPushed after :=
  List.flatMap_append

theorem unitsRead_append : unitsRead (before ++ after) = unitsRead before ++ unitsRead after :=
  List.filterMap_append

theorem outstanding_snoc : outstanding (log ++ [e]) = match e with
    | .wrote _ (.fail reason) => some reason
    | .answered (.failed _) => none
    | _ => outstanding log := by
  simp only [outstanding, List.foldl_append, List.foldl_cons, List.foldl_nil]

theorem hasEnd_snoc : HasEnd (log ++ [e]) ↔ HasEnd log ∨ ∃ n, e = .wrote n .finish := by
  simp [HasEnd, exists_or, eq_comm]

end Views

/-- The record and the feed agree: what is there has been pushed and not read, the failure is the one
still to be reported, and no more of them have been reported than scripted. -/
structure Kept (log : List Event) (f : Feed) : Prop where
  order : unitsRead log ++ f.units = unitsPushed log
  failure : f.failure = (outstanding log).map .readFailed
  finished : f.finished = true ↔ HasEnd log
  reports : log.countP Event.isFailed + (if f.failure.isSome then 1 else 0) ≤ log.countP Event.isFail

theorem Kept.waiting (kept : Kept log f) : waiting log = f.units := by
  rw [Feed.waiting, ← kept.order, List.drop_left]

section Steps

theorem kept_write (kept : Kept log f) (n : Nat) (w : Write) :
    Kept (log ++ [.wrote n w]) (f.write w) := by
  obtain ⟨order, failure, finished, reports⟩ := kept
  constructor
  · rw [unitsRead_append, unitsPushed_append, ← order]
    cases w <;> simp [write, push, extend, finish, fail, unitsRead, unitsPushed, Event.pushes,
      Event.unit?]
  · rw [outstanding_snoc]
    cases w <;> simp [write, push, extend, finish, fail, failure]
  · rw [hasEnd_snoc]
    cases w <;> simp [write, push, extend, finish, fail, finished]
  · rw [List.countP_append, List.countP_append]
    cases w <;> simp_all [write, push, extend, finish, fail, Event.isFail, Event.isFailed]
    omega

/-- A read takes the first unit; without one it reports the failure; without either it says whether
the end has been announced. -/
theorem read_cases (f : Feed) :
    (∃ u us, f.units = u :: us ∧ f.read = ({ f with units := us }, .unit u)) ∨
    (f.units = [] ∧ ∃ e, f.failure = some e ∧ f.read = ({ f with failure := none }, .failed e)) ∨
    (f.units = [] ∧ f.failure = none ∧ f.read = (f, if f.finished then .ended else .pending)) := by
  obtain ⟨units, finished, failure⟩ := f
  cases units with
  | cons u us => exact .inl ⟨u, us, rfl, rfl⟩
  | nil =>
    cases failure with
    | some e => exact .inr (.inl ⟨rfl, e, rfl, rfl⟩)
    | none => exact .inr (.inr ⟨rfl, rfl, rfl⟩)

theorem kept_read (kept : Kept log f) : Kept (log ++ [.answered f.read.2]) f.read.1 := by
  obtain ⟨order, failure, finished, reports⟩ := kept
  rcases read_cases f with ⟨u, us, units, read⟩ | ⟨units, e, due, read⟩ | ⟨units, due, read⟩ <;>
    rw [read] <;>
    refine ⟨?_, ?_, ?_, ?_⟩
  · rw [unitsRead_append, unitsPushed_append, ← order, units]
    simp [unitsRead, unitsPushed, Event.pushes, Event.unit?]
  · rw [outstanding_snoc]
    exact failure
  · rw [hasEnd_snoc]
    simpa using finished
  · simpa [List.countP_append, Event.isFail, Event.isFailed] using reports
  · rw [unitsRead_append, unitsPushed_append, ← order, units]
    simp [unitsRead, unitsPushed, Event.pushes, Event.unit?]
  · rw [outstanding_snoc]
    rfl
  · rw [hasEnd_snoc]
    simpa using finished
  · -- The failure that is reported was still to be reported.
    simpa [List.countP_append, Event.isFail, Event.isFailed, due] using reports
  · rw [unitsRead_append, unitsPushed_append, ← order, units]
    cases f.finished <;> simp [unitsRead, unitsPushed, Event.pushes, Event.unit?]
  · rw [outstanding_snoc]
    cases f.finished <;> exact failure
  · rw [hasEnd_snoc]
    simpa using finished
  · cases f.finished <;> simpa [List.countP_append, Event.isFail, Event.isFailed] using reports

theorem kept_step {a : Access} (kept : Kept log f) (last : f.step a = some f') :
    Kept (log ++ (f.observe a).toList) f' := by
  cases a with
  | write n w =>
    obtain rfl := Option.some.inj last
    exact kept_write kept n w
  | read =>
    obtain rfl := Option.some.inj last
    exact kept_read kept

end Steps

section Runs

theorem kept (run : Records step (fun _ => True) observe {} log f) : Kept log f := by
  induction run with
  | refl => exact ⟨rfl, rfl, by simp [HasEnd], Nat.le_refl _⟩
  | tail _ _ last ih => exact kept_step ih last

/-- What a read answers, told by the record before it. -/
structure Answers (log : List Event) (o : ReadOutcome) : Prop where
  unit : ∀ u, o = .unit u ↔ (waiting log).head? = some u
  failed : ∀ e, o = .failed e ↔
    waiting log = [] ∧ ∃ reason, outstanding log = some reason ∧ e = .readFailed reason
  ended : o = .ended ↔ waiting log = [] ∧ outstanding log = none ∧ HasEnd log
  pending : o = .pending ↔ waiting log = [] ∧ outstanding log = none ∧ ¬ HasEnd log

theorem Kept.answers (kept : Kept log f) : Answers log f.read.2 := by
  have units := kept.waiting
  have failure := kept.failure
  have finished := kept.finished
  rcases read_cases f with ⟨u, us, first, read⟩ | ⟨empty, e, due, read⟩ | ⟨empty, due, read⟩
  · rw [read]
    rw [first] at units
    constructor <;> simp [units]
  · rw [read]
    rw [empty] at units
    obtain ⟨reason, script, rfl⟩ := Option.map_eq_some_iff.mp (failure.symm.trans due)
    constructor
    · simp [units]
    · simp [units, script, eq_comm]
    · simp [script]
    · simp [script]
  · rw [read]
    rw [empty] at units
    have none := Option.map_eq_none_iff.mp (failure.symm.trans due)
    cases ends : f.finished <;> rw [ends] at finished <;> constructor <;> simp_all

/-- What each read of a record has answered. -/
theorem Answers.of_split (run : Records step (fun _ => True) observe {} log f)
    (split : log = before ++ .answered o :: after) : Answers before o := by
  obtain ⟨t, a, t', earlier, last, shown, -⟩ := run.exists_of_split split
  cases a with
  | write n w => simp [observe] at shown
  | read =>
    obtain rfl : t.read.2 = o := by simpa [observe] using shown
    exact (kept earlier).answers

end Runs

section Progress

/-- A part of a record from the first on is a record. -/
theorem exists_records_of_append
    (run : Records step (fun _ => True) observe {} (before ++ after) f) :
    ∃ t, Records step (fun _ => True) observe {} before t :=
  run.exists_of_prefix (List.prefix_append before after)

/-- A reader gets on by one unit with each read, as long as there are units that were pushed before. -/
theorem le_length_unitsRead (run : Records step (fun _ => True) observe {} (before ++ after) f) :
    min (unitsPushed before).length ((unitsRead before).length + after.countP Event.isAnswer) ≤
      (unitsRead (before ++ after)).length := by
  induction after using List.reverseRecOn generalizing f with
  | nil =>
    rw [List.append_nil]
    exact Nat.min_le_right _ _
  | append_singleton after e ih =>
    rw [← List.append_assoc] at run
    obtain ⟨t, earlier⟩ := exists_records_of_append run
    have least := ih earlier
    rw [← List.append_assoc, unitsRead_append, List.countP_append,
      List.length_append]
    cases e with
    | wrote n w =>
      have none : (unitsRead [.wrote n w]).length = 0 := rfl
      have count : [Event.wrote n w].countP Event.isAnswer = 0 := rfl
      omega
    | answered o =>
      have answers : Answers (before ++ after) o := Answers.of_split run rfl
      cases first : (waiting (before ++ after)).head? with
      | some u =>
        obtain rfl := (answers.unit u).mpr first
        have one : (unitsRead [.answered (.unit u)]).length = 1 := rfl
        have count : [Event.answered (.unit u)].countP Event.isAnswer = 1 := rfl
        omega
      | none =>
        -- All that was pushed before has been read.
        have none : waiting (before ++ after) = [] := List.head?_eq_none_iff.mp first
        have all := List.drop_eq_nil_iff.mp none
        rw [unitsPushed_append, List.length_append] at all
        omega

/-- **Units are delivered.** A reader that reads as often as units wait has read all of them, whatever
happens in between. -/
theorem all_read_of_often (run : Records step (fun _ => True) observe {} (before ++ after) f)
    (often : (waiting before).length ≤ after.countP Event.isAnswer) :
    unitsPushed before <+: unitsRead (before ++ after) := by
  have order := (kept run).order
  have least := le_length_unitsRead run
  rw [waiting, List.length_drop] at often
  have early : unitsPushed before <+: unitsPushed (before ++ after) := by
    rw [unitsPushed_append]
    exact List.prefix_append _ _
  have read : unitsRead (before ++ after) <+: unitsPushed (before ++ after) := by
    rw [← order]
    exact List.prefix_append _ _
  exact List.prefix_of_prefix_length_le early read (by omega)

/-- Until a failure is reported there is one to be reported, and each read has answered a unit. -/
theorem outstanding_of_not_failed
    (run : Records step (fun _ => True) observe {} (before ++ after) f)
    (due : outstanding before ≠ none) (silent : ∀ e, .answered (.failed e) ∉ after) :
    outstanding (before ++ after) ≠ none ∧
      (unitsRead after).length = after.countP Event.isAnswer := by
  induction after using List.reverseRecOn generalizing f with
  | nil => simpa [unitsRead] using due
  | append_singleton after e ih =>
    rw [← List.append_assoc] at run
    obtain ⟨t, earlier⟩ := exists_records_of_append run
    obtain ⟨still, same⟩ := ih earlier fun x there => silent x (List.mem_append_left _ there)
    rw [← List.append_assoc, outstanding_snoc, unitsRead_append, List.countP_append,
      List.length_append, same]
    cases e with
    | wrote n w => cases w <;> simp [still, unitsRead, Event.unit?, Event.isAnswer]
    | answered o =>
      have answers : Answers (before ++ after) o := Answers.of_split run rfl
      cases o with
      | unit u => simp [still, unitsRead, Event.unit?, Event.isAnswer]
      | failed x => exact absurd (List.mem_append_right _ (List.mem_singleton_self _)) (silent x)
      | ended => exact absurd (answers.ended.mp rfl).2.1 still
      | pending => exact absurd (answers.pending.mp rfl).2.1 still

/-- **Failures are reported.** A reader that reads more often than there are units has been told of a
failure. -/
theorem exists_failed_of_outstanding
    (run : Records step (fun _ => True) observe {} (before ++ after) f)
    (due : outstanding before ≠ none)
    (often : (waiting before).length + (unitsPushed after).length < after.countP Event.isAnswer) :
    ∃ e, .answered (.failed e) ∈ after := by
  by_contra silent
  obtain ⟨-, same⟩ := outstanding_of_not_failed run due (not_exists.mp silent)
  obtain ⟨t, earlier⟩ := exists_records_of_append run
  have first := congrArg List.length (kept earlier).order
  have both := congrArg List.length (kept run).order
  rw [unitsRead_append, unitsPushed_append] at both
  rw [waiting, List.length_drop] at often
  simp only [List.length_append] at first both
  omega

end Progress

/-- **A feed keeps the order and has an ordered end.** Whatever the writers do and whenever the reader
reads: the units that have been read, followed by those that wait, are the units that were pushed, in
this order; a read answers the first unit that waits, and only if none does a failure, the one
scripted last since one was reported, and only if there is none either the end, if it was announced;
no failure is reported that was not scripted; after the announcement no read answers that there is
nothing for now; and what waits, behind an end or not, is delivered to a reader that goes on reading. -/
theorem feed_in_order (run : Records step (fun _ => True) observe {} log f) :
    unitsRead log ++ f.units = unitsPushed log ∧
    log.countP Event.isFailed ≤ log.countP Event.isFail ∧
    (∀ before o after, log = before ++ .answered o :: after →
      Answers before o ∧ (HasEnd before → o ≠ .pending)) ∧
    ∀ before after, log = before ++ after →
      ((waiting before).length ≤ after.countP Event.isAnswer →
        unitsPushed before <+: unitsRead log) ∧
      (outstanding before ≠ none →
        (waiting before).length + (unitsPushed after).length < after.countP Event.isAnswer →
        ∃ e, .answered (.failed e) ∈ after) := by
  have agree := kept run
  refine ⟨agree.order, Nat.le_of_add_right_le agree.reports, ?_, ?_⟩
  · intro before o after split
    have answers := Answers.of_split run split
    exact ⟨answers, fun announced nothing => (answers.pending.mp nothing).2.2 announced⟩
  · rintro before after rfl
    exact ⟨all_read_of_often run, exists_failed_of_outstanding run⟩

/-- Two writers: a failure takes the place of one not yet reported, the end is announced and read, and
a unit and a failure come after it. -/
def afterTheEnd : List Access :=
  [.read, .write 0 (.push ⟨0, [1], 0, none, 0, false, false⟩), .write 0 (.fail "lost"),
    .write 1 (.fail "closed"), .read, .read, .write 1 .finish, .read,
    .write 0 (.extend [⟨0, [2], 1, none, 0, false, false⟩]), .write 0 (.fail "reset"), .read, .read,
    .read]

/-- What comes after the end is delivered, and the end is read once more. -/
theorem delivered_after_end : ∃ log f,
    Records step (fun _ => True) observe {} log f ∧
      (unitsRead log).map MediaUnit.data = [[1], [2]] ∧
      unitsRead log ++ f.units = unitsPushed log ∧ f.units = [] ∧
      log.filterMap (fun | .answered (.failed e) => some e | _ => none) =
        [.readFailed "closed", .readFailed "reset"] ∧
      log.countP Event.isFail = 3 ∧ log.countP Event.isFailed ≤ 3 ∧
      ∃ before after, log = before ++ .answered .ended :: after ∧ HasEnd before ∧
        Answers before .ended ∧ 3 ≤ after.countP Event.isAnswer ∧
        unitsPushed before <+: unitsRead log := by
  have ran : (record? step observe {} afterTheEnd).any (fun x : List Event × Feed =>
      (unitsRead x.1).map MediaUnit.data = [[1], [2]] ∧ x.2.units = [] ∧
      x.1.filterMap (fun | .answered (.failed e) => some e | _ => none) =
        [.readFailed "closed", .readFailed "reset"] ∧
      x.1.countP Event.isFail = 3 ∧ x.1 = x.1.take 7 ++ .answered .ended :: x.1.drop 8 ∧
      .wrote 1 .finish ∈ x.1.take 7 ∧ (waiting (x.1.take 7)).length = 0 ∧
      3 ≤ (x.1.drop 8).countP Event.isAnswer) := by
    decide +kernel
  obtain ⟨log, f, run, facts⟩ := exists_records_of_any (fun _ _ => trivial) ran
  obtain ⟨units, empty, failures, scripted, split, announced, none, often⟩ := of_decide_eq_true facts
  obtain ⟨order, reports, answers, delivered⟩ := feed_in_order run
  have ended := (answers _ _ _ split).1
  rw [scripted] at reports
  refine ⟨log, f, run, units, order, empty, failures, scripted, reports, _, _, split, ⟨1, announced⟩,
    ended, often, ?_⟩
  refine (delivered _ (.answered .ended :: log.drop 8) split).1 ?_
  rw [none]
  exact Nat.zero_le _

end PacketRelay.Feed
