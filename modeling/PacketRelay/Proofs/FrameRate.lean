import PacketRelay.FrameRate
import PacketRelay.Proofs.TimeBase
import Mathlib.Data.List.Induction

/-!
# The window of the frame rate over a run

Frames may be shown in any order, and their times may saturate, so a window may shrink below zero and
grow beyond what is reported. What it measures does not change: it adds up differences of consecutive
times, and these telescope. A full window is reported as it is and the next one starts at nothing, so
that all windows together are the time from the first frame to the last. A frame that overflows is not
one of them: the sums are computed before any field is set.

So the window is the time since the last report. It can overflow only if the times of the frames are
further apart than the greatest word.

## Main definitions

* `FrameRate.run`, `FrameRate.outcome`, `FrameRate.next`: what comes of a frame, and the window behind it
* `FrameRate.record`, `FrameRate.behind`: the same for frames taken in one after the other
* `FrameRate.Fits`: no word overflows for a frame
* `FrameRate.Ran`: the runs, frame by frame

## Main results

* `FrameRate.run_takeIn`: what a frame does
* `FrameRate.ran`: frames that are taken in one after the other are a run
* `FrameRate.window_telescopes`: what has been reported and what is left
* `FrameRate.no_overflow_of_narrow`: frames that are not too far apart
-/

namespace PacketRelay.FrameRate

/-- What comes of a frame: its report, if there is one, or the overflow that has ended it. -/
abbrev Outcome := Except Overflow (Option Report)

section Running

variable {α : Type} {r : FrameRate}

/-- What a computation on the window gives, and the window that it leaves. -/
def run (x : ExceptT Overflow (StateM FrameRate) α) (r : FrameRate) : Except Overflow α × FrameRate :=
  Id.run (x.run.run r)

theorem run_pure (a : α) : run (pure a) r = (.ok a, r) := rfl

theorem run_get (f : FrameRate → ExceptT Overflow (StateM FrameRate) α) :
    run (get >>= f) r = run (f r) r := rfl

theorem run_modify (g : FrameRate → FrameRate) (f : Unit → ExceptT Overflow (StateM FrameRate) α) :
    run (modify g >>= f) r = run (f ()) (g r) := rfl

theorem run_ite (c : Prop) [Decidable c] (x y : ExceptT Overflow (StateM FrameRate) α) :
    run (if c then x else y) r = if c then run x r else run y r :=
  apply_ite (run · r) c x y

theorem run_checked (o : Overflow) (n : Int) (f : Int → ExceptT Overflow (StateM FrameRate) α) :
    run (liftM (checked o n) >>= f) r = if isWord n then run (f n) r else (.error o, r) := by
  unfold checked
  split <;> rfl

end Running

/-- A window that is long enough is reported, and the next one starts. -/
def close (r : FrameRate) : Outcome × FrameRate :=
  if reportLength ≤ r.window then
    (.ok (some ⟨r.frames, r.window⟩), { r with frames := 0, window := 0 })
  else (.ok none, r)

/-- The window with one more frame in it, shown at the given time, in exact integers. -/
def counted (r : FrameRate) (now : Int) : FrameRate :=
  match r.last with
  | none => { r with last := some now }
  | some last =>
    { r with last := some now, window := r.window + (now - last), frames := r.frames + 1 }

/-- No word overflows for a frame shown at the given time. -/
structure Fits (r : FrameRate) (now : Int) : Prop where
  passed : ∀ last ∈ r.last, isWord (now - last) = true
  window : ∀ last ∈ r.last, isWord (r.window + (now - last)) = true
  frames : ∀ _last ∈ r.last, isWord (r.frames + 1) = true

/-- What comes of the next frame. -/
def outcome (r : FrameRate) (pts : Int) : Outcome := (run (takeIn pts) r).1

/-- The window behind the next frame, whatever comes of it. -/
def next (r : FrameRate) (pts : Int) : FrameRate := (run (takeIn pts) r).2

section Frames

variable {r : FrameRate} {pts : Int}

/-- **What a frame does**, one field after the other. -/
theorem run_takeIn (r : FrameRate) (pts : Int) :
    run (takeIn pts) r =
      let now := r.timeBase.toMillis pts
      match r.last with
      | none => (r.counted now).close
      | some last =>
        if isWord (now - last) then
          if isWord (r.window + (now - last)) then
            if isWord (r.frames + 1) then (r.counted now).close
            else (.error .addition, { r with window := r.window + (now - last) })
          else (.error .addition, r)
        else (.error .subtraction, r) := by
  obtain ⟨base, frames, last, window⟩ := r
  cases last with
  | none =>
    simp only [takeIn, run_get, run_modify, run_ite, run_pure, counted, close]
    rfl
  | some last =>
    simp only [takeIn, run_get, run_modify, run_checked, run_ite, run_pure, counted, close]
    rfl

theorem run_takeIn_of_fits (fits : r.Fits (r.timeBase.toMillis pts)) :
    run (takeIn pts) r = (r.counted (r.timeBase.toMillis pts)).close := by
  rw [run_takeIn]
  cases before : r.last with
  | none => rfl
  | some last =>
    simp only [fits.passed last before, fits.window last before, fits.frames last before, if_true]

/-- A frame gives the same and leaves the same window in place or not, unless it overflows. -/
theorem onFrame_eq (r : FrameRate) (pts : Int) :
    r.onFrame pts = (r.outcome pts).map fun report => (r.next pts, report) := by
  have closes (g : FrameRate) : (if reportLength ≤ g.window then
      .ok ({ g with frames := 0, window := 0 }, some ⟨g.frames, g.window⟩) else .ok (g, none)) =
      g.close.1.map fun report => (g.close.2, report) := by
    unfold close
    by_cases full : reportLength ≤ g.window
    · rw [if_pos full, if_pos full]
      rfl
    · rw [if_neg full, if_neg full]
      rfl
  rw [outcome, next, run_takeIn]
  obtain ⟨base, frames, last, window⟩ := r
  cases last with
  | none => exact closes _
  | some last =>
    simp only [onFrame, extendTo, checked, bind, Except.bind]
    by_cases passed : isWord (base.toMillis pts - last) = true
    · by_cases sum : isWord (window + (base.toMillis pts - last)) = true
      · by_cases count : isWord (frames + 1) = true
        · simp only [passed, sum, count, if_true]
          exact closes ⟨base, frames + 1, some (base.toMillis pts), window + (base.toMillis pts - last)⟩
        · simp [passed, sum, count, Except.map]
      · simp [passed, sum, Except.map]
    · simp [passed, Except.map]

/-- **A frame that overflows changes nothing**, as long as the frames can be counted: the difference and
the sum are computed before a field is set. -/
theorem run_takeIn_of_not_fits (few : isWord (r.frames + 1) = true)
    (overflows : ¬ r.Fits (r.timeBase.toMillis pts)) :
    ∃ e, run (takeIn pts) r = (.error e, r) := by
  rw [run_takeIn]
  cases before : r.last with
  | none => exact absurd ⟨by simp [before], by simp [before], by simp [before]⟩ overflows
  | some last =>
    dsimp only
    by_cases passed : isWord (r.timeBase.toMillis pts - last) = true
    · by_cases window : isWord (r.window + (r.timeBase.toMillis pts - last)) = true
      · exact absurd ⟨by simpa [before], by simpa [before], by simpa [before]⟩ overflows
      · exact ⟨.addition, by rw [if_pos passed, if_neg window]⟩
    · exact ⟨.subtraction, by rw [if_neg passed]⟩

/-- A window is reported as it is, or goes on. -/
theorem close_cases (r : FrameRate) :
    reportLength ≤ r.window ∧
      r.close = (.ok (some ⟨r.frames, r.window⟩), { r with frames := 0, window := 0 }) ∨
    r.window < reportLength ∧ r.close = (.ok none, r) := by
  unfold close
  by_cases full : reportLength ≤ r.window
  · exact .inl ⟨full, if_pos full⟩
  · exact .inr ⟨Int.not_le.mp full, if_neg full⟩

theorem counted_cases (r : FrameRate) (now : Int) :
    r.last = none ∧ r.counted now = { r with last := some now } ∨
    ∃ last, r.last = some last ∧ r.counted now =
      { r with last := some now, window := r.window + (now - last), frames := r.frames + 1 } := by
  unfold counted
  cases r.last with
  | none => exact .inl ⟨rfl, rfl⟩
  | some last => exact .inr ⟨last, rfl, rfl⟩

theorem exists_ok_close (r : FrameRate) : ∃ report, r.close.1 = .ok report := by
  obtain ⟨-, closed⟩ | ⟨-, closed⟩ := r.close_cases <;> exact ⟨_, congrArg Prod.fst closed⟩

theorem next_of_error {e : Overflow} (countable : isWord (r.frames + 1) = true)
    (error : r.outcome pts = .error e) : r.next pts = r := by
  by_cases fits : r.Fits (r.timeBase.toMillis pts)
  · obtain ⟨report, ok⟩ := exists_ok_close (r.counted (r.timeBase.toMillis pts))
    rw [← run_takeIn_of_fits fits, ← outcome, error] at ok
    cases ok
  · obtain ⟨e, same⟩ := run_takeIn_of_not_fits countable fits
    exact congrArg Prod.snd same

@[simp] theorem timeBase_close (r : FrameRate) : r.close.2.timeBase = r.timeBase := by
  obtain ⟨-, closed⟩ | ⟨-, closed⟩ := r.close_cases <;> rw [closed]

@[simp] theorem last_close (r : FrameRate) : r.close.2.last = r.last := by
  obtain ⟨-, closed⟩ | ⟨-, closed⟩ := r.close_cases <;> rw [closed]

@[simp] theorem timeBase_counted (r : FrameRate) (now : Int) :
    (r.counted now).timeBase = r.timeBase := by
  obtain ⟨-, more⟩ | ⟨last, -, more⟩ := r.counted_cases now <;> rw [more]

@[simp] theorem last_counted (r : FrameRate) (now : Int) : (r.counted now).last = some now := by
  obtain ⟨-, more⟩ | ⟨last, -, more⟩ := r.counted_cases now <;> rw [more]

end Frames

section Records

/-- The window behind frames that have been taken in one after the other, also behind those that have
overflowed. -/
def behind (r : FrameRate) (pts : List Int) : FrameRate := pts.foldl next r

/-- The frames that are taken in one after the other, each with what comes of it. -/
def record (r : FrameRate) : List Int → List (Int × Outcome)
  | [] => []
  | p :: ps => (p, r.outcome p) :: (r.next p).record ps

/-- The frames of a record that have not overflowed. -/
def taken (log : List (Int × Outcome)) : List Int :=
  log.filterMap fun
    | (p, .ok _) => some p
    | (_, .error _) => none

/-- The reports of a record. -/
def reports (log : List (Int × Outcome)) : List Report :=
  log.filterMap fun
    | (_, .ok report) => report
    | (_, .error _) => none

variable {r : FrameRate} {ps : List Int} {p : Int} {log : List (Int × Outcome)} {e : Overflow}

theorem behind_snoc : r.behind (ps ++ [p]) = (r.behind ps).next p := by
  simp only [behind, List.foldl_append, List.foldl_cons, List.foldl_nil]

theorem record_snoc : r.record (ps ++ [p]) = r.record ps ++ [(p, (r.behind ps).outcome p)] := by
  induction ps generalizing r with
  | nil => rfl
  | cons q ps ih =>
    rw [List.cons_append, record, record, ih]
    rfl

@[simp] theorem length_record : (r.record ps).length = ps.length := by
  induction ps generalizing r with
  | nil => rfl
  | cons p ps ih => rw [record, List.length_cons, List.length_cons, ih]

theorem map_fst_record : (r.record ps).map Prod.fst = ps := by
  induction ps generalizing r with
  | nil => rfl
  | cons p ps ih => rw [record, List.map_cons, ih]

@[simp] theorem taken_snoc_close (g : FrameRate) :
    taken (log ++ [(p, g.close.1)]) = taken log ++ [p] := by
  obtain ⟨-, closed⟩ | ⟨-, closed⟩ := g.close_cases <;> simp [closed, taken]

@[simp] theorem taken_snoc_error : taken (log ++ [(p, .error e)]) = taken log := by
  simp [taken]

@[simp] theorem reports_snoc_error : reports (log ++ [(p, .error e)]) = reports log := by
  simp [reports]

/-- A window that is closed stands in the record what it was: as a report, or not at all. -/
theorem reports_snoc_close (g : FrameRate) (log : List (Int × Outcome)) (p : Int) :
    reportLength ≤ g.window ∧
      reports (log ++ [(p, g.close.1)]) = reports log ++ [⟨g.frames, g.window⟩] ∧
      g.close.2 = { g with frames := 0, window := 0 } ∨
    g.window < reportLength ∧ reports (log ++ [(p, g.close.1)]) = reports log ∧ g.close.2 = g := by
  obtain ⟨full, closed⟩ | ⟨short, closed⟩ := g.close_cases
  · exact .inl ⟨full, by simp [closed, reports], by rw [closed]⟩
  · exact .inr ⟨short, by simp [closed, reports], by rw [closed]⟩

end Records

/-- The runs over a time base, frame by frame: a record and the window behind it. -/
inductive Ran (base : TimeBase) : List (Int × Outcome) → FrameRate → Prop
  -- Nothing yet
  | start : Ran base [] { timeBase := base }
  -- A frame is counted
  | counted {log : List (Int × Outcome)} {r : FrameRate} {p : Int} (ran : Ran base log r)
      (fits : r.Fits (base.toMillis p)) :
      Ran base (log ++ [(p, (r.counted (base.toMillis p)).close.1)])
        (r.counted (base.toMillis p)).close.2
  -- A frame overflows and is left out
  | left {log : List (Int × Outcome)} {r : FrameRate} {p : Int} (ran : Ran base log r)
      (overflows : ¬ r.Fits (base.toMillis p)) (e : Overflow) : Ran base (log ++ [(p, .error e)]) r

namespace Ran

variable {base : TimeBase} {log : List (Int × Outcome)} {r : FrameRate}

theorem timeBase (ran : Ran base log r) : r.timeBase = base := by
  induction ran with
  | start => rfl
  | counted _ _ ih => rw [timeBase_close, timeBase_counted, ih]
  | left _ _ _ ih => exact ih

/-- No more frames have been counted than there are. -/
theorem frames_le (ran : Ran base log r) : 0 ≤ r.frames ∧ r.frames ≤ log.length := by
  induction ran with
  | start => exact ⟨Int.le_refl 0, Int.le_refl 0⟩
  | @counted log r p _ _ ih =>
    have one : 0 ≤ (r.counted (base.toMillis p)).frames ∧
        (r.counted (base.toMillis p)).frames ≤ r.frames + 1 := by
      obtain ⟨-, more⟩ | ⟨last, -, more⟩ := r.counted_cases (base.toMillis p) <;> rw [more] <;>
        dsimp only <;> omega
    rw [List.length_append, List.length_singleton]
    obtain ⟨-, closed⟩ | ⟨-, closed⟩ := (r.counted (base.toMillis p)).close_cases <;> rw [closed] <;>
      dsimp only <;> omega
  | left _ _ _ ih =>
    rw [List.length_append, List.length_singleton]
    omega

theorem isWord_frames_succ (ran : Ran base log r) (few : log.length + 1 < 2 ^ 63) :
    isWord (r.frames + 1) = true := by
  have := ran.frames_le
  exact isWord_of_nonneg (by omega) (by omega)

/-- A window that is left is short, and all that are reported are long; they are words. -/
theorem windows (ran : Ran base log r) :
    r.window < reportLength ∧ isWord r.window = true ∧
      ∀ w ∈ reports log, reportLength ≤ w.window ∧ isWord w.window = true := by
  induction ran with
  | start => exact ⟨show 0 < reportLength by decide, rfl, by simp [reports]⟩
  | @counted log r p _ fits ih =>
    obtain ⟨-, word, all⟩ := ih
    have word' : isWord (r.counted (base.toMillis p)).window = true := by
      obtain ⟨-, more⟩ | ⟨last, before, more⟩ := r.counted_cases (base.toMillis p) <;> rw [more]
      · exact word
      · exact fits.window last before
    obtain ⟨full, reported, closed⟩ | ⟨short, reported, closed⟩ :=
      reports_snoc_close (r.counted (base.toMillis p)) log p
    · rw [reported, closed]
      refine ⟨show 0 < reportLength by decide, rfl, fun w inside => ?_⟩
      rcases List.mem_append.mp inside with old | new
      · exact all w old
      · rw [List.mem_singleton.mp new]
        exact ⟨full, word'⟩
    · rw [reported, closed]
      exact ⟨short, word', all⟩
  | left _ _ _ ih =>
    rw [reports_snoc_error]
    exact ih

/-- **One more frame**: it is counted, or it is left out and has changed nothing. -/
theorem next (ran : Ran base log r) (countable : isWord (r.frames + 1) = true) (p : Int) :
    Ran base (log ++ [(p, r.outcome p)]) (r.next p) := by
  obtain rfl := ran.timeBase
  unfold outcome FrameRate.next
  by_cases fits : r.Fits (r.timeBase.toMillis p)
  · rw [run_takeIn_of_fits fits]
    exact ran.counted fits
  · obtain ⟨e, same⟩ := run_takeIn_of_not_fits countable fits
    rw [same]
    exact ran.left fits e

end Ran

/-- **Frames that are taken in one after the other are a run**, as long as they can be counted. -/
theorem ran (base : TimeBase) {pts : List Int} (few : pts.length < 2 ^ 63) :
    Ran base (record { timeBase := base } pts) (behind { timeBase := base } pts) := by
  induction pts using List.reverseRecOn with
  | nil => exact .start
  | append_singleton ps p ih =>
    rw [List.length_append, List.length_singleton] at few
    have before := ih (by omega)
    rw [record_snoc, behind_snoc]
    exact before.next (before.isWord_frames_succ (by rwa [length_record])) p

section Sums

/-- The time from the first to the last of the given ones; none where there are none. -/
def span (times : List Int) : Int := times.getLast?.getD 0 - times.head?.getD 0

theorem span_singleton (now : Int) : span [now] = 0 := Int.sub_self now

theorem span_eq {times : List Int} (some_ : times ≠ []) :
    span times = times.getLast some_ - times.head some_ := by
  rw [span, List.getLast?_eq_some_getLast some_, List.head?_eq_some_head some_]
  rfl

theorem span_snoc {times : List Int} {last : Int} (before : times.getLast? = some last) (now : Int) :
    span (times ++ [now]) = span times + (now - last) := by
  cases times with
  | nil => cases before
  | cons first rest =>
    rw [span, span, List.getLast?_concat, before, List.cons_append, List.head?_cons, List.head?_cons]
    simp only [Option.getD_some]
    omega

/-- What a record and the window behind it say of the times of the frames that have been counted. -/
structure Balanced (base : TimeBase) (log : List (Int × Outcome)) (r : FrameRate) : Prop where
  last : r.last = ((taken log).map base.toMillis).getLast?
  window : ((reports log).map (·.window)).sum + r.window = span ((taken log).map base.toMillis)
  frames : ((reports log).map (·.frames)).sum + r.frames = ((taken log).length - 1 : Nat)

variable {base : TimeBase} {log : List (Int × Outcome)} {r : FrameRate}

/-- A report takes nothing away. -/
theorem sum_close (g : FrameRate) (log : List (Int × Outcome)) (p : Int) :
    ((reports (log ++ [(p, g.close.1)])).map (·.window)).sum + g.close.2.window =
      ((reports log).map (·.window)).sum + g.window ∧
    ((reports (log ++ [(p, g.close.1)])).map (·.frames)).sum + g.close.2.frames =
      ((reports log).map (·.frames)).sum + g.frames := by
  obtain ⟨-, reported, closed⟩ | ⟨-, reported, closed⟩ := reports_snoc_close g log p
  · rw [reported, closed]
    simp
  · rw [reported, closed]
    exact ⟨rfl, rfl⟩

/-- **The windows telescope.** -/
theorem Ran.balanced (ran : Ran base log r) : Balanced base log r := by
  induction ran with
  | start => exact ⟨rfl, rfl, rfl⟩
  | @counted log r p _ fits ih =>
    obtain ⟨windows, frames⟩ := sum_close (r.counted (base.toMillis p)) log p
    have more : (taken (log ++ [(p, (r.counted (base.toMillis p)).close.1)])).map base.toMillis =
        (taken log).map base.toMillis ++ [base.toMillis p] := by
      rw [taken_snoc_close, List.map_append, List.map_singleton]
    refine ⟨?_, ?_, ?_⟩
    · rw [last_close, last_counted, more, List.getLast?_concat]
    · rw [windows, more]
      obtain ⟨first, same⟩ | ⟨last, later, same⟩ := r.counted_cases (base.toMillis p) <;> rw [same]
      · have empty := List.getLast?_eq_none_iff.mp (ih.last.symm.trans first)
        have window := ih.window
        rw [empty] at window ⊢
        rw [List.nil_append, span_singleton]
        exact window
      · rw [span_snoc (ih.last.symm.trans later), ← ih.window, Int.add_assoc]
    · rw [frames, taken_snoc_close, List.length_append, List.length_singleton]
      have counted := ih.frames
      obtain ⟨first, same⟩ | ⟨last, later, same⟩ := r.counted_cases (base.toMillis p) <;> rw [same]
      · have empty := List.map_eq_nil_iff.mp (List.getLast?_eq_none_iff.mp (ih.last.symm.trans first))
        rw [empty] at counted ⊢
        exact counted
      · have some_ : taken log ≠ [] := by
          rintro empty
          rw [ih.last, empty] at later
          cases later
        have := List.length_pos_iff.mpr some_
        dsimp only
        omega
  | left _ _ e ih =>
    obtain ⟨last, window, frames⟩ := ih
    exact ⟨by rwa [taken_snoc_error], by rwa [taken_snoc_error, reports_snoc_error],
      by rwa [taken_snoc_error, reports_snoc_error]⟩

/-- Frames that have overflowed might as well not have been there. -/
theorem Ran.without_overflows (ran : Ran base log r) :
    behind { timeBase := base } (taken log) = r ∧
      record { timeBase := base } (taken log) = log.filter (·.2.isOk) := by
  induction ran with
  | start => exact ⟨rfl, rfl⟩
  | @counted log r p before fits ih =>
    obtain ⟨same, recorded⟩ := ih
    obtain rfl := before.timeBase
    have did := run_takeIn_of_fits fits
    rw [taken_snoc_close, behind_snoc, record_snoc, same, recorded, List.filter_append]
    refine ⟨congrArg Prod.snd did, ?_⟩
    obtain ⟨report, ok⟩ := exists_ok_close (r.counted (r.timeBase.toMillis _))
    rw [outcome, did, ok]
    rfl
  | left _ _ e ih =>
    rw [taken_snoc_error, List.filter_append]
    exact ⟨ih.1, ih.2.trans (List.append_nil _).symm⟩

/-- The first frame is always counted. -/
theorem head?_taken_record (base : TimeBase) (pts : List Int) :
    (taken (record { timeBase := base } pts)).head? = pts.head? := by
  cases pts with
  | nil => rfl
  | cons p ps => rfl

end Sums

/-- **The window telescopes, and a frame that overflows is left out.** Whatever the time base, take in
fewer than `2 ^ 63` frames one after the other. A frame that overflows leaves the window as it was, so that
all goes on as if there had been only the others. Their times are `times`, and there are some if there are
any frames: in exact integers, all windows that are reported and the one that is left add up to the time
from the first to the last, and all their frames to one less than there are times; the last of them is the
last time. No window that is left after a frame is long enough for a report, every report is of one that
is; so the words by which reports divide are the lengths of their windows, and none is zero. -/
theorem window_telescopes (base : TimeBase) (pts : List Int) (few : pts.length < 2 ^ 63) :
    let start : FrameRate := { timeBase := base }
    let log := start.record pts
    let left := start.behind pts
    let times := (taken log).map base.toMillis
    (∀ before p e, before ++ [p] <+: pts → (start.behind before).outcome p = .error e →
      (start.behind before).next p = start.behind before) ∧
    start.behind (taken log) = left ∧ start.record (taken log) = log.filter (·.2.isOk) ∧
    (pts ≠ [] → times ≠ []) ∧
    (∀ some_ : times ≠ [],
      ((reports log).map (·.window)).sum + left.window = times.getLast some_ - times.head some_ ∧
      ((reports log).map (·.frames)).sum + left.frames = times.length - 1 ∧
      left.last = some (times.getLast some_)) ∧
    (∀ before, before <+: pts → (start.behind before).window < 2000) ∧
    ∀ w ∈ reports log, 2000 ≤ w.window ∧ (Int64.ofInt w.window).toInt = w.window ∧
      Int64.ofInt w.window ≠ 0 := by
  intro start log left times
  have ran_ : Ran base log left := ran base few
  have part {before : List Int} (part : before <+: pts) : before.length < 2 ^ 63 :=
    part.length_le.trans_lt few
  refine ⟨?_, ran_.without_overflows.1, ran_.without_overflows.2, ?_, ?_, ?_, ?_⟩
  · intro before p e inside error
    have short := inside.length_le.trans_lt few
    rw [List.length_append, List.length_singleton] at short
    have ran_ := ran base (part ((List.prefix_append before [p]).trans inside))
    exact next_of_error (ran_.isWord_frames_succ (by rwa [length_record])) error
  · intro some_ empty
    have first := head?_taken_record base pts
    rw [List.map_eq_nil_iff.mp empty, List.head?_nil] at first
    exact some_ (List.head?_eq_none_iff.mp first.symm)
  · intro some_
    obtain ⟨last, window, frames⟩ := ran_.balanced
    have one : 1 ≤ times.length := List.length_pos_iff.mpr some_
    refine ⟨window.trans (span_eq some_), frames.trans ?_, last.trans ?_⟩
    · rw [← List.length_map base.toMillis, Nat.cast_sub one]
      rfl
    · exact List.getLast?_eq_some_getLast some_
  · intro before inside
    exact (ran base (part inside)).windows.1
  · intro w inside
    obtain ⟨-, -, all⟩ := ran_.windows
    obtain ⟨long, word⟩ := all w inside
    rw [reportLength] at long
    rw [isWord_iff, minWord, maxWord] at word
    have same : (Int64.ofInt w.window).toInt = w.window :=
      Int64.toInt_ofInt_of_le (by omega) (by omega)
    refine ⟨long, same, fun zero => ?_⟩
    rw [zero, Int64.toInt_zero] at same
    omega

/-- Frames that go far back in time: two of them overflow, once the difference and once the sum. -/
def backwards : List Int := [1000, 4000, minWord, -1000, minWord, 2000]

/-- One report, and a window below zero. -/
theorem telescopes_backwards :
    let start : FrameRate := { timeBase := ⟨1, 1000⟩ }
    let log := start.record backwards
    let left := start.behind backwards
    backwards.length < 2 ^ 63 ∧
      log.map Prod.snd = [.ok none, .ok (some ⟨1, 3000⟩), .error .subtraction, .ok none,
        .error .addition, .ok none] ∧
      (start.behind [1000, 4000]).next minWord = start.behind [1000, 4000] ∧
      start.behind (taken log) = left ∧ taken log = [1000, 4000, -1000, 2000] ∧
      left.window = -2000 ∧ ((reports log).map (·.window)).sum + left.window = 2000 - 1000 ∧
      left.frames = 2 ∧ ((reports log).map (·.frames)).sum + left.frames = 4 - 1 := by
  intro start log left
  have few : backwards.length < 2 ^ 63 := by decide
  obtain ⟨unchanged, without, -, -, sums, -, -⟩ := window_telescopes ⟨1, 1000⟩ backwards few
  obtain ⟨windows, frames, -⟩ := sums (by decide)
  exact ⟨few, by decide, unchanged [1000, 4000] minWord .subtraction (by decide) (by decide), without,
    by decide, by decide, windows.trans (by decide), by decide, frames.trans (by decide)⟩

section Narrow

/-- A time is in the interval that starts at `low` and is as wide as the greatest word. -/
def Within (low now : Int) : Prop := low ≤ now ∧ now ≤ low + maxWord

variable {base : TimeBase} {log : List (Int × Outcome)} {r : FrameRate} {low : Int}

/-- What is kept in hand is the time since the last report, so that the time of that report is in the
interval as well. -/
structure Narrow (low : Int) (r : FrameRate) : Prop where
  first : r.last = none → r.window = 0
  last : ∀ last ∈ r.last, Within low last
  reported : ∀ last ∈ r.last, Within low (last - r.window)

theorem Narrow.fits (narrow : Narrow low r) (countable : isWord (r.frames + 1) = true) {now : Int}
    (inside : Within low now) : r.Fits now where
  passed last before := by
    have := narrow.last last before
    rw [isWord_iff, minWord, maxWord]
    simp only [Within, maxWord] at this inside
    omega
  -- The window becomes the time from the last report until now.
  window last before := by
    have := narrow.reported last before
    rw [isWord_iff, minWord, maxWord]
    simp only [Within, maxWord] at this inside
    omega
  frames _ _ := countable

theorem Narrow.counted (narrow : Narrow low r) {now : Int} (inside : Within low now) :
    Narrow low (r.counted now) := by
  obtain ⟨none_, more⟩ | ⟨last, before, more⟩ := r.counted_cases now <;> rw [more]
  · refine ⟨nofun, fun _ same => ?_, fun _ same => ?_⟩ <;>
      obtain rfl := Option.some.inj same
    · exact inside
    · rw [narrow.first none_, Int.sub_zero]
      exact inside
  · refine ⟨nofun, fun _ same => ?_, fun _ same => ?_⟩ <;>
      obtain rfl := Option.some.inj same
    · exact inside
    · have since : now - (r.window + (now - last)) = last - r.window := by omega
      rw [since]
      exact narrow.reported last before

/-- A report is made at the time of the frame. -/
theorem Narrow.close (narrow : Narrow low r) : Narrow low r.close.2 := by
  obtain ⟨-, closed⟩ | ⟨-, closed⟩ := r.close_cases <;> rw [closed]
  · refine ⟨fun _ => rfl, narrow.last, fun last before => ?_⟩
    rw [Int.sub_zero]
    exact narrow.last last before
  · exact narrow

theorem Ran.narrow (ran : Ran base log r) (inside : ∀ x ∈ log, Within low (base.toMillis x.1)) :
    Narrow low r := by
  induction ran with
  | start => exact ⟨fun _ => rfl, by simp, by simp⟩
  | counted _ _ ih =>
    have before := ih fun x there => inside x (List.mem_append_left _ there)
    exact (before.counted (inside _ (List.mem_append_right _ (List.mem_singleton_self _)))).close
  | left _ _ _ ih => exact ih fun x there => inside x (List.mem_append_left _ there)

/-- No frame overflows: neither the difference to the last time, nor the sum of the window, nor the count
of its frames. -/
def NeverOverflows (base : TimeBase) (pts : List Int) : Prop :=
  ∀ before p, before ++ [p] <+: pts →
    let r := behind { timeBase := base } before
    r.Fits (base.toMillis p) ∧ ∃ report, r.outcome p = .ok report

theorem neverOverflows_of_within {pts : List Int} (few : pts.length < 2 ^ 63)
    (inside : ∀ p ∈ pts, Within low (base.toMillis p)) : NeverOverflows base pts := by
  intro before p part r
  have short := part.length_le.trans_lt few
  rw [List.length_append, List.length_singleton] at short
  have ran_ : Ran base _ r := @ran base before (by omega)
  have early : ∀ x ∈ record { timeBase := base } before, Within low (base.toMillis x.1) := by
    intro x there
    have there := List.mem_map_of_mem (f := Prod.fst) there
    rw [map_fst_record] at there
    exact inside x.1 (part.subset (List.mem_append_left [p] there))
  have here := inside p (part.subset (List.mem_append_right before (List.mem_singleton_self p)))
  have fits : r.Fits (base.toMillis p) :=
    (ran_.narrow early).fits (ran_.isWord_frames_succ (by rwa [length_record])) here
  refine ⟨fits, ?_⟩
  have timeBase := ran_.timeBase
  rw [← timeBase] at fits
  rw [outcome, run_takeIn_of_fits fits]
  exact exists_ok_close _

/-- **Ordinary streams do not overflow.** Whatever the time base, fewer than `2 ^ 63` frames do not
overflow in any order if the interval of their times is not wider than the greatest word; and so if
neither a part of the time base nor a time in ticks is negative, however great they are. -/
theorem no_overflow_of_narrow (base : TimeBase) (pts : List Int) (few : pts.length < 2 ^ 63) :
    ((∃ low, ∀ p ∈ pts, low ≤ base.toMillis p ∧ base.toMillis p ≤ low + maxWord) →
      NeverOverflows base pts) ∧
    (0 ≤ base.num → 0 ≤ base.den → (∀ p ∈ pts, 0 ≤ p) → NeverOverflows base pts) := by
  constructor
  · rintro ⟨low, inside⟩
    exact neverOverflows_of_within few inside
  · intro num den nonneg
    have inside : ∀ p ∈ pts, Within 0 (base.toMillis p) := by
      intro p there
      have rises := TimeBase.toMillis_mono (Int.mul_nonneg num den) (nonneg p there)
      rw [TimeBase.toMillis_zero] at rises
      exact ⟨rises, by simpa using (isWord_iff.mp (base.isWord_toMillis p)).2⟩
    exact neverOverflows_of_within few inside

/-- Frames that go from one end of the words to the middle and back, and frames at both ends of an interval
that is as wide as it may be. -/
theorem no_overflow_of_halves :
    [maxWord, 0, maxWord].length < 2 ^ 63 ∧ NeverOverflows ⟨1, 1000⟩ [maxWord, 0, maxWord] ∧
      NeverOverflows ⟨-1, 1000⟩ [2 ^ 62, 1 - 2 ^ 62, 2 ^ 62] ∧
      ∃ report, (behind { timeBase := ⟨-1, 1000⟩ } [2 ^ 62]).outcome (1 - 2 ^ 62) = .ok report := by
  have few : [maxWord, 0, maxWord].length < 2 ^ 63 := by decide
  have wide : NeverOverflows ⟨-1, 1000⟩ [2 ^ 62, 1 - 2 ^ 62, 2 ^ 62] :=
    (no_overflow_of_narrow ⟨-1, 1000⟩ _ (by decide)).1 ⟨-2 ^ 62, by decide⟩
  exact ⟨few, (no_overflow_of_narrow ⟨1, 1000⟩ _ few).2 (by decide) (by decide) (by decide), wide,
    (wide [2 ^ 62] (1 - 2 ^ 62) (by decide)).2⟩

end Narrow

end PacketRelay.FrameRate
