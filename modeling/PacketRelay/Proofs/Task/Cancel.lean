import PacketRelay.Proofs.Task.Handle

/-!
# Whose token is set

Clones of tokens are handed out: the handle gives a clone of the token of its run to whoever asks,
a target may keep a clone of the token that it was given, and a clone can be cloned. A clone may be
used at any time, also when its run is over, when the handle has gone on to other runs, and when the
handle is gone.

A record of what has been done tells which run each token belongs to. Runs are numbered as they are
made, a start that has returned with success has made its run that of the handle, and a clone belongs
to the run that was that of the handle when the clone was taken. A start that is refused makes no
run, so that the handle keeps the one that it has. The record then tells exactly which tokens are set.

## Main definitions

* `Task.Lending`, `Task.Lending.step`: a task with the clones that have been handed out
* `Task.Lending.Event`, `Task.Lending.observe`: what is done, without the runs that it concerns
* `Task.Told`, `Task.told`: the runs, the handle and the clones as a record tells them
* `Task.Told.Sets`: the token that is set by something that is done

## Main results

* `Task.Lending.step_told`: what a step sets, and that the record stays in agreement
* `Task.isCancelled_iff_told`: which tokens are set
-/

namespace PacketRelay.Task

open Schedule

variable {τ : Type}

/-- A task with the clones of tokens that have been handed out. -/
structure Lending (τ : Type) where
  /-- The task -/
  task : Task τ
  /-- For each clone the run whose token it is, in the order in which they were handed out -/
  clones : List Nat := []

namespace Lending

/-- What may be done. -/
inductive Act (τ : Type)
  -- A step of the task, but none by a clone
  | step (l : Label τ)
  -- Somebody asks the handle for a clone of its token.
  | take
  -- The target of a run keeps a clone of the token that it was given.
  | keep (run : Nat)
  -- Somebody clones a clone.
  | clone (i : Nat)
  -- Somebody cancels by a clone.
  | cancel (i : Nat)
deriving DecidableEq, Repr

def step (x : Lending τ) : Act τ → Option (Lending τ)
  | .step (.cancelRun _) => none
  | .step l => (x.task.step l).map fun t => { x with task := t }
  | .take =>
    if x.task.accepts .outside then some { x with clones := x.clones ++ [x.task.current] } else none
  | .keep run =>
    if (x.task.target? run).isSome then some { x with clones := x.clones ++ [run] } else none
  | .clone i => x.clones[i]?.map fun run => { x with clones := x.clones ++ [run] }
  | .cancel i => do
    let run ← x.clones[i]?
    let t ← x.task.step (.cancelRun run)
    some { x with task := t }

/-- What is done. -/
inductive Event
  -- A start makes a run.
  | made
  -- A start makes its run that of the handle, and returns with success.
  | adopted
  -- The handle cancels, or is dropped.
  | cancelled
  -- The handle gives a clone of its token.
  | taken
  -- The target of a run keeps a clone of its token.
  | kept (run : Nat)
  -- A clone is cloned.
  | cloned (i : Nat)
  -- A clone cancels.
  | cancelledBy (i : Nat)
deriving DecidableEq, Repr

/-- What is done by an act. -/
def observe (x : Lending τ) : Act τ → Option Event
  | .step .call =>
    match x.task.position with
    | .spawn _ => some .made
    | .adopt _ => some .adopted
    | .cancel => some .cancelled
    | _ => none
  | .step .cancel => some .cancelled
  | .step _ => none
  | .take => some .taken
  | .keep run => some (.kept run)
  | .clone i => some (.cloned i)
  | .cancel i => some (.cancelledBy i)

/-- A task of which nobody has a token. -/
def ofName (name : String) : Lending τ where
  task := { name := name }

end Lending

/-- The runs, the handle and the clones, as a record tells them. -/
structure Told where
  /-- The number of runs made -/
  runs : Nat := 0
  /-- The run of the handle; zero before the first one -/
  current : Nat := 0
  /-- For each clone the run whose token it is -/
  clones : List Nat := []
deriving DecidableEq, Repr

def Told.after (s : Told) : Lending.Event → Told
  | .made => { s with runs := s.runs + 1 }
  | .adopted => { s with current := s.runs }
  | .taken => { s with clones := s.clones ++ [s.current] }
  | .kept run => { s with clones := s.clones ++ [run] }
  | .cloned i => { s with clones := s.clones ++ s.clones[i]?.toList }
  | .cancelled | .cancelledBy _ => s

/-- What a record tells. -/
def told (log : List Lending.Event) : Told :=
  log.foldl Told.after {}

/-- The token of a run is set by something that is done. -/
def Told.Sets (s : Told) (run : Nat) : Lending.Event → Prop
  | .cancelled => s.current = run
  | .cancelledBy i => s.clones[i]? = some run
  | _ => False

/-- Since a run was made, its token has been set: by the handle while the run was that of the handle,
or by a clone of the token of this run. -/
def SetSince (log : List Lending.Event) (run : Nat) : Prop :=
  ∃ before e after, log = before ++ e :: after ∧
    run ≤ (told before).runs ∧ (told before).Sets run e

/-- The record tells the state. -/
structure Told.Fits (s : Told) (x : Lending τ) : Prop where
  runs : x.task.contexts.length = s.runs + 1
  current : x.task.current = s.current
  /-- A start takes up the last run that was made. -/
  adopts : ∀ run, x.task.position = .adopt run → run = s.runs
  clones : x.clones = s.clones
  current_le : s.current ≤ s.runs
  clones_le : ∀ run ∈ s.clones, run ≤ s.runs

section Record

variable {log : List Lending.Event} {e : Lending.Event} {run : Nat}

theorem told_append_toList (shown : Option Lending.Event) :
    told (log ++ shown.toList) = shown.elim (told log) (told log).after := by
  cases shown <;> simp [told]

theorem setSince_append_toList (shown : Option Lending.Event) :
    SetSince (log ++ shown.toList) run ↔
      SetSince log run ∨ ∃ e, shown = some e ∧ run ≤ (told log).runs ∧ (told log).Sets run e := by
  cases shown with
  | none => simp
  | some e =>
    rw [Option.toList_some]
    constructor
    · rintro ⟨before, d, after, split, made, sets⟩
      rcases List.eq_nil_or_concat after with rfl | ⟨after, y, rfl⟩
      · obtain ⟨rfl, same⟩ := List.append_inj' split rfl
        obtain rfl := List.singleton_inj.mp same
        exact .inr ⟨e, rfl, made, sets⟩
      · rw [List.concat_eq_append, ← List.cons_append, ← List.append_assoc] at split
        exact .inl ⟨before, d, after, (List.append_inj' split rfl).1, made, sets⟩
    · rintro (⟨before, d, after, rfl, made, sets⟩ | ⟨d, same, made, sets⟩)
      · exact ⟨before, d, after ++ [e], by simp, made, sets⟩
      · obtain rfl := Option.some.inj same
        exact ⟨log, e, [], rfl, made, sets⟩

/-- Only tokens of runs that have been made are set. -/
theorem Told.Fits.le_of_sets {s : Told} {x : Lending τ} (fits : s.Fits x) (sets : s.Sets run e) :
    run ≤ s.runs := by
  cases e with
  | cancelled => exact sets ▸ fits.current_le
  | cancelledBy i => exact fits.clones_le run (List.mem_of_getElem? sets)
  | _ => exact sets.elim

end Record

section Steps

variable {t t' : Task τ} {x x' : Lending τ} {s : Told} {run : Nat}

/-- Of the accesses of a call only that of a drop sets a token, and then that of its handle. -/
theorem isCancelled_advance_iff (inside : t.current < t.contexts.length) (last : t.advance = some t') :
    t'.isCancelled run = true ↔
      t.isCancelled run = true ∨ t.position = .cancel ∧ t.current = run := by
  by_cases at_ : t.position = .cancel
  · obtain rfl : { t.cancel with position := .checkJoin .letGo } = t' := by
      simpa [advance, at_] using last
    have set := isCancelled_cancelRun (t := t) t.current run
    simp only [inside, and_true] at set
    show (t.cancelRun t.current).isCancelled run = true ↔ _
    rw [set, Bool.or_eq_true, decide_eq_true_eq, or_comm]
    simp [at_]
  · rcases isCancelled_advance last run with same | ⟨there, -⟩
    · simp [same, at_]
    · exact absurd there at_

/-- A call goes on, and what the record tells goes along. -/
theorem Told.Fits.advance (fits : s.Fits x) (last : x.task.advance = some t') :
    (((x.observe (.step .call)).elim s s.after).Fits { x with task := t' }) := by
  have stays (same : t'.contexts.length = x.task.contexts.length)
      (current : t'.current = x.task.current) (other : ∀ run, t'.position ≠ .adopt run)
      (quiet : (x.observe (.step .call)).elim s s.after = s) :
      ((x.observe (.step .call)).elim s s.after).Fits { x with task := t' } := by
    rw [quiet]
    exact ⟨same.trans fits.runs, current.trans fits.current, fun run at_ => absurd at_ (other run),
      fits.clones, fits.current_le, fits.clones_le⟩
  cases access_of_advance last with
  | spawn at_ =>
    have shown : x.observe (.step .call) = some .made := by simp [Lending.observe, at_]
    rw [shown]
    refine ⟨by simp [Told.after, fits.runs], fits.current, fun run at_ => ?_, fits.clones,
      Nat.le_succ_of_le fits.current_le, fun run there => Nat.le_succ_of_le (fits.clones_le run there)⟩
    simpa [Told.after, fits.runs] using at_.symm
  | @adopt run at_ =>
    have shown : x.observe (.step .call) = some .adopted := by simp [Lending.observe, at_]
    rw [shown]
    exact ⟨fits.runs, fits.adopts run at_, by simp, fits.clones, Nat.le_refl _, fits.clones_le⟩
  | letGo at_ | release at_ | cancel at_ =>
    exact stays (List.length_modify ..) rfl (by simp) (by simp [Lending.observe, at_, Told.after])
  | @released r next at_ =>
    refine stays ?_ ?_ ?_ (by simp [Lending.observe, at_])
    · cases next <;> exact List.length_modify ..
    · cases next <;> rfl
    · cases next <;> simp [afterLetGo]
  | @pass next at_ | @joined _ next at_ =>
    exact stays rfl rfl (by cases next <;> simp [AfterJoin.position]) (by simp [Lending.observe, at_])
  | busy at_ | idle at_ | dropHeld at_ | dropGone at_ | wait at_ =>
    exact stays rfl rfl (by simp) (by simp [Lending.observe, at_])

/-- The handle and the runs are as before. -/
theorem Told.Fits.congr (fits : s.Fits x) (position : t'.position = x.task.position)
    (current : t'.current = x.task.current) (length : t'.contexts.length = x.task.contexts.length) :
    s.Fits { x with task := t' } where
  runs := length.trans fits.runs
  current := current.trans fits.current
  adopts run at_ := fits.adopts run (position.symm.trans at_)
  clones := fits.clones
  current_le := fits.current_le
  clones_le := fits.clones_le

/-- One more clone has been handed out. -/
theorem Told.Fits.lend (fits : s.Fits x) (made : run ≤ s.runs) :
    ({ s with clones := s.clones ++ [run] } : Told).Fits { x with clones := x.clones ++ [run] } where
  runs := fits.runs
  current := fits.current
  adopts := fits.adopts
  clones := by rw [fits.clones]
  current_le := fits.current_le
  clones_le other there := by
    rcases List.mem_append.mp there with old | new
    · exact fits.clones_le other old
    · exact List.mem_singleton.mp new ▸ made

theorem Told.Fits.inside (fits : s.Fits x) (made : run ≤ s.runs) : run < x.task.contexts.length := by
  rw [fits.runs]
  exact Nat.lt_succ_of_le made

theorem isCancelled_cancelRun_iff (inside : run < t.contexts.length) (other : Nat) :
    (t.cancelRun run).isCancelled other = true ↔ t.isCancelled other = true ∨ run = other := by
  rw [isCancelled_cancelRun, Bool.or_eq_true, decide_eq_true_eq, or_comm]
  simp [inside]

/-- A step of the task keeps to what the record tells, and sets a token only if a call or the handle
cancels. -/
theorem Told.Fits.step {l : Label τ} (fits : s.Fits x) (own : ∀ run, l ≠ .cancelRun run)
    (last : x.task.step l = some t') :
    ((x.observe (.step l)).elim s s.after).Fits { x with task := t' } ∧
      ∀ run, t'.isCancelled run = true ↔ x.task.isCancelled run = true ∨
        ∃ e, x.observe (.step l) = some e ∧ s.Sets run e := by
  have inside := fits.inside (fits.current ▸ fits.current_le)
  cases l with
  | begin by_ call =>
    obtain ⟨-, rfl⟩ := by simpa [Task.step] using last
    refine ⟨⟨fits.runs, fits.current, fun run at_ => ?_, fits.clones, fits.current_le,
      fits.clones_le⟩, fun run => ?_⟩
    · cases call <;> simp [Task.begin, Call.entry] at at_
    · simp [Lending.observe, Task.begin, isCancelled]
  | call =>
    refine ⟨fits.advance last, fun run => ?_⟩
    rw [isCancelled_advance_iff inside last, fits.current]
    cases at_ : x.task.position <;> simp [Lending.observe, at_, Told.Sets]
  | thread run =>
    have steady := steady_advanceThread last
    exact ⟨fits.congr steady.position steady.current steady.length,
      fun other => by simp [steady.tokens other, Lending.observe]⟩
  | leave run =>
    obtain ⟨-, rfl⟩ := by simpa [Task.step] using last
    have steady : x.task.Steady (x.task.leave run) := steady_leave
    exact ⟨fits.congr steady.position steady.current steady.length,
      fun other => by simp [steady.tokens other, Lending.observe]⟩
  | cancel =>
    obtain ⟨-, rfl⟩ := by simpa [Task.step] using last
    refine ⟨fits.congr rfl rfl (List.length_modify ..), fun run => ?_⟩
    rw [cancel, isCancelled_cancelRun_iff inside, fits.current]
    simp [Lending.observe, Told.Sets]
  | cancelRun run => exact absurd rfl (own run)

/-- **What a step does to the tokens.** It sets the token of the run that the record says, if any, and
leaves all others as they are; and the record stays in agreement. -/
theorem Lending.step_told {a : Act τ} (fits : s.Fits x) (last : x.step a = some x') :
    ((x.observe a).elim s s.after).Fits x' ∧
      ∀ run, x'.task.isCancelled run = true ↔ x.task.isCancelled run = true ∨
        ∃ e, x.observe a = some e ∧ s.Sets run e := by
  cases a with
  | step l =>
    obtain ⟨own, t, step, rfl⟩ : (∀ run, l ≠ .cancelRun run) ∧
        ∃ t, x.task.step l = some t ∧ { x with task := t } = x' := by
      cases l <;> simp_all [Lending.step]
    exact fits.step own step
  | take =>
    obtain ⟨-, rfl⟩ := by simpa [Lending.step] using last
    refine ⟨?_, fun run => by simp [observe, Told.Sets]⟩
    simpa [observe, Told.after, fits.current] using fits.lend fits.current_le
  | keep run =>
    obtain ⟨executing, rfl⟩ := by simpa [Lending.step] using last
    obtain ⟨target, executing⟩ := Option.isSome_iff_exists.mp executing
    obtain ⟨c, found, -⟩ := target?_eq_some.mp executing
    have inside := (List.getElem?_eq_some_iff.mp found).1
    rw [fits.runs] at inside
    exact ⟨fits.lend (Nat.le_of_lt_succ inside), fun run => by simp [observe, Told.Sets]⟩
  | clone i =>
    obtain ⟨run, found, rfl⟩ := by simpa [Lending.step] using last
    rw [fits.clones] at found
    refine ⟨?_, fun run => by simp [observe, Told.Sets]⟩
    simpa [observe, Told.after, found] using fits.lend (fits.clones_le run (List.mem_of_getElem? found))
  | cancel i =>
    obtain ⟨run, found, t, step, rfl⟩ :
        ∃ run, x.clones[i]? = some run ∧ ∃ t, x.task.step (.cancelRun run) = some t ∧
          { x with task := t } = x' := by
      simpa [Lending.step, Option.bind_eq_some_iff] using last
    obtain ⟨inside, rfl⟩ := by simpa [Task.step] using step
    refine ⟨fits.congr rfl rfl (List.length_modify ..), fun other => ?_⟩
    rw [isCancelled_cancelRun_iff inside]
    simp [observe, Told.Sets, ← fits.clones, found]

end Steps

/-- Does a handle that is there hold the context of its run? -/
def Position.isKeeping : Position τ → Bool
  | .checkStart _ | .letGo _ | .cancel | .checkJoin _ | .joining .. | .returned _ => true
  | _ => false

/-- The handle is marked in the context of a run. -/
def isHeld (t : Task τ) (run : Nat) : Bool := (t.contexts.getD run {}).ownerAlive

/-- What a handle holds, whether it is ever detached or not. -/
structure Keeps (t : Task τ) : Prop where
  /-- A handle that is there holds the context of its run, unless a call is about to take up another
  or has given the handle up. -/
  own : t.gone = false → t.position.isKeeping → t.isHeld t.current
  /-- So it does the context that a start is about to take up. -/
  new : ∀ run, t.position = .adopt run → t.isHeld run

/-- A drop is about to set the token of a run, unless the token is set. -/
inductive Dropping (run : Nat) (t : Task τ) : Prop
  | looks (own : t.current = run) (inside : run < t.contexts.length) (at_ : t.position = .checkDrop)
      (held : t.isHeld run = true)
  | cancels (own : t.current = run) (inside : run < t.contexts.length) (at_ : t.position = .cancel)
  | set (cancelled : t.isCancelled run = true)

section Drops

variable {t t' : Task τ} {run : Nat} {l : Label τ}

/-- A change of a context that does not concern the mark of the handle leaves all these marks. -/
theorem isHeld_modify_of_eq {f : Context τ → Context τ}
    (same : ∀ c, t.contexts[run]? = some c → (f c).ownerAlive = c.ownerAlive) (other : Nat) :
    (t.modify run f).isHeld other = t.isHeld other := by
  rw [isHeld, isHeld, List.getD_eq_getElem?_getD, List.getD_eq_getElem?_getD, getElem?_modify_contexts]
  split
  · next here =>
    subst here
    cases found : t.contexts[run]? with
    | none => rfl
    | some c => exact same c found
  · rfl

theorem isHeld_cancelRun (run other : Nat) : (t.cancelRun run).isHeld other = t.isHeld other :=
  isHeld_modify_of_eq (f := fun c => { c with cancelled := true }) (fun _ _ => rfl) other

/-- Only an access of a call changes what the handle is marked in. -/
theorem isHeld_step (last : t.step l = some t') (aside : l ≠ .call) (other : Nat) :
    t'.isHeld other = t.isHeld other := by
  cases move_of_step last with
  | begin => rfl
  | call => exact absurd rfl aside
  | @thread run c d found access =>
    refine isHeld_modify_of_eq (fun e there => ?_) other
    obtain rfl := Option.some.inj (found.symm.trans there)
    exact access.ownerAlive
  | leave =>
    refine isHeld_modify_of_eq (fun _ _ => ?_) other
    rfl
  | cancel | cancelRun => exact isHeld_cancelRun _ other

theorem keeps_ofName (name : String) : ({ name := name } : Task τ).Keeps where
  own _ _ := rfl
  new := by simp

/-- A step that leaves the handle and its marks as they are. -/
theorem Keeps.congr (keeps : t.Keeps) (position : t'.position = t.position)
    (current : t'.current = t.current) (gone : t'.gone = t.gone)
    (same : ∀ run, t'.isHeld run = t.isHeld run) : t'.Keeps where
  own stays keeping := by
    rw [same, current]
    exact keeps.own (gone.symm.trans stays) (position ▸ keeping)
  new run at_ := (same run).trans (keeps.new run (position.symm.trans at_))

/-- A call goes on without having let go of the context. -/
theorem Keeps.moveTo (keeps : t.Keeps) (before : t.position.isKeeping)
    (current : t'.current = t.current) (gone : t'.gone = t.gone)
    (other : ∀ run, t'.position ≠ .adopt run) (same : t'.isHeld t.current = t.isHeld t.current) :
    t'.Keeps where
  own stays _ := by
    rw [current, same]
    exact keeps.own (gone.symm.trans stays) before
  new run at_ := absurd at_ (other run)

/-- A handle that lets go of a context has no other in hand. -/
theorem Keeps.of_past (past : t'.gone = true ∨ t'.position.isKeeping = false)
    (other : ∀ run, t'.position ≠ .adopt run) : t'.Keeps where
  own stays keeping := by
    rcases past with gone | past
    · simp [stays] at gone
    · simp [keeping] at past
  new run at_ := absurd at_ (other run)

theorem Keeps.access (keeps : t.Keeps) (last : t.Access t') : t'.Keeps := by
  cases last with
  | busy at_ | idle at_ | wait at_ =>
    exact keeps.moveTo (by simp [at_, Position.isKeeping]) rfl rfl (by simp) rfl
  | @pass next at_ | @joined _ next at_ =>
    exact keeps.moveTo (by simp [at_, Position.isKeeping]) rfl rfl
      (by cases next <;> simp [AfterJoin.position]) rfl
  | cancel at_ =>
    exact keeps.moveTo (by simp [at_, Position.isKeeping]) rfl rfl (by simp) (isHeld_cancelRun ..)
  | letGo | release => exact .of_past (.inr rfl) (by simp)
  | @released _ next =>
    cases next with
    | spawn | detached => exact .of_past (.inr rfl) (by simp [afterLetGo])
    | dropped => exact .of_past (.inl rfl) (by simp [afterLetGo])
  | dropGone => exact .of_past (.inl rfl) (by simp)
  | dropHeld at_ held => exact ⟨fun _ _ => held, by simp⟩
  | spawn =>
    refine ⟨fun _ keeping => by simp [Position.isKeeping] at keeping, fun run at_ => ?_⟩
    obtain rfl := Position.adopt.inj at_
    simp [isHeld, Context.ofTarget]
  | adopt at_ => exact ⟨fun _ _ => keeps.new _ at_, by simp⟩

theorem Keeps.step (keeps : t.Keeps) (last : t.step l = some t') : t'.Keeps := by
  cases move_of_step last with
  | @begin by_ call accepted =>
    obtain ⟨started, at_⟩ : ∃ started, t.position = .returned started := by
      simp only [accepts, isFree, Bool.and_eq_true] at accepted
      cases at_ : t.position <;> simp_all
    exact keeps.moveTo (by simp [at_, Position.isKeeping]) rfl rfl
      (by cases call <;> simp [Task.begin, Call.entry]) rfl
  | call access => exact keeps.access access
  | thread | leave | cancel | cancelRun =>
    exact keeps.congr rfl rfl rfl (isHeld_step last (by simp))

theorem Turn.cancelled {c d : Context τ} {attempt attempt' : Option Release}
    (last : Turn c attempt d attempt') (before : c.cancelled = true) : d.cancelled = true := by
  cases last with
  | release => exact (Release.step_cancelled _).trans before
  | thread access => exact access.cancelled.trans before
  | cancel => rfl
  | _ => exact before

/-- A token that is set stays so. -/
theorem isCancelled_step (before : t.isCancelled run = true) (last : t.step l = some t') :
    t'.isCancelled run = true := by
  rw [isCancelled_eq_any, Option.any_eq_true] at before ⊢
  obtain ⟨c, found, cancelled⟩ := before
  obtain ⟨d, found', turn⟩ := (move_of_step last).exists_turn found
  exact ⟨d, found', turn.cancelled cancelled⟩

/-- A drop that is in progress goes on to set the token. -/
theorem Dropping.step (dropping : t.Dropping run) (last : t.step l = some t') : t'.Dropping run := by
  cases dropping with
  | set cancelled => exact .set (isCancelled_step cancelled last)
  | looks own inside at_ held =>
    cases move_of_step last with
    | begin accepted => simp [accepts, isFree, at_] at accepted
    | call access =>
      cases access with
      | dropHeld => exact .cancels own inside rfl
      | dropGone _ gone =>
        have gone : t.isHeld t.current = false := gone
        simp [← own, gone] at held
      | _ there => simp [at_] at there
    | thread | leave | cancel | cancelRun =>
      exact .looks own (Nat.lt_of_lt_of_eq inside (List.length_modify ..).symm) at_
        ((isHeld_step last (by simp) run).trans held)
  | cancels own inside at_ =>
    cases move_of_step last with
    | begin accepted => simp [accepts, isFree, at_] at accepted
    | call access =>
      cases access with
      | cancel => exact .set ((isCancelled_cancelRun_iff (own ▸ inside) run).mpr (.inr own))
      | _ there => simp [at_] at there
    | thread | leave | cancel | cancelRun =>
      exact .cancels own (Nat.lt_of_lt_of_eq inside (List.length_modify ..).symm) at_

end Drops

section Runs

variable {name : String} {log : List Lending.Event} {x y : Lending τ} {t t' : Task τ} {run : Nat}

theorem keeps_of_reaches (reached : Reaches step { name := name } t) : t.Keeps := by
  induction reached with
  | refl => exact keeps_ofName name
  | tail _ last ih => exact ih.step last

/-- Whoever holds clones of tokens takes steps of the task only. -/
theorem Lending.reaches_task (reached : Reaches Lending.step x y) :
    Reaches Task.step x.task y.task := by
  induction reached with
  | refl => exact .refl _
  | @tail u v a _ last ih =>
    cases a with
    | step l =>
      obtain ⟨t, step, rfl⟩ : ∃ t, u.task.step l = some t ∧ { u with task := t } = v := by
        cases l <;> simp_all [Lending.step]
      exact ih.tail step
    | take | keep =>
      obtain ⟨-, rfl⟩ := by simpa [Lending.step] using last
      exact ih
    | clone =>
      obtain ⟨run, -, rfl⟩ := by simpa [Lending.step] using last
      exact ih
    | cancel =>
      obtain ⟨run, -, t, step, rfl⟩ :
          ∃ run, _ ∧ ∃ t, u.task.step (.cancelRun run) = some t ∧ { u with task := t } = v := by
        simpa [Lending.step, Option.bind_eq_some_iff] using last
      exact ih.tail step

theorem Told.fits_ofName (name : String) : ({} : Told).Fits (Lending.ofName name : Lending τ) where
  runs := rfl
  current := rfl
  adopts := by simp [Lending.ofName]
  clones := rfl
  current_le := Nat.le_refl 0
  clones_le := by simp

/-- What the record tells of the state and of the tokens, all along. -/
theorem fits_and_isCancelled_iff
    (recorded : Records Lending.step (fun _ => True) Lending.observe (Lending.ofName name) log x) :
    (told log).Fits x ∧ ∀ run, x.task.isCancelled run = true ↔ SetSince log run := by
  induction recorded with
  | refl =>
    refine ⟨Told.fits_ofName name, fun run => ?_⟩
    have unset : (Lending.ofName name : Lending τ).task.isCancelled run = false := by
      rw [isCancelled_eq_any]
      cases run <;> rfl
    simp [unset, SetSince]
  | @tail u v log a _ _ last ih =>
    obtain ⟨fits, iff⟩ := ih
    obtain ⟨fits', sets⟩ := Lending.step_told fits last
    refine ⟨by rwa [told_append_toList], fun run => ?_⟩
    rw [sets, iff, setSince_append_toList]
    constructor
    · rintro (before | ⟨e, shown, here⟩)
      · exact .inl before
      · exact .inr ⟨e, shown, fits.le_of_sets here, here⟩
    · rintro (before | ⟨e, shown, -, here⟩)
      · exact .inl before
      · exact .inr ⟨e, shown, here⟩

theorem dropping_of_reaches {by_ : Caller} (keeps : t.Keeps) (inside : t.current < t.contexts.length)
    (begun : t.step (.begin by_ .drop) = some t') {u : Task τ} (later : Reaches step t' u) :
    u.Dropping t.current := by
  induction later with
  | refl =>
    obtain ⟨accepted, rfl⟩ := by simpa [Task.step] using begun
    simp only [accepts, isFree, Bool.and_eq_true, Bool.not_eq_true'] at accepted
    refine .looks rfl inside rfl (keeps.own accepted.1.1 ?_)
    cases at_ : t.position <;> simp_all [Position.isKeeping]
  | tail _ last ih => exact ih.step last

/-- A drop that has returned has set the token. -/
theorem Dropping.isCancelled (dropping : t.Dropping run) (free : t.isFree = true) :
    t.isCancelled run = true := by
  cases dropping with
  | looks _ _ at_ | cancels _ _ at_ => simp [isFree, at_] at free
  | set cancelled => exact cancelled

/-- **Cancellation belongs to one run.** The token of a run is set if and only if, since the run was
made, the handle has cancelled or has been dropped while the run was that of the handle, or a clone of
the token of this run has cancelled. No token of a run that is not yet made is set, however often the
handle or the tokens of earlier runs have cancelled. A step sets the token that the record says and
leaves all others, so that a token that is set stays so. And a drop sets the token of the run of the
handle before it returns. -/
theorem isCancelled_iff_told
    (recorded : Records Lending.step (fun _ => True) Lending.observe (Lending.ofName name) log x) :
    (told log).Fits x ∧ (∀ run, x.task.isCancelled run = true ↔ SetSince log run) ∧
    (∀ run, (told log).runs < run → x.task.isCancelled run = false) ∧
    (∀ a x', x.step a = some x' → ∀ run, x'.task.isCancelled run = true ↔
      x.task.isCancelled run = true ∨ ∃ e, x.observe a = some e ∧ (told log).Sets run e) ∧
    ∀ by_ x' y, x.step (.step (.begin by_ .drop)) = some x' → Reaches Lending.step x' y →
      y.task.isFree = true → y.task.isCancelled x.task.current = true := by
  obtain ⟨fits, iff⟩ := fits_and_isCancelled_iff recorded
  refine ⟨fits, iff, fun run beyond => ?_, fun a x' last => (Lending.step_told fits last).2,
    fun by_ x' y begun later free => ?_⟩
  · have none : x.task.contexts[run]? = none := by
      rw [List.getElem?_eq_none_iff, fits.runs]
      exact beyond
    rw [isCancelled_eq_any, none, Option.any_none]
  · obtain ⟨t, step, rfl⟩ :
        ∃ t, x.task.step (.begin by_ .drop) = some t ∧ { x with task := t } = x' := by
      simpa [Lending.step] using begun
    have keeps := keeps_of_reaches (Lending.reaches_task recorded.reaches)
    have inside := fits.inside (fits.current ▸ fits.current_le)
    exact (dropping_of_reaches keeps inside step (Lending.reaches_task later)).isCancelled free

/-- A handle cancels before its first start, a start is refused, and behind the end of the first run a
clone of its token cancels; the second run is not concerned until the handle is dropped. -/
theorem isCancelled_of_first_run : ∃ (log : List Lending.Event) (x : Lending Unit),
    Records Lending.step (fun _ => True) Lending.observe (Lending.ofName "worker") log x ∧
    log = [.cancelled, .made, .adopted, .taken, .kept 1, .made, .adopted, .cloned 1, .cancelledBy 2] ∧
    (told log).runs = 2 ∧ x.clones = [1, 1, 1] ∧ SetSince log 0 ∧ SetSince log 1 ∧ ¬ SetSince log 2 ∧
    ∃ x', x.step (.step (.begin .outside .drop)) = some x' ∧
      ∀ y, Reaches Lending.step x' y → y.task.isFree = true → y.task.isCancelled 2 = true := by
  have ran : (record? Lending.step Lending.observe (Lending.ofName "worker" : Lending Unit)
      (List.flatten [[.step .cancel, .step (.begin .outside (.start ()))],
        List.replicate 8 (.step .call), List.replicate 4 (.step (.thread 1)),
        [.take, .keep 1, .step (.begin .outside (.start ())), .step .call, .step (.leave 1)],
        List.replicate 3 (.step (.thread 1)), [.step (.begin .outside (.start ()))],
        List.replicate 8 (.step .call), [.clone 1, .cancel 2]])).any
      (fun r => r.1 = [.cancelled, .made, .adopted, .taken, .kept 1, .made, .adopted, .cloned 1,
          .cancelledBy 2] ∧ r.2.task.isCancelled 0 = true ∧ r.2.task.isCancelled 1 = true ∧
        r.2.task.isCancelled 2 = false ∧ r.2.task.current = 2 ∧ r.2.clones = [1, 1, 1] ∧
        (r.2.step (.step (.begin .outside .drop))).isSome) := by
    decide +kernel
  obtain ⟨log, x, recorded, shown⟩ := exists_records_of_any (fun _ _ => trivial) ran
  obtain ⟨rfl, zero, one, two, current, clones, accepted⟩ := of_decide_eq_true shown
  obtain ⟨-, iff, -, -, drops⟩ := isCancelled_iff_told recorded
  obtain ⟨x', begun⟩ := Option.isSome_iff_exists.mp accepted
  refine ⟨_, x, recorded, rfl, rfl, clones, (iff 0).mp zero, (iff 1).mp one, fun sets => ?_,
    x', begun, fun y later free => current ▸ drops .outside x' y begun later free⟩
  simp [(iff 2).mpr sets] at two

end Runs

end PacketRelay.Task
