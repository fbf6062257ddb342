import PacketRelay.Proofs.Record
import PacketRelay.Proofs.Task.Beside
import PacketRelay.Proofs.Task.Tokens

/-!
# Threads behind their targets

A thread that has left its target exits by its own steps, and a call that waits for it returns behind
it. Nobody else has to take a step.

## Main definitions

* `Context.Leads`: what a thread reaches by its own steps
* `Task.Unwinds`: what the call in progress and the threads reach by their own steps

## Main results

* `Context.exists_exited`: a thread that has left its target exits
* `exists_joined_of_left`: a call that waits for it returns
* `Unwinds.isCancelled`: waiting sets no token
-/

namespace PacketRelay.Task

open Schedule

variable {τ : Type} {fresh : τ → Prop} {t t' : Task τ} {run : Nat}

/-- The thread of a run leads from the first context to the second by its own steps. -/
def Context.Leads (c d : Context τ) : Prop :=
  Reaches (fun (c : Context τ) (_ : Unit) => c.advance) c d

/-- The call in progress and the threads lead from the first task to the second by their own steps. -/
def Unwinds (t t' : Task τ) : Prop :=
  Reaches (fun (t : Task τ) (run : Option Nat) => run.elim t.advance t.advanceThread) t t'

section Threads

variable {c d e : Context τ}

theorem Context.Leads.head (first : c.advance = some d) (later : d.Leads e) : c.Leads e :=
  Reaches.head (l := ()) first later

theorem Context.exists_exited_of_advance (first : c.advance = some d)
    (later : ∃ e, d.Leads e ∧ e.stage = some .exited) : ∃ e, c.Leads e ∧ e.stage = some .exited := by
  obtain ⟨e, path, exited⟩ := later
  exact ⟨e, path.head first, exited⟩

/-- An attempt of a thread to release its context comes to an end, in whatever way. -/
theorem Context.exists_exited_of_releasing (r : Release) (at_ : c.stage = some (.releasing r)) :
    ∃ d, c.Leads d ∧ d.stage = some .exited := by
  induction r using Release.induction τ generalizing c with
  | back r later =>
    have first : c.advance = some { (r.step c).1 with
        stage := some ((r.step c).2.elim .exited .releasing) } := by
      simp [advance, at_]
    cases more : (r.step c).2 with
    | none => exact ⟨_, .head first (.refl _), by simp [more]⟩
    | some r' => exact exists_exited_of_advance first (later c r' more (by simp [more]))

/-- **A thread that has left its target exits by its own steps.** -/
theorem Context.exists_exited {stage : Stage τ} (at_ : c.stage = some stage)
    (left : stage.isLive = false) : ∃ d, c.Leads d ∧ d.stage = some .exited := by
  have idle : ∀ c : Context τ, c.stage = some .idle → ∃ d, c.Leads d ∧ d.stage = some .exited := by
    intro c at_
    have first : c.advance = some { c with
        threadAlive := false, stage := some (.releasing .readOwner) } := by
      simp [advance, at_]
    exact exists_exited_of_advance first (exists_exited_of_releasing .readOwner rfl)
  cases stage with
  | returned =>
    have first : c.advance = some { c with phase := .idle, stage := some .idle } := by
      simp [advance, at_]
    exact exists_exited_of_advance first (idle _ rfl)
  | idle => exact idle c at_
  | releasing r => exact exists_exited_of_releasing r at_
  | exited => exact ⟨c, .refl c, at_⟩
  | _ => simp [Stage.isLive] at left

end Threads

section Calls

theorem Unwinds.head {u : Task τ} (first : t.advance = some t') (later : t'.Unwinds u) :
    t.Unwinds u :=
  Reaches.head (l := none) first later

/-- What a thread does by its own steps changes its context only. -/
theorem unwinds_of_leads {c d : Context τ} (found : t.contexts[run]? = some c) (path : c.Leads d) :
    t.Unwinds (t.modify run fun _ => d) := by
  induction path with
  | refl =>
    have same : t.contexts.modify run (fun _ => c) = t.contexts := by
      refine List.ext_getElem? fun n => ?_
      rw [List.getElem?_modify]
      split
      · next here => simp [← here, found]
      · simp
    show t.Unwinds { t with contexts := t.contexts.modify run fun _ => c }
    rw [same]
    exact .refl t
  | @tail d e _ _ last ih =>
    refine ih.tail (l := some run) ?_
    have here : (t.modify run fun _ => d).contexts[run]? = some d := by
      simp [getElem?_modify_contexts, found]
    show (t.modify run fun _ => d).advanceThread run = _
    simp only [advanceThread, here, Option.bind_eq_bind, Option.bind_some]
    rw [show d.advance = some e from last]
    simp [Task.modify, List.modify_modify_eq, Function.comp_def]

/-- **A call that waits for a thread that has left its target returns**, by its own steps and those of
the thread. -/
theorem exists_joined_of_left (coherent : t.Coherent fresh) (owns : t.Owns)
    (left : t.isLive t.current = false) (at_ : t.position = .checkJoin .done) :
    ∃ t', t.Unwinds t' ∧ t'.position = .returned false := by
  obtain ⟨u, look⟩ : ∃ u, t.advance = some u := by simp [advance, at_]
  cases access_of_advance look with
  | @pass next here =>
    obtain rfl : next = .done := by simpa [at_] using here.symm
    exact ⟨_, .head look (.refl _), rfl⟩
  | @wait run next here running joinable =>
    obtain rfl : next = .done := by simpa [at_] using here.symm
    -- The thread is there and has left its target, so that it exits.
    obtain rfl := owns.joinable run joinable
    obtain ⟨c, stage, found, staged⟩ := coherent.thread _ (.inl joinable)
    have behind : stage.isLive = false := by simpa [isLive, stage?, found, staged] using left
    obtain ⟨d, path, exited⟩ := Context.exists_exited staged behind
    let waiting : Task τ := { t with joinable := none, position := .joining t.current .done }
    have waited : waiting.Unwinds (waiting.modify t.current fun _ => d) :=
      unwinds_of_leads found path
    have exits : (waiting.modify t.current fun _ => d).hasExited t.current = true := by
      have here : (waiting.modify t.current fun _ => d).contexts[t.current]? = some d := by
        simp [waiting, getElem?_modify_contexts, found]
      obtain ⟨phase, owner, thread, released, named, target, cancelled, stage⟩ := d
      obtain rfl := exited
      simp only [hasExited, here]
    have last : (waiting.modify t.current fun _ => d).advance =
        some { waiting.modify t.current fun _ => d with position := .returned false } := by
      show (if (waiting.modify t.current fun _ => d).hasExited t.current then _ else _) = _
      rw [exits]
      rfl
    exact ⟨_, .head look (waited.tail (l := none) last), rfl⟩
  | _ other => simp [at_] at other

/-- **Waiting sets no token.** -/
theorem Unwinds.isCancelled (path : t.Unwinds t') (joining : t.position.isJoining) :
    t'.position.isJoining ∧ ∀ run, t'.isCancelled run = t.isCancelled run := by
  induction path with
  | refl => exact ⟨joining, fun _ => rfl⟩
  | @tail u v thread _ last ih =>
    obtain ⟨waits, same⟩ := ih
    cases thread with
    | none =>
      replace last : u.advance = some v := last
      refine ⟨isJoining_advance waits last, fun run => ?_⟩
      rcases isCancelled_advance last run with kept | ⟨at_, -⟩
      · exact kept.trans (same run)
      · simp [at_, Position.isJoining] at waits
    | some thread =>
      replace last : u.advanceThread thread = some v := last
      have steady := steady_advanceThread last
      exact ⟨steady.position ▸ waits, fun run => (steady.tokens run).trans (same run)⟩

end Calls

end PacketRelay.Task
