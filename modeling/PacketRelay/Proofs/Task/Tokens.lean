import PacketRelay.Proofs.Task.Threads

/-!
# The tokens of the runs

Every run has a token of its own, which is not set when the run is made. A handle sets a token only
when it is dropped, and then that of its current run; whoever has a token may set it besides, and
nothing clears one. From making a run until it has returned, a start has that run in hand.

## Main definitions

* `Task.newRun?`: the new run that a start has in hand
* `Task.Steady`: a step leaves the handle and the tokens alone

## Main results

* `isCancelled_cancelRun`, `isCancelled_advance`: what sets a token
* `newRun?_advance`: a start comes by its run by making it, and keeps it
-/

namespace PacketRelay.Task

variable {τ : Type} {fresh : τ → Prop} {t t' : Task τ} {run : Nat}

/-- The new run that a start has in hand. -/
def newRun? (t : Task τ) : Option Nat :=
  match t.position with
  | .adopt run => some run
  | .returned true => some t.current
  | _ => none

/-- The handle is as before, and so are the tokens. -/
structure Steady (t t' : Task τ) : Prop where
  position : t'.position = t.position
  current : t'.current = t.current
  length : t'.contexts.length = t.contexts.length
  tokens : ∀ run, t'.isCancelled run = t.isCancelled run

section Contexts

variable {c d : Context τ}

@[simp] theorem Release.step_cancelled (r : Release) : (r.step c).1.cancelled = c.cancelled := by
  cases r <;> simp only [Release.step]
  split <;> rfl

theorem Context.Access.cancelled (last : c.Access d) : d.cancelled = c.cancelled := by
  cases last with
  | release => exact Release.step_cancelled _
  | _ => rfl

end Contexts

section Tokens

theorem isCancelled_eq_any (run : Nat) :
    t.isCancelled run = t.contexts[run]?.any (·.cancelled) := by
  rw [isCancelled, List.getD_eq_getElem?_getD]
  cases t.contexts[run]? <;> rfl

/-- A change of a context that does not concern its token leaves every token as it is. -/
theorem isCancelled_modify_of_eq {f : Context τ → Context τ}
    (same : ∀ c, t.contexts[run]? = some c → (f c).cancelled = c.cancelled) (other : Nat) :
    (t.modify run f).isCancelled other = t.isCancelled other := by
  rw [isCancelled_eq_any, isCancelled_eq_any, getElem?_modify_contexts]
  split
  · next here =>
    subst here
    cases found : t.contexts[run]? with
    | none => rfl
    | some c => exact same c found
  · rfl

/-- Setting the token of a run sets no other one. -/
theorem isCancelled_cancelRun (run other : Nat) : (t.cancelRun run).isCancelled other =
    (decide (run = other ∧ run < t.contexts.length) || t.isCancelled other) := by
  rw [isCancelled_eq_any, isCancelled_eq_any, cancelRun, getElem?_modify_contexts]
  split
  · next here =>
    subst here
    by_cases there : run < t.contexts.length <;> simp [there]
  · next other => simp [other]

theorem Steady.refl (t : Task τ) : t.Steady t := ⟨rfl, rfl, rfl, fun _ => rfl⟩

/-- A change of a context that does not concern its token leaves the handle steady. -/
theorem steady_modify {f : Context τ → Context τ}
    (same : ∀ c, t.contexts[run]? = some c → (f c).cancelled = c.cancelled) :
    t.Steady (t.modify run f) where
  position := rfl
  current := rfl
  length := List.length_modify ..
  tokens := isCancelled_modify_of_eq same

theorem steady_setTarget {target : τ} : t.Steady (t.setTarget run target) := by
  refine steady_modify fun c _ => ?_
  rfl

theorem steady_leave : t.Steady (t.leave run) := by
  refine steady_modify fun c _ => ?_
  rfl

/-- A thread sets no token. -/
theorem steady_advanceThread (last : t.advanceThread run = some t') : t.Steady t' := by
  obtain ⟨c, d, found, step, rfl⟩ := exists_access_of_advanceThread last
  refine steady_modify ?_
  intro e there
  obtain rfl := Option.some.inj (found.symm.trans there)
  exact step.cancelled

end Tokens

section Calls

/-- An attempt to release the context sets no token. -/
theorem isCancelled_release (r : Release) (run : Nat) :
    (t.modify t.current fun _ => (r.step t.context).1).isCancelled run = t.isCancelled run := by
  refine isCancelled_modify_of_eq (fun c found => ?_) run
  simp [context, found]

/-- A call sets no token, except that a handle that is dropped sets its own. -/
theorem isCancelled_advance (last : t.advance = some t') (run : Nat) :
    t'.isCancelled run = t.isCancelled run ∨ t.position = .cancel ∧ t'.isCancelled run = true := by
  cases access_of_advance last with
  | letGo =>
    exact .inl (isCancelled_modify_of_eq (f := fun c => { c with ownerAlive := false })
      (fun _ _ => rfl) run)
  | release => exact .inl (isCancelled_release ..)
  | @released _ next => cases next <;> exact .inl (isCancelled_release ..)
  | spawn =>
    -- The token of a new run is not set.
    left
    rw [isCancelled_eq_any, isCancelled_eq_any, List.getElem?_append]
    split
    · rfl
    · next beyond =>
      rw [List.getElem?_eq_none (Nat.le_of_not_lt beyond)]
      cases run - t.contexts.length <;> rfl
  | cancel at_ =>
    show (t.cancelRun t.current).isCancelled run = _ ∨
      _ ∧ (t.cancelRun t.current).isCancelled run = _
    rw [isCancelled_cancelRun]
    by_cases own : t.current = run ∧ t.current < t.contexts.length
    · exact .inr ⟨at_, by rw [decide_eq_true own, Bool.true_or]⟩
    · exact .inl (by rw [decide_eq_false own, Bool.false_or])
  | _ => exact .inl rfl

/-- What a call does to the runs that the handle knows. -/
theorem newRun?_advance (last : t.advance = some t') :
    (t'.newRun? = t.newRun? ∧ (∀ target, t.position ≠ .spawn target) ∧
      t'.contexts.length = t.contexts.length ∧
      (t'.current = t.current ∨ t.newRun? = some t'.current)) ∨
    ∃ target, t.position = .spawn target ∧ t'.newRun? = some t.contexts.length ∧
      t'.contexts.length = t.contexts.length + 1 ∧ t'.current = t.current := by
  cases access_of_advance last with
  | busy at_ | idle at_ | dropHeld at_ | dropGone at_ | wait at_ =>
    exact .inl ⟨by simp [newRun?, at_], by simp [at_], rfl, .inl rfl⟩
  | letGo at_ | release at_ | cancel at_ =>
    exact .inl ⟨by simp [newRun?, at_], by simp [at_], List.length_modify .., .inl rfl⟩
  | @released _ next at_ =>
    cases next <;>
      exact .inl ⟨by simp [newRun?, at_, afterLetGo], by simp [at_], List.length_modify .., .inl rfl⟩
  | spawn at_ => exact .inr ⟨_, at_, rfl, by simp, rfl⟩
  | adopt at_ => exact .inl ⟨by simp [newRun?, at_], by simp [at_], rfl, .inr (by simp [newRun?, at_])⟩
  | @pass next at_ | @joined _ next at_ =>
    cases next <;>
      exact .inl ⟨by simp [newRun?, at_, AfterJoin.position], by simp [at_], rfl, .inl rfl⟩

theorem HasThread.lt (thread : t.HasThread run) : run < t.contexts.length := by
  obtain ⟨c, -, found, -⟩ := thread
  exact (List.getElem?_eq_some_iff.mp found).1

/-- The run that a start has in hand is there. -/
theorem lt_of_newRun? (coherent : t.Coherent fresh) (inside : t.current < t.contexts.length)
    (new : t.newRun? = some run) : run < t.contexts.length := by
  unfold newRun? at new
  split at new
  · next at_ =>
    obtain rfl := Option.some.inj new
    exact (coherent.thread _ (.inr (by simp [at_, Position.run?]))).lt
  · exact Option.some.inj new ▸ inside
  · simp at new

/-- A start that has returned with a new run has made it the current one. -/
theorem current_eq_of_newRun? (free : t.isFree) (new : t.newRun? = some run) :
    t.position = .returned true ∧ t.current = run := by
  unfold newRun? at new
  split at new
  · next at_ => simp [isFree, at_] at free
  · next at_ => exact ⟨at_, Option.some.inj new⟩
  · simp at new

/-- The current run stays within the runs, and none is removed. -/
theorem current_lt_advance (coherent : t.Coherent fresh) (inside : t.current < t.contexts.length)
    (last : t.advance = some t') :
    t'.current < t'.contexts.length ∧ t.contexts.length ≤ t'.contexts.length := by
  rcases newRun?_advance last with ⟨-, -, length, same | new⟩ | ⟨target, -, -, length, same⟩
  · omega
  · have := lt_of_newRun? coherent inside new
    omega
  · omega

end Calls

end PacketRelay.Task
