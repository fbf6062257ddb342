import PacketRelay.Proofs.Task.Handle

/-!
# A task beside which nobody has waited

Waiting for the thread of a run takes from the handle what it needs to wait for it again, and nothing
else of it is left once it is over. Two handles of the same runs, one of which has waited more often
than the other, therefore do the same: whatever a call finds in the one it finds in the other, since
the two differ in the thread that they can wait for only when that thread is through with its target.

## Main definitions

* `Task.Owns`: the handle waits, and can wait, for the thread of its own run only
* `Task.Alike`: two handles of the same runs
* `Task.Agrees`: two handles of the same runs at the same place of the same call
* `Task.Apart`: the first of two handles waits, or has waited, while the second has done nothing

## Main results

* `Task.Agrees.advance`: the call in progress does the same to both
* `Task.Apart.advance`, `Task.Apart.begin`: waiting comes to nothing
-/

namespace PacketRelay.Task

variable {τ : Type} {fresh : τ → Prop} {t t' u u' : Task τ} {run : Nat}

/-- The handle waits, and can wait, for the thread of its own run only. -/
structure Owns (t : Task τ) : Prop where
  joinable : ∀ run, t.joinable = some run → t.current = run
  joining : ∀ run next, t.position = .joining run next → t.current = run

/-- Two handles of the same runs. -/
structure Alike (t u : Task τ) : Prop where
  name : t.name = u.name
  contexts : t.contexts = u.contexts
  current : t.current = u.current
  gone : t.gone = u.gone

/-- Two handles of the same runs at the same place of the same call. -/
structure Agrees (t u : Task τ) : Prop extends Alike t u where
  caller : t.caller = u.caller
  position : t.position = u.position
  /-- They can wait for the same thread, unless there is nothing to wait for. -/
  joinable : t.joinable = u.joinable ∨ u.isRunning = false ∧ u.position.hasLetGo = false

/-- The first of two handles of the same runs waits for a thread, or has waited, and no call is in
progress on the second. -/
structure Apart (t u : Task τ) : Prop extends Alike t u where
  free : u.isFree = true
  joining : t.position.isJoining = true
  /-- They can wait for the same thread, unless the first has waited for it. -/
  joinable : t.joinable = u.joinable ∨ u.isRunning = false ∨ ∃ run, t.position = .joining run .done

section Owns

theorem owns_ofName (name : String) : ({ name := name } : Task τ).Owns where
  joinable := by simp
  joining := by simp

theorem Owns.congr (owns : t.Owns) (joinable : t'.joinable = t.joinable)
    (position : t'.position = t.position) (current : t'.current = t.current) : t'.Owns where
  joinable run same := current.trans (owns.joinable run (joinable ▸ same))
  joining run next at_ := current.trans (owns.joining run next (position ▸ at_))

theorem Owns.begin (owns : t.Owns) (by_ : Caller) (call : Call τ) : (t.begin by_ call).Owns where
  joinable := owns.joinable
  joining run next at_ := by cases call <;> simp [Task.begin, Call.entry] at at_

/-- A handle that cannot wait, or can wait for its own run, and does not wait. -/
theorem Owns.of_still (still : ∀ run next, t.position ≠ .joining run next)
    (joinable : ∀ run, t.joinable = some run → t.current = run) : t.Owns where
  joinable := joinable
  joining run next at_ := absurd at_ (still run next)

theorem Owns.advance (owns : t.Owns) (last : t.advance = some t') : t'.Owns := by
  cases access_of_advance last with
  | letGo => exact .of_still (by simp) (by simp)
  | release => exact .of_still (by simp) owns.joinable
  | @released _ next =>
    cases next <;> exact .of_still (by simp [afterLetGo]) owns.joinable
  | adopt => exact .of_still (by simp) (by simp)
  | wait at_ running joinable =>
    refine ⟨by simp, fun run next same => ?_⟩
    obtain ⟨rfl, -⟩ := Position.joining.inj same
    exact owns.joinable _ joinable
  | @pass next | @joined _ next =>
    cases next <;> exact .of_still (by simp [AfterJoin.position]) owns.joinable
  | _ => exact .of_still (by simp) owns.joinable

end Owns

section Runs

/-- A step of the thread of a run brings no run back. -/
theorem isRunning_advanceThread (coherent : t.Coherent fresh) (idle : t.isRunning = false)
    (last : t.advanceThread run = some t') : t'.isRunning = false := by
  obtain ⟨c, d, found, access, rfl⟩ := exists_access_of_advanceThread last
  by_cases here : run = t.current
  · subst here
    have inside := (List.getElem?_eq_some_iff.mp found).1
    have phase : c.phase = .idle := by simpa [isRunning, Task.phase, context, found] using idle
    have same : d.phase = .idle := by
      by_contra running
      exact access.phase_ne_idle (coherent.contexts _ c found) running phase
    simp [isRunning, Task.phase, context, Task.modify, inside, same]
  · have same : (t.modify run fun _ => d).contexts[t.current]? = t.contexts[t.current]? := by
      rw [getElem?_modify_contexts, if_neg here]
    simp only [isRunning, Task.phase, context, List.getD_eq_getElem?_getD] at idle ⊢
    rw [show (t.modify run fun _ => d).current = t.current from rfl, same]
    exact idle

/-- A change of a context that does not concern its phase leaves the run as it is. -/
theorem isRunning_modify_of_eq {f : Context τ → Context τ}
    (same : ∀ c, t.contexts[run]? = some c → (f c).phase = c.phase) :
    (t.modify run f).isRunning = t.isRunning := by
  simp only [isRunning, Task.phase, context, List.getD_eq_getElem?_getD]
  rw [show (t.modify run f).current = t.current from rfl, getElem?_modify_contexts]
  split
  · next here =>
    subst here
    cases found : t.contexts[t.current]? with
    | none => rfl
    | some c => exact congrArg (· != Phase.idle) (same c found)
  · rfl

theorem isRunning_cancelRun : (t.cancelRun run).isRunning = t.isRunning := by
  refine isRunning_modify_of_eq fun c _ => ?_
  rfl

theorem isRunning_leave : (t.leave run).isRunning = t.isRunning := by
  refine isRunning_modify_of_eq fun c _ => ?_
  rfl

theorem isRunning_setTarget {target : τ} : (t.setTarget run target).isRunning = t.isRunning := by
  refine isRunning_modify_of_eq fun c _ => ?_
  rfl

variable (alike : t.Alike u)

include alike

theorem Alike.isRunning : t.isRunning = u.isRunning := by
  simp [Task.isRunning, Task.phase, context, alike.contexts, alike.current]

theorem Alike.target? (run : Nat) : t.target? run = u.target? run := by
  simp [Task.target?, alike.contexts]

theorem Alike.isCancelled (run : Nat) : t.isCancelled run = u.isCancelled run := by
  simp [Task.isCancelled, alike.contexts]

theorem Alike.modify (run : Nat) (f : Context τ → Context τ) :
    (t.modify run f).Alike (u.modify run f) where
  name := alike.name
  contexts := by simp [Task.modify, alike.contexts]
  current := alike.current
  gone := alike.gone

end Runs

section Agrees

theorem Agrees.refl (t : Task τ) : t.Agrees t := ⟨⟨rfl, rfl, rfl, rfl⟩, rfl, rfl, .inl rfl⟩

theorem Agrees.isFree (agrees : t.Agrees u) : t.isFree = u.isFree := by
  simp [Task.isFree, agrees.position]

/-- Two handles that differ in the thread to wait for, of which there is none. -/
theorem agrees_of_idle (u : Task τ) (joinable : Option Nat) (idle : u.isRunning = false)
    (before : u.position.hasLetGo = false) : ({ u with joinable := joinable } : Task τ).Agrees u :=
  ⟨⟨rfl, rfl, rfl, rfl⟩, rfl, rfl, .inr ⟨idle, before⟩⟩

theorem Agrees.eq (agrees : t.Agrees u) : t = { u with joinable := t.joinable } := by
  obtain ⟨⟨name, contexts, current, gone⟩, caller, position, -⟩ := agrees
  cases t
  cases u
  simp_all

/-- A call begins on both. -/
theorem Agrees.begin (agrees : t.Agrees u) (by_ : Caller) (call : Call τ) :
    (t.begin by_ call).Agrees (u.begin by_ call) where
  name := agrees.name
  contexts := agrees.contexts
  current := agrees.current
  gone := agrees.gone
  caller := rfl
  position := rfl
  joinable := agrees.joinable.imp_right fun idle => ⟨idle.1, by cases call <;> rfl⟩

/-- A change of a context that brings no run back does the same to both. -/
theorem Agrees.modify (agrees : t.Agrees u) (run : Nat) (f : Context τ → Context τ)
    (idle : u.isRunning = false → (u.modify run f).isRunning = false) :
    (t.modify run f).Agrees (u.modify run f) where
  toAlike := agrees.toAlike.modify run f
  caller := agrees.caller
  position := agrees.position
  joinable := agrees.joinable.imp_right fun rest => ⟨idle rest.1, rest.2⟩

theorem rel_agrees_refl (t? : Option (Task τ)) : Option.Rel Agrees t? t? := by
  cases t? with
  | none => exact .none
  | some t => exact .some (.refl t)

/-- The call in progress does the same to both. -/
theorem Agrees.advance (agrees : t.Agrees u) : Option.Rel Agrees t.advance u.advance := by
  rcases agrees.joinable with same | ⟨idle, before⟩
  · rw [agrees.eq, same]
    exact rel_agrees_refl u.advance
  rw [agrees.eq]
  generalize t.joinable = joinable
  -- Behind the phase that both find the thread to wait for is not looked at.
  have go : ∀ {position : Position τ}, position.hasLetGo = false → Option.Rel Agrees
      (some { u with joinable := joinable, position := position })
      (some { u with position := position }) :=
    fun {position} past => .some (agrees_of_idle { u with position := position } joinable idle past)
  unfold Task.advance
  cases at_ : u.position with
  | checkStart target => exact go (by split <;> rfl)
  | letGo next => exact rel_agrees_refl _
  | releasing | spawn | adopt => simp [at_, Position.hasLetGo] at before
  | checkDrop =>
    show Option.Rel Agrees (if u.context.ownerAlive then _ else _)
      (if u.context.ownerAlive then _ else _)
    cases u.context.ownerAlive with
    | true => exact go rfl
    | false =>
      exact .some (agrees_of_idle { u with position := .returned false, gone := true } joinable idle
        rfl)
  | cancel =>
    have cancelled : u.cancel.isRunning = false := isRunning_cancelRun.trans idle
    exact .some (agrees_of_idle { u.cancel with position := .checkJoin .letGo } joinable cancelled rfl)
  | checkJoin next =>
    have past : (next.position : Position τ).hasLetGo = false := by cases next <;> rfl
    show Option.Rel Agrees (some (if u.isRunning then _ else _)) (some (if u.isRunning then _ else _))
    rw [idle]
    exact go past
  | joining run next =>
    show Option.Rel Agrees (if u.hasExited run then _ else _) (if u.hasExited run then _ else _)
    cases u.hasExited run with
    | true => exact go (by cases next <;> rfl)
    | false => exact .none
  | returned => exact .none

end Agrees

section Apart

/-- A call that waits begins on the first of two handles between their calls. -/
theorem Alike.begin_join (alike : t.Alike u) (free : u.isFree = true)
    (joinable : t.joinable = u.joinable ∨ u.isRunning = false) :
    (t.begin .outside .join).Apart u where
  name := alike.name
  contexts := alike.contexts
  current := alike.current
  gone := alike.gone
  free := free
  joining := rfl
  joinable := joinable.imp_right .inl

/-- A handle on which no call is in progress waits for nobody. -/
theorem Apart.joinable_of_isFree (apart : t.Apart u) (free : t.isFree = true) :
    t.joinable = u.joinable ∨ u.isRunning = false := by
  refine apart.joinable.imp_right fun rest => rest.resolve_right ?_
  rintro ⟨run, at_⟩
  simp [isFree, at_] at free

/-- A call begins on both, once the first has waited. -/
theorem Apart.begin (apart : t.Apart u) (free : t.isFree = true) (by_ : Caller) (call : Call τ) :
    (t.begin by_ call).Agrees (u.begin by_ call) where
  name := apart.name
  contexts := apart.contexts
  current := apart.current
  gone := apart.gone
  caller := rfl
  position := rfl
  joinable := (apart.joinable_of_isFree free).imp_right fun idle => ⟨idle, by cases call <;> rfl⟩

/-- A change of a context that brings no run back does the same to both. -/
theorem Apart.modify (apart : t.Apart u) (run : Nat) (f : Context τ → Context τ)
    (idle : u.isRunning = false → (u.modify run f).isRunning = false) :
    (t.modify run f).Apart (u.modify run f) where
  toAlike := apart.toAlike.modify run f
  free := apart.free
  joining := apart.joining
  joinable := apart.joinable.imp_right (.imp_left idle)

/-- **Waiting comes to nothing.** The thread that the first waits for is through with its run by the
end, and then there is nothing to wait for. -/
theorem Apart.advance (apart : t.Apart u) (owns : t.Owns) (coherent : t.Coherent fresh)
    (last : t.advance = some t') : t'.Apart u := by
  have joining := apart.joining
  have after := isJoining_advance joining last
  cases access_of_advance last with
  | @wait run next at_ =>
    obtain rfl : next = .done := by
      cases next with
      | done => rfl
      | letGo => simp [at_, Position.isJoining] at joining
    exact ⟨⟨apart.name, apart.contexts, apart.current, apart.gone⟩, apart.free, after,
      .inr (.inr ⟨run, rfl⟩)⟩
  | pass at_ =>
    refine ⟨⟨apart.name, apart.contexts, apart.current, apart.gone⟩, apart.free, after, ?_⟩
    exact apart.joinable.imp_right fun rest => .inl (rest.resolve_right (by simp [at_]))
  | @joined run next at_ exited =>
    refine ⟨⟨apart.name, apart.contexts, apart.current, apart.gone⟩, apart.free, after, .inr (.inl ?_)⟩
    rw [← apart.isRunning]
    rw [← owns.joining run next at_] at exited
    exact isRunning_eq_false_of_hasExited coherent exited
  | busy at_ | idle at_ | letGo at_ | release at_ | released at_ | spawn at_ | adopt at_ | dropHeld at_
  | dropGone at_ | cancel at_ =>
    rw [at_] at joining
    simp [Position.isJoining] at joining

end Apart

end PacketRelay.Task
