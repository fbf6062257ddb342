import PacketRelay.Proofs.Record
import PacketRelay.Task
import Mathlib.Tactic.Common

/-!
# What an access does to a task

All that one access can do is listed here once, for the thread of a run outside its target and for
the call in progress on a handle: where it is made, what has been found, and what it leaves. Every
other statement about these accesses goes by the cases of the lists.

## Main definitions

* `Context.Access`: what an access of the thread of a run does to the context
* `Task.Access`: what an access of the call in progress does

## Main results

* `Context.access_of_advance`, `access_of_advance`: every access is one of these
* `exists_access_of_advanceThread`: an access of a thread changes the context of its run only
-/

namespace PacketRelay.Task

variable {τ : Type}

/-- What an access of the thread of a run does to the context. -/
inductive Context.Access (c : Context τ) : Context τ → Prop
  -- The thread marks itself as holding the context.
  | hold (at_ : c.stage = some .spawned) :
      c.Access { c with threadAlive := true, stage := some .holding }
  -- It sets the phase to running.
  | run (at_ : c.stage = some .holding) :
      c.Access { c with phase := .running, stage := some .up }
  -- It notes its identity.
  | name (at_ : c.stage = some .up) : c.Access { c with isNamed := true, stage := some .named }
  -- It takes the target and enters it.
  | enter {target : τ} (at_ : c.stage = some .named) (found : c.target = some target) :
      c.Access { c with target := none, stage := some (.executing target) }
  -- It finds no target.
  | skip (at_ : c.stage = some .named) (missing : c.target = none) :
      c.Access { c with stage := some .returned }
  -- It sets the phase to idle.
  | rest (at_ : c.stage = some .returned) :
      c.Access { c with phase := .idle, stage := some .idle }
  -- It clears its mark.
  | letGo (at_ : c.stage = some .idle) :
      c.Access { c with threadAlive := false, stage := some (.releasing .readOwner) }
  -- It goes on in its attempt to release the context, or exits behind it.
  | release {r : Release} (at_ : c.stage = some (.releasing r)) :
      c.Access { (r.step c).1 with stage := some ((r.step c).2.elim .exited .releasing) }

/-- What an access of the call in progress does. -/
inductive Access (t : Task τ) : Task τ → Prop
  -- A start finds a run that is not over, and returns.
  | busy {target : τ} (at_ : t.position = .checkStart target) (running : t.isRunning = true) :
      t.Access { t with position := .returned false }
  -- A start finds no such run.
  | idle {target : τ} (at_ : t.position = .checkStart target) (idle : t.isRunning = false) :
      t.Access { t with position := .letGo (.spawn target) }
  -- The mark of the handle in its context is cleared.
  | letGo {next : AfterLetGo τ} (at_ : t.position = .letGo next) :
      t.Access { t.modify t.current fun c => { c with ownerAlive := false } with
        joinable := none, position := .releasing .readOwner next }
  -- An attempt to release the context goes on.
  | release {r r' : Release} {next : AfterLetGo τ} (at_ : t.position = .releasing r next)
      (more : (r.step t.context).2 = some r') :
      t.Access { t.modify t.current fun _ => (r.step t.context).1 with
        position := .releasing r' next }
  -- An attempt to release the context is over.
  | released {r : Release} {next : AfterLetGo τ} (at_ : t.position = .releasing r next)
      (done : (r.step t.context).2 = none) :
      t.Access ((t.modify t.current fun _ => (r.step t.context).1).afterLetGo next)
  -- A start makes a new context and its thread.
  | spawn {target : τ} (at_ : t.position = .spawn target) :
      t.Access { t with
        contexts := t.contexts ++ [.ofTarget target], position := .adopt t.contexts.length }
  -- A start takes up the context of its run, and returns.
  | adopt {run : Nat} (at_ : t.position = .adopt run) :
      t.Access { t with current := run, joinable := some run, position := .returned true }
  -- A handle that is dropped still holds its context.
  | dropHeld (at_ : t.position = .checkDrop) (held : t.context.ownerAlive = true) :
      t.Access { t with position := .cancel }
  -- A handle that is dropped has let go of its context before.
  | dropGone (at_ : t.position = .checkDrop) (gone : t.context.ownerAlive = false) :
      t.Access { t with position := .returned false, gone := true }
  -- The token of the current run is set.
  | cancel (at_ : t.position = .cancel) : t.Access { t.cancel with position := .checkJoin .letGo }
  -- There is a thread to wait for.
  | wait {run : Nat} {next : AfterJoin} (at_ : t.position = .checkJoin next)
      (running : t.isRunning = true) (joinable : t.joinable = some run)
      (other : t.caller ≠ .target run) :
      t.Access { t with joinable := none, position := .joining run next }
  -- There is none.
  | pass {next : AfterJoin} (at_ : t.position = .checkJoin next)
      (nobody : t.isRunning = true → ∀ run, t.joinable = some run → t.caller = .target run) :
      t.Access { t with position := next.position }
  -- The thread that has been waited for has exited.
  | joined {run : Nat} {next : AfterJoin} (at_ : t.position = .joining run next)
      (exited : t.hasExited run = true) : t.Access { t with position := next.position }

/-- Every access of the thread of a run is one of these. -/
theorem Context.access_of_advance {c d : Context τ} (last : c.advance = some d) : c.Access d := by
  obtain ⟨phase, owner, thread, released, named, target, cancelled, stage⟩ := c
  cases stage with
  | none => simp [advance] at last
  | some stage =>
    cases stage with
    | spawned => exact Option.some.inj last ▸ .hold rfl
    | holding => exact Option.some.inj last ▸ .run rfl
    | up => exact Option.some.inj last ▸ .name rfl
    | named =>
      cases target with
      | none => exact Option.some.inj last ▸ .skip rfl rfl
      | some target => exact Option.some.inj last ▸ .enter rfl rfl
    | executing target => simp [advance] at last
    | returned => exact Option.some.inj last ▸ .rest rfl
    | idle => exact Option.some.inj last ▸ .letGo rfl
    | releasing r => exact Option.some.inj last ▸ .release rfl
    | exited => simp [advance] at last

section Calls

variable {t t' : Task τ}

/-- A call that looks whether there is something to wait for waits or goes on. -/
theorem access_afterJoinCheck {next : AfterJoin} (at_ : t.position = .checkJoin next) :
    t.Access (t.afterJoinCheck next) := by
  unfold afterJoinCheck
  split
  · next running =>
    split
    · next run joinable =>
      split
      · next own =>
        refine .pass at_ fun _ other found => ?_
        rw [own, Option.some.inj (joinable.symm.trans found)]
      · next other => exact .wait at_ running joinable other
    · next nobody => exact .pass at_ fun _ run found => by simp [nobody] at found
  · next idle => exact .pass at_ fun running => absurd running idle

/-- Every access of the call in progress is one of these. -/
theorem access_of_advance (last : t.advance = some t') : t.Access t' := by
  cases at_ : t.position with
  | checkStart target =>
    simp only [advance, at_] at last
    obtain rfl := Option.some.inj last
    cases running : t.isRunning with
    | true => exact .busy at_ running
    | false => exact .idle at_ running
  | letGo next =>
    simp only [advance, at_] at last
    exact Option.some.inj last ▸ .letGo at_
  | releasing r next =>
    simp only [advance, at_] at last
    split at last
    · next r' more => exact Option.some.inj last ▸ .release at_ more
    · next done => exact Option.some.inj last ▸ .released at_ done
  | spawn target =>
    simp only [advance, at_] at last
    exact Option.some.inj last ▸ .spawn at_
  | adopt run =>
    simp only [advance, at_] at last
    exact Option.some.inj last ▸ .adopt at_
  | checkDrop =>
    simp only [advance, at_] at last
    split at last
    · next held => exact Option.some.inj last ▸ .dropHeld at_ held
    · next gone => exact Option.some.inj last ▸ .dropGone at_ (by simpa using gone)
  | cancel =>
    simp only [advance, at_] at last
    exact Option.some.inj last ▸ .cancel at_
  | checkJoin next =>
    simp only [advance, at_] at last
    exact Option.some.inj last ▸ access_afterJoinCheck at_
  | joining run next =>
    simp only [advance, at_] at last
    split at last
    · next exited => exact Option.some.inj last ▸ .joined at_ exited
    · simp at last
  | returned started => simp [advance, at_] at last

/-- An access of a thread changes the context of its run only. -/
theorem exists_access_of_advanceThread {run : Nat} (last : t.advanceThread run = some t') :
    ∃ c d, t.contexts[run]? = some c ∧ c.Access d ∧ t' = t.modify run fun _ => d := by
  simp only [advanceThread, Option.bind_eq_bind, Option.bind_eq_some_iff, Option.some.injEq] at last
  obtain ⟨c, found, d, step, rfl⟩ := last
  exact ⟨c, d, found, Context.access_of_advance step, rfl⟩

end Calls

end PacketRelay.Task
