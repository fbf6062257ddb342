import PacketRelay.Proofs.Task.Release
import PacketRelay.Proofs.Task.Sole
import PacketRelay.Proofs.Task.Tokens

/-!
# A handle and its run

A handle that is never detached keeps to one run at a time, whoever calls: threads outside, or the
target itself. The run of the handle is the only one whose thread may not have left its target,
except while a start takes up the next; a start lets go of a run only when its phase says that it
is over; and between calls the handle can wait for the thread of a run that is not over. A join
gives that thread away only until it has exited, or not at all if the thread is the caller.

## Main definitions

* `Label.IsAttached`: a label by which no handle is detached
* `Task.Minds`: what a handle knows about its run

## Main results

* `Minds.step`: every step keeps what the handle knows
* `Minds.eq_of_isLive`: at most one thread has not left its target
-/

namespace PacketRelay.Task

open Schedule

variable {τ : Type} {fresh : τ → Prop} {t t' : Task τ} {run : Nat}

/-- A label by which no handle is detached. -/
def Label.IsAttached (l : Label τ) : Prop :=
  ∀ by_, l ≠ .begin by_ .detach

/-- Is a start past the phase of the run before? -/
def Position.isChanging : Position τ → Bool
  | .letGo (.spawn _) | .releasing _ (.spawn _) | .spawn _ | .adopt _ => true
  | _ => false

/-- Is the handle being detached? -/
def Position.isDetaching : Position τ → Bool
  | .letGo .detached | .releasing _ .detached => true
  | _ => false

/-- What a handle that is never detached knows about its run. -/
structure Minds (t : Task τ) : Prop where
  /-- Its run is there. -/
  inside : t.current < t.contexts.length
  /-- No thread is live but that of its run, and of the run that it is about to take up. -/
  live : ∀ run, t.isLive run → run = t.current ∨ t.position = .adopt run
  /-- A start goes past a run that is not live only. -/
  changing : t.position.isChanging → t.isLive t.current = false
  /-- It can wait for the thread of its run only. -/
  joinable : ∀ run, t.joinable = some run → t.current = run
  /-- It can wait for that thread if the run is not over, unless a call waits for it already. -/
  holding : t.position.isHolding → t.gone = false → t.isRunning → t.joinable = some t.current
  /-- A call waits for that thread only. -/
  joining : ∀ run next, t.position = .joining run next → t.current = run
  /-- It holds the context of its run until it lets go of that, and of the run that it is about to
  take up. -/
  owner : ∀ (run : Nat) (c : Context τ), t.contexts[run]? = some c →
    (run = t.current ∧ t.gone = false ∧ t.position.hasLetGo = false) ∨ t.position = .adopt run →
      c.ownerAlive
  /-- It is not being detached. -/
  attached : t.position.isDetaching = false

section Contexts

theorem isRunning_eq_any (inside : t.current < t.contexts.length) :
    t.isRunning = t.contexts[t.current]?.any (·.phase != .idle) := by
  simp [isRunning, phase, context, inside]

/-- A run that is over stays so. -/
theorem Context.Access.phase_ne_idle {c d : Context τ} (last : c.Access d)
    (coherent : c.Coherent fresh) (running : d.phase ≠ .idle) : c.phase ≠ .idle := by
  cases last with
  | run at_ =>
    rw [coherent.phase, at_]
    simp [Stage.phase]
  | rest => exact absurd rfl running
  | @release r => exact r.step_phase ▸ running
  | _ => exact running

/-- A run whose thread has exited is over. -/
theorem isRunning_eq_false_of_hasExited (coherent : t.Coherent fresh)
    (exited : t.hasExited t.current = true) : t.isRunning = false := by
  unfold hasExited at exited
  split at exited
  · next found =>
    have phase := (coherent.contexts _ _ found).phase
    simp only [Option.elim_some, Stage.phase] at phase
    simp [isRunning, Task.phase, context, found, phase]
  · simp at exited

/-- A run that is live is not over. -/
theorem isRunning_of_isLive (coherent : t.Coherent fresh) (live : t.isLive t.current = true) :
    t.isRunning = true := by
  by_contra idle
  simp [isLive_current_of_idle coherent (by simpa using idle)] at live

end Contexts

section Steps

theorem minds_ofName (name : String) : ({ name := name } : Task τ).Minds where
  inside := by simp
  live run live := by
    match run with
    | 0 => simp [isLive, stage?] at live
    | _ + 1 => simp [isLive, stage?] at live
  changing := by simp [Position.isChanging]
  joinable := by simp
  holding _ _ running := by simp [isRunning, phase, context] at running
  joining := by simp
  owner run c found _ := by
    obtain rfl := List.mem_singleton.mp (List.mem_of_getElem? found)
    rfl
  attached := rfl

/-- A call goes on to another place. -/
theorem Minds.moveTo (minds : t.Minds) (position : Position τ)
    (before : t.position.hasLetGo = false) (behind : position.hasLetGo = false)
    (changing : position.isChanging → t.isLive t.current = false)
    (holding : position.isHolding → t.position.isHolding ∨ t.isRunning = false)
    (joining : ∀ run next, position ≠ .joining run next) (attached : position.isDetaching = false) :
    ({ t with position := position } : Task τ).Minds where
  inside := minds.inside
  live run live := by
    rcases minds.live run live with here | adopts
    · exact .inl here
    · simp [adopts, Position.hasLetGo] at before
  changing := changing
  joinable := minds.joinable
  holding holds stays running := by
    rcases holding holds with held | idle
    · exact minds.holding held stays running
    · exact absurd running (by simpa [isRunning, phase, context] using idle)
  joining run next at_ := absurd at_ (joining run next)
  owner run c found holds := by
    rcases holds with ⟨here, stays, -⟩ | adopts
    · exact minds.owner run c found (.inl ⟨here, stays, before⟩)
    · simp [show position = .adopt run from adopts, Position.hasLetGo] at behind
  attached := attached

/-- A step that leaves the handle alone, brings no thread to life, and no run back from its end. -/
theorem Minds.modify {f : Context τ → Context τ} (minds : t.Minds)
    (live : ∀ other, (t.modify run f).isLive other → t.isLive other)
    (same : ∀ c, t.contexts[run]? = some c → t.position.hasLetGo = false ∨ t.position.run? ≠ none →
      (f c).ownerAlive = c.ownerAlive)
    (ends : ∀ c, t.contexts[run]? = some c → (f c).phase ≠ .idle → c.phase ≠ .idle) :
    (t.modify run f).Minds where
  inside := by
    rw [show (t.modify run f).contexts.length = t.contexts.length from List.length_modify ..]
    exact minds.inside
  live other alive := minds.live other (live other alive)
  changing changes := by
    rw [← Bool.not_eq_true]
    intro alive
    exact absurd (live _ alive) (by simp [show t.isLive t.current = false from minds.changing changes,
      Task.modify])
  joinable := minds.joinable
  holding holds stays running := by
    refine minds.holding holds stays ?_
    have inside' : (t.modify run f).current < (t.modify run f).contexts.length := by
      rw [show (t.modify run f).contexts.length = t.contexts.length from List.length_modify ..]
      exact minds.inside
    rw [isRunning_eq_any minds.inside]
    rw [isRunning_eq_any inside', getElem?_modify_contexts] at running
    split at running
    · next here =>
      obtain ⟨d, found, phase⟩ := (Option.any_eq_true _ _).mp running
      obtain ⟨c, there, rfl⟩ := Option.map_eq_some_iff.mp found
      rw [show t.contexts[t.current]? = some c from there]
      simpa using ends c (by rw [here]; exact there) (by simpa using phase)
    · exact running
  joining := minds.joining
  owner other c found holds := by
    rw [getElem?_modify_contexts] at found
    split at found
    · next here =>
      subst here
      obtain ⟨d, there, rfl⟩ := Option.map_eq_some_iff.mp found
      rw [same d there (holds.imp (·.2.2) fun adopts => by
        simp [show t.position = .adopt run from adopts, Position.run?])]
      exact minds.owner run d there holds
    · exact minds.owner other c found holds
  attached := minds.attached

/-- A context and its thread are made. -/
theorem Minds.spawn (minds : t.Minds) {target : τ} (at_ : t.position = .spawn target) :
    ({ t with
        contexts := t.contexts ++ [.ofTarget target]
        position := .adopt t.contexts.length } : Task τ).Minds := by
  have stages (run : Nat) :
      ({ t with
          contexts := t.contexts ++ [.ofTarget target]
          position := .adopt t.contexts.length } : Task τ).stage? run =
        if run = t.contexts.length then some .spawned else t.stage? run := by
    have last : t.advance = some { t with
        contexts := t.contexts ++ [.ofTarget target]
        position := .adopt t.contexts.length } := by simp [Task.advance, at_]
    rcases stage?_advance last with ⟨-, -, -, stages⟩ | ⟨same, -⟩
    · exact stages run
    · simp [at_, Position.hasSpawned] at same
  have older : t.current ≠ t.contexts.length := Nat.ne_of_lt minds.inside
  exact {
    inside := by
      rw [List.length_append]
      exact Nat.lt_add_right _ minds.inside
    live := fun run live => by
      by_cases new : run = t.contexts.length
      · exact .inr (by rw [new])
      · rw [isLive, stages, if_neg new] at live
        refine .inl ((minds.live run live).resolve_right ?_)
        simp [at_]
    changing := fun _ => by
      rw [isLive, stages, if_neg older]
      exact minds.changing (by simp [at_, Position.isChanging])
    joinable := minds.joinable
    holding := by simp [Position.isHolding]
    joining := by simp
    owner := fun run c found holds => by
      rcases holds with ⟨-, -, before⟩ | new
      · simp [Position.hasLetGo] at before
      · obtain rfl : t.contexts.length = run := by simpa using new
        obtain rfl : .ofTarget target = c := by simpa using found
        rfl
    attached := rfl }

/-- The handle takes up the context of its new run. -/
theorem Minds.adopt (minds : t.Minds) (coherent : t.Coherent fresh) (at_ : t.position = .adopt run) :
    ({ t with current := run, joinable := some run, position := .returned true } : Task τ).Minds where
  inside := (coherent.thread run (.inr (by rw [at_]; rfl))).lt
  live other live := by
    rcases minds.live other live with rfl | adopts
    · have idle := minds.changing (by simp [at_, Position.isChanging])
      exact absurd (show t.isLive t.current = true from live) (by simp [idle])
    · exact .inl (Position.adopt.inj (at_.symm.trans adopts)).symm
  changing := by simp [Position.isChanging]
  joinable other same := by simpa using same
  holding _ _ _ := rfl
  joining := by simp
  owner other c found holds := by
    rcases holds with ⟨rfl, -⟩ | adopts
    · exact minds.owner other c found (.inr at_)
    · simp at adopts
  attached := rfl

/-- An attempt of the handle to release its context changes nothing that it knows of. -/
theorem Minds.release (minds : t.Minds) (r : Release) :
    (t.modify t.current fun _ => (r.step t.context).1).Minds := by
  have own : ∀ c, t.contexts[t.current]? = some c → t.context = c := fun c found => by
    simp [context, found]
  refine minds.modify (fun other live => ?_) (fun c found _ => ?_) fun c found running => ?_
  · rwa [isLive_of_stage? (stage?_modify_of_eq (fun c found => ?_) other)] at live
    rw [own c found, Release.step_stage]
  · rw [own c found, Release.step_ownerAlive]
  · rw [own c found] at running
    cases r <;> simp only [Release.step] at running <;> try exact running
    split at running <;> exact running

theorem Minds.cancelRun (minds : t.Minds) (run : Nat) : (t.cancelRun run).Minds := by
  refine minds.modify (fun other live => ?_) (fun _ _ _ => rfl) fun _ _ running => running
  rw [← isLive_of_stage? (t := t) (stage?_cancelRun run other)]
  exact live

/-- A call goes on, having let go of the run of the handle. -/
theorem Minds.pastRun (minds : t.Minds) {joinable : Option Nat} (position : Position τ)
    (fewer : ∀ run, joinable = some run → t.joinable = some run) (before : t.position.run? = none)
    (changing : position.isChanging → t.isLive t.current = false) (past : position.hasLetGo)
    (holding : position.isHolding = false) (none : position.run? = none)
    (attached : position.isDetaching = false) :
    ({ t with joinable := joinable, position := position } : Task τ).Minds where
  inside := minds.inside
  live run live := .inl ((minds.live run live).resolve_right fun adopts => by
    simp [adopts, Position.run?] at before)
  changing := changing
  joinable run same := minds.joinable run (fewer run same)
  holding holds := by simp [holding] at holds
  joining run next at_ := by
    simp [show position = .joining run next from at_, Position.run?] at none
  owner run c _ holds := by
    rcases holds with ⟨-, -, before⟩ | adopts
    · simp [past] at before
    · simp [show position = .adopt run from adopts, Position.run?] at none
  attached := attached

/-- The handle is gone. -/
theorem Minds.gone (minds : t.Minds) (before : t.position.run? = none) :
    ({ t with position := .returned false, gone := true } : Task τ).Minds where
  inside := minds.inside
  live run live := .inl ((minds.live run live).resolve_right fun adopts => by
    simp [adopts, Position.run?] at before)
  changing := by simp [Position.isChanging]
  joinable := minds.joinable
  holding := by simp
  joining := by simp
  owner := by simp
  attached := rfl

/-- An access of the call in progress keeps what the handle knows. -/
theorem Minds.access (minds : t.Minds) (coherent : t.Coherent fresh) (last : t.Access t') :
    t'.Minds := by
  cases last with
  | busy at_ | dropHeld at_ =>
    exact minds.moveTo _ (by simp [at_, Position.hasLetGo]) rfl (by simp [Position.isChanging])
      (by simp [at_, Position.isHolding]) (by simp) rfl
  | idle at_ idle =>
    exact minds.moveTo _ (by simp [at_, Position.hasLetGo]) rfl
      (fun _ => isLive_current_of_idle coherent idle) (by simp [Position.isHolding]) (by simp) rfl
  | @letGo next at_ =>
    have tries : ({ t with
        joinable := none, position := .releasing .readOwner next } : Task τ).Minds := by
      refine minds.pastRun _ (by simp) (by simp [at_, Position.run?]) (fun changes => ?_) rfl rfl rfl ?_
      · refine minds.changing ?_
        cases next <;> simp_all [Position.isChanging]
      · have attached := minds.attached
        cases next <;> simp_all [Position.isDetaching]
    refine tries.modify (fun other live => ?_) (fun _ _ before => ?_) fun _ _ running => running
    · refine (isLive_of_stage? ?_).symm.trans live
      exact stage?_modify_of_eq (f := fun c => { c with ownerAlive := false }) (fun _ _ => rfl) other
    · simp [Position.hasLetGo, Position.run?] at before
  | @release r r' next at_ =>
    have released := minds.release r
    refine released.pastRun _ (fun _ same => same) (by simp [Task.modify, at_, Position.run?])
      (fun changes => released.changing ?_) rfl rfl rfl ?_
    · cases next <;> simp_all [Position.isChanging, Task.modify]
    · have attached := minds.attached
      cases next <;> simp_all [Position.isDetaching]
  | @released r next at_ =>
    have released := minds.release r
    cases next with
    | spawn target =>
      refine released.pastRun _ (fun _ same => same) (by simp [Task.modify, at_, Position.run?])
        (fun _ => released.changing ?_) rfl rfl rfl rfl
      simp [Task.modify, at_, Position.isChanging]
    | detached => simpa [at_, Position.isDetaching] using minds.attached
    | dropped => exact released.gone (by simp [Task.modify, at_, Position.run?])
  | spawn at_ => exact minds.spawn at_
  | adopt at_ => exact minds.adopt coherent at_
  | dropGone at_ =>
    exact minds.gone (by simp [at_, Position.run?])
  | cancel at_ =>
    have cancelled := minds.cancelRun t.current
    have same : (t.cancelRun t.current).position = .cancel := at_
    exact cancelled.moveTo _ (by simp [same, Position.hasLetGo]) rfl (by simp [Position.isChanging])
      (by simp [same, Position.isHolding]) (by simp) rfl
  | @wait joined next at_ running joinable =>
    exact {
      inside := minds.inside
      live := fun run live => .inl ((minds.live run live).resolve_right (by simp [at_]))
      changing := by simp [Position.isChanging]
      joinable := by simp
      holding := by simp [Position.isHolding]
      joining := fun run _ same => by
        obtain ⟨rfl, -⟩ := Position.joining.inj same
        exact minds.joinable joined joinable
      owner := fun run c found holds => minds.owner run c found (by
        rcases holds with ⟨here, stays, -⟩ | adopts
        · exact .inl ⟨here, stays, by simp [at_, Position.hasLetGo]⟩
        · simp at adopts)
      attached := rfl }
  | @pass next at_ =>
    exact minds.moveTo _ (by simp [at_, Position.hasLetGo]) (by cases next <;> rfl)
      (by cases next <;> simp [AfterJoin.position, Position.isChanging])
      (by simp [at_, Position.isHolding]) (by cases next <;> simp [AfterJoin.position])
      (by cases next <;> rfl)
  | @joined run next at_ exited =>
    have idle : t.isRunning = false :=
      isRunning_eq_false_of_hasExited coherent ((minds.joining run next at_).symm ▸ exited)
    exact minds.moveTo _ (by simp [at_, Position.hasLetGo]) (by cases next <;> rfl)
      (by cases next <;> simp [AfterJoin.position, Position.isChanging]) (fun _ => .inr idle)
      (by cases next <;> simp [AfterJoin.position]) (by cases next <;> rfl)

/-- A step of the task keeps it coherent, whatever the targets are. -/
theorem Coherent.step {l : Label τ} (coherent : t.Coherent fun _ => True)
    (last : t.step l = some t') : t'.Coherent fun _ => True := by
  cases l with
  | begin by_ call =>
    simp only [Task.step, Option.ite_none_right_eq_some, Option.some.injEq] at last
    exact last.2 ▸ coherent.begin fun _ _ => trivial
  | call => exact coherent.advance last
  | thread run => exact coherent.advanceThread last
  | leave run =>
    cases move_of_step last with
    | leave executing => exact coherent.leave executing
  | cancel =>
    simp only [Task.step, Option.ite_none_right_eq_some, Option.some.injEq] at last
    exact last.2 ▸ coherent.cancelRun _
  | cancelRun run =>
    simp only [Task.step, Option.ite_none_right_eq_some, Option.some.injEq] at last
    exact last.2 ▸ coherent.cancelRun run

/-- A call begins. -/
theorem Minds.begin (minds : t.Minds) {by_ : Caller} {call : Call τ} (accepted : t.accepts by_ = true)
    (attached : (Label.begin by_ call).IsAttached) : (t.begin by_ call).Minds := by
  simp only [accepts, Bool.and_eq_true] at accepted
  obtain ⟨started, at_⟩ : ∃ started, t.position = .returned started := by
    have free := accepted.1.2
    unfold isFree at free
    split at free
    · next started at_ => exact ⟨started, at_⟩
    · simp at free
  have moved : ({ t with position := call.entry } : Task τ).Minds := by
    cases call with
    | detach => exact absurd rfl (attached by_)
    | start | join | drop =>
      exact minds.moveTo _ (by simp [at_, Position.hasLetGo]) rfl
        (by simp [Call.entry, Position.isChanging]) (by simp [at_, Position.isHolding])
        (by simp [Call.entry]) rfl
  exact ⟨moved.inside, moved.live, moved.changing, moved.joinable, moved.holding, moved.joining,
    moved.owner, moved.attached⟩

/-- **Every step keeps what the handle knows**, as long as the handle is not detached. -/
theorem Minds.step {l : Label τ} (minds : t.Minds) (coherent : t.Coherent fresh)
    (attached : l.IsAttached) (last : t.step l = some t') : t'.Minds := by
  cases move_of_step last with
  | begin accepted => exact minds.begin accepted attached
  | call access => exact minds.access coherent access
  | @thread run c d found access =>
    refine minds.modify (fun other live => ?_) (fun e there _ => ?_) fun e there running => ?_
    · exact (isLive_advanceThread coherent last other).symm.trans live
    · obtain rfl := Option.some.inj (found.symm.trans there)
      exact access.ownerAlive
    · obtain rfl := Option.some.inj (found.symm.trans there)
      exact access.phase_ne_idle (coherent.contexts run c found) running
  | leave executing =>
    exact minds.modify (isLive_of_modify_stage executing) (fun _ _ _ => rfl) fun _ _ running => running
  | cancel => exact minds.cancelRun t.current
  | cancelRun => exact minds.cancelRun _

/-- Of the threads at most one is live. -/
theorem Minds.eq_of_isLive (minds : t.Minds) {i j : Nat} (first : t.isLive i) (second : t.isLive j) :
    i = j := by
  -- While a start is about to take up a run, the run of the handle is not live.
  have current (run other : Nat) (live : t.isLive run) (here : run = t.current) :
      t.position ≠ .adopt other := by
    rintro adopts
    have idle := minds.changing (by simp [adopts, Position.isChanging])
    simp [here ▸ live] at idle
  rcases minds.live i first with rfl | adopts <;> rcases minds.live j second with rfl | adopts'
  · rfl
  · exact absurd adopts' (current _ j first rfl)
  · exact absurd adopts (current _ i second rfl)
  · exact Position.adopt.inj (adopts.symm.trans adopts')

/-- Between calls the handle can wait for the thread of a run that is not over. -/
theorem Minds.joinable_of_free (minds : t.Minds) (free : t.isFree) (stays : t.gone = false)
    (running : t.isRunning) : t.joinable = some t.current := by
  refine minds.holding ?_ stays running
  unfold isFree at free
  split at free
  · next at_ => rw [at_]; rfl
  · simp at free

end Steps

end PacketRelay.Task
