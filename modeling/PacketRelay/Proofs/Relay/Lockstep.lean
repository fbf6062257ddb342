import PacketRelay.Proofs.Relay.Reduction

/-!
# The same steps with and without some starts

A publisher and what is left of it without starts that begin no run take the same steps: whatever a
call, a read loop, a consumer or a writer can do to the one it can do to the other, and with the same
outcome. Only a call that is about to take the task may have to wait for a start that has it.

## Main definitions

* `Relay.Label.renumber`: the same step where the calls have other numbers

## Main results

* `Relay.Reduces.callStep`, `Relay.Reduces.readerStep`, `Relay.Reduces.advanceThread`: the accesses
* `Relay.Reduces.step`: every step
-/

namespace PacketRelay

/-- Is a call about to take the task? -/
def CallStage.isLocking : CallStage → Bool
  | .start _ _ .lock | .join .lock => true
  | _ => false

namespace Relay

open Schedule

variable {seen : Nat → Nat} {given : List Nat} {r q : Relay} {n i : Nat} {stage : CallStage}

section Frames

theorem Reduces.lt_iff (reduces : r.Reduces seen given q) (i : Nat) :
    seen i < r.calls.length ↔ i < q.calls.length := by
  rw [← Nat.not_le, ← Nat.not_le, ← List.getElem?_eq_none_iff, ← List.getElem?_eq_none_iff,
    reduces.calls]

theorem Reduces.alike (reduces : r.Reduces seen given q) : r.task.Alike q.task :=
  reduces.task.elim (·.toAlike) (·.toAlike)

theorem claimed_setCall (i : Nat) :
    (r.setCall (seen i) stage).Claimed seen ↔ r.Claimed seen := by
  have other : ∀ n, (∀ i, seen i ≠ n) → (r.setCall (seen i) stage).calls[n]? = r.calls[n]? :=
    fun n hidden => List.getElem?_set_ne (hidden i)
  constructor
  · rintro ⟨n, stage', hidden, here, claims⟩
    exact ⟨n, stage', hidden, (other n hidden).symm.trans here, claims⟩
  · rintro ⟨n, stage', hidden, here, claims⟩
    exact ⟨n, stage', hidden, (other n hidden).trans here, claims⟩

/-- A call that is seen goes on in both. -/
theorem Reduces.setCall (reduces : r.Reduces seen given q) (inj : Function.Injective seen) (i : Nat)
    (stage : CallStage) (acts : stage.isOnTask = true → r.task.Agrees q.task) :
    (r.setCall (seen i) stage).Reduces seen given (q.setCall i stage) :=
  { reduces with
    running := fun unclaimed => reduces.running ((claimed_setCall i).not.mp unclaimed)
    claimed := fun claimed => reduces.claimed ((claimed_setCall i).mp claimed)
    attended := fun j stage' here onTask => by
      rw [show (q.setCall i stage).calls = q.calls.set i stage from rfl, List.getElem?_set] at here
      split at here
      · split at here
        · obtain rfl := Option.some.inj here
          exact acts onTask
        · simp at here
      · exact reduces.attended j stage' here onTask
    calls := fun j => by
      show (r.calls.set (seen i) stage)[seen j]? = (q.calls.set i stage)[j]?
      simp only [List.getElem?_set, inj.eq_iff, reduces.lt_iff, reduces.calls]
    vain := fun n stage' hidden here =>
      reduces.vain n stage' hidden ((List.getElem?_set_ne (hidden i)).symm.trans here) }

/-- A call that is seen and does not act on the task goes on in both. -/
theorem Reduces.goTo (reduces : r.Reduces seen given q) (inj : Function.Injective seen) (i : Nat)
    {stage : CallStage} (off : stage.isOnTask = false) :
    (r.setCall (seen i) stage).Reduces seen given (q.setCall i stage) :=
  reduces.setCall inj i stage (by simp [off])

/-- Who holds the task is told by the calls. -/
theorem Reduces.hold (reduces : r.Reduces seen given q) (h h' : Option Nat) :
    ({ r with taskHolder := h } : Relay).Reduces seen given { q with taskHolder := h' } :=
  { reduces with settings := reduces.settings }

/-- A call begins on both tasks. -/
theorem Reduces.beginTask (reduces : r.Reduces seen given q) {call : Task.Call Reader}
    (agrees : (r.task.begin .outside call).Agrees (q.task.begin .outside call)) :
    (r.beginTask call).Reduces seen given (q.beginTask call) :=
  { reduces with
    task := .inl agrees
    attended := fun _ _ _ _ => agrees }

theorem Reduces.begins (reduces : r.Reduces seen given q) (free : r.task.isFree = true)
    (call : Task.Call Reader) :
    (r.task.begin .outside call).Agrees (q.task.begin .outside call) :=
  reduces.task.elim (·.begin .outside call) (·.begin free .outside call)

/-- The call in progress on both tasks makes an access, or is over. -/
theorem Reduces.taskStep (reduces : r.Reduces seen given q) (agrees : r.task.Agrees q.task) {x y : Relay}
    (ended : r.task.isFree = true → x.Reduces seen given y) :
    Option.Rel (Reduces seen given) (r.taskStep x) (q.taskStep y) := by
  unfold Relay.taskStep
  rw [← agrees.isFree]
  split
  · next free => exact .some (ended free)
  · refine rel_map agrees.advance fun t u same => ?_
    exact { reduces with
      task := .inl same
      attended := fun _ _ _ _ => same }

/-- A change of a context that leaves its phase as it is. -/
theorem Reduces.modifyTask (reduces : r.Reduces seen given q) (run : Nat)
    (f : Task.Context Reader → Task.Context Reader)
    (idle : q.task.isRunning = false → (q.task.modify run f).isRunning = false) :
    ({ r with task := r.task.modify run f } : Relay).Reduces seen given
      { q with task := q.task.modify run f } :=
  { reduces with
    task := reduces.task.imp (·.modify run f idle) (·.modify run f idle)
    attended := fun i stage here onTask => (reduces.attended i stage here onTask).modify run f idle }

theorem Reduces.cancelShared (reduces : r.Reduces seen given q) :
    r.cancelShared.Reduces seen given q.cancelShared := by
  cases shared : q.token with
  | none =>
    have nobody : r.token = none := reduces.token.trans shared
    unfold Relay.cancelShared
    split <;> split <;> simp_all
  | some run =>
    have cancelled : ∀ s : Relay, s.token = some run →
        s.cancelShared = { s with task := s.task.cancelRun run } := by
      intro s token
      unfold Relay.cancelShared
      split <;> simp_all
    rw [cancelled r (reduces.token.trans shared), cancelled q shared]
    exact reduces.modifyTask run _ (Task.isRunning_cancelRun.trans ·)

theorem isFree_cancelShared : r.cancelShared.task.isFree = r.task.isFree := by
  unfold Relay.cancelShared
  split <;> rfl

end Frames

section Order

/-- A call that holds the task, or gives up the publisher, finds it free before it acts on it. -/
theorem Regular.isFree (regular : r.Regular) (here : r.calls[n]? = some stage) {role : Role}
    (acts : stage.role = some role) (holds : role.holds ∨ ∃ at_, role = .drop at_)
    (off : role.isOnTask = false) : r.task.isFree = true := by
  have own : r.control.role n = some role := by simp [control, here, acts]
  refine regular.attended.isFree fun m other at_ => ?_
  by_contra onTask
  have onTask : other.isOnTask = true := by simpa using onTask
  obtain rfl := regular.sound.exclusive own at_ holds onTask
  obtain rfl := Option.some.inj (own.symm.trans at_)
  simp [off] at onTask

/-- Nobody is on a task that nobody holds, if the publisher has not been given up. -/
theorem Regular.isFree_of_lock (regular : r.Regular) (free : r.taskHolder = none)
    (here : r.calls[n]? = some stage) {role : Role} (acts : stage.role = some role)
    (off : role.isOnTask = false) : r.task.isFree = true := by
  have own : r.control.role n = some role := by simp [control, here, acts]
  refine regular.attended.isFree fun m other at_ => ?_
  by_cases same : m = n
  · subst same
    obtain rfl := Option.some.inj (own.symm.trans at_)
    exact off
  · exact regular.sound.off_of_free free (by simp [own]) same at_

/-- While a call that is seen holds the task, no other call has reserved the run. -/
theorem Regular.not_claimed (regular : r.Regular) (here : r.calls[seen i]? = some stage)
    (holds : stage.role.any Role.holds = true) : ¬ r.Claimed seen := by
  rintro ⟨m, stage', hidden, there, claims⟩
  have own : r.control.holder = some (seen i) :=
    (regular.sound.holder _).mpr (by simpa [control, here] using holds)
  have other : r.control.holder = some m := (regular.sound.holder m).mpr (by
    cases stage' with
    | start source uri at_ => cases at_ <;>
        simp_all [control, CallStage.isClaiming, CallStage.role, Role.holds]
    | _ => simp [CallStage.isClaiming] at claims)
  exact hidden i (Option.some.inj (own.symm.trans other))

end Order

section Starts

theorem Reduces.declared (reduces : r.Reduces seen given q) (source : Nat)
    (stream : MemorySource → Option Stream) : r.declared source stream = q.declared source stream := by
  have same := reduces.sources source
  unfold Relay.declared
  generalize r.sources[source]? = x at same
  generalize q.sources[source]? = y at same
  cases same with
  | none => rfl
  | some echo =>
    obtain ⟨spent, rfl, -⟩ := echo
    rfl

theorem Reduces.length_sources (reduces : r.Reduces seen given q) :
    r.sources.length = q.sources.length := by
  have none_iff : ∀ n : Nat, r.sources[n]? = none ↔ q.sources[n]? = none := by
    intro n
    have same := reduces.sources n
    generalize r.sources[n]? = x at same
    generalize q.sources[n]? = y at same
    cases same <;> simp
  simp only [List.getElem?_eq_none_iff] at none_iff
  exact Nat.le_antisymm ((none_iff _).mpr (Nat.le_refl _)) ((none_iff _).mp (Nat.le_refl _))

theorem Reduces.setSource (reduces : r.Reduces seen given q) (source : Nat) {s s' : ScriptedSource}
    (echo : s.Echoes (source ∈ given) s') : (r.setSource source s).Reduces seen given (q.setSource source s') :=
  { reduces with
    sources := fun n => by
      show Option.Rel _ (r.sources.set source s)[n]? (q.sources.set source s')[n]?
      rw [List.getElem?_set', List.getElem?_set']
      split
      · next same => exact rel_map (reduces.sources n) fun _ _ _ => same ▸ echo
      · exact reduces.sources n }

/-- A start that is seen opens its source in both. -/
theorem Reduces.openSource (reduces : r.Reduces seen given q) (inj : Function.Injective seen)
    (source : Nat) (uri : String) : Option.Rel (Reduces seen given) (r.openSource (seen i) source uri)
      (q.openSource i source uri) := by
  refine rel_bind (reduces.sources source) fun s s' echo => ?_
  obtain ⟨spent, rfl, marked⟩ := echo
  rw [ScriptedSource.isShut_mark]
  split
  · exact .none
  · rw [ScriptedSource.openAt_mark]
    cases opened : s'.openAt uri with
    | ok t =>
      refine .some ((reduces.setSource source ⟨spent, rfl, ?_⟩).goTo inj i rfl)
      rwa [ScriptedSource.spent_openAt opened]
    | error e => exact .some (reduces.goTo inj i rfl)

/-- A start that is seen makes the same access in both, once it can take the task in both. -/
theorem Reduces.startStep (reduces : r.Reduces seen given q) (inj : Function.Injective seen)
    (regular : r.Regular) {source : Nat} {uri : String} {at_ : Starting}
    (here : q.calls[i]? = some (.start source uri at_))
    (level : at_ = .lock → r.taskHolder.isNone = q.taskHolder.isNone) :
    Option.Rel (Reduces seen given) (r.startStep (seen i) source uri at_)
      (q.startStep i source uri at_) := by
  have there : r.calls[seen i]? = some (.start source uri at_) := (reduces.calls i).trans here
  cases at_ with
  | lock =>
    simp only [Relay.startStep, acquireTask, level rfl]
    split
    · exact .some ((reduces.hold _ _).goTo inj i rfl)
    · exact .none
  | reserve =>
    have unclaimed := regular.not_claimed there rfl
    simp only [Relay.startStep, reduces.running unclaimed]
    split
    · exact .some ((reduces.hold none none).goTo inj i rfl)
    · have free := regular.isFree there rfl (.inl rfl) rfl
      have reserved : ({ r with running := true } : Relay).Reduces seen given { q with running := true } :=
        { reduces with
          running := fun _ => rfl
          claimed := fun claimed => absurd claimed unclaimed }
      have begun := reserved.beginTask (reduces.begins free .join)
      exact .some (begun.setCall inj i _ fun _ => reduces.begins free .join)
  | joining =>
    have agrees := reduces.attended i _ here rfl
    exact reduces.taskStep agrees fun _ => reduces.goTo inj i rfl
  | openSource => exact reduces.openSource inj source uri
  | refuse e | refuseThread =>
    have back : ({ r with running := false, taskHolder := none } : Relay).Reduces seen given
        { q with running := false, taskHolder := none } :=
      { reduces with
        running := fun _ => rfl
        claimed := fun _ => rfl }
    exact .some (back.goTo inj i rfl)
  | setVideo =>
    have noted : ({ r with video := r.declared source (·.video) } : Relay).Reduces seen given
        { q with video := q.declared source (·.video) } :=
      { reduces with video := reduces.declared source _ }
    exact .some (noted.goTo inj i rfl)
  | setAudio =>
    have noted : ({ r with audio := r.declared source (·.audio) } : Relay).Reduces seen given
        { q with audio := q.declared source (·.audio) } :=
      { reduces with audio := reduces.declared source _ }
    exact .some (noted.goTo inj i rfl)
  | setUri =>
    have noted : ({ r with uri := some uri } : Relay).Reduces seen given { q with uri := some uri } :=
      { reduces with uri := rfl }
    exact .some (noted.goTo inj i rfl)
  | clearStop =>
    have free := regular.isFree there rfl (.inl rfl) rfl
    have cleared : ({ r with stopRequested := false } : Relay).Reduces seen given
        { q with stopRequested := false } :=
      { reduces with stopRequested := rfl }
    have begun := cleared.beginTask (reduces.begins free (.start { source := source }))
    exact .some (begun.setCall inj i _ fun _ => reduces.begins free _)
  | launching =>
    have agrees := reduces.attended i _ here rfl
    have same : r.afterLaunch = q.afterLaunch := by
      unfold afterLaunch
      rw [agrees.position]
    refine reduces.taskStep agrees fun _ => ?_
    rw [same]
    refine reduces.goTo inj i ?_
    unfold afterLaunch
    split <;> rfl
  | shareToken =>
    have shared : ({ r with token := some r.task.current, taskHolder := none } : Relay).Reduces seen given
        { q with token := some q.task.current, taskHolder := none } :=
      { reduces with token := congrArg some reduces.alike.current }
    exact .some (shared.goTo inj i rfl)

end Starts

section Calls

variable (reduces : r.Reduces seen given q) (inj : Function.Injective seen)

include reduces inj

theorem Reduces.joinStep (regular : r.Regular) {at_ : Joining}
    (here : q.calls[i]? = some (.join at_))
    (level : at_ = .lock → r.taskHolder.isNone = q.taskHolder.isNone) :
    Option.Rel (Reduces seen given) (r.joinStep (seen i) at_) (q.joinStep i at_) := by
  have there : r.calls[seen i]? = some (.join at_) := (reduces.calls i).trans here
  cases at_ with
  | lock =>
    simp only [Relay.joinStep, acquireTask, ← level rfl]
    split
    · next none =>
      have free := regular.isFree_of_lock (Option.isNone_iff_eq_none.mp none) there rfl rfl
      have begun := (reduces.hold (some (seen i)) (some i)).beginTask (reduces.begins free .join)
      exact .some (begun.setCall inj i _ fun _ => reduces.begins free .join)
    · exact .none
  | joining =>
    have agrees := reduces.attended i _ here rfl
    exact reduces.taskStep agrees fun _ => (reduces.hold none none).goTo inj i rfl

theorem Reduces.dropStep (regular : r.Regular) {at_ : Dropping}
    (here : q.calls[i]? = some (.drop at_)) :
    Option.Rel (Reduces seen given) (r.dropStep (seen i) at_) (q.dropStep i at_) := by
  have there : r.calls[seen i]? = some (.drop at_) := (reduces.calls i).trans here
  rcases at_ with (_ | _) | _
  · have raised : ({ r with stopRequested := true } : Relay).Reduces seen given
        { q with stopRequested := true } :=
      { reduces with stopRequested := rfl }
    exact .some (raised.goTo inj i rfl)
  · have free : r.cancelShared.task.isFree = true :=
      isFree_cancelShared.trans (regular.isFree there rfl (.inr ⟨_, rfl⟩) rfl)
    have agrees := reduces.cancelShared.begins free .drop
    exact .some ((reduces.cancelShared.beginTask agrees).setCall inj i _ fun _ => agrees)
  · have agrees := reduces.attended i _ here rfl
    exact reduces.taskStep agrees fun _ => reduces.goTo inj i rfl

theorem Reduces.describeStep (at_ : Describing) :
    Option.Rel (Reduces seen given) (r.describeStep (seen i) at_) (q.describeStep i at_) := by
  cases at_ with
  | readUri =>
    simp only [Relay.describeStep, reduces.uri]
    exact .some (reduces.goTo inj i rfl)
  | readStarted uri =>
    simp only [Relay.describeStep, reduces.started]
    exact .some (reduces.goTo inj i rfl)
  | readStop uri started =>
    simp only [Relay.describeStep, reduces.stopRequested]
    exact .some (reduces.goTo inj i rfl)
  | countEntries uri started stop =>
    simp only [Relay.describeStep, reduces.registryHolder, Option.isNone_map, reduces.registry]
    split
    · exact .some (reduces.goTo inj i rfl)
    · exact .none
  | readLast uri started stop subscribers =>
    simp only [Relay.describeStep, reduces.lastId]
    exact .some (reduces.goTo inj i rfl)

omit inj in
theorem Reduces.isRegistered (subscriber : Nat) :
    r.isRegistered subscriber = q.isRegistered subscriber := by
  simp only [Relay.isRegistered, reduces.registry, reduces.identity]

theorem Reduces.subscribeStep (subscriber : Nat) (at_ : Subscribing) : Option.Rel (Reduces seen given)
    (r.subscribeStep (seen i) subscriber at_) (q.subscribeStep i subscriber at_) := by
  cases at_ with
  | checkStop =>
    simp only [Relay.subscribeStep, reduces.stopRequested]
    split <;> exact .some (reduces.goTo inj i rfl)
  | acquire =>
    exact rel_bind (reduces.acquire (.call i)) fun _ _ taken => .some (taken.goTo inj i rfl)
  | sweep entry =>
    have swept := reduces.sweep entry
    simp only [Relay.subscribeStep]
    generalize r.sweep entry = x at swept
    generalize q.sweep entry = y at swept
    cases swept with
    | none =>
      simp only [register, reduces.isRegistered]
      split
      · exact .some (reduces.release.goTo inj i rfl)
      · have added : ({ r with registry := r.registry ++ [subscriber] } : Relay).Reduces seen given
            { q with registry := q.registry ++ [subscriber] } :=
          { reduces with registry := congrArg (· ++ [subscriber]) reduces.registry }
        exact .some (added.release.goTo inj i rfl)
    | @some x y same =>
      obtain ⟨t, next⟩ := x
      obtain ⟨u, next'⟩ := y
      obtain ⟨swept, rfl⟩ : t.Reduces seen given u ∧ next = next' := same
      exact .some (swept.goTo inj i rfl)

theorem Reduces.unsubscribeStep (subscriber : Nat) (at_ : Unsubscribing) : Option.Rel (Reduces seen given)
    (r.unsubscribeStep (seen i) subscriber at_) (q.unsubscribeStep i subscriber at_) := by
  cases at_ with
  | acquire =>
    refine rel_bind (reduces.acquire (.call i)) fun t u taken => ?_
    have removed : (t.unregister subscriber).Reduces seen given (u.unregister subscriber) :=
      { taken with
        registry := by simp only [unregister, taken.registry, taken.identity] }
    rw [taken.isRegistered]
    exact .some (removed.goTo inj i rfl)
  | sweep entry removed =>
    have swept := reduces.sweep entry
    simp only [Relay.unsubscribeStep]
    generalize r.sweep entry = x at swept
    generalize q.sweep entry = y at swept
    cases swept with
    | none => exact .some (reduces.release.goTo inj i rfl)
    | @some x y same =>
      obtain ⟨t, next⟩ := x
      obtain ⟨u, next'⟩ := y
      obtain ⟨swept, rfl⟩ : t.Reduces seen given u ∧ next = next' := same
      exact .some (swept.goTo inj i rfl)

theorem Reduces.enqueueStep (subscriber : Nat) (e : Enqueue) : Option.Rel (Reduces seen given)
    (r.enqueueStep (seen i) subscriber e) (q.enqueueStep i subscriber e) := by
  by_cases ended : e = .finished
  · subst ended
    exact .some (reduces.goTo inj i rfl)
  · simp only [Relay.enqueueStep, Option.bind_eq_bind]
    exact reduces.enqueue inj (.call i) subscriber e fun s _ =>
      .some ((reduces.setSubscriber subscriber s).goTo inj i rfl)

/-- **A call that is seen makes the same access in both**, once it can take the task in both. -/
theorem Reduces.callStep (regular : r.Regular) (level : q.calls[i]?.any CallStage.isLocking = true →
      r.taskHolder.isNone = q.taskHolder.isNone) :
    Option.Rel (Reduces seen given) (r.callStep (seen i)) (q.callStep i) := by
  unfold Relay.callStep
  rw [reduces.calls]
  cases here : q.calls[i]? with
  | none => exact .none
  | some stage =>
    simp only [Option.bind_eq_bind, Option.bind_some]
    cases stage with
    | publish f =>
      cases f with
      | finished reached => exact .some (reduces.goTo inj i rfl)
      | _ =>
        refine rel_bind (reduces.fanout inj (.call i) _) fun x y same => ?_
        obtain ⟨t, f⟩ := x
        obtain ⟨u, f'⟩ := y
        obtain ⟨same, rfl⟩ : t.Reduces seen given u ∧ f = f' := same
        exact .some (same.goTo inj i rfl)
    | enqueue subscriber e => exact reduces.enqueueStep inj subscriber e
    | subscribe subscriber at_ => exact reduces.subscribeStep inj subscriber at_
    | unsubscribe subscriber at_ => exact reduces.unsubscribeStep inj subscriber at_
    | start source uri at_ =>
      refine reduces.startStep inj regular here fun locks => level ?_
      simp [here, locks, CallStage.isLocking]
    | stop at_ =>
      cases at_ with
      | raiseStop =>
        have raised : ({ r with stopRequested := true } : Relay).Reduces seen given
            { q with stopRequested := true } :=
          { reduces with stopRequested := rfl }
        exact .some (raised.goTo inj i rfl)
      | cancel => exact .some (reduces.cancelShared.goTo inj i rfl)
    | join at_ =>
      refine reduces.joinStep inj regular here fun locks => level ?_
      simp [here, locks, CallStage.isLocking]
    | describe at_ => exact reduces.describeStep inj at_
    | drop at_ => exact reduces.dropStep inj regular here
    | returned reply => exact .none

end Calls

section Readers

variable {run : Nat} {reader : Reader}

theorem Reduces.goOn (reduces : r.Reduces seen given q) (reader : Reader) (at_ : Reading) :
    (r.goOn run reader at_).Reduces seen given (q.goOn run reader at_) :=
  reduces.modifyTask run _ (Task.isRunning_setTarget.trans ·)

theorem Reduces.leave (reduces : r.Reduces seen given q) (run : Nat) :
    (r.leave run).Reduces seen given (q.leave run) :=
  reduces.modifyTask run _ (Task.isRunning_leave.trans ·)

theorem Reduces.readUnit (reduces : r.Reduces seen given q) (run : Nat) (reader : Reader) :
    Option.Rel (Reduces seen given) (r.readUnit run reader) (q.readUnit run reader) := by
  refine rel_bind (reduces.sources reader.source) fun s s' echo => ?_
  obtain ⟨spent, rfl, marked⟩ := echo
  have same := ScriptedSource.spent_read (s := s')
  rw [ScriptedSource.read_mark]
  generalize s'.read = x at same ⊢
  obtain ⟨t, outcome⟩ := x
  have echo : (t.mark spent).Echoes (reader.source ∈ given) t := ⟨spent, rfl, same ▸ marked⟩
  have read := reduces.setSource reader.source echo
  cases outcome with
  | none => exact .some (read.leave run)
  | some outcome => exact .some (read.goOn reader (afterRead outcome))

/-- **A read loop makes the same access in both.** -/
theorem Reduces.readerStep (reduces : r.Reduces seen given q) (inj : Function.Injective seen)
    (run : Nat) : Option.Rel (Reduces seen given) (r.readerStep run) (q.readerStep run) := by
  unfold Relay.readerStep
  rw [reduces.alike.target?]
  cases q.task.target? run with
  | none => exact .none
  | some reader =>
    simp only [Option.bind_eq_bind, Option.bind_some]
    obtain ⟨source, videoIndex, audioIndex, at_⟩ := reader
    cases at_ with
    | readVideo =>
      simp only [reduces.video]
      exact .some (reduces.goOn _ _)
    | readAudio =>
      simp only [reduces.audio]
      exact .some (reduces.goOn _ _)
    | raiseStarted =>
      have raised : ({ r with started := true } : Relay).Reduces seen given { q with started := true } :=
        { reduces with started := rfl }
      exact .some (raised.goOn _ _)
    | checkToken | paused =>
      simp only [reduces.alike.isCancelled]
      exact .some (reduces.goOn _ _)
    | checkStop =>
      simp only [reduces.stopRequested]
      exact .some (reduces.goOn _ _)
    | read => exact reduces.readUnit run _
    | countRead u =>
      simp only [afterCount, reduces.settings]
      exact .some ((reduces.count _).goOn _ _)
    | number u kind =>
      simp only [reduces.lastId]
      have numbered : ({ r with lastId := q.lastId + 1 } : Relay).Reduces seen given
          { q with lastId := q.lastId + 1 } :=
        { reduces with lastId := rfl }
      exact .some (numbered.goOn _ _)
    | publish f =>
      cases f with
      | finished reached => exact .some (reduces.goOn _ _)
      | _ =>
        refine rel_bind (reduces.fanout inj (.reader run) _) fun x y same => ?_
        obtain ⟨t, f⟩ := x
        obtain ⟨u, f'⟩ := y
        obtain ⟨same, rfl⟩ : t.Reduces seen given u ∧ f = f' := same
        exact .some (same.goOn _ _)
    | pause =>
      simp only [reduces.settings]
      cases q.settings.retryDelay with
      | none => exact .some (reduces.leave run)
      | some delay => exact .some (reduces.goOn _ _)
    | lowerStarted =>
      have lowered : ({ r with started := false } : Relay).Reduces seen given { q with started := false } :=
        { reduces with started := rfl }
      exact .some (lowered.goOn _ _)
    | lowerRunning =>
      have lowered : ({ r with running := false } : Relay).Reduces seen given { q with running := false } :=
        { reduces with
          running := fun _ => rfl
          claimed := fun _ => rfl }
      exact .some (lowered.leave run)

/-- **A read thread makes the same access outside its loop in both.** -/
theorem Reduces.advanceThread (reduces : r.Reduces seen given q) (regular : q.Regular) (run : Nat) :
    Option.Rel (Reduces seen given) ((r.task.advanceThread run).map fun t => { r with task := t })
      ((q.task.advanceThread run).map fun t => { q with task := t }) := by
  have idle : ∀ t, q.task.advanceThread run = some t → q.task.isRunning = false →
      t.isRunning = false := fun _ last rest =>
    Task.isRunning_advanceThread regular.sound.coherent rest last
  simp only [Task.advanceThread, reduces.alike.contexts, Option.bind_eq_bind] at idle ⊢
  cases found : q.task.contexts[run]? with
  | none => exact .none
  | some c =>
    cases step : c.advance with
    | none =>
      simp only [Option.bind_some, step]
      exact .none
    | some d =>
      simp only [Option.bind_some, step, Option.map_some]
      exact .some (reduces.modifyTask run _ (idle _ (by simp [found, step])))

end Readers

section Begins

theorem claimed_append (r : Relay) {stage : CallStage} (off : stage.isClaiming = false) :
    ({ r with calls := r.calls ++ [stage] } : Relay).Claimed seen ↔ r.Claimed seen := by
  constructor
  · rintro ⟨n, stage', hidden, here, claims⟩
    rw [getElem?_snoc] at here
    split at here
    · obtain rfl := Option.some.inj here
      simp [off] at claims
    · exact ⟨n, stage', hidden, here, claims⟩
  · rintro ⟨n, stage', hidden, here, claims⟩
    refine ⟨n, stage', hidden, ?_, claims⟩
    rw [getElem?_snoc, if_neg (Nat.ne_of_lt (List.getElem?_eq_some_iff.mp here).1)]
    exact here

theorem isOnTask_entry (call : RelayCall) : (entry call).isOnTask = false := by
  cases call <;> rfl

theorem isClaiming_entry (call : RelayCall) : (entry call).isClaiming = false := by
  cases call <;> rfl

/-- What a call changes at once. -/
theorem Reduces.prepare (reduces : r.Reduces seen given q) (call : RelayCall) :
    (r.prepare call).Reduces seen given (q.prepare call) := by
  cases call with
  | start source uri =>
    refine { reduces with sources := fun n => ?_ }
    show Option.Rel _ (r.sources.modify source _)[n]? (q.sources.modify source _)[n]?
    rw [List.getElem?_modify, List.getElem?_modify]
    refine rel_map (reduces.sources n) fun s s' echo => ?_
    split
    · obtain ⟨spent, rfl, -⟩ := echo
      exact ⟨true, rfl, fun _ => rfl, fun _ => .inl rfl⟩
    · exact echo
  | drop => exact { reduces with dropped := rfl }
  | _ => exact reduces

/-- A call that is seen begins in both. -/
theorem Reduces.begin (reduces : r.Reduces seen given q) (inj : Function.Injective seen)
    (next : seen q.calls.length = r.calls.length) (call : RelayCall) :
    (r.begin call).Reduces seen given (q.begin call) := by
  have prepared := reduces.prepare call
  have length : ∀ s : Relay, (s.prepare call).calls = s.calls := fun s => by cases call <;> rfl
  have off := isClaiming_entry call
  refine { prepared with
    running := fun unclaimed => prepared.running ((claimed_append _ off).not.mp unclaimed)
    claimed := fun claimed => prepared.claimed ((claimed_append _ off).mp claimed)
    attended := fun j stage here onTask => ?_
    calls := fun j => ?_
    vain := fun n stage hidden here => ?_ }
  · replace here : ((q.prepare call).calls ++ [entry call])[j]? = some stage := here
    rw [getElem?_snoc] at here
    split at here
    · obtain rfl := Option.some.inj here
      simp [isOnTask_entry] at onTask
    · exact prepared.attended j stage here onTask
  · show ((r.prepare call).calls ++ [entry call])[seen j]? =
      ((q.prepare call).calls ++ [entry call])[j]?
    simp only [getElem?_snoc, length, ← next, inj.eq_iff, reduces.calls]
  · replace here : ((r.prepare call).calls ++ [entry call])[n]? = some stage := here
    rw [getElem?_snoc, length, if_neg (next ▸ Ne.symm (hidden _))] at here
    exact reduces.vain n stage hidden here

/-- A start that is not seen begins in the first only. -/
theorem Reduces.begin_hidden (reduces : r.Reduces seen given q)
    (hidden : ∀ i, seen i ≠ r.calls.length) {source : Nat} (listed : source ∈ given) (uri : String) :
    (r.begin (.start source uri)).Reduces seen given q := by
  have off : (CallStage.start source uri .lock).isClaiming = false := rfl
  refine { reduces with
    sources := fun n => ?_
    running := fun unclaimed => reduces.running ((claimed_append r off).not.mp unclaimed)
    claimed := fun claimed => reduces.claimed ((claimed_append r off).mp claimed)
    calls := fun j => ?_
    vain := fun n stage other here => ?_ }
  · show Option.Rel _ (r.sources.modify source _)[n]? _
    rw [List.getElem?_modify]
    have same := reduces.sources n
    generalize r.sources[n]? = x at same ⊢
    generalize q.sources[n]? = y at same ⊢
    cases same with
    | none => exact .none
    | some echo =>
      refine .some ?_
      split
      · next same =>
        obtain ⟨spent, rfl, -⟩ := echo
        exact ⟨true, rfl, fun _ => rfl, fun _ => .inr (same ▸ listed)⟩
      · exact echo
  · show (r.calls ++ [_])[seen j]? = _
    rw [getElem?_snoc, if_neg (hidden j)]
    exact reduces.calls j
  · replace here : (r.calls ++ [_])[n]? = some stage := here
    rw [getElem?_snoc] at here
    split at here
    · exact Option.some.inj here ▸ rfl
    · exact reduces.vain n stage other here

end Begins

section Steps

/-- The same step where the calls have other numbers. -/
def Label.renumber (seen : Nat → Nat) : Label → Label
  | .call n => .call (seen n)
  | .consumer subscriber action => .consumer subscriber (action.rename (.renumber seen))
  | .addSubscriber s => .addSubscriber (s.rename (.renumber seen))
  | l => l

/-- A call that is about to take the task can do so in both or in none. -/
def Level (r q : Relay) : Label → Prop
  | .call i => q.calls[i]?.any CallStage.isLocking = true → r.taskHolder.isNone = q.taskHolder.isNone
  | _ => True

/-- A call that begins may do so in both or in none, and is seen. -/
def Matches (seen : Nat → Nat) (r q : Relay) : Label → Prop
  | .begin call => r.accepts call = q.accepts call ∧ seen q.calls.length = r.calls.length
  | _ => True

/-- **Every step can be taken in both or in none.** -/
theorem Reduces.step (reduces : r.Reduces seen given q) (inj : Function.Injective seen)
    (regular : r.Regular ∧ q.Regular) (l : Label) (level : Level r q l) (fits : Matches seen r q l) :
    Option.Rel (Reduces seen given) (r.step (l.renumber seen)) (q.step l) := by
  cases l with
  | begin call =>
    simp only [Label.renumber, Relay.step, fits.1]
    split
    · exact .some (reduces.begin inj fits.2 call)
    · exact .none
  | call i => exact reduces.callStep inj regular.1 level
  | reader run => exact reduces.readerStep inj run
  | thread run => exact reduces.advanceThread regular.2 run
  | consumer subscriber action =>
    simp only [Label.renumber, Relay.step, reduces.getElem?_subscribers]
    cases q.subscribers[subscriber]? with
    | none => exact .none
    | some s =>
      refine .some ?_
      rw [Subscriber.act_rename (Actor.renumber_injective inj)]
      exact reduces.setSubscriber subscriber (s.act action)
  | writer source action =>
    refine rel_bind (reduces.sources source) fun s s' echo => ?_
    obtain ⟨spent, rfl, marked⟩ := echo
    rw [ScriptedSource.act_mark]
    refine .some (reduces.setSource source ⟨spent, rfl, ?_⟩)
    rwa [ScriptedSource.spent_act]
  | addSubscriber s =>
    exact .some { reduces with subscribers := by simp [reduces.subscribers] }
  | addSource s =>
    refine .some { reduces with sources := fun n => ?_ }
    rw [getElem?_snoc, getElem?_snoc, reduces.length_sources]
    split
    · exact .some ⟨s.spent, rfl, id, .inl⟩
    · exact reduces.sources n

end Steps

end Relay

end PacketRelay
