import PacketRelay.Proofs.Queue.Renaming
import PacketRelay.Proofs.Relay.Desk
import PacketRelay.Proofs.Relay.Regular

/-!
# A publisher without some of its starts

A start that begins no run reserves the run at most, waits for the thread of the run before, and
gives the run back. A publisher is compared here with what is left of it when such starts are taken
out: the calls that are left have other numbers, and apart from these the two differ in what the
starts hold for a while, and in the thread that nobody has to wait for any more.

## Main definitions

* `Relay.Reduces`: the second publisher is the first without some starts

## Main results

* `Relay.Reduces.fanout`: publishing does the same to both
-/

namespace PacketRelay

open Schedule

/-- A thread whose call has another number. -/
def Actor.renumber (seen : Nat → Nat) : Actor → Actor
  | .call n => .call (seen n)
  | .reader run => .reader run

theorem Actor.renumber_injective {seen : Nat → Nat} (inj : Function.Injective seen) :
    Function.Injective (renumber seen) := by
  intro a b same
  cases a <;> cases b <;> simp_all [renumber, inj.eq_iff]

namespace ScriptedSource

/-- The source, given away or not. -/
def mark (s : ScriptedSource) (spent : Bool) : ScriptedSource :=
  { s with spent := spent }

/-- The same source, which may have been given away in the meantime, if that is allowed for. -/
def Echoes (allowed : Prop) (s s' : ScriptedSource) : Prop :=
  ∃ spent, s = s'.mark spent ∧ (s'.spent = true → spent = true) ∧
    (spent = true → s'.spent = true ∨ allowed)

variable {s s' : ScriptedSource} {spent : Bool}

@[simp] theorem isShut_mark : (s.mark spent).isShut = s.isShut := rfl

@[simp] theorem memory_mark : (s.mark spent).memory = s.memory := rfl

theorem openAt_mark (uri : String) : (s.mark spent).openAt uri = (s.openAt uri).map (mark · spent) := by
  unfold openAt
  rw [memory_mark]
  cases s.memory.openAt uri with
  | ok memory => rfl
  | error e =>
    show (if e = .noStreams && s.allowNoStreams then _ else _) = _
    dsimp only
    split <;> rfl

theorem read_mark : (s.mark spent).read = (s.read.1.mark spent, s.read.2) := by
  obtain ⟨memory, gated, gateOpen, allowNoStreams, panicAt, taken, given⟩ := s
  simp only [mark, read]
  cases memory.feed.read with
  | mk feed outcome => cases outcome <;> rfl

theorem act_mark (a : Action) : (s.mark spent).act a = (s.act a).mark spent := by
  cases a <;> rfl

theorem spent_read : s.read.1.spent = s.spent := by
  simp only [read]
  split <;> rfl

theorem spent_act (a : Action) : (s.act a).spent = s.spent := by
  cases a <;> rfl

theorem spent_openAt {uri : String} (opened : s.openAt uri = .ok s') : s'.spent = s.spent := by
  unfold openAt at opened
  split at opened
  · exact Except.ok.inj opened ▸ rfl
  · split at opened
    · exact Except.ok.inj opened ▸ rfl
    · simp at opened

end ScriptedSource

/-- Has a start come no further than to its source? -/
def CallStage.isVain : CallStage → Bool
  | .start _ _ .lock | .start _ _ .reserve | .start _ _ .joining | .start _ _ .openSource
  | .start _ _ (.refuse _) => true
  | .returned (.started none) | .returned (.started (some (.source _))) => true
  | _ => false

/-- Has a start reserved the run, and come no further than to its source? -/
def CallStage.isClaiming : CallStage → Bool
  | .start _ _ .joining | .start _ _ .openSource | .start _ _ (.refuse _) => true
  | _ => false

/-- Does a call act on the task? -/
def CallStage.isOnTask (stage : CallStage) : Bool := stage.role.any Role.isOnTask

namespace Relay

/-- A call that is not seen has reserved the run. -/
def Claimed (seen : Nat → Nat) (r : Relay) : Prop :=
  ∃ n stage, (∀ i, seen i ≠ n) ∧ r.calls[n]? = some stage ∧ stage.isClaiming = true

/-- The second publisher is the first without the calls that are not seen, which are starts that have
begun no run; the others are numbered anew. The sources that the starts have been given are listed. -/
structure Reduces (seen : Nat → Nat) (given : List Nat) (r q : Relay) : Prop where
  settings : r.settings = q.settings
  subscribers : r.subscribers = q.subscribers.map (.rename (.renumber seen))
  sources : ∀ n : Nat, Option.Rel (ScriptedSource.Echoes (n ∈ given)) r.sources[n]? q.sources[n]?
  registry : r.registry = q.registry
  registryHolder : r.registryHolder = q.registryHolder.map (.renumber seen)
  started : r.started = q.started
  stopRequested : r.stopRequested = q.stopRequested
  lastId : r.lastId = q.lastId
  token : r.token = q.token
  video : r.video = q.video
  audio : r.audio = q.audio
  uri : r.uri = q.uri
  counters : r.counters = q.counters
  dropped : r.dropped = q.dropped
  /-- The run is reserved in both or in none, unless a start has it that is not seen. -/
  running : ¬ r.Claimed seen → r.running = q.running
  claimed : r.Claimed seen → q.running = false
  /-- The tasks have the same runs. -/
  task : r.task.Agrees q.task ∨ r.task.Apart q.task
  attended : ∀ (i : Nat) stage, q.calls[i]? = some stage → stage.isOnTask = true → r.task.Agrees q.task
  calls : ∀ i : Nat, r.calls[seen i]? = q.calls[i]?
  vain : ∀ (n : Nat) stage, (∀ i, seen i ≠ n) → r.calls[n]? = some stage → stage.isVain = true

section Outcomes

variable {α β γ δ : Type} {R : α → β → Prop} {S : γ → δ → Prop}

theorem rel_map {x : Option α} {y : Option β} {f : α → γ} {g : β → δ} (rel : Option.Rel R x y)
    (goes : ∀ a b, R a b → S (f a) (g b)) : Option.Rel S (x.map f) (y.map g) := by
  cases rel with
  | none => exact .none
  | some same => exact .some (goes _ _ same)

theorem rel_bind {x : Option α} {y : Option β} {f : α → Option γ} {g : β → Option δ}
    (rel : Option.Rel R x y) (goes : ∀ a b, R a b → Option.Rel S (f a) (g b)) :
    Option.Rel S (x.bind f) (y.bind g) := by
  cases rel with
  | none => exact .none
  | some same => exact goes _ _ same

theorem exists_of_rel_left {x : Option α} {y : Option β} {a : α} (rel : Option.Rel R x y)
    (here : x = some a) : ∃ b, y = some b ∧ R a b := by
  subst here
  cases rel with
  | some same => exact ⟨_, rfl, same⟩

theorem exists_of_rel_right {x : Option α} {y : Option β} {b : β} (rel : Option.Rel R x y)
    (here : y = some b) : ∃ a, x = some a ∧ R a b := by
  subst here
  cases rel with
  | some same => exact ⟨_, rfl, same⟩

end Outcomes

section Fanout

variable {seen : Nat → Nat} {given : List Nat} {r q : Relay} {n : Nat}

theorem Reduces.mono {given' : List Nat} (reduces : r.Reduces seen given q)
    (more : ∀ n ∈ given, n ∈ given') : r.Reduces seen given' q := by
  refine { reduces with sources := fun n => ?_ }
  have same := reduces.sources n
  generalize r.sources[n]? = x at same ⊢
  generalize q.sources[n]? = y at same ⊢
  cases same with
  | none => exact .none
  | some echo =>
    obtain ⟨spent, rfl, stays, allowed⟩ := echo
    exact .some ⟨spent, rfl, stays, fun marked => (allowed marked).imp_right (more n)⟩

/-- Two outcomes of the same access. -/
def Mirrors {α : Type} (seen : Nat → Nat) (given : List Nat) (x y : Relay × α) : Prop :=
  x.1.Reduces seen given y.1 ∧ x.2 = y.2

theorem Reduces.getElem?_subscribers (reduces : r.Reduces seen given q) (n : Nat) :
    r.subscribers[n]? = q.subscribers[n]?.map (.rename (.renumber seen)) := by
  rw [reduces.subscribers, List.getElem?_map]

theorem Reduces.isTerminated (reduces : r.Reduces seen given q) (n : Nat) :
    r.isTerminated n = q.isTerminated n := by
  unfold Relay.isTerminated
  rw [reduces.getElem?_subscribers]
  cases q.subscribers[n]? <;> rfl

theorem Reduces.identity (reduces : r.Reduces seen given q) (n : Nat) : r.identity n = q.identity n := by
  unfold Relay.identity
  rw [reduces.getElem?_subscribers]
  cases q.subscribers[n]? <;> rfl

theorem Reduces.setSubscriber (reduces : r.Reduces seen given q) (n : Nat) (s : Subscriber Actor) :
    (r.setSubscriber n (s.rename (.renumber seen))).Reduces seen given (q.setSubscriber n s) :=
  { reduces with
    subscribers := by
      simp only [Relay.setSubscriber, reduces.subscribers, List.map_set] }

theorem Reduces.sweep (reduces : r.Reduces seen given q) (entry : Nat) :
    Option.Rel (Mirrors seen given) (r.sweep entry) (q.sweep entry) := by
  unfold Relay.sweep
  rw [reduces.registry]
  cases q.registry[entry]? with
  | none => exact .none
  | some s =>
    simp only [reduces.isTerminated]
    split
    · exact .some ⟨{ reduces with registry := rfl }, rfl⟩
    · exact .some ⟨reduces, rfl⟩

theorem Reduces.acquire (reduces : r.Reduces seen given q) (a : Actor) :
    Option.Rel (Reduces seen given) (r.acquire (a.renumber seen)) (q.acquire a) := by
  unfold Relay.acquire
  rw [reduces.registryHolder, Option.isNone_map]
  split
  · exact .some { reduces with registryHolder := rfl }
  · exact .none

theorem Reduces.release (reduces : r.Reduces seen given q) : r.release.Reduces seen given q.release :=
  { reduces with registryHolder := rfl }

theorem Reduces.count (reduces : r.Reduces seen given q) (f : Counters → Counters) :
    (r.count f).Reduces seen given (q.count f) :=
  { reduces with counters := congrArg f reduces.counters }

/-- A packet on its way into a queue goes on in both. -/
theorem Reduces.enqueue {α β : Type} {S : α → β → Prop} (reduces : r.Reduces seen given q)
    (inj : Function.Injective seen) (a : Actor) (n : Nat) (e : Enqueue)
    {f : Subscriber Actor × Enqueue → Option α} {g : Subscriber Actor × Enqueue → Option β}
    (goes : ∀ s e, Option.Rel S (f (s.rename (.renumber seen), e)) (g (s, e))) :
    Option.Rel S (r.subscribers[n]?.bind fun s => (e.step (a.renumber seen) s).bind f)
      (q.subscribers[n]?.bind fun s => (e.step a s).bind g) := by
  rw [reduces.getElem?_subscribers]
  cases q.subscribers[n]? with
  | none => exact .none
  | some s =>
    simp only [Option.map_some, Option.bind_some, Enqueue.step_rename (Actor.renumber_injective inj)]
    cases e.step a s with
    | none => exact .none
    | some x => exact goes x.1 x.2

/-- **Publishing does the same to both.** -/
theorem Reduces.fanout (reduces : r.Reduces seen given q) (inj : Function.Injective seen) (a : Actor)
    (f : Fanout) : Option.Rel (Mirrors seen given) (f.step (a.renumber seen) r) (f.step a q) := by
  cases f with
  | checkStop p =>
    simp only [Fanout.step, reduces.stopRequested]
    exact .some ⟨reduces, rfl⟩
  | checkStarted p =>
    simp only [Fanout.step, reduces.started]
    exact .some ⟨reduces, rfl⟩
  | acquire p => exact rel_map (reduces.acquire a) fun _ _ taken => ⟨taken, rfl⟩
  | sweep p entry =>
    have swept := reduces.sweep entry
    simp only [Fanout.step, reduces.registry]
    generalize r.sweep entry = x at swept
    generalize q.sweep entry = y at swept
    cases swept with
    | none => exact .some ⟨reduces, rfl⟩
    | some same => exact .some ⟨same.1, congrArg (Fanout.sweep p) same.2⟩
  | choose p entry reached =>
    simp only [Fanout.step, reduces.registry, reduces.stopRequested]
    exact .some ⟨reduces, rfl⟩
  | serve p entry reached e =>
    by_cases ended : e = .finished
    · subst ended
      simp only [Fanout.step, reduces.registry]
      exact .some ⟨reduces, rfl⟩
    · simp only [Fanout.step, reduces.registry, Option.bind_eq_bind]
      cases q.registry[entry]? with
      | none => exact .none
      | some n => exact reduces.enqueue inj a n e fun s _ => .some ⟨reduces.setSubscriber n s, rfl⟩
  | countDiscarded | countPublished | countKeyframe => exact .some ⟨reduces.count _, rfl⟩
  | countBytes p reached => exact .some ⟨reduces.count (·.countBytes p.size), rfl⟩
  | release reached => exact .some ⟨reduces.release, rfl⟩
  | finished reached => exact .none

end Fanout

end Relay

end PacketRelay
