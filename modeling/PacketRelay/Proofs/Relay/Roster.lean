import PacketRelay.Proofs.Relay.Desk
import PacketRelay.Proofs.Relay.Holder
import PacketRelay.Proofs.Relay.Round

/-!
# Who enters and leaves the registry

Three kinds of threads take the registry: a call that adds a subscriber, a call that removes one, and
a thread that hands out a packet. Each of them looks through the entries, one access for each, and
throws the terminated ones out. Between two such accesses a subscriber may be terminated, which leaves
the registry alone.

All that a step of a publisher can do to the registry, to the marks of the subscribers and to the
errands of the threads is listed here once, together with what the step shows.

## Main definitions

* `Errand`: what a thread is about at the registry
* `Notice`: what a step shows
* `Roster`, `Roster.Move`: the registry with all errands, and what a step can do to it

## Main results

* `Relay.roster_step`: every step makes a move, and shows what the move shows
-/

namespace PacketRelay

/-- Why a thread looks through the registry. -/
inductive Aim
  -- To add a subscriber
  | add (subscriber : Nat)
  -- A subscriber has been removed, or has not been found.
  | remove (subscriber : Nat) (found : Bool)
  -- To hand out a packet
  | serve
deriving DecidableEq

/-- What a thread is about at the registry. -/
inductive Errand
  -- To add a subscriber, and about to look for a stop request
  | asking (subscriber : Nat)
  -- To add a subscriber, and about to take the registry
  | adding (subscriber : Nat)
  -- To remove a subscriber, and about to take the registry
  | removing (subscriber : Nat)
  -- It holds the registry and is about to look at an entry.
  | sweeping (aim : Aim) (entry : Nat)
  -- It holds the registry and hands out a packet.
  | serving
  -- It has answered whether the registry has gained or lost the subscriber.
  | answered (b : Bool)
deriving DecidableEq

/-- Does a thread hold the registry? -/
def Errand.holds : Errand → Bool
  | .sweeping .. | .serving => true
  | _ => false

/-- What a thread is about that publishes. -/
def Fanout.errand : Fanout → Option Errand
  | .sweep _ entry => some (.sweeping .serve entry)
  | f => if f.isInside then some .serving else none

/-- What a call is about. -/
def CallStage.errand : CallStage → Option Errand
  | .publish f => f.errand
  | .subscribe s .checkStop => some (.asking s)
  | .subscribe s .acquire => some (.adding s)
  | .subscribe s (.sweep entry) => some (.sweeping (.add s) entry)
  | .unsubscribe s .acquire => some (.removing s)
  | .unsubscribe s (.sweep entry found) => some (.sweeping (.remove s found) entry)
  | .returned (.changed b) => some (.answered b)
  | _ => none

/-- What a read loop is about. -/
def Reading.errand : Reading → Option Errand
  | .publish f => f.errand
  | _ => none

/-- The subscriber that a thread is to add or remove. -/
def Errand.subscriber? : Errand → Option Nat
  | .asking s | .adding s | .removing s => some s
  | .sweeping (.add s) _ | .sweeping (.remove s _) _ => some s
  | _ => none

/-- The subscriber that a call adds or removes. -/
def RelayCall.subscriber? : RelayCall → Option Nat
  | .subscribe s | .unsubscribe s => some s
  | _ => none

/-- What is seen of the registry. -/
inductive Notice
  -- A call begins.
  | began (call : Nat) (kind : RelayCall)
  -- A call that adds a subscriber has looked for a stop request.
  | asked (call subscriber : Nat) (stop : Bool)
  -- A thread has taken the registry, to add a subscriber or to hand out a packet.
  | took (a : Actor)
  -- A call has taken the registry and removed the identity of a subscriber, if it was there.
  | removed (call subscriber : Nat) (found : Bool)
  -- A thread has thrown a terminated entry out.
  | cleared (a : Actor) (subscriber : Nat)
  -- A call has given the registry back, with a subscriber added or its identity found.
  | settled (call subscriber : Nat) (added : Bool)
  -- A call has given the registry back that has removed a subscriber, or has not found it.
  | parted (call subscriber : Nat) (found : Bool)
  -- A thread has given the registry back that has handed out a packet.
  | released (a : Actor)
  -- A subscriber has been terminated.
  | terminated (subscriber : Nat)
deriving DecidableEq

/-- The registry with all that decides who enters and who leaves. -/
structure Roster where
  /-- The registered subscribers -/
  registry : List Nat
  /-- The thread that holds the registry -/
  holder : Option Actor
  /-- The number of calls ever made -/
  calls : Nat
  /-- The number of subscribers there are -/
  subscribers : Nat
  /-- By which each subscriber is told from all others -/
  identity : Nat → Option String
  /-- Which subscribers are terminated -/
  isTerminated : Nat → Bool
  /-- What each thread is about -/
  errand : Actor → Option Errand

namespace Roster

/-- One thread goes on. -/
def setErrand (t : Roster) (a : Actor) (x : Option Errand) : Roster :=
  { t with errand := Function.update t.errand a x }

section Errands

variable {t : Roster} {a b : Actor} {x : Option Errand}

@[simp] theorem setErrand_registry : (t.setErrand a x).registry = t.registry := rfl

@[simp] theorem setErrand_holder : (t.setErrand a x).holder = t.holder := rfl

@[simp] theorem setErrand_calls : (t.setErrand a x).calls = t.calls := rfl

@[simp] theorem setErrand_subscribers : (t.setErrand a x).subscribers = t.subscribers := rfl

@[simp] theorem setErrand_identity : (t.setErrand a x).identity = t.identity := rfl

@[simp] theorem setErrand_isTerminated : (t.setErrand a x).isTerminated = t.isTerminated := rfl

@[simp] theorem errand_setErrand :
    (t.setErrand a x).errand b = if b = a then x else t.errand b := by
  simp [setErrand, Function.update_apply]

end Errands

/-- Does the registry have an entry with the identity of a subscriber? -/
def isRegistered (t : Roster) (s : Nat) : Bool :=
  t.registry.any fun x => t.identity x == t.identity s

/-- What a step of a publisher can do to its roster, and what it shows. -/
inductive Move : Option Notice → Roster → Roster → Prop
  | stay {t : Roster} : Move none t t
  | begin {t : Roster} (kind : RelayCall)
      (there : ∀ s, kind.subscriber? = some s → s < t.subscribers) :
      Move (some (.began t.calls kind)) t
        { t.setErrand (.call t.calls) (Relay.entry kind).errand with calls := t.calls + 1 }
  | ask {t : Roster} {n s : Nat} (stop : Bool) (at_ : t.errand (.call n) = some (.asking s)) :
      Move (some (.asked n s stop)) t
        (t.setErrand (.call n) (some (if stop then .answered false else .adding s)))
  -- Who takes the registry
  | take {t : Roster} {n s : Nat} (at_ : t.errand (.call n) = some (.adding s))
      (free : t.holder = none) :
      Move (some (.took (.call n))) t
        { t.setErrand (.call n) (some (.sweeping (.add s) 0)) with holder := some (.call n) }
  | takeToServe {t : Roster} {a : Actor} (off : t.errand a = none) (free : t.holder = none) :
      Move (some (.took a)) t
        { t.setErrand a (some (.sweeping .serve 0)) with holder := some a }
  | remove {t : Roster} {n s : Nat} (at_ : t.errand (.call n) = some (.removing s))
      (free : t.holder = none) :
      Move (some (.removed n s (t.isRegistered s))) t
        { t.setErrand (.call n) (some (.sweeping (.remove s (t.isRegistered s)) 0)) with
          registry := t.registry.filter fun x => t.identity x != t.identity s
          holder := some (.call n) }
  -- Who looks through it
  | keep {t : Roster} {a : Actor} {aim : Aim} {entry x : Nat}
      (at_ : t.errand a = some (.sweeping aim entry)) (entered : t.registry[entry]? = some x)
      (live : t.isTerminated x = false) :
      Move none t (t.setErrand a (some (.sweeping aim (entry + 1))))
  | clear {t : Roster} {a : Actor} {aim : Aim} {entry x : Nat}
      (at_ : t.errand a = some (.sweeping aim entry)) (entered : t.registry[entry]? = some x)
      (terminated : t.isTerminated x) :
      Move (some (.cleared a x)) t { t with registry := t.registry.eraseIdx entry }
  -- Who is done with it
  | settle {t : Roster} {n s entry : Nat}
      (at_ : t.errand (.call n) = some (.sweeping (.add s) entry))
      (past : t.registry.length ≤ entry) :
      Move (some (.settled n s !t.isRegistered s)) t
        { t.setErrand (.call n) (some (.answered !t.isRegistered s)) with
          registry := if t.isRegistered s then t.registry else t.registry ++ [s]
          holder := none }
  | part {t : Roster} {n s entry : Nat} {found : Bool}
      (at_ : t.errand (.call n) = some (.sweeping (.remove s found) entry))
      (past : t.registry.length ≤ entry) :
      Move (some (.parted n s found)) t
        { t.setErrand (.call n) (some (.answered found)) with holder := none }
  | serve {t : Roster} {a : Actor} {entry : Nat}
      (at_ : t.errand a = some (.sweeping .serve entry)) (past : t.registry.length ≤ entry) :
      Move none t (t.setErrand a (some .serving))
  | release {t : Roster} {a : Actor} (at_ : t.errand a = some .serving) :
      Move (some (.released a)) t { t.setErrand a none with holder := none }
  -- Who is terminated, and who is new
  | terminate {t : Roster} {s : Nat} (there : s < t.subscribers) :
      Move (some (.terminated s)) t
        { t with isTerminated := Function.update t.isTerminated s true }
  | arrive {t : Roster} (identity : String) :
      Move none t { t with
        subscribers := t.subscribers + 1
        identity := Function.update t.identity t.subscribers (some identity)
        isTerminated := Function.update t.isTerminated t.subscribers false }

end Roster

/-- A thread at a queue leaves alone by what its subscriber is told from all others. -/
theorem Enqueue.identity_step {a : Actor} {s s' : Subscriber Actor} {e e' : Enqueue}
    (last : e.step a s = some (s', e')) : s'.identity = s.identity := by
  cases e with
  | waiting =>
    simp only [step, Option.bind_eq_bind, Option.bind_eq_some_iff, Option.some.injEq,
      Prod.mk.injEq] at last
    obtain ⟨q, -, rfl, -⟩ := last
    rfl
  | finished => simp [step] at last
  | _ =>
    obtain ⟨rfl, -⟩ := Prod.mk.inj (Option.some.inj last)
    rfl

namespace Relay

/-- What each thread of a publisher is about at the registry. -/
def errand (r : Relay) : Actor → Option Errand
  | .call n => r.calls[n]?.bind CallStage.errand
  | .reader run => (r.task.target? run).bind fun reader => reader.at_.errand

/-- The registry of a publisher with all that decides who enters and who leaves. -/
def roster (r : Relay) : Roster where
  registry := r.registry
  holder := r.registryHolder
  calls := r.calls.length
  subscribers := r.subscribers.length
  identity := r.identity
  isTerminated := r.isTerminated
  errand := r.errand

/-- What a look at an entry shows: that a terminated one is thrown out. -/
def noticeSweep (r : Relay) (a : Actor) (entry : Nat) : Option Notice :=
  r.registry[entry]?.bind fun x => if r.isTerminated x then some (.cleared a x) else none

def noticeFanout (r : Relay) (a : Actor) : Fanout → Option Notice
  | .acquire _ => some (.took a)
  | .sweep _ entry => r.noticeSweep a entry
  | .release _ => some (.released a)
  | _ => none

def noticeCall (r : Relay) (n : Nat) : CallStage → Option Notice
  | .publish f => r.noticeFanout (.call n) f
  | .subscribe s .checkStop => some (.asked n s r.stopRequested)
  | .subscribe _ .acquire => some (.took (.call n))
  | .subscribe s (.sweep entry) =>
    if r.registry.length ≤ entry then some (.settled n s !r.isRegistered s)
    else r.noticeSweep (.call n) entry
  | .unsubscribe s .acquire => some (.removed n s (r.isRegistered s))
  | .unsubscribe s (.sweep entry found) =>
    if r.registry.length ≤ entry then some (.parted n s found) else r.noticeSweep (.call n) entry
  | _ => none

def noticeReading (r : Relay) (run : Nat) : Reading → Option Notice
  | .publish f => r.noticeFanout (.reader run) f
  | _ => none

/-- What a step shows of the registry. -/
def notice (r : Relay) : Label → Option Notice
  | .begin kind => some (.began r.calls.length kind)
  | .call n => r.calls[n]?.bind (r.noticeCall n)
  | .reader run => (r.task.target? run).bind fun reader => r.noticeReading run reader.at_
  | .consumer s .terminate => some (.terminated s)
  | _ => none

section Frames

variable {r r' : Relay} {n run : Nat}

theorem setErrand_of_eq {t : Roster} {a : Actor} {x : Option Errand} (same : t.errand a = x) :
    t.setErrand a x = t := by
  subst same
  simp [Roster.setErrand]

theorem errand_call {stage : CallStage} (here : r.calls[n]? = some stage) :
    r.roster.errand (.call n) = stage.errand := by
  simp [roster, errand, here]

theorem errand_reader {reader : Reader} (executing : r.task.target? run = some reader) :
    r.roster.errand (.reader run) = reader.at_.errand := by
  simp [roster, errand, executing]

theorem errand_setCall {stage : CallStage} (there : n < r.calls.length) :
    (r.setCall n stage).errand = Function.update r.errand (.call n) stage.errand := by
  funext a
  cases a with
  | reader run => rfl
  | call m =>
    by_cases same : m = n
    · subst same
      simp [errand, setCall, there]
    · rw [Function.update_of_ne (by simpa using same)]
      simp [errand, setCall, List.getElem?_set_ne (Ne.symm same)]

theorem roster_setCall {stage : CallStage} (there : n < r.calls.length) :
    (r.setCall n stage).roster = r.roster.setErrand (.call n) stage.errand := by
  unfold roster Roster.setErrand
  rw [errand_setCall there]
  congr 1
  exact List.length_set

/-- A call whose errand stays the same may go anywhere. -/
theorem roster_setCall_of_eq {stage stage' : CallStage} (at_ : r.calls[n]? = some stage)
    (same : stage.errand = stage'.errand) (frame : r.roster = r'.roster) :
    (r.setCall n stage').roster = r'.roster := by
  rw [roster_setCall (List.getElem?_eq_some_iff.mp at_).1, ← same, ← frame]
  exact setErrand_of_eq (errand_call at_)

theorem roster_task {t : Task Reader} (targets : ∀ run, t.target? run = r.task.target? run) :
    ({ r with task := t } : Relay).roster = r.roster := by
  unfold roster
  congr 1
  funext a
  cases a with
  | call n => rfl
  | reader run => simp [errand, targets]

theorem roster_goOn {reader reader' : Reader} {at_ : Reading}
    (executing : r.task.target? run = some reader) :
    (r.goOn run reader' at_).roster = r.roster.setErrand (.reader run) at_.errand := by
  unfold roster Roster.setErrand
  congr 1
  funext a
  cases a with
  | call n => rfl
  | reader other =>
    simp only [errand, target?_goOn executing]
    by_cases same : other = run
    · subst same
      simp
    · rw [Function.update_of_ne (by simpa using same), if_neg (Ne.symm same)]
      rfl

/-- A loop that is about nothing at the registry may be left. -/
theorem roster_leave {reader : Reader} (executing : r.task.target? run = some reader)
    (off : reader.at_.errand = none) (frame : r.roster = r'.roster) :
    (r.leave run).roster = r'.roster := by
  rw [← frame]
  unfold roster
  congr 1
  funext a
  cases a with
  | call n => rfl
  | reader other =>
    simp only [errand, target?_leave executing]
    split
    · next here =>
      rw [← here, executing]
      exact off.symm
    · rfl

theorem identity_setSubscriber {m : Nat} {s s' : Subscriber Actor}
    (there : r.subscribers[m]? = some s) (same : s'.identity = s.identity) :
    (r.setSubscriber m s').identity = r.identity := by
  have inside := (List.getElem?_eq_some_iff.mp there).1
  funext x
  by_cases here : m = x
  · subst here
    simp [identity, setSubscriber, same, inside, (List.getElem?_eq_some_iff.mp there).2]
  · simp [identity, setSubscriber, List.getElem?_set_ne here]

theorem isTerminated_setSubscriber {m : Nat} {s' : Subscriber Actor}
    (there : m < r.subscribers.length) :
    (r.setSubscriber m s').isTerminated = Function.update r.isTerminated m s'.isTerminated := by
  funext x
  by_cases here : m = x
  · subst here
    simp [isTerminated, setSubscriber, there]
  · rw [Function.update_of_ne (Ne.symm here)]
    simp [isTerminated, setSubscriber, List.getElem?_set_ne here]

/-- What happens in the queue of a subscriber is not seen at the registry. -/
theorem roster_setSubscriber {m : Nat} {s s' : Subscriber Actor}
    (there : r.subscribers[m]? = some s) (same : s'.identity = s.identity ∧ s'.active = s.active) :
    (r.setSubscriber m s').roster = r.roster := by
  have inside := (List.getElem?_eq_some_iff.mp there).1
  have terminated : r.isTerminated m = s'.isTerminated := by
    simp [isTerminated, there, Subscriber.isTerminated, same.2]
  unfold roster
  rw [identity_setSubscriber there same.1, isTerminated_setSubscriber inside, ← terminated,
    Function.update_eq_self]
  congr 1
  exact List.length_set

end Frames

section Steps

open Roster (Move)

variable {r r' : Relay} {a : Actor} {n run : Nat}

theorem move_same {t t' : Roster} (same : t' = t) : Move none t t' :=
  same ▸ .stay

/-- A thread that looks at an entry goes on behind it, or throws it out. -/
theorem move_sweep {aim : Aim} {entry next : Nat}
    (at_ : r.roster.errand a = some (.sweeping aim entry))
    (last : r.sweep entry = some (r', next)) :
    Move (r.noticeSweep a entry) r.roster
      (r'.roster.setErrand a (some (.sweeping aim next))) := by
  unfold sweep at last
  unfold noticeSweep
  split at last
  · simp at last
  · next x entered =>
    rw [entered, Option.bind_some]
    split at last
    · next terminated =>
      obtain ⟨rfl, rfl⟩ := Prod.mk.inj (Option.some.inj last)
      rw [if_pos terminated]
      have still : ({ r with registry := r.registry.eraseIdx entry } : Relay).roster.errand a =
          some (.sweeping aim entry) := at_
      rw [setErrand_of_eq still]
      exact .clear at_ entered terminated
    · next live =>
      obtain ⟨rfl, rfl⟩ := Prod.mk.inj (Option.some.inj last)
      rw [if_neg live]
      exact .keep at_ entered (Bool.eq_false_iff.mpr live)

/-- What a thread does that publishes. -/
theorem move_fanout_roster {f f' : Fanout} (at_ : r.roster.errand a = f.errand)
    (last : f.step a r = some (r', f')) :
    Move (r.noticeFanout a f) r.roster (r'.roster.setErrand a f'.errand) := by
  cases f with
  | checkStop p | checkStarted p =>
    obtain ⟨rfl, rfl⟩ := Prod.mk.inj (Option.some.inj last)
    refine move_same (setErrand_of_eq (at_.trans ?_))
    split <;> rfl
  | acquire p =>
    obtain ⟨free, rfl, rfl⟩ := step_acquire last
    exact .takeToServe at_ free
  | sweep p entry =>
    rcases step_sweep last with ⟨next, swept, rfl⟩ | ⟨past, rfl, rfl⟩
    · exact move_sweep at_ swept
    · have finished := sweep_eq_none_iff.mp past
      have next : (Fanout.afterSweep p r'.registry.length).errand = some .serving := by
        unfold Fanout.afterSweep
        split <;> rfl
      have quiet : r'.noticeFanout a (.sweep p entry) = none := by
        simp [noticeFanout, noticeSweep, List.getElem?_eq_none finished]
      rw [next, quiet]
      exact .serve at_ finished
  | choose p entry reached =>
    obtain ⟨rfl, rfl⟩ := Prod.mk.inj (Option.some.inj last)
    refine move_same (setErrand_of_eq (at_.trans ?_))
    unfold Fanout.afterChoice Fanout.close
    dsimp only
    repeat' split
    all_goals rfl
  | serve p entry reached e =>
    rcases step_serve last with ⟨rfl, rfl, rfl⟩ | ⟨m, s, s', e', -, there, step, rfl, rfl⟩
    · refine move_same (setErrand_of_eq (at_.trans ?_))
      unfold Fanout.afterServe Fanout.close
      repeat' split
      all_goals rfl
    · rw [roster_setSubscriber there ⟨Enqueue.identity_step step, (Enqueue.items_step step).2⟩]
      exact move_same (setErrand_of_eq at_)
  | countDiscarded | countPublished p reached | countKeyframe reached =>
    obtain ⟨rfl, rfl⟩ := Prod.mk.inj (Option.some.inj last)
    exact move_same (setErrand_of_eq at_)
  | countBytes p reached =>
    obtain ⟨rfl, rfl⟩ := Prod.mk.inj (Option.some.inj last)
    refine move_same (setErrand_of_eq (at_.trans ?_))
    split <;> rfl
  | release reached =>
    obtain ⟨rfl, rfl⟩ := Prod.mk.inj (Option.some.inj last)
    exact .release at_
  | finished reached => simp [Fanout.step] at last

/-- A call that goes on makes the move that it makes as a thread. -/
theorem move_setCall_roster {stage : CallStage} {e : Option Notice} {t : Roster}
    (there : n < r'.calls.length) (move : Move e t (r'.roster.setErrand (.call n) stage.errand)) :
    Move e t (r'.setCall n stage).roster := by
  rw [roster_setCall there]
  exact move

/-- What a call does that adds a subscriber. -/
theorem roster_subscribeStep {s : Nat} {at_ : Subscribing}
    (here : r.calls[n]? = some (.subscribe s at_)) (last : r.subscribeStep n s at_ = some r') :
    Move (r.noticeCall n (.subscribe s at_)) r.roster r'.roster := by
  have there := (List.getElem?_eq_some_iff.mp here).1
  have errand := errand_call here
  cases at_ with
  | checkStop =>
    obtain rfl := Option.some.inj last
    have move : Move _ r.roster _ := .ask r.stopRequested errand
    show Move (some (.asked n s r.stopRequested)) _ _
    split
    · next stop =>
      rw [stop] at move ⊢
      exact move_setCall_roster there move
    · next going =>
      simp only [Bool.not_eq_true] at going
      rw [going] at move ⊢
      exact move_setCall_roster there move
  | acquire =>
    obtain ⟨free, rfl⟩ := subscribeStep_acquire last
    exact move_setCall_roster there (.take errand free)
  | sweep entry =>
    rcases subscribeStep_sweep last with ⟨t, next, swept, rfl⟩ | ⟨past, rfl⟩
    · rw [noticeCall, if_neg (not_le_of_sweep swept)]
      have calls : t.calls = r.calls := by rw [sweep_frame swept]
      exact move_setCall_roster (calls ▸ there) (move_sweep errand swept)
    · have finished := sweep_eq_none_iff.mp past
      rw [noticeCall, if_pos finished]
      have move := Move.settle errand finished
      have known : r.roster.isRegistered s = r.isRegistered s := rfl
      rw [known] at move
      unfold register
      split
      · next same =>
        rw [same] at move ⊢
        exact move_setCall_roster there move
      · next fresh =>
        simp only [Bool.not_eq_true] at fresh
        rw [fresh] at move ⊢
        exact move_setCall_roster there move

/-- What a call does that removes a subscriber. -/
theorem roster_unsubscribeStep {s : Nat} {at_ : Unsubscribing}
    (here : r.calls[n]? = some (.unsubscribe s at_))
    (last : r.unsubscribeStep n s at_ = some r') :
    Move (r.noticeCall n (.unsubscribe s at_)) r.roster r'.roster := by
  have there := (List.getElem?_eq_some_iff.mp here).1
  have errand := errand_call here
  cases at_ with
  | acquire =>
    obtain ⟨free, rfl⟩ := unsubscribeStep_acquire last
    exact move_setCall_roster there (.remove errand free)
  | sweep entry removed =>
    rcases unsubscribeStep_sweep last with ⟨t, next, swept, rfl⟩ | ⟨past, rfl⟩
    · rw [noticeCall, if_neg (not_le_of_sweep swept)]
      have calls : t.calls = r.calls := by rw [sweep_frame swept]
      exact move_setCall_roster (calls ▸ there) (move_sweep errand swept)
    · have finished := sweep_eq_none_iff.mp past
      rw [noticeCall, if_pos finished]
      exact move_setCall_roster there (.part errand finished)

/-- A call that puts a packet into a single queue is about nothing at the registry. -/
theorem roster_enqueueStep {s : Nat} {e : Enqueue} (here : r.calls[n]? = some (.enqueue s e))
    (last : r.enqueueStep n s e = some r') : r'.roster = r.roster := by
  rcases enqueueStep_cases last with ⟨rfl, rfl⟩ | ⟨x, x', e', found, step, rfl⟩
  · exact roster_setCall_of_eq here rfl rfl
  · have still := roster_setSubscriber found
      ⟨Enqueue.identity_step step, (Enqueue.items_step step).2⟩
    have there : (r.setSubscriber s x').calls[n]? = some (.enqueue s e) := here
    exact roster_setCall_of_eq there rfl still

theorem roster_taskStep {atEnd : Relay} (ended : atEnd.roster = r.roster)
    (last : r.taskStep atEnd = some r') : r'.roster = r.roster := by
  rcases taskStep_cases last with ⟨-, rfl⟩ | ⟨t, step, rfl⟩
  · exact ended
  · exact roster_task (Task.target?_run_advance step)

theorem roster_cancelShared : r.cancelShared.roster = r.roster := by
  unfold cancelShared
  split
  · exact roster_task fun run => by simp [Task.target?_eq_bind]
  · rfl

/-- A call that cancels the token that is shared goes on with an errand as before. -/
theorem roster_setCall_cancelShared {stage stage' : CallStage} (at_ : r.calls[n]? = some stage)
    (same : stage.errand = stage'.errand) :
    (r.cancelShared.setCall n stage').roster = r.roster := by
  rw [← calls_cancelShared] at at_
  exact roster_setCall_of_eq at_ same roster_cancelShared

theorem roster_startStep {source : Nat} {uri : String} {at_ : Starting}
    (here : r.calls[n]? = some (.start source uri at_))
    (last : r.startStep n source uri at_ = some r') : r'.roster = r.roster := by
  cases at_ with
  | lock =>
    obtain ⟨-, rfl⟩ := startStep_lock last
    exact roster_setCall_of_eq here rfl rfl
  | reserve =>
    obtain rfl := Option.some.inj last
    split <;> exact roster_setCall_of_eq here rfl rfl
  | joining | launching =>
    refine roster_taskStep ?_ last
    exact roster_setCall_of_eq here rfl rfl
  | openSource =>
    obtain ⟨s, -, -, ⟨s', -, rfl⟩ | ⟨e, -, rfl⟩⟩ := startStep_openSource last
    · exact roster_setCall_of_eq here rfl rfl
    · exact roster_setCall_of_eq here rfl rfl
  | _ =>
    obtain rfl := Option.some.inj last
    exact roster_setCall_of_eq here rfl rfl

theorem roster_joinStep {at_ : Joining} (here : r.calls[n]? = some (.join at_))
    (last : r.joinStep n at_ = some r') : r'.roster = r.roster := by
  cases at_ with
  | lock =>
    obtain ⟨-, rfl⟩ := joinStep_lock last
    exact roster_setCall_of_eq here rfl rfl
  | joining =>
    refine roster_taskStep ?_ last
    exact roster_setCall_of_eq here rfl rfl

theorem roster_dropStep {at_ : Dropping} (here : r.calls[n]? = some (.drop at_))
    (last : r.dropStep n at_ = some r') : r'.roster = r.roster := by
  rcases at_ with (_ | _) | _
  · obtain rfl := Option.some.inj last
    exact roster_setCall_of_eq here rfl rfl
  · obtain rfl := Option.some.inj last
    exact roster_setCall_cancelShared here rfl
  · refine roster_taskStep ?_ last
    exact roster_setCall_of_eq here rfl rfl

theorem roster_describeStep {at_ : Describing} (here : r.calls[n]? = some (.describe at_))
    (last : r.describeStep n at_ = some r') : r'.roster = r.roster := by
  cases at_ with
  | countEntries uri started stop =>
    obtain ⟨-, rfl⟩ := describeStep_countEntries last
    exact roster_setCall_of_eq here rfl rfl
  | _ =>
    obtain rfl := Option.some.inj last
    exact roster_setCall_of_eq here rfl rfl

/-- What a call does. -/
theorem roster_callStep (last : r.callStep n = some r') :
    Move (r.notice (.call n)) r.roster r'.roster := by
  obtain ⟨stage, here⟩ := exists_stage_of_callStep last
  have there := (List.getElem?_eq_some_iff.mp here).1
  have whole := last
  simp only [callStep, here, Option.bind_eq_bind, Option.bind_some] at last
  have shown : r.notice (.call n) = r.noticeCall n stage := by simp [notice, here]
  rw [shown]
  cases stage with
  | publish f =>
    rcases callStep_publish here whole with ⟨reached, rfl, rfl⟩ | ⟨s, f', step, rfl⟩
    · exact move_same (roster_setCall_of_eq here rfl rfl)
    · refine move_setCall_roster ?_ (move_fanout_roster (errand_call here) step)
      rw [Fanout.step_frame step]
      exact there
  | enqueue s e => exact move_same (roster_enqueueStep here last)
  | subscribe s at_ => exact roster_subscribeStep here last
  | unsubscribe s at_ => exact roster_unsubscribeStep here last
  | start source uri at_ => exact move_same (roster_startStep here last)
  | stop at_ =>
    cases at_ with
    | raiseStop =>
      obtain rfl := Option.some.inj last
      exact move_same (roster_setCall_of_eq here rfl rfl)
    | cancel =>
      obtain rfl := Option.some.inj last
      exact move_same (roster_setCall_cancelShared here rfl)
  | join at_ => exact move_same (roster_joinStep here last)
  | describe at_ => exact move_same (roster_describeStep here last)
  | drop at_ => exact move_same (roster_dropStep here last)
  | returned reply => simp at last

section Readers

variable {reader : Reader}

/-- A loop that is about nothing at the registry may go on to anything else of this kind. -/
theorem roster_goOn_of_off {reader' : Reader} {at_ : Reading}
    (executing : r.task.target? run = some reader) (off : reader.at_.errand = none)
    (next : at_.errand = none) (frame : r.roster = r'.roster) :
    (r.goOn run reader' at_).roster = r'.roster := by
  rw [roster_goOn executing, next, ← frame]
  exact setErrand_of_eq ((errand_reader executing).trans off)

theorem roster_readUnit (executing : r.task.target? run = some reader)
    (off : reader.at_.errand = none) (last : r.readUnit run reader = some r') :
    r'.roster = r.roster := by
  obtain ⟨s, -, ⟨outcome, -, rfl⟩ | ⟨-, rfl⟩⟩ := readUnit_cases last
  · have next : (afterRead outcome).errand = none := by cases outcome <;> rfl
    exact roster_goOn_of_off executing off next rfl
  · exact roster_leave executing off rfl

/-- What the read loop of a run does. -/
theorem roster_readerStep (last : r.readerStep run = some r') :
    Move (r.notice (.reader run)) r.roster r'.roster := by
  obtain ⟨reader, executing⟩ := exists_target_of_readerStep last
  have whole := last
  simp only [readerStep, executing, Option.bind_eq_bind, Option.bind_some] at last
  have shown : r.notice (.reader run) = r.noticeReading run reader.at_ := by
    simp [notice, executing]
  rw [shown]
  obtain ⟨source, videoIndex, audioIndex, at_⟩ := reader
  cases at_ with
  | read => exact move_same (roster_readUnit executing rfl last)
  | publish f =>
    rcases readerStep_publish executing rfl whole with ⟨reached, rfl, rfl⟩ | ⟨s, f', step, rfl⟩
    · exact move_same (roster_goOn_of_off executing rfl rfl rfl)
    · have there : s.task.target? run = some ⟨source, videoIndex, audioIndex, .publish f⟩ := by
        rw [Fanout.step_frame step]
        exact executing
      rw [roster_goOn there]
      exact move_fanout_roster (errand_reader executing) step
  | countRead u =>
    obtain rfl := Option.some.inj last
    refine move_same (roster_goOn_of_off executing rfl ?_ rfl)
    unfold afterCount
    split <;> rfl
  | number u kind =>
    obtain rfl := Option.some.inj last
    refine move_same (roster_goOn_of_off executing rfl ?_ rfl)
    unfold afterNumber
    split <;> rfl
  | pause =>
    rcases readerStep_pause executing rfl whole with ⟨delay, -, rfl⟩ | ⟨-, rfl⟩
    · exact move_same (roster_goOn_of_off executing rfl rfl rfl)
    · exact move_same (roster_leave executing rfl rfl)
  | checkToken | checkStop | paused =>
    obtain rfl := Option.some.inj last
    refine move_same (roster_goOn_of_off executing rfl ?_ rfl)
    split <;> rfl
  | lowerRunning =>
    obtain rfl := Option.some.inj last
    exact move_same (roster_leave executing rfl rfl)
  | _ =>
    obtain rfl := Option.some.inj last
    exact move_same (roster_goOn_of_off executing rfl rfl rfl)

end Readers

theorem errand_append {stage : CallStage} :
    ({ r with calls := r.calls ++ [stage] } : Relay).errand =
      Function.update r.errand (.call r.calls.length) stage.errand := by
  funext a
  cases a with
  | reader run => rfl
  | call m =>
    show (r.calls ++ [stage])[m]?.bind _ = _
    rw [getElem?_snoc]
    by_cases same : m = r.calls.length
    · rw [if_pos same, same, Function.update_self]
      rfl
    · rw [if_neg same, Function.update_of_ne (by simpa using same)]
      rfl

theorem roster_append {stage : CallStage} :
    ({ r with calls := r.calls ++ [stage] } : Relay).roster =
      { r.roster.setErrand (.call r.calls.length) stage.errand with calls := r.calls.length + 1 } := by
  unfold roster Roster.setErrand
  rw [errand_append]
  congr 1
  exact List.length_append

theorem roster_prepare {kind : RelayCall} : (r.prepare kind).roster = r.roster := by
  cases kind <;> rfl

/-- A call begins. -/
theorem roster_begin {kind : RelayCall} (accepted : r.accepts kind) :
    Move (some (.began r.calls.length kind)) r.roster (r.begin kind).roster := by
  have there : ∀ s, kind.subscriber? = some s → s < r.roster.subscribers := by
    intro s named
    cases kind <;> simp_all [RelayCall.subscriber?, accepts, roster]
  have calls : (r.prepare kind).calls.length = r.calls.length :=
    congrArg Roster.calls roster_prepare
  rw [begin, roster_append, roster_prepare, calls]
  exact .begin kind there

/-- What the consumers of a subscriber do. -/
theorem roster_act {s : Nat} {x : Subscriber Actor} (action : Subscriber.Action Actor)
    (there : r.subscribers[s]? = some x) :
    Move (r.notice (.consumer s action)) r.roster (r.setSubscriber s (x.act action)).roster := by
  cases action with
  | terminate =>
    have inside := (List.getElem?_eq_some_iff.mp there).1
    have after : (r.setSubscriber s (x.act .terminate)).roster =
        { r.roster with isTerminated := Function.update r.isTerminated s true } := by
      have identity : (r.setSubscriber s (x.act .terminate)).identity = r.identity :=
        identity_setSubscriber there rfl
      unfold roster
      rw [identity, isTerminated_setSubscriber inside]
      congr 1
      exact List.length_set
    rw [after]
    exact .terminate inside
  | _ => exact move_same (roster_setSubscriber there ⟨rfl, rfl⟩)

/-- There is one more subscriber, which is not terminated. -/
theorem roster_addSubscriber {x : Subscriber Actor} (live : x.active) :
    Move none r.roster ({ r with subscribers := r.subscribers ++ [x] } : Relay).roster := by
  have identity : ({ r with subscribers := r.subscribers ++ [x] } : Relay).identity =
      Function.update r.identity r.subscribers.length (some x.identity) := by
    funext s
    simp only [Relay.identity, getElem?_snoc, Function.update_apply]
    split <;> rfl
  have mark : ({ r with subscribers := r.subscribers ++ [x] } : Relay).isTerminated =
      Function.update r.isTerminated r.subscribers.length false := by
    funext s
    simp only [isTerminated, getElem?_snoc, Function.update_apply]
    by_cases new : s = r.subscribers.length
    · simp [new, Subscriber.isTerminated, live]
    · simp [new]
  have after : ({ r with subscribers := r.subscribers ++ [x] } : Relay).roster =
      { r.roster with
        subscribers := r.subscribers.length + 1
        identity := Function.update r.identity r.subscribers.length (some x.identity)
        isTerminated := Function.update r.isTerminated r.subscribers.length false } := by
    unfold roster
    rw [identity, mark]
    congr 1
    exact List.length_append
  rw [after]
  exact .arrive x.identity

/-- **Every step of a publisher makes a move at its roster.** -/
theorem roster_step {l : Label} (sound : r.control.Sound) (admitted : Admitted l)
    (last : r.step l = some r') : Move (r.notice l) r.roster r'.roster := by
  cases l with
  | begin kind =>
    simp only [step] at last
    split at last
    · next accepted =>
      obtain rfl := Option.some.inj last
      exact roster_begin accepted
    · simp at last
  | call n => exact roster_callStep last
  | reader run => exact roster_readerStep last
  | thread run =>
    obtain ⟨t, step, rfl⟩ := Option.map_eq_some_iff.mp last
    apply move_same
    unfold roster
    congr 1
    funext a
    cases a with
    | call n => rfl
    | reader other =>
      refine Task.bind_target?_advanceThread sound.coherent step ?_ other
      intro reader fresh
      simp [fresh, Reading.errand]
  | consumer s action =>
    simp only [step, Option.bind_eq_bind, Option.bind_eq_some_iff, Option.some.injEq] at last
    obtain ⟨x, there, rfl⟩ := last
    exact roster_act action there
  | writer source action =>
    simp only [step, Option.bind_eq_bind, Option.bind_eq_some_iff, Option.some.injEq] at last
    obtain ⟨s, -, rfl⟩ := last
    exact move_same rfl
  | addSubscriber s =>
    obtain rfl := Option.some.inj last
    have new : s = .ofName s.name s.suffix s.queue.capacity := admitted
    exact roster_addSubscriber (new ▸ rfl)
  | addSource s =>
    obtain rfl := Option.some.inj last
    exact move_same rfl

end Steps

end Relay

end PacketRelay
