import PacketRelay.Proofs.Relay.Keeper
import PacketRelay.Proofs.Relay.Observation

/-!
# What a step does to the registry and the queues

The registry, its lock and the queues of the subscribers are one part of a publisher, and the threads
that act on it are told by what they are doing there: handing out a packet, putting one into a single
queue, adding a subscriber or removing one. All that a step of the publisher can do to this part is
listed here once, together with what the step shows.

## Main definitions

* `Doing`: what a thread does at the registry or at a queue
* `Desk`: the registry and the queues, with what each thread does there
* `Desk.Move`: what a step can do to it, and what that shows

## Main results

* `Relay.desk_step`: every step makes a move
-/

namespace PacketRelay

/-- What a thread does at the registry or at a queue. -/
inductive Doing
  -- It holds the registry and hands out a packet.
  | publishing (f : Fanout)
  -- It puts a packet into the queue of a single subscriber.
  | enqueueing (subscriber : Nat) (e : Enqueue)
  -- It holds the registry and is about to add a subscriber.
  | adding (subscriber : Nat)
  -- It holds the registry and has removed a subscriber.
  | removing (subscriber : Nat)

/-- Does a thread hold the registry? -/
def Doing.holds : Doing → Bool
  | .enqueueing .. => false
  | _ => true

/-- Does a thread that publishes hold the registry? -/
def Fanout.isInside : Fanout → Bool
  | .checkStop _ | .checkStarted _ | .acquire _ | .finished _ => false
  | _ => true

/-- Has a thread that publishes served all it serves, with the registry still to be given back? -/
def Fanout.isClosing : Fanout → Bool
  | .countDiscarded | .countPublished .. | .countBytes .. | .countKeyframe _ | .release _ => true
  | _ => false

/-- What a thread does that publishes. -/
def Fanout.doing (f : Fanout) : Option Doing :=
  if f.isInside then some (.publishing f) else none

/-- What a call does. -/
def CallStage.doing : CallStage → Option Doing
  | .publish f => f.doing
  | .enqueue n e => some (.enqueueing n e)
  | .subscribe n (.sweep _) => some (.adding n)
  | .unsubscribe n (.sweep ..) => some (.removing n)
  | _ => none

/-- What a read loop does. -/
def Reading.doing : Reading → Option Doing
  | .publish f => f.doing
  | _ => none

/-- The registry and the queues, with what each thread does there. -/
structure Desk where
  /-- The registered subscribers -/
  registry : List Nat
  /-- The thread that holds the registry -/
  holder : Option Actor
  /-- All subscribers -/
  subscribers : List (Subscriber Actor)
  /-- What each thread does -/
  doing : Actor → Option Doing

namespace Desk

open Relay (Event observeEnqueue)

/-- One thread goes on to do something else. -/
def setDoing (d : Desk) (a : Actor) (x : Option Doing) : Desk :=
  { d with doing := Function.update d.doing a x }

/-- What an action of a consumer shows. -/
def observeAction (n : Nat) (s : Subscriber Actor) : Subscriber.Action Actor → Option Event
  | .dequeue _ => s.queue.items.head?.map (.dequeued n)
  | _ => none

/-- Only terminated subscribers are missing. -/
def Swept (d : Desk) (registry : List Nat) : Prop :=
  ∀ n ∈ d.registry, n ∉ registry → ∀ s, d.subscribers[n]? = some s → s.active = false

/-- Who makes a move. -/
inductive Mover
  | thread (a : Actor)
  | consumer (subscriber : Nat) (action : Subscriber.Action Actor)
  | outside

/-- What a step of a publisher can do to its desk, and what it shows. -/
inductive Move : Mover → Option Event → Desk → Desk → Prop
  | stay {w : Mover} {d : Desk} : Move w none d d
  | read {d : Desk} {run : Nat} (video audio : Option Nat) (u : MediaUnit) :
      Move (.thread (.reader run)) (some (.read run video audio u)) d d
  -- A thread that hands out a packet
  | take {d : Desk} {a : Actor} (p : Packet) (off : d.doing a = none) (free : d.holder = none) :
      Move (.thread a) (some (.took a p)) d
        { d.setDoing a (some (.publishing (.sweep p 0))) with holder := some a }
  | sweep {d : Desk} {a : Actor} {p : Packet} {entry : Nat} {registry : List Nat} (next : Nat)
      (at_ : d.doing a = some (.publishing (.sweep p entry)))
      (fewer : registry.Sublist d.registry) (swept : d.Swept registry) :
      Move (.thread a) none d { d.setDoing a (some (.publishing (.sweep p next))) with
        registry := registry }
  | swept {d : Desk} {a : Actor} {p : Packet} {entry : Nat}
      (at_ : d.doing a = some (.publishing (.sweep p entry))) :
      Move (.thread a) (some (.swept a d.registry)) d
        (d.setDoing a (some (.publishing (.afterSweep p d.registry.length))))
  | ask {d : Desk} {a : Actor} {p : Packet} {entry reached : Nat} (stop : Bool)
      (at_ : d.doing a = some (.publishing (.choose p entry reached))) :
      Move (.thread a) (some (.asked a stop)) d
        (d.setDoing a (some (.publishing (.afterChoice p d.registry.length entry reached stop))))
  | serve {d : Desk} {a : Actor} {p : Packet} {entry reached n : Nat} {e e' : Enqueue}
      {s s' : Subscriber Actor} (at_ : d.doing a = some (.publishing (.serve p entry reached e)))
      (entered : d.registry[entry]? = some n) (there : d.subscribers[n]? = some s)
      (last : e.step a s = some (s', e')) :
      Move (.thread a) (observeEnqueue a n s e) d
        { d.setDoing a (some (.publishing (.serve p entry reached e'))) with
          subscribers := d.subscribers.set n s' }
  | served {d : Desk} {a : Actor} {p : Packet} {entry reached : Nat}
      (at_ : d.doing a = some (.publishing (.serve p entry reached .finished))) :
      Move (.thread a) none d
        (d.setDoing a (some (.publishing (.afterServe p d.registry.length entry reached))))
  | close {d : Desk} {a : Actor} {f f' : Fanout} (at_ : d.doing a = some (.publishing f))
      (before : f.isClosing) (after : f'.isClosing) :
      Move (.thread a) none d (d.setDoing a (some (.publishing f')))
  | release {d : Desk} {a : Actor} {reached : Nat}
      (at_ : d.doing a = some (.publishing (.release reached))) :
      Move (.thread a) (some (.released a)) d { d.setDoing a none with holder := none }
  -- A thread that puts a packet into a single queue
  | enqueue {d : Desk} {a : Actor} (n : Nat) (p : Packet) (off : d.doing a = none) :
      Move (.thread a) none d (d.setDoing a (some (.enqueueing n (.check p))))
  | push {d : Desk} {a : Actor} {n : Nat} {e e' : Enqueue} {s s' : Subscriber Actor}
      (at_ : d.doing a = some (.enqueueing n e)) (there : d.subscribers[n]? = some s)
      (last : e.step a s = some (s', e')) :
      Move (.thread a) none d { d.setDoing a (some (.enqueueing n e')) with
        subscribers := d.subscribers.set n s' }
  | pushed {d : Desk} {a : Actor} {n : Nat} (at_ : d.doing a = some (.enqueueing n .finished)) :
      Move (.thread a) none d (d.setDoing a none)
  -- A call that adds or removes a subscriber
  | takeToAdd {d : Desk} {a : Actor} (n : Nat) (off : d.doing a = none) (free : d.holder = none) :
      Move (.thread a) none d { d.setDoing a (some (.adding n)) with holder := some a }
  | takeToRemove {d : Desk} {a : Actor} {n : Nat} {registry : List Nat} (off : d.doing a = none)
      (free : d.holder = none) (fewer : registry.Sublist d.registry) (gone : n ∉ registry) :
      Move (.thread a) none d { d.setDoing a (some (.removing n)) with
        registry := registry
        holder := some a }
  | tidy {d : Desk} {a : Actor} {n : Nat} {registry : List Nat}
      (at_ : d.doing a = some (.adding n) ∨ d.doing a = some (.removing n))
      (fewer : registry.Sublist d.registry) (swept : d.Swept registry) :
      Move (.thread a) none d { d with registry := registry }
  | add {d : Desk} {a : Actor} {n : Nat} (at_ : d.doing a = some (.adding n))
      (fresh : n ∉ d.registry) :
      Move (.thread a) (some (.subscribed n)) d
        { d.setDoing a none with registry := d.registry ++ [n], holder := none }
  | pass {d : Desk} {a : Actor} {n : Nat} (at_ : d.doing a = some (.adding n)) :
      Move (.thread a) none d { d.setDoing a none with holder := none }
  | remove {d : Desk} {a : Actor} {n : Nat} (at_ : d.doing a = some (.removing n)) :
      Move (.thread a) (some (.unsubscribed n)) d { d.setDoing a none with holder := none }
  -- Consumers, and new subscribers
  | consume {d : Desk} {n : Nat} {s : Subscriber Actor} (action : Subscriber.Action Actor)
      (there : d.subscribers[n]? = some s) :
      Move (.consumer n action) (observeAction n s action) d
        { d with subscribers := d.subscribers.set n (s.act action) }
  | arrive {d : Desk} (name suffix : String) (capacity : Nat) :
      Move .outside none d { d with subscribers := d.subscribers ++ [.ofName name suffix capacity] }

end Desk

namespace Relay

/-- What each thread of a publisher does at the registry or at a queue. -/
def doing (r : Relay) : Actor → Option Doing
  | .call n => r.calls[n]?.bind CallStage.doing
  | .reader run => (r.task.target? run).bind fun reader => reader.at_.doing

/-- The registry and the queues of a publisher. -/
def desk (r : Relay) : Desk where
  registry := r.registry
  holder := r.registryHolder
  subscribers := r.subscribers
  doing := r.doing

/-- Who makes a step. -/
def mover (r : Relay) : Label → Desk.Mover
  | .begin _ => .thread (.call r.calls.length)
  | .call n => .thread (.call n)
  | .reader run => .thread (.reader run)
  | .consumer subscriber action => .consumer subscriber action
  | .thread _ | .writer .. | .addSubscriber _ | .addSource _ => .outside

/-- New subscribers are admitted with nothing in their queues. -/
def Admitted : Label → Prop
  | .addSubscriber s => s = .ofName s.name s.suffix s.queue.capacity
  | _ => True

instance : DecidablePred Admitted
  | .addSubscriber s => inferInstanceAs (Decidable (s = .ofName s.name s.suffix s.queue.capacity))
  | .begin _ | .call _ | .reader _ | .thread _ | .consumer .. | .writer .. | .addSource _ =>
    inferInstanceAs (Decidable True)

section Frames

variable {r r' : Relay} {n run : Nat} {a : Actor}

theorem setDoing_of_eq {d : Desk} {x : Option Doing} (same : d.doing a = x) : d.setDoing a x = d := by
  subst same
  simp [Desk.setDoing]

theorem desk_setCall {stage : CallStage} (there : n < r.calls.length) :
    (r.setCall n stage).desk = r.desk.setDoing (.call n) stage.doing := by
  unfold desk setCall Desk.setDoing
  congr 1
  funext a
  cases a with
  | reader run => rfl
  | call m =>
    by_cases same : m = n
    · subst same
      simp [doing, there]
    · rw [Function.update_of_ne (by simpa using same)]
      simp [doing, List.getElem?_set_ne (Ne.symm same)]

/-- A call that does at the desk what it did before may go anywhere. -/
theorem desk_setCall_of_doing_eq {stage stage' : CallStage} (at_ : r.calls[n]? = some stage)
    (same : stage.doing = stage'.doing) (frame : r.desk = r'.desk) :
    (r.setCall n stage').desk = r'.desk := by
  rw [desk_setCall (List.getElem?_eq_some_iff.mp at_).1, ← same, ← frame]
  exact setDoing_of_eq (by simp [desk, doing, at_])

/-- The same for a call that has removed entries of the registry. -/
theorem desk_setCall_tidy {stage stage' : CallStage} {registry : List Nat}
    (at_ : r.calls[n]? = some stage) (same : stage.doing = stage'.doing) :
    (({ r with registry := registry } : Relay).setCall n stage').desk =
      { r.desk with registry := registry } := by
  let u : Relay := { r with registry := registry }
  have there : u.calls[n]? = some stage := at_
  show (u.setCall n stage').desk = u.desk
  exact desk_setCall_of_doing_eq there same rfl

theorem desk_task {t : Task Reader} (targets : ∀ run, t.target? run = r.task.target? run) :
    ({ r with task := t } : Relay).desk = r.desk := by
  unfold desk
  congr 1
  funext a
  cases a with
  | call n => rfl
  | reader run => simp [doing, targets]

theorem desk_goOn {reader reader' : Reader} {at_ : Reading}
    (executing : r.task.target? run = some reader) :
    (r.goOn run reader' at_).desk = r.desk.setDoing (.reader run) at_.doing := by
  unfold desk goOn Desk.setDoing
  congr 1
  funext a
  have stages := Task.stage?_modify_stage (some (.executing { reader' with at_ := at_ })) executing
  cases a with
  | call n => rfl
  | reader other =>
    simp only [doing, Task.setTarget, Task.target?_eq_bind, stages]
    by_cases same : other = run
    · subst same
      simp [Task.Stage.target?]
    · rw [Function.update_of_ne (by simpa using same), if_neg (Ne.symm same)]
      show _ = (r.task.target? other).bind _
      rw [Task.target?_eq_bind]

/-- A loop that does nothing at the desk may be left. -/
theorem desk_leave {reader : Reader} (executing : r.task.target? run = some reader)
    (off : reader.at_.doing = none) (frame : r.desk = r'.desk) : (r.leave run).desk = r'.desk := by
  rw [← frame]
  have stages := Task.stage?_modify_stage (some .returned) executing
  unfold desk leave
  congr 1
  funext a
  cases a with
  | call n => rfl
  | reader other =>
    simp only [doing, Task.leave, Task.target?_eq_bind, stages]
    split
    · next here =>
      rw [← here, Task.target?_eq_some_iff_stage?.mp executing]
      simp [Task.Stage.target?, off]
    · rfl

theorem sublist_of_sweep {entry next : Nat} (last : r.sweep entry = some (r', next)) :
    r'.registry.Sublist r.registry := by
  unfold sweep at last
  split at last
  · simp at last
  · split at last <;> obtain ⟨rfl, -⟩ := Prod.mk.inj (Option.some.inj last)
    · exact List.eraseIdx_sublist _ _
    · exact List.Sublist.refl _

theorem swept_of_sweep {entry next : Nat} (last : r.sweep entry = some (r', next)) :
    r.desk.Swept r'.registry := by
  intro m inside missing x there
  unfold sweep at last
  split at last
  · simp at last
  · next s found =>
    split at last <;> obtain ⟨rfl, -⟩ := Prod.mk.inj (Option.some.inj last)
    · next terminated =>
      -- Only the entry that was looked at is missing.
      obtain ⟨i, at_⟩ := List.mem_iff_getElem?.mp inside
      obtain rfl : i = entry := by
        by_contra other
        exact missing (List.mem_eraseIdx_iff_getElem?.mpr ⟨i, other, at_⟩)
      obtain rfl : m = s := Option.some.inj (at_.symm.trans found)
      have at_m : r.subscribers[m]? = some x := there
      simpa [isTerminated, at_m, Subscriber.isTerminated] using terminated
    · exact absurd inside missing

theorem sweep_eq_none_iff {entry : Nat} : r.sweep entry = none ↔ r.registry.length ≤ entry := by
  unfold sweep
  split
  · next beyond => simpa using beyond
  · next s found =>
    have inside := (List.getElem?_eq_some_iff.mp found).1
    split <;> simp [inside]

theorem not_le_of_sweep {entry : Nat} {x : Relay × Nat} (swept : r.sweep entry = some x) :
    ¬ r.registry.length ≤ entry := by
  intro past
  simp [sweep_eq_none_iff.mpr past] at swept

end Frames

section Steps

open Desk (Move)

variable {r r' : Relay} {a : Actor} {n run : Nat}

theorem move_stay {w : Desk.Mover} {d d' : Desk} (same : d' = d) : Move w none d d' :=
  same ▸ .stay

/-- What a thread does that publishes. -/
theorem move_fanout {f f' : Fanout} (at_ : r.desk.doing a = f.doing)
    (last : f.step a r = some (r', f')) :
    Move (.thread a) (observeFanout a r f) r.desk (r'.desk.setDoing a f'.doing) := by
  have inside : f.isInside → r.desk.doing a = some (.publishing f) := fun here => by
    rw [at_, Fanout.doing, if_pos here]
  cases f with
  | checkStop p | checkStarted p =>
    obtain ⟨rfl, rfl⟩ := Prod.mk.inj (Option.some.inj last)
    refine move_stay (setDoing_of_eq (at_.trans ?_))
    split <;> rfl
  | acquire p =>
    obtain ⟨free, rfl, rfl⟩ := step_acquire last
    exact .take p at_ free
  | sweep p entry =>
    rcases step_sweep last with ⟨next, swept, rfl⟩ | ⟨past, rfl, rfl⟩
    · rw [observeFanout, if_neg (not_le_of_sweep swept), sweep_frame swept]
      exact .sweep next (inside rfl) (sublist_of_sweep swept) (swept_of_sweep swept)
    · rw [observeFanout, if_pos (sweep_eq_none_iff.mp past)]
      have next : (Fanout.afterSweep p r'.registry.length).doing =
          some (.publishing (.afterSweep p r'.registry.length)) := by
        unfold Fanout.afterSweep
        split <;> rfl
      rw [next]
      exact .swept (inside rfl)
  | choose p entry reached =>
    obtain ⟨rfl, rfl⟩ := Prod.mk.inj (Option.some.inj last)
    have next : (Fanout.afterChoice p r.registry.length entry reached r.stopRequested).doing =
        some (.publishing
          (.afterChoice p r.registry.length entry reached r.stopRequested)) := by
      unfold Fanout.afterChoice Fanout.close
      dsimp only
      repeat' split
      all_goals rfl
    rw [next]
    exact .ask r.stopRequested (inside rfl)
  | serve p entry reached e =>
    rcases step_serve last with ⟨rfl, rfl, rfl⟩ | ⟨n, s, s', e', entered, there, step, rfl, rfl⟩
    · have next : (Fanout.afterServe p r'.registry.length entry reached).doing =
          some (.publishing (.afterServe p r'.registry.length entry reached)) := by
        unfold Fanout.afterServe Fanout.close
        repeat' split
        all_goals rfl
      have quiet : observeFanout a r' (.serve p entry reached .finished) = none := by
        simp [observeFanout, observeEnqueue, Enqueue.appended]
      rw [next, quiet]
      exact .served (inside rfl)
    · have shown : observeFanout a r (.serve p entry reached e) = observeEnqueue a n s e := by
        simp [observeFanout, entered, there]
      rw [shown]
      exact .serve (inside rfl) entered there step
  | countDiscarded | countPublished p reached | countKeyframe reached =>
    obtain ⟨rfl, rfl⟩ := Prod.mk.inj (Option.some.inj last)
    exact .close (inside rfl) rfl rfl
  | countBytes p reached =>
    obtain ⟨rfl, rfl⟩ := Prod.mk.inj (Option.some.inj last)
    split <;> exact .close (inside rfl) rfl rfl
  | release reached =>
    obtain ⟨rfl, rfl⟩ := Prod.mk.inj (Option.some.inj last)
    exact .release (inside rfl)
  | finished reached => simp [Fanout.step] at last

theorem doing_call {stage : CallStage} (here : r.calls[n]? = some stage) :
    r.desk.doing (.call n) = stage.doing := by
  simp [desk, doing, here]

/-- A call that goes on makes the move that it makes as a thread. -/
theorem move_setCall_desk {w : Desk.Mover} {stage : CallStage} {e : Option Event} {d : Desk}
    (there : n < r'.calls.length) (move : Move w e d (r'.desk.setDoing (.call n) stage.doing)) :
    Move w e d (r'.setCall n stage).desk := by
  rw [desk_setCall there]
  exact move

/-- What a call does that adds a subscriber. -/
theorem move_subscribeStep {s : Nat} {at_ : Subscribing}
    (here : r.calls[n]? = some (.subscribe s at_)) (last : r.subscribeStep n s at_ = some r') :
    Move (.thread (.call n)) (r.observeCall n (.subscribe s at_)) r.desk r'.desk := by
  have there := (List.getElem?_eq_some_iff.mp here).1
  have doing := doing_call here
  cases at_ with
  | checkStop =>
    obtain rfl := Option.some.inj last
    split <;> exact move_stay (desk_setCall_of_doing_eq here rfl rfl)
  | acquire =>
    obtain ⟨free, rfl⟩ := subscribeStep_acquire last
    exact move_setCall_desk there (.takeToAdd s doing free)
  | sweep entry =>
    rcases subscribeStep_sweep last with ⟨t, next, swept, rfl⟩ | ⟨past, rfl⟩
    · have unfinished := not_le_of_sweep swept
      have frame := sweep_frame swept
      have quiet : r.observeCall n (.subscribe s (.sweep entry)) = none := by
        simp [observeCall, unfinished]
      rw [quiet, frame]
      have tidied : (({ r with registry := t.registry } : Relay).setCall n
          (.subscribe s (.sweep next))).desk = { r.desk with registry := t.registry } :=
        desk_setCall_tidy here rfl
      rw [tidied]
      exact .tidy (.inl doing) (sublist_of_sweep swept) (swept_of_sweep swept)
    · have finished := sweep_eq_none_iff.mp past
      unfold register
      split
      · next known =>
        have quiet : r.observeCall n (.subscribe s (.sweep entry)) = none := by
          simp [observeCall, known]
        rw [quiet]
        exact move_setCall_desk there (.pass doing)
      · next unknown =>
        have shown : r.observeCall n (.subscribe s (.sweep entry)) = some (.subscribed s) := by
          simp [observeCall, unknown, finished]
        rw [shown]
        refine move_setCall_desk there (.add doing fun inside => unknown ?_)
        exact List.any_eq_true.mpr ⟨s, inside, by simp⟩

/-- What a call does that removes a subscriber. -/
theorem move_unsubscribeStep {s : Nat} {at_ : Unsubscribing}
    (here : r.calls[n]? = some (.unsubscribe s at_))
    (last : r.unsubscribeStep n s at_ = some r') :
    Move (.thread (.call n)) (r.observeCall n (.unsubscribe s at_)) r.desk r'.desk := by
  have there := (List.getElem?_eq_some_iff.mp here).1
  have doing := doing_call here
  cases at_ with
  | acquire =>
    obtain ⟨free, rfl⟩ := unsubscribeStep_acquire last
    refine move_setCall_desk there
      (.takeToRemove doing free List.filter_sublist ?_)
    intro inside
    simpa using (List.mem_filter.mp inside).2
  | sweep entry removed =>
    rcases unsubscribeStep_sweep last with ⟨t, next, swept, rfl⟩ | ⟨past, rfl⟩
    · have unfinished := not_le_of_sweep swept
      have quiet : r.observeCall n (.unsubscribe s (.sweep entry removed)) = none := by
        simp [observeCall, unfinished]
      rw [quiet, sweep_frame swept]
      have tidied : (({ r with registry := t.registry } : Relay).setCall n
          (.unsubscribe s (.sweep next removed))).desk = { r.desk with registry := t.registry } :=
        desk_setCall_tidy here rfl
      rw [tidied]
      exact .tidy (.inr doing) (sublist_of_sweep swept) (swept_of_sweep swept)
    · have finished := sweep_eq_none_iff.mp past
      have shown : r.observeCall n (.unsubscribe s (.sweep entry removed)) =
          some (.unsubscribed s) := by
        simp [observeCall, finished]
      rw [shown]
      exact move_setCall_desk there (.remove doing)

/-- What a call does that puts a packet into a single queue. -/
theorem move_enqueueStep {s : Nat} {e : Enqueue} (here : r.calls[n]? = some (.enqueue s e))
    (last : r.enqueueStep n s e = some r') : Move (.thread (.call n)) none r.desk r'.desk := by
  have there := (List.getElem?_eq_some_iff.mp here).1
  have doing := doing_call here
  rcases enqueueStep_cases last with ⟨rfl, rfl⟩ | ⟨x, x', e', found, step, rfl⟩
  · exact move_setCall_desk there (.pushed doing)
  · exact move_setCall_desk there (.push doing found step)

/-- A call that acts on the run does nothing at the desk. -/
theorem desk_taskStep {atEnd : Relay} (ended : atEnd.desk = r.desk)
    (last : r.taskStep atEnd = some r') : r'.desk = r.desk := by
  rcases taskStep_cases last with ⟨-, rfl⟩ | ⟨t, step, rfl⟩
  · exact ended
  · exact desk_task (Task.target?_run_advance step)

theorem calls_cancelShared : r.cancelShared.calls = r.calls := by
  unfold cancelShared
  split <;> rfl

theorem desk_cancelShared : r.cancelShared.desk = r.desk := by
  unfold cancelShared
  split
  · exact desk_task fun run => by simp [Task.target?_eq_bind]
  · rfl

theorem desk_startStep {source : Nat} {uri : String} {at_ : Starting}
    (here : r.calls[n]? = some (.start source uri at_))
    (last : r.startStep n source uri at_ = some r') : r'.desk = r.desk := by
  cases at_ with
  | lock =>
    obtain ⟨-, rfl⟩ := startStep_lock last
    exact desk_setCall_of_doing_eq here rfl rfl
  | reserve =>
    obtain rfl := Option.some.inj last
    split <;> exact desk_setCall_of_doing_eq here rfl rfl
  | joining | launching =>
    refine desk_taskStep ?_ last
    exact desk_setCall_of_doing_eq here rfl rfl
  | openSource =>
    obtain ⟨s, -, -, ⟨s', -, rfl⟩ | ⟨e, -, rfl⟩⟩ := startStep_openSource last
    · exact desk_setCall_of_doing_eq here rfl rfl
    · exact desk_setCall_of_doing_eq here rfl rfl
  | _ =>
    obtain rfl := Option.some.inj last
    exact desk_setCall_of_doing_eq here rfl rfl

theorem desk_joinStep {at_ : Joining} (here : r.calls[n]? = some (.join at_))
    (last : r.joinStep n at_ = some r') : r'.desk = r.desk := by
  cases at_ with
  | lock =>
    obtain ⟨-, rfl⟩ := joinStep_lock last
    exact desk_setCall_of_doing_eq here rfl rfl
  | joining =>
    refine desk_taskStep ?_ last
    exact desk_setCall_of_doing_eq here rfl rfl

theorem desk_dropStep {at_ : Dropping} (here : r.calls[n]? = some (.drop at_))
    (last : r.dropStep n at_ = some r') : r'.desk = r.desk := by
  rcases at_ with (_ | _) | _
  · obtain rfl := Option.some.inj last
    exact desk_setCall_of_doing_eq here rfl rfl
  · obtain rfl := Option.some.inj last
    rw [← calls_cancelShared] at here
    refine Eq.trans ?_ desk_cancelShared
    exact desk_setCall_of_doing_eq here rfl rfl
  · refine desk_taskStep ?_ last
    exact desk_setCall_of_doing_eq here rfl rfl

theorem desk_describeStep {at_ : Describing} (here : r.calls[n]? = some (.describe at_))
    (last : r.describeStep n at_ = some r') : r'.desk = r.desk := by
  cases at_ with
  | countEntries uri started stop =>
    obtain ⟨-, rfl⟩ := describeStep_countEntries last
    exact desk_setCall_of_doing_eq here rfl rfl
  | _ =>
    obtain rfl := Option.some.inj last
    exact desk_setCall_of_doing_eq here rfl rfl

/-- What a call does. -/
theorem move_callStep (last : r.callStep n = some r') :
    Move (.thread (.call n)) (r.observe (.call n)) r.desk r'.desk := by
  obtain ⟨stage, here⟩ := exists_stage_of_callStep last
  have there := (List.getElem?_eq_some_iff.mp here).1
  have whole := last
  simp only [callStep, here, Option.bind_eq_bind, Option.bind_some] at last
  have shown : r.observe (.call n) = r.observeCall n stage := by simp [observe, here]
  rw [shown]
  cases stage with
  | publish f =>
    rcases callStep_publish here whole with ⟨reached, rfl, rfl⟩ | ⟨s, f', step, rfl⟩
    · exact move_stay (desk_setCall_of_doing_eq here rfl rfl)
    · refine move_setCall_desk ?_ (move_fanout (doing_call here) step)
      rw [Fanout.step_frame step]
      exact there
  | enqueue subscriber e => exact move_enqueueStep here last
  | subscribe subscriber at_ => exact move_subscribeStep here last
  | unsubscribe subscriber at_ => exact move_unsubscribeStep here last
  | start source uri at_ => exact move_stay (desk_startStep here last)
  | stop at_ =>
    cases at_ with
    | raiseStop =>
      obtain rfl := Option.some.inj last
      exact move_stay (desk_setCall_of_doing_eq here rfl rfl)
    | cancel =>
      obtain rfl := Option.some.inj last
      rw [← calls_cancelShared] at here
      refine move_stay (Eq.trans ?_ desk_cancelShared)
      exact desk_setCall_of_doing_eq here rfl rfl
  | join at_ => exact move_stay (desk_joinStep here last)
  | describe at_ => exact move_stay (desk_describeStep here last)
  | drop at_ => exact move_stay (desk_dropStep here last)
  | returned reply => simp at last

section Readers

variable {reader : Reader}

theorem doing_reader (executing : r.task.target? run = some reader) :
    r.desk.doing (.reader run) = reader.at_.doing := by
  simp [desk, doing, executing]

/-- A loop that does nothing at the desk may go on to anything else that does nothing there. -/
theorem desk_goOn_of_off {reader' : Reader} {at_ : Reading}
    (executing : r.task.target? run = some reader) (off : reader.at_.doing = none)
    (next : at_.doing = none) (frame : r.desk = r'.desk) :
    (r.goOn run reader' at_).desk = r'.desk := by
  rw [desk_goOn executing, next, ← frame]
  exact setDoing_of_eq ((doing_reader executing).trans off)

/-- A loop that reads from its source does nothing at the desk. -/
theorem desk_readUnit (executing : r.task.target? run = some reader)
    (off : reader.at_.doing = none) (last : r.readUnit run reader = some r') :
    r'.desk = r.desk := by
  obtain ⟨s, -, ⟨outcome, -, rfl⟩ | ⟨-, rfl⟩⟩ := readUnit_cases last
  · have next : (afterRead outcome).doing = none := by cases outcome <;> rfl
    exact desk_goOn_of_off executing off next rfl
  · exact desk_leave executing off rfl

/-- What the read loop of a run does. -/
theorem move_readerStep_desk (last : r.readerStep run = some r') :
    Move (.thread (.reader run)) (r.observe (.reader run)) r.desk r'.desk := by
  obtain ⟨reader, executing⟩ := exists_target_of_readerStep last
  have whole := last
  simp only [readerStep, executing, Option.bind_eq_bind, Option.bind_some] at last
  have shown : r.observe (.reader run) = r.observeReading run reader := by
    simp [observe, executing]
  rw [shown]
  obtain ⟨source, videoIndex, audioIndex, at_⟩ := reader
  cases at_ with
  | read =>
    rw [desk_readUnit executing rfl last]
    obtain ⟨x, there, -⟩ := readUnit_cases last
    simp only [observeReading, there, Option.bind_eq_bind, Option.bind_some]
    split
    · exact .read _ _ _
    · exact .stay
  | publish f =>
    rcases readerStep_publish executing rfl whole with ⟨reached, rfl, rfl⟩ | ⟨s, f', step, rfl⟩
    · exact move_stay (desk_goOn_of_off executing rfl rfl rfl)
    · have still : s.task = r.task := by rw [Fanout.step_frame step]
      have there : s.task.target? run = some ⟨source, videoIndex, audioIndex, .publish f⟩ := by
        rw [still]
        exact executing
      rw [desk_goOn there]
      exact move_fanout (doing_reader executing) step
  | countRead u =>
    obtain rfl := Option.some.inj last
    refine move_stay (desk_goOn_of_off executing rfl ?_ rfl)
    unfold afterCount
    split <;> rfl
  | number u kind =>
    obtain rfl := Option.some.inj last
    refine move_stay (desk_goOn_of_off executing rfl ?_ rfl)
    unfold afterNumber
    split <;> rfl
  | pause =>
    rcases readerStep_pause executing rfl whole with ⟨delay, -, rfl⟩ | ⟨-, rfl⟩
    · exact move_stay (desk_goOn_of_off executing rfl rfl rfl)
    · exact move_stay (desk_leave executing rfl rfl)
  | checkToken | checkStop | paused =>
    obtain rfl := Option.some.inj last
    refine move_stay (desk_goOn_of_off executing rfl ?_ rfl)
    split <;> rfl
  | readVideo | readAudio =>
    obtain rfl := Option.some.inj last
    exact move_stay (desk_goOn_of_off executing rfl rfl rfl)
  | raiseStarted =>
    obtain rfl := Option.some.inj last
    exact move_stay (desk_goOn_of_off executing rfl rfl rfl)
  | lowerStarted =>
    obtain rfl := Option.some.inj last
    exact move_stay (desk_goOn_of_off executing rfl rfl rfl)
  | lowerRunning =>
    obtain rfl := Option.some.inj last
    exact move_stay (desk_leave executing rfl rfl)

end Readers

theorem desk_append {stage : CallStage} :
    ({ r with calls := r.calls ++ [stage] } : Relay).desk =
      r.desk.setDoing (.call r.calls.length) stage.doing := by
  unfold desk Desk.setDoing
  congr 1
  funext a
  cases a with
  | reader run => rfl
  | call m =>
    by_cases same : m = r.calls.length
    · subst same
      simp [doing]
    · rw [Function.update_of_ne (by simpa using same)]
      show (r.calls ++ [stage])[m]?.bind _ = r.calls[m]?.bind _
      rw [getElem?_snoc, if_neg same]

/-- A call begins. -/
theorem move_begin (call : RelayCall) :
    Move (.thread (.call r.calls.length)) none r.desk (r.begin call).desk := by
  have fresh : r.desk.doing (.call r.calls.length) = none := by simp [desk, doing]
  unfold begin
  cases call with
  | enqueue s p =>
    rw [desk_append]
    exact .enqueue s p fresh
  | _ =>
    rw [desk_append]
    exact move_stay (setDoing_of_eq fresh)

/-- **Every step of a publisher makes a move at its desk.** -/
theorem desk_step {l : Label} (sound : r.control.Sound) (admitted : Admitted l)
    (last : r.step l = some r') : Move (r.mover l) (r.observe l) r.desk r'.desk := by
  cases l with
  | begin call =>
    simp only [step] at last
    split at last
    · obtain rfl := Option.some.inj last
      exact move_begin call
    · simp at last
  | call n => exact move_callStep last
  | reader run => exact move_readerStep_desk last
  | thread run =>
    obtain ⟨t, step, rfl⟩ := Option.map_eq_some_iff.mp last
    apply move_stay
    unfold desk
    congr 1
    funext a
    cases a with
    | call n => rfl
    | reader other =>
      refine Task.bind_target?_advanceThread sound.coherent step ?_ other
      intro reader fresh
      simp [fresh, Reading.doing]
  | consumer n action =>
    simp only [step, Option.bind_eq_bind, Option.bind_eq_some_iff, Option.some.injEq] at last
    obtain ⟨s, there, rfl⟩ := last
    have shown : r.observe (.consumer n action) = Desk.observeAction n s action := by
      cases action <;> simp [observe, Desk.observeAction, there]
    rw [shown]
    exact .consume action there
  | writer source action =>
    simp only [step, Option.bind_eq_bind, Option.bind_eq_some_iff, Option.some.injEq] at last
    obtain ⟨s, -, rfl⟩ := last
    exact move_stay rfl
  | addSubscriber s =>
    obtain rfl := Option.some.inj last
    have new : s = .ofName s.name s.suffix s.queue.capacity := admitted
    rw [new]
    exact .arrive _ _ _
  | addSource s =>
    obtain rfl := Option.some.inj last
    exact move_stay rfl

end Steps

end Relay

end PacketRelay
