import PacketRelay.Proofs.Queue.Lone
import PacketRelay.Proofs.Relay.Aftermath

/-!
# Who is held up by a full queue

A thread that publishes holds the registry all along, also while it waits in front of a full queue. So
if packets get into the queues by such threads only, then one of them waits at most, over all queues
together, and nobody takes the room that it waits for. Whatever makes room in this queue lets it go on,
and what is done to the other queues does not help it.

## Main definitions

* `Desk.Single`: all who put packets into the queues publish, and in each queue one push waits at most
* `Relay.Exclusive`: the steps of a publisher whose queues get packets from nobody else
* `Relay.MakesRoom`: the accesses of consumers that make room in a queue

## Main results

* `Desk.Single.move`: every move keeps this
* `Relay.queue_step`: what a step does to a queue in which a push waits
* `Relay.one_waits_for_its_queue`: who waits, and what lets it go on
-/

namespace PacketRelay

open Schedule

section Subscribers

variable {a : Actor} {s s' : Subscriber Actor} {e e' : Enqueue}

theorem Subscriber.lone_act (lone : s.queue.Lone) (action : Subscriber.Action Actor) :
    (s.act action).queue.Lone := by
  cases action with
  | dequeue pick => exact lone.step (l := .pop pick) rfl (by simp)
  | terminate => exact lone
  | clear => exact lone.step (l := .clear) rfl (by simp)
  | stir t => exact lone.step (l := .stir t) rfl (by simp)

theorem Enqueue.lone_step (lone : s.queue.Lone) (last : e.step a s = some (s', e'))
    (idle : e ≠ .waiting → s.queue.waiting = []) : s'.queue.Lone := by
  cases e with
  | check p =>
    obtain ⟨rfl, rfl⟩ := Prod.mk.inj (Option.some.inj last)
    exact lone
  | push p =>
    obtain ⟨rfl, rfl⟩ := Prod.mk.inj (Option.some.inj last)
    have none := idle (by simp)
    exact lone.step (l := .push a p) (by simp [Queue.step, Queue.isWaiting, none]) fun _ _ _ => none
  | waiting =>
    obtain ⟨q, resumed, rfl, rfl⟩ := exists_resume_of_step last
    exact lone.step (l := .resume a) resumed (by simp)
  | finished => simp [step] at last

end Subscribers

namespace Desk

/-- Packets are put into the queues by threads only that publish. -/
def Publishes (d : Desk) : Prop :=
  ∀ a n e, d.doing a ≠ some (.enqueueing n e)

/-- Packets are put into the queues by threads only that publish, and in every queue one push waits at
most. -/
structure Single (d : Desk) : Prop where
  sound : d.Sound
  publishes : d.Publishes
  lone : ∀ (n : Nat) (s : Subscriber Actor), d.subscribers[n]? = some s → s.queue.Lone

variable {d d' : Desk} {a : Actor} {n m : Nat} {s t : Subscriber Actor}
  {w v : Waiter Actor Packet}

theorem Publishes.setDoing {x : Option Doing} (publishes : d.Publishes)
    (other : ∀ n e, x ≠ some (.enqueueing n e)) : (d.setDoing a x).Publishes := by
  intro b n e
  rw [doing_setDoing]
  split
  · exact other n e
  · exact publishes b n e

/-- The moves keep this, but for the beginning of a call that puts a packet into one queue. -/
theorem Publishes.move {who : Mover} {e : Option Relay.Event} (publishes : d.Publishes)
    (move : Move who e d d') : d'.Publishes ∨
      ∃ a m p, who = .thread a ∧ d'.doing a = some (.enqueueing m (.check p)) := by
  cases move with
  | @enqueue _ a m p off => exact .inr ⟨a, m, p, rfl, Relay.doing_setDoing_self⟩
  | push at_ there last => exact absurd at_ (publishes _ _ _)
  | stay | read | tidy | consume | arrive => exact .inl publishes
  | take | sweep | swept | ask | serve | served | close | release | pushed | takeToAdd | takeToRemove
  | add | pass | remove => exact .inl (publishes.setDoing (by simp))

/-- Who waits in a queue is serving it with its packet. -/
theorem Single.serves (single : d.Single) (there : d.subscribers[n]? = some s)
    (waits : w ∈ s.queue.waiting) : ∃ entry reached, d.registry[entry]? = some n ∧
      d.doing w.thread = some (.publishing (.serve w.item entry reached .waiting)) := by
  rcases single.sound.waits n s there w waits with enqueues | ⟨entry, reached, at_, entered⟩
  · exact absurd enqueues (single.publishes _ _ _)
  · exact ⟨entry, reached, entered, at_⟩

/-- A thread that has something to do with the registry while another one waits is that one. -/
theorem Single.eq_of_holds {x : Doing} (single : d.Single) (there : d.subscribers[n]? = some s)
    (waits : w ∈ s.queue.waiting) (at_ : d.doing a = some x) (holds : x.holds) : a = w.thread := by
  obtain ⟨entry, reached, -, serves⟩ := single.serves there waits
  exact single.sound.unique at_ holds serves rfl

/-- **One push waits at most, over all queues.** -/
theorem Single.alone (single : d.Single) (there : d.subscribers[n]? = some s)
    (waits : w ∈ s.queue.waiting) (there' : d.subscribers[m]? = some t)
    (waits' : v ∈ t.queue.waiting) : m = n := by
  obtain ⟨entry, reached, entered, serves⟩ := single.serves there waits
  obtain ⟨entry', reached', entered', serves'⟩ := single.serves there' waits'
  have same := single.sound.unique serves rfl serves' rfl
  rw [same, serves'] at serves
  simp only [Option.some.injEq, Doing.publishing.injEq, Fanout.serve.injEq] at serves
  rw [serves.2.1] at entered'
  exact Option.some.inj (entered'.symm.trans entered)

/-- A thread that serves a queue and does not wait finds nobody waiting there. -/
theorem Single.idle {p : Packet} {entry reached : Nat} {e : Enqueue} (single : d.Single)
    (at_ : d.doing a = some (.publishing (.serve p entry reached e))) (awake : e ≠ .waiting)
    (there : d.subscribers[n]? = some s) : s.queue.waiting = [] := by
  refine List.eq_nil_iff_forall_not_mem.mpr fun w waits => awake ?_
  obtain ⟨entry', reached', -, serves⟩ := single.serves there waits
  rw [← single.eq_of_holds there waits at_ rfl, at_] at serves
  simp only [Option.some.injEq, Doing.publishing.injEq, Fanout.serve.injEq] at serves
  exact serves.2.2.2

/-- **The moves keep this**, but for the beginning of a call that puts a packet into one queue. -/
theorem Single.move {who : Mover} {e : Option Relay.Event} (single : d.Single)
    (move : Move who e d d') (publishes : d'.Publishes) : d'.Single := by
  refine ⟨single.sound.move move, publishes, ?_⟩
  have changed {n : Nat} {s s' : Subscriber Actor} (there : d.subscribers[n]? = some s)
      (lone : s'.queue.Lone) (m : Nat) (t : Subscriber Actor)
      (found : (d.subscribers.set n s')[m]? = some t) : t.queue.Lone := by
    rcases List.mem_or_eq_of_mem_set (List.mem_of_getElem? found) with before | rfl
    · obtain ⟨k, at_⟩ := List.mem_iff_getElem?.mp before
      exact single.lone k t at_
    · exact lone
  cases move with
  | @serve _ a p entry reached n e e' s s' at_ entered there last =>
    refine changed there (Enqueue.lone_step (single.lone n s there) last fun awake => ?_)
    exact single.idle at_ awake there
  | push at_ there last => exact absurd at_ (single.publishes _ _ _)
  | @consume _ n s action there =>
    exact changed there (Subscriber.lone_act (single.lone n s there) action)
  | arrive name suffix capacity =>
    intro m t found
    rcases List.mem_append.mp (List.mem_of_getElem? found) with before | new
    · obtain ⟨k, at_⟩ := List.mem_iff_getElem?.mp before
      exact single.lone k t at_
    · obtain rfl := List.mem_singleton.mp new
      exact Queue.lone_ofCapacity capacity
  | _ => exact single.lone

/-- **What can be done to a queue in which a push waits**: its thread goes on with it, or a consumer
acts on the queue. -/
theorem Single.queue_move {who : Mover} {e : Option Relay.Event} (single : d.Single)
    (move : Move who e d d') (there : d.subscribers[n]? = some s) (waits : w ∈ s.queue.waiting) :
    ∃ s', d'.subscribers[n]? = some s' ∧ (s' = s ∨
      who = .thread w.thread ∧ s.queue.resume w.thread = some s'.queue ∨
      ∃ action, who = .consumer n action ∧ s' = s.act action) := by
  have inside := (List.getElem?_eq_some_iff.mp there).1
  cases move with
  | @serve _ a p entry reached m e e' x x' at_ entered found last =>
    obtain rfl := single.eq_of_holds there waits at_ rfl
    -- The thread is where it waits, so that it is this queue that it serves.
    obtain ⟨entry', reached', entered', serves⟩ := single.serves there waits
    rw [at_] at serves
    simp only [Option.some.injEq, Doing.publishing.injEq, Fanout.serve.injEq] at serves
    obtain ⟨-, rfl, -, rfl⟩ := serves
    obtain rfl : m = n := Option.some.inj (entered.symm.trans entered')
    obtain rfl : x = s := Option.some.inj (found.symm.trans there)
    obtain ⟨q, resumed, rfl, -⟩ := Enqueue.exists_resume_of_step last
    exact ⟨_, List.getElem?_set_self inside, .inr (.inl ⟨rfl, resumed⟩)⟩
  | push at_ found last => exact absurd at_ (single.publishes _ _ _)
  | @consume _ m x action found =>
    by_cases here : m = n
    · subst here
      obtain rfl : x = s := Option.some.inj (found.symm.trans there)
      exact ⟨_, List.getElem?_set_self inside, .inr (.inr ⟨action, rfl, rfl⟩)⟩
    · exact ⟨s, by rw [List.getElem?_set_ne here, there], .inl rfl⟩
  | arrive name suffix capacity =>
    exact ⟨s, by rw [List.getElem?_append_left inside, there], .inl rfl⟩
  | _ => exact ⟨s, there, .inl rfl⟩

end Desk

namespace Relay

/-- Nobody puts packets into the queues but threads that publish. New subscribers have nothing in
their queues. -/
def Exclusive : Label → Prop
  | .begin (.enqueue ..) => False
  | l => Admitted l

instance : DecidablePred Exclusive
  | .begin (.enqueue ..) => inferInstanceAs (Decidable False)
  | .addSubscriber s => inferInstanceAs (Decidable (Admitted (.addSubscriber s)))
  | .begin (.publish _) | .begin (.subscribe _) | .begin (.unsubscribe _) | .begin (.start ..)
  | .begin .stop | .begin .join | .begin .describe | .begin .drop | .call _ | .reader _ | .thread _
  | .consumer .. | .writer .. | .addSource _ => inferInstanceAs (Decidable True)

variable {r r' : Relay} {l : Label} {n : Nat} {s : Subscriber Actor} {w : Waiter Actor Packet}

theorem admitted_of_exclusive (exclusive : Exclusive l) : Admitted l := by
  cases l with
  | addSubscriber s => exact exclusive
  | _ => trivial

section Publishers

theorem Fanout.doing_ne (f : Fanout) (n : Nat) (e : Enqueue) : f.doing ≠ some (.enqueueing n e) := by
  unfold Fanout.doing
  split <;> simp

/-- A call that publishes, or acts on the registry, does not come to put a packet into one queue. -/
theorem doing_callStep (publishes : r.desk.Publishes) (last : r.callStep n = some r') (m : Nat)
    (e : Enqueue) : r'.desk.doing (.call n) ≠ some (.enqueueing m e) := by
  obtain ⟨stage, here⟩ := exists_stage_of_callStep last
  have there := (List.getElem?_eq_some_iff.mp here).1
  have whole := last
  have goes {t : Relay} {stage' : CallStage} (inside : n < t.calls.length)
      (other : stage'.doing ≠ some (.enqueueing m e)) :
      (t.setCall n stage').desk.doing (.call n) ≠ some (.enqueueing m e) := by
    rw [desk_setCall inside, doing_setDoing_self]
    exact other
  have stays (same : r'.desk = r.desk) : r'.desk.doing (.call n) ≠ some (.enqueueing m e) := by
    rw [same]
    exact publishes _ _ _
  simp only [callStep, here, Option.bind_eq_bind, Option.bind_some] at last
  cases stage with
  | publish f =>
    rcases callStep_publish here whole with ⟨reached, -, rfl⟩ | ⟨t, f', step, rfl⟩
    · exact goes there (by simp [CallStage.doing])
    · refine goes ?_ (Fanout.doing_ne f' m e)
      rw [Fanout.step_frame step]
      exact there
  | enqueue k e' => exact absurd (doing_call here) (publishes _ _ _)
  | subscribe k at_ =>
    cases at_ with
    | checkStop =>
      obtain rfl := Option.some.inj last
      split <;> exact goes there (by simp [CallStage.doing])
    | acquire =>
      obtain ⟨-, rfl⟩ := subscribeStep_acquire last
      exact goes there (by simp [CallStage.doing])
    | sweep entry =>
      rcases subscribeStep_sweep last with ⟨t, next, swept, rfl⟩ | ⟨-, rfl⟩
      · rw [sweep_frame swept]
        exact goes there (by simp [CallStage.doing])
      · unfold register
        split <;> exact goes there (by simp [CallStage.doing])
  | unsubscribe k at_ =>
    cases at_ with
    | acquire =>
      obtain ⟨-, rfl⟩ := unsubscribeStep_acquire last
      exact goes there (by simp [CallStage.doing])
    | sweep entry removed =>
      rcases unsubscribeStep_sweep last with ⟨t, next, swept, rfl⟩ | ⟨-, rfl⟩
      · rw [sweep_frame swept]
        exact goes there (by simp [CallStage.doing])
      · exact goes there (by simp [CallStage.doing])
  | start source uri at_ => exact stays (desk_startStep here last)
  | stop at_ =>
    cases at_ with
    | raiseStop =>
      obtain rfl := Option.some.inj last
      exact goes there (by simp [CallStage.doing])
    | cancel =>
      obtain rfl := Option.some.inj last
      refine goes ?_ (by simp [CallStage.doing])
      rw [calls_cancelShared]
      exact there
  | join at_ => exact stays (desk_joinStep here last)
  | describe at_ => exact stays (desk_describeStep here last)
  | drop at_ => exact stays (desk_dropStep here last)
  | returned reply => simp at last

/-- **The steps of such a publisher keep that its queues get packets from threads only that publish.**
-/
theorem publishes_step (sound : r.control.Sound) (publishes : r.desk.Publishes)
    (exclusive : Exclusive l) (last : r.step l = some r') : r'.desk.Publishes := by
  rcases publishes.move (desk_step sound (admitted_of_exclusive exclusive) last) with
    kept | ⟨a, m, p, moves, at_⟩
  · exact kept
  cases l with
  | begin call =>
    obtain rfl : .call r.calls.length = a := Desk.Mover.thread.inj moves
    simp only [step] at last
    split at last
    · obtain rfl := Option.some.inj last
      have entered : (r.begin call).desk.doing (.call r.calls.length) = (entry call).doing := by
        cases call <;> exact (congrArg (Desk.doing · _) desk_append).trans doing_setDoing_self
      rw [entered] at at_
      cases call <;> simp_all [entry, CallStage.doing, Fanout.doing, Fanout.isInside, Exclusive]
    · simp at last
  | call n =>
    obtain rfl : .call n = a := Desk.Mover.thread.inj moves
    exact absurd at_ (doing_callStep publishes last m _)
  | reader run =>
    obtain rfl : .reader run = a := Desk.Mover.thread.inj moves
    obtain ⟨reader, -, here⟩ := Option.bind_eq_some_iff.mp at_
    cases place : reader.at_ with
    | publish f =>
      rw [place] at here
      exact absurd here (Fanout.doing_ne f m _)
    | _ => simp [place, Reading.doing] at here
  | _ => cases moves

/-- **At most one push waits in all queues together**, whatever the threads and the consumers do. -/
theorem single_step (sound : r.control.Sound) (single : r.desk.Single) (exclusive : Exclusive l)
    (last : r.step l = some r') : r'.desk.Single :=
  single.move (desk_step sound (admitted_of_exclusive exclusive) last)
    (publishes_step sound single.publishes exclusive last)

end Publishers

section Waiting

variable {a : Actor} {p : Packet} {items : List Packet}

/-- The accesses to the queue of a subscriber that make room, or find it empty. -/
def MakesRoom (n : Nat) : Label → Prop
  | .consumer m (.dequeue _) | .consumer m .clear => m = n
  | _ => False

instance (n : Nat) : DecidablePred (MakesRoom n)
  | .consumer m (.dequeue _) | .consumer m .clear => inferInstanceAs (Decidable (m = n))
  | .consumer _ .terminate | .consumer _ (.stir _) | .begin _ | .call _ | .reader _ | .thread _
  | .writer .. | .addSubscriber _ | .addSource _ => inferInstanceAs (Decidable False)

/-- A thread that is at the desk takes its steps under its own label. -/
theorem eq_label_of_mover {x : Doing} (moves : r.mover l = .thread a)
    (at_ : r.desk.doing a = some x) : l = a.label := by
  cases l with
  | begin call =>
    obtain rfl := Desk.Mover.thread.inj moves
    simp [desk, doing] at at_
  | call m | reader m =>
    obtain rfl := Desk.Mover.thread.inj moves
    rfl
  | _ => cases moves

/-- **What a step does to a queue in which a push waits**: the thread of the push goes on with it, or a
consumer acts on the queue. -/
theorem queue_step (sound : r.control.Sound) (single : r.desk.Single) (exclusive : Exclusive l)
    (last : r.step l = some r') (there : r.subscribers[n]? = some s) (waits : w ∈ s.queue.waiting) :
    ∃ s', r'.subscribers[n]? = some s' ∧ (s' = s ∨
      l = w.thread.label ∧ s.queue.resume w.thread = some s'.queue ∨
      ∃ action, l = .consumer n action ∧ s' = s.act action) := by
  obtain ⟨s', there', same | ⟨moves, resumed⟩ | ⟨action, moves, acts⟩⟩ :=
    single.queue_move (desk_step sound (admitted_of_exclusive exclusive) last) there waits
  · exact ⟨s', there', .inl same⟩
  · obtain ⟨entry, reached, -, serves⟩ := single.serves there waits
    exact ⟨s', there', .inr (.inl ⟨eq_label_of_mover moves serves, resumed⟩)⟩
  · have own : l = .consumer n action := by
      cases l <;> simp_all [mover]
    exact ⟨s', there', .inr (.inr ⟨action, own, acts⟩)⟩

/-- A push that is ready stays so while others take steps. -/
theorem ready_step (sound : r.control.Sound) (single : r.desk.Single) (exclusive : Exclusive l)
    (other : l ≠ a.label) (last : r.step l = some r') (there : r.subscribers[n]? = some s)
    (ready : s.queue.Ready a p) :
    ∃ s', r'.subscribers[n]? = some s' ∧ s'.queue.Ready a p := by
  have waits : (⟨a, p, true⟩ : Waiter Actor Packet) ∈ s.queue.waiting := by simp [ready.1]
  have lone : s.queue.Lone := single.lone n s there
  obtain ⟨s', there', rfl | ⟨own, -⟩ | ⟨action, -, rfl⟩⟩ :=
    queue_step sound single exclusive last there waits
  · exact ⟨s', there', ready⟩
  · exact absurd own other
  · refine ⟨_, there', ?_⟩
    cases action with
    | dequeue pick => exact lone.ready_pop pick ready.1
    | terminate => exact ready
    | clear => exact lone.ready_clear ready.1
    | stir t => exact ready.stir t

/-- A push that is stuck stays so until a consumer makes room in this queue. -/
theorem stuck_step (sound : r.control.Sound) (single : r.desk.Single) (exclusive : Exclusive l)
    (calm : ¬ MakesRoom n l) (last : r.step l = some r') (there : r.subscribers[n]? = some s)
    (stuck : s.queue.Stuck a p items) :
    ∃ s', r'.subscribers[n]? = some s' ∧ s'.queue.Stuck a p items := by
  obtain ⟨notified, waiting⟩ := stuck.1
  have waits : (⟨a, p, notified⟩ : Waiter Actor Packet) ∈ s.queue.waiting := by simp [waiting]
  obtain ⟨s', there', rfl | ⟨-, resumed⟩ | ⟨action, own, rfl⟩⟩ :=
    queue_step sound single exclusive last there waits
  · exact ⟨s', there', stuck⟩
  · exact ⟨s', there', stuck.resume resumed⟩
  · refine ⟨_, there', ?_⟩
    subst own
    cases action with
    | dequeue | clear => exact absurd rfl calm
    | terminate => exact stuck
    | stir t => exact stuck.stir t

/-- A thread that hands out a packet goes on with it under its label. -/
theorem exists_step_of_doing {t : Relay} {f f' : Fanout} (at_ : r.desk.doing a = some (.publishing f))
    (unfinished : ∀ reached, f ≠ .finished reached) (last : f.step a r = some (t, f')) :
    ∃ u, r.step a.label = some u ∧ u.subscribers = t.subscribers := by
  have same {g : Fanout} (here : g.doing = some (.publishing f)) : g = f := by
    unfold Fanout.doing at here
    split at here
    · exact Doing.publishing.inj (Option.some.inj here)
    · cases here
  cases a with
  | call m =>
    obtain ⟨stage, here, doing⟩ := Option.bind_eq_some_iff.mp at_
    obtain rfl : stage = .publish f := by
      cases stage with
      | publish g => rw [same doing]
      | subscribe k place | unsubscribe k place => cases place <;> simp [CallStage.doing] at doing
      | _ => simp [CallStage.doing] at doing
    refine ⟨t.setCall m (.publish f'), ?_, rfl⟩
    show r.callStep m = _
    simp only [callStep, here, Option.bind_eq_bind, Option.bind_some]
    cases f with
    | finished reached => exact absurd rfl (unfinished reached)
    | _ => exact Option.bind_eq_some_iff.mpr ⟨_, last, rfl⟩
  | reader k =>
    obtain ⟨reader, executing, doing⟩ := Option.bind_eq_some_iff.mp at_
    have place : reader.at_ = .publish f := by
      cases here : reader.at_ with
      | publish g =>
        rw [here] at doing
        rw [same doing]
      | _ => simp [here, Reading.doing] at doing
    refine ⟨t.goOn k reader (.publish f'), ?_, rfl⟩
    show r.readerStep k = _
    simp only [readerStep, executing, place, Option.bind_eq_bind, Option.bind_some]
    cases f with
    | finished reached => exact absurd rfl (unfinished reached)
    | _ => exact Option.bind_eq_some_iff.mpr ⟨_, last, rfl⟩

/-- **A push that is ready gets in with the next step of its thread.** -/
theorem exists_step_of_ready (single : r.desk.Single) (there : r.subscribers[n]? = some s)
    (ready : s.queue.Ready a p) :
    ∃ r' s', r.step a.label = some r' ∧ r'.subscribers[n]? = some s' ∧
      s'.queue.items = s.queue.items ++ [p] ∧ s'.queue.waiting = [] := by
  have waits : (⟨a, p, true⟩ : Waiter Actor Packet) ∈ s.queue.waiting := by simp [ready.1]
  obtain ⟨entry, reached, entered, serves⟩ := single.serves there waits
  let q : Queue Actor Packet := { s.queue with items := s.queue.items ++ [p], waiting := [] }
  have step : (Fanout.serve p entry reached .waiting).step a r =
      some (r.setSubscriber n { s with queue := q }, .serve p entry reached .finished) := by
    have entered : r.registry[entry]? = some n := entered
    simp [Fanout.step, entered, there, Enqueue.step, ready.resume, q, Queue.isWaiting]
  obtain ⟨r', last, subscribers⟩ := exists_step_of_doing serves (by simp) step
  refine ⟨r', { s with queue := q }, last, ?_, rfl, rfl⟩
  rw [subscribers]
  exact List.getElem?_set_self (List.getElem?_eq_some_iff.mp there).1

end Waiting

section Runs

variable {settings : PublisherSettings} {log log' : List Event} {t : Relay} {a : Actor} {p : Packet}
  {items : List Packet} {admits : Label → Prop}

theorem single_ofSettings : (ofSettings settings).desk.Single where
  sound := accounted_ofSettings.sound
  publishes a n e := by simp [doing_ofSettings]
  lone n s there := by simp [desk, ofSettings] at there

/-- Along every schedule of such a publisher one push waits at most. -/
theorem single_of_records (run : Records step Exclusive observe (ofSettings settings) log r) :
    r.desk.Single := by
  induction run with
  | refl => exact single_ofSettings
  | tail run exclusive last ih => exact single_step (sound_of_reaches run.reaches) ih exclusive last

/-- What every step of a schedule keeps of a queue, the whole schedule keeps. -/
theorem queue_of_records {P : Queue Actor Packet → Prop}
    (run : Records step Exclusive observe (ofSettings settings) log r)
    (fewer : ∀ l, admits l → Exclusive l)
    (keeps : ∀ {u v : Relay} {l : Label} {s : Subscriber Actor}, u.control.Sound → u.desk.Single →
      admits l → u.step l = some v → u.subscribers[n]? = some s → P s.queue →
      ∃ s', v.subscribers[n]? = some s' ∧ P s'.queue)
    (there : r.subscribers[n]? = some s) (holds : P s.queue)
    (later : Records step admits observe r log' t) :
    ∃ s', t.subscribers[n]? = some s' ∧ P s'.queue := by
  induction later with
  | refl => exact ⟨s, there, holds⟩
  | tail later admitted last ih =>
    obtain ⟨s', there', holds'⟩ := ih
    have whole := run.trans (later.mono fewer)
    exact keeps (sound_of_reaches whole.reaches) (single_of_records whole) admitted last there' holds'

/-- **Who is held up by a full queue, and until when.** Let the queues get packets from threads only
that publish. If a push waits in a queue, then it is the only one in all queues, its thread holds the
registry, and the queue is full unless the push has been notified. Once a consumer has taken a packet
from this queue, or has cleared it, the next step of the thread appends its packet, whenever it comes
and whatever the others do before it. As long as no consumer does so, a push that waits at a full queue
goes on waiting there, whatever is done to the other queues. -/
theorem one_waits_for_its_queue
    (run : Records step Exclusive observe (ofSettings settings) log r)
    (there : r.subscribers[n]? = some s) (waits : w ∈ s.queue.waiting) :
    (s.queue.waiting = [w] ∧
      ∀ m x, r.subscribers[m]? = some x → m ≠ n → x.queue.waiting = []) ∧
    r.registryHolder = some w.thread ∧ (w.notified ∨ s.queue.isFull) ∧
    (∀ action, MakesRoom n (.consumer n action) → ∃ u, r.step (.consumer n action) = some u ∧
      ∀ log' t, Records step (fun l => Exclusive l ∧ l ≠ w.thread.label) observe u log' t →
        ∃ x t' y, t.subscribers[n]? = some x ∧ t.step w.thread.label = some t' ∧
          t'.subscribers[n]? = some y ∧ y.queue.items = x.queue.items ++ [w.item] ∧
          y.queue.waiting = []) ∧
    (s.queue.isFull → ∀ log' t, Records step (fun l => Exclusive l ∧ ¬ MakesRoom n l) observe r log' t →
      ∃ x, t.subscribers[n]? = some x ∧ x.queue.isFull ∧ x.queue.items = s.queue.items ∧
        ∃ v ∈ x.queue.waiting, v.thread = w.thread ∧ v.item = w.item) := by
  have single := single_of_records run
  have lone : s.queue.Lone := single.lone n s there
  obtain ⟨only, due⟩ := lone.eq_of_mem waits
  obtain ⟨a, p, notified⟩ := w
  refine ⟨⟨only, ?_⟩, ?_, due, ?_, ?_⟩
  · intro m x there' other
    refine List.eq_nil_iff_forall_not_mem.mpr fun v waits' => other ?_
    exact single.alone there waits there' waits'
  · obtain ⟨entry, reached, -, serves⟩ := single.serves there waits
    exact single.sound.holder a _ serves rfl
  · intro action room
    have acted : r.step (.consumer n action) = some (r.setSubscriber n (s.act action)) := by
      simp [step, there]
    have ready : (s.act action).queue.Ready a p := by
      cases action with
      | dequeue pick => exact lone.ready_pop pick only
      | clear => exact lone.ready_clear only
      | terminate | stir => exact absurd room id
    refine ⟨_, acted, fun log' t later => ?_⟩
    have run' := run.tail (show Exclusive (.consumer n action) from trivial) acted
    have there' : (r.setSubscriber n (s.act action)).subscribers[n]? = some (s.act action) :=
      List.getElem?_set_self (List.getElem?_eq_some_iff.mp there).1
    obtain ⟨x, found, ready'⟩ := queue_of_records (P := (·.Ready a p)) run' (fun _ => And.left)
      (fun sound single admitted last there ready =>
        ready_step sound single admitted.1 admitted.2 last there ready) there' ready later
    have whole := run'.trans (later.mono fun _ => And.left)
    obtain ⟨t', y, stepped, found', appended, nobody⟩ :=
      exists_step_of_ready (single_of_records whole) found ready'
    exact ⟨x, t', y, found, stepped, found', appended, nobody⟩
  · intro full log' t later
    have stuck : s.queue.Stuck a p s.queue.items := ⟨⟨notified, only⟩, rfl, full⟩
    obtain ⟨x, found, ⟨notified', waiting⟩, same, full'⟩ :=
      queue_of_records (P := (·.Stuck a p s.queue.items)) run (fun _ => And.left)
        (fun sound single admitted last there stuck =>
          stuck_step sound single admitted.1 admitted.2 last there stuck) there stuck later
    exact ⟨x, found, full', same, ⟨a, p, notified'⟩, by simp [waiting], rfl, rfl⟩

/-- Two subscribers with room for one packet each, and two packets. The second packet waits for room at
the first subscriber. A packet is taken from the second one, and the thread that waits is woken without
need. -/
def heldUp : List Label :=
  List.flatten [
    [.addSubscriber (.ofName "a" "" 1), .addSubscriber (.ofName "b" "" 1)],
    [.addSource { allowNoStreams := true }, .begin (.start 0 "")], List.replicate 19 (.call 0),
    List.replicate 4 (.thread 1), List.replicate 3 (.reader 1),
    [.begin (.subscribe 0), .begin (.subscribe 1)],
    List.replicate 3 (.call 1), List.replicate 4 (.call 2),
    [.begin (.publish (.video 1))], List.replicate 18 (.call 3),
    [.begin (.publish (.video 2))], List.replicate 9 (.call 4),
    [.consumer 1 (.dequeue 0), .consumer 0 (.stir (.call 4)), .call 4]]

/-- The packet still waits, and gets in once one has been taken from the first subscriber. -/
theorem held_up_until_dequeue : ∃ log r s,
    Records step Exclusive observe (ofSettings {}) log r ∧ r.subscribers[0]? = some s ∧
      s.queue.waiting = [⟨.call 4, .video 2, false⟩] ∧ s.queue.isFull ∧
      r.registryHolder = some (.call 4) ∧
      ∃ u t x, r.step (.consumer 0 (.dequeue 0)) = some u ∧ u.step (.call 4) = some t ∧
        t.subscribers[0]? = some x ∧ x.queue.waiting = [] ∧ x.queue.items = [.video 2] := by
  have ran : (record? step observe (ofSettings {}) heldUp).any (fun x : List Event × Relay =>
      x.2.subscribers[0]?.any fun s =>
        s.queue.waiting = [⟨.call 4, .video 2, false⟩] ∧ s.queue.isFull ∧
          (x.2.step (.consumer 0 (.dequeue 0))).any fun u : Relay =>
            u.subscribers[0]?.any (·.queue.items.isEmpty)) := by
    decide +kernel
  have exclusive : ∀ l ∈ heldUp, Exclusive l := by decide +kernel
  obtain ⟨log, r, run, facts⟩ := exists_records_of_any exclusive ran
  obtain ⟨s, there, facts⟩ := (Option.any_eq_true _ _).mp facts
  obtain ⟨waiting, full, left⟩ := of_decide_eq_true facts
  obtain ⟨-, holder, -, lets, -⟩ :=
    one_waits_for_its_queue run there (w := ⟨.call 4, .video 2, false⟩) (by simp [waiting])
  obtain ⟨u, acted, goes⟩ := lets (.dequeue 0) rfl
  obtain ⟨x, t, y, found, stepped, found', appended, nobody⟩ := goes [] u (.refl u)
  rw [acted, Option.any_some, found, Option.any_some, List.isEmpty_iff] at left
  refine ⟨log, r, s, run, there, waiting, full, holder, u, t, y, acted, stepped, found', nobody, ?_⟩
  rw [appended, left]
  rfl

end Runs

end Relay

end PacketRelay
