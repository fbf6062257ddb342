import PacketRelay.Proofs.Relay.Delivery

/-!
# From the registry to the consumers

Two laws hold for a subscriber that nobody disturbs: nobody removes or terminates it, nobody clears its
queue or puts a packet into it from elsewhere, and no stop is seen. What is appended to its queue is
what has been taken from the queue, followed by what is in it. And what is handed out since it was
added is what has been appended to its queue, followed by what it is still owed: the packet of a
delivery that has not come to it yet.

## Main definitions

* `Desk.Calm`: nobody is about to disturb a subscriber
* `Fanout.owed`, `Desk.owed`: the packet that a subscriber is still owed

## Main results

* `Conserved.move`: both laws are kept
-/

namespace PacketRelay

/-- The packet that a subscriber is still owed by a thread that publishes. -/
def Fanout.owed (s : Nat) (registry : List Nat) : Fanout → List Packet
  | .sweep p _ => [p]
  | .choose p entry _ => if s ∈ registry.drop entry then [p] else []
  | .serve p entry _ .finished => if s ∈ registry.drop (entry + 1) then [p] else []
  | .serve p entry _ _ => if s ∈ registry.drop entry then [p] else []
  | _ => []

section Owed

variable {p : Packet} {s n entry reached : Nat} {registry : List Nat} {a : Actor}

@[simp] theorem Fanout.owed_close : (Fanout.close p reached).owed s registry = [] := by
  unfold Fanout.close
  split <;> rfl

theorem Fanout.owed_of_isClosing {f : Fanout} (closing : f.isClosing) : f.owed s registry = [] := by
  cases f <;> simp_all [isClosing, owed]

theorem Fanout.owed_afterSweep (there : s ∈ registry) :
    (Fanout.afterSweep p registry.length).owed s registry = [p] := by
  unfold Fanout.afterSweep
  split
  · next empty => simp [List.length_eq_zero_iff.mp empty] at there
  · simp [owed, there]
  · simp [owed, there]

theorem Fanout.owed_afterChoice :
    (Fanout.afterChoice p registry.length entry reached false).owed s registry =
      (Fanout.choose p entry reached).owed s registry := rfl

theorem Fanout.owed_afterServe :
    (Fanout.afterServe p registry.length entry reached).owed s registry =
      (Fanout.serve p entry reached .finished).owed s registry := by
  unfold Fanout.afterServe
  split
  · rfl
  · next last =>
    rw [owed_close]
    simp [owed, List.drop_eq_nil_of_le (Nat.not_lt.mp last)]

/-- Serving an entry, a thread appends what it owes to it. -/
theorem Fanout.owed_serve {e e' : Enqueue} {x x' : Subscriber Actor} (nodup : registry.Nodup)
    (entered : registry[entry]? = some n) (active : n = s → x.active)
    (carried : ∀ q, e.appended a x = some q → q = p) (last : e.step a x = some (x', e')) :
    Relay.pushedTo s (Relay.observeEnqueue a n x e).toList ++
        (Fanout.serve p entry reached e').owed s registry =
      (Fanout.serve p entry reached e).owed s registry := by
  obtain ⟨inside, found⟩ := List.getElem?_eq_some_iff.mp entered
  have next : registry.drop entry = n :: registry.drop (entry + 1) := by
    rw [List.drop_eq_getElem_cons inside, found]
  have among : s ∈ registry.drop entry ↔ n = s ∨ s ∈ registry.drop (entry + 1) := by
    rw [next, List.mem_cons, eq_comm]
  -- As long as the entry is not served, its subscriber is among those that come.
  have waits : ∀ f : Enqueue, f ≠ .finished → (Fanout.serve p entry reached f).owed s registry =
      if s ∈ registry.drop entry then [p] else [] := by
    intro f unfinished
    cases f with
    | finished => exact absurd rfl unfinished
    | _ => rfl
  have started : e ≠ .finished := by
    rintro rfl
    simp [Enqueue.step] at last
  rw [waits e started]
  rcases Enqueue.step_cases last with ⟨q, rfl, rfl⟩ | ⟨due, ⟨full, rfl⟩ | ⟨q, appended, rfl⟩⟩
  · by_cases on : x.active
    · simp [on, waits, Relay.observeEnqueue, Relay.pushedTo]
    · have other : n ≠ s := fun same => on (active same)
      simp [on, owed, among, other, Relay.observeEnqueue, Relay.pushedTo]
  · have shown : Relay.observeEnqueue a n x e = none := by
      rcases due with ⟨q, rfl⟩ | rfl <;> simp [Relay.observeEnqueue, full]
    simp [shown, waits, Relay.pushedTo]
  · have shown : Relay.observeEnqueue a n x e = some (.pushed a n q) := by
      rcases due with ⟨q, rfl⟩ | rfl <;> simp [Relay.observeEnqueue, appended]
    obtain rfl := carried q appended
    rw [shown, Option.toList_some, Relay.pushedTo_singleton]
    by_cases same : n = s
    · have once : s ∉ registry.drop (entry + 1) := by
        have parts := nodup.sublist (List.drop_sublist entry registry)
        rw [next, same] at parts
        exact (List.nodup_cons.mp parts).1
      simp [owed, among, same, once]
    · simp [owed, among, same]

end Owed

namespace Desk

/-- The packet that a subscriber is still owed. -/
def owed (d : Desk) (s : Nat) : List Packet :=
  match d.holder.bind d.doing with
  | some (.publishing f) => f.owed s d.registry
  | _ => []

/-- Nobody is about to disturb a subscriber: the calls add subscribers or put packets into other queues,
and all that the read loops do is to publish. -/
structure Calm (s : Nat) (d : Desk) : Prop where
  calls : ∀ n y, d.doing (.call n) = some y →
    (∃ m, y = .adding m ∧ m < d.subscribers.length) ∨ ∃ m e, y = .enqueueing m e ∧ m ≠ s
  readers : ∀ run y, d.doing (.reader run) = some y → ∃ f, y = .publishing f

/-- A consumer leaves a subscriber as it is, but for the packets that it takes. -/
def Mover.IsGentle (s : Nat) : Mover → Prop
  | .consumer n .terminate | .consumer n .clear => n ≠ s
  | _ => True

variable {d d' : Desk} {w : Mover} {e : Option Relay.Event} {s n : Nat} {a : Actor}

theorem Calm.ne_of_enqueueing {f : Enqueue} (calm : d.Calm s)
    (at_ : d.doing a = some (.enqueueing n f)) : n ≠ s := by
  cases a with
  | call m =>
    rcases calm.calls m _ at_ with ⟨_, same, -⟩ | ⟨_, _, same, other⟩
    · cases same
    · cases same
      exact other
  | reader run =>
    obtain ⟨_, same⟩ := calm.readers run _ at_
    cases same

theorem Calm.not_removing (calm : d.Calm s) : d.doing a ≠ some (.removing n) := by
  intro at_
  cases a with
  | call m => rcases calm.calls m _ at_ with ⟨_, same, -⟩ | ⟨_, _, same, -⟩ <;> cases same
  | reader run =>
    obtain ⟨_, same⟩ := calm.readers run _ at_
    cases same

section Queue

open Relay (pushedTo dequeuedFrom observeEnqueue)

theorem dequeuedFrom_observeEnqueue {x : Subscriber Actor} {f : Enqueue} :
    dequeuedFrom s (observeEnqueue a n x f).toList = [] := by
  cases shown : observeEnqueue a n x f with
  | none => rfl
  | some e => rcases Relay.eq_of_observeEnqueue shown with ⟨_, rfl⟩ | ⟨_, -, rfl⟩ <;> rfl

/-- Only a consumer of a subscriber takes packets from its queue. -/
theorem dequeuedFrom_of_move (move : Move w e d d') (other : ∀ action, w ≠ .consumer s action) :
    dequeuedFrom s e.toList = [] := by
  cases move with
  | serve => exact dequeuedFrom_observeEnqueue
  | @consume _ n x action =>
    have ne : n ≠ s := by
      rintro rfl
      exact other action rfl
    cases shown : observeAction n x action with
    | none => rfl
    | some y =>
      obtain ⟨p, rfl⟩ := Relay.eq_dequeued_of_observeAction shown
      simp [Relay.dequeuedFrom_singleton, ne]
  | _ => rfl

/-- What a gentle consumer takes from a queue is the oldest packet. -/
theorem items_consume {x : Subscriber Actor} {action : Subscriber.Action Actor}
    (gentle : (Mover.consumer s action).IsGentle s) :
    dequeuedFrom s (observeAction s x action).toList ++ (x.act action).queue.items =
      x.queue.items := by
  cases action with
  | dequeue pick =>
    cases queued : x.queue.items with
    | nil => simp [observeAction, Subscriber.act, Queue.pop, queued, dequeuedFrom]
    | cons p ps =>
      have rest : (x.queue.pop pick).2.items = ps := by
        rcases x.queue.pop_snd_cases pick with popped | ⟨k, popped⟩ <;> rw [popped, queued] <;> rfl
      simp [observeAction, Subscriber.act, queued, rest, dequeuedFrom]
  | terminate | clear => exact absurd rfl gentle
  | stir thread => simp [observeAction, dequeuedFrom, Subscriber.act, Queue.stir]

/-- **A queue keeps what is appended until it is taken.** -/
theorem items_move (move : Move w e d d') (calm : d.Calm s) (gentle : w.IsGentle s) :
    dequeuedFrom s e.toList ++ d'.items s = d.items s ++ pushedTo s e.toList := by
  by_cases own : ∃ action, w = .consumer s action
  · obtain ⟨action, rfl⟩ := own
    cases move with
    | stay => simp [dequeuedFrom, pushedTo]
    | @consume _ _ x _ there =>
      have items : d.items s = x.queue.items := by simp [items, there]
      have none : pushedTo s (observeAction s x action).toList = [] := pushedTo_observeAction
      rw [items_of_set there rfl, if_pos rfl, items_consume gentle, none, items, List.append_nil]
  · have other : ∀ action, w ≠ .consumer s action := fun action same => own ⟨action, same⟩
    rw [dequeuedFrom_of_move move other, List.nil_append]
    exact items_of_move move other fun a f _ at_ => calm.ne_of_enqueueing at_ rfl

end Queue

section Registry

open Relay (pushedTo taken)

variable {f : Fanout}

theorem owed_of_publishing (sound : d.Sound) (at_ : d.doing a = some (.publishing f)) :
    d.owed s = f.owed s d.registry := by
  simp [owed, sound.holder a _ at_ rfl, at_]

theorem owed_of_idle (idle : ∀ a f, d.doing a ≠ some (.publishing f)) : d.owed s = [] := by
  unfold owed
  split
  · next f at_ =>
    obtain ⟨a, -, here⟩ := Option.bind_eq_some_iff.mp at_
    exact absurd here (idle a f)
  · rfl

/-- What is owed stays if no thread that publishes is concerned. -/
theorem owed_of_same (sound : d.Sound) (sound' : d'.Sound)
    (same : ∀ a f, d'.doing a = some (.publishing f) ↔ d.doing a = some (.publishing f))
    (registry : ∀ a f, d.doing a = some (.publishing f) → d'.registry = d.registry) :
    d'.owed s = d.owed s := by
  by_cases publishing : ∃ a f, d.doing a = some (.publishing f)
  · obtain ⟨a, f, at_⟩ := publishing
    rw [owed_of_publishing sound at_, owed_of_publishing sound' ((same a f).mpr at_),
      registry a f at_]
  · have idle : ∀ a f, d.doing a ≠ some (.publishing f) := fun a f at_ => publishing ⟨a, f, at_⟩
    rw [owed_of_idle idle, owed_of_idle fun a f at_ => idle a f ((same a f).mp at_)]

/-- A thread that publishes goes on, and what it owes goes down by what it appends. -/
theorem owed_of_setDoing {f' : Fanout} (sound : d.Sound) (sound' : d'.Sound)
    (at_ : d.doing a = some (.publishing f)) (next : d'.doing = (d.setDoing a (some (.publishing f'))).doing)
    (less : pushedTo s e.toList ++ f'.owed s d'.registry = f.owed s d.registry ++ taken e.toList) :
    pushedTo s e.toList ++ d'.owed s = d.owed s ++ taken e.toList := by
  have at_' : d'.doing a = some (.publishing f') := by
    rw [next]
    exact Relay.doing_setDoing_self
  rw [owed_of_publishing sound at_, owed_of_publishing sound' at_']
  exact less

theorem taken_observeEnqueue {x : Subscriber Actor} {f : Enqueue} :
    taken (Relay.observeEnqueue a n x f).toList = [] := by
  cases shown : Relay.observeEnqueue a n x f with
  | none => rfl
  | some e => rcases Relay.eq_of_observeEnqueue shown with ⟨_, rfl⟩ | ⟨_, -, rfl⟩ <;> rfl

/-- **A subscriber in the registry gets what it is owed.** It stays there, and what is handed out is
appended to its queue or still owed to it. -/
theorem owed_move (move : Move w e d d') (sound : d.Sound) (calm : d.Calm s) (calm' : d'.Calm s)
    (active : ∀ x, d.subscribers[s]? = some x → x.active) (unstopped : ∀ a, e ≠ some (.asked a true))
    (there : s ∈ d.registry) (known : (d.subscribers[s]?).isSome) : s ∈ d'.registry ∧
      pushedTo s e.toList ++ d'.owed s = d.owed s ++ taken e.toList := by
  have sound' := sound.move move
  have stays : ∀ {registry : List Nat}, d.Swept registry → s ∈ registry := by
    intro registry swept
    by_contra missing
    obtain ⟨x, found⟩ := Option.isSome_iff_exists.mp known
    have off := swept s there missing x found
    simp [active x found] at off
  -- A move that concerns no thread that publishes shows nothing that counts here.
  have same : (∀ a f, d'.doing a = some (.publishing f) ↔ d.doing a = some (.publishing f)) →
      (∀ a f, d.doing a = some (.publishing f) → d'.registry = d.registry) →
      s ∈ d'.registry → pushedTo s e.toList = [] → taken e.toList = [] → s ∈ d'.registry ∧
        pushedTo s e.toList ++ d'.owed s = d.owed s ++ taken e.toList := by
    intro doing registry inside none none'
    refine ⟨inside, ?_⟩
    rw [none, none', owed_of_same sound sound' doing registry, List.nil_append, List.append_nil]
  cases move with
  | stay | read => exact ⟨there, by simp [pushedTo, taken]⟩
  | @take _ a p off free =>
    refine ⟨there, ?_⟩
    have none : d.owed s = [] := by simp [owed, free]
    rw [none, owed_of_publishing sound' Relay.doing_setDoing_self]
    rfl
  | sweep next at_ fewer swept =>
    exact ⟨stays swept, owed_of_setDoing sound sound' at_ rfl (by simp [Fanout.owed, pushedTo, taken])⟩
  | swept at_ =>
    refine ⟨there, owed_of_setDoing sound sound' at_ rfl ?_⟩
    show [] ++ (Fanout.afterSweep _ d.registry.length).owed s d.registry = _
    rw [Fanout.owed_afterSweep there]
    rfl
  | ask stop at_ =>
    obtain rfl : stop = false := by
      cases stop
      · rfl
      · exact absurd rfl (unstopped _)
    exact ⟨there, owed_of_setDoing sound sound' at_ rfl (by simp [Fanout.owed_afterChoice, pushedTo, taken, setDoing])⟩
  | serve at_ entered found last =>
    refine ⟨there, owed_of_setDoing sound sound' at_ rfl ?_⟩
    rw [taken_observeEnqueue, List.append_nil]
    refine Fanout.owed_serve sound.nodup entered ?_ ?_ last
    · rintro rfl
      exact active _ found
    · exact fun q appended => sound.eq_of_appended at_ found appended
  | served at_ =>
    refine ⟨there, owed_of_setDoing sound sound' at_ rfl ?_⟩
    simp [Fanout.owed_afterServe, pushedTo, taken, setDoing]
  | close at_ before after =>
    refine ⟨there, owed_of_setDoing sound sound' at_ rfl ?_⟩
    simp [Fanout.owed_of_isClosing before, Fanout.owed_of_isClosing after, pushedTo, taken]
  | release at_ =>
    refine ⟨there, ?_⟩
    rw [owed_of_publishing sound at_]
    rfl
  | enqueue n p off =>
    exact same (Relay.publishing_iff_of_setDoing off rfl (by simp) (by simp)) (fun _ _ _ => rfl) there
      rfl rfl
  | push at_ found last =>
    exact same (Relay.publishing_iff_of_setDoing at_ rfl (by simp) (by simp)) (fun _ _ _ => rfl) there
      rfl rfl
  | pushed at_ | pass at_ =>
    exact same (Relay.publishing_iff_of_setDoing at_ rfl (by simp) (by simp)) (fun _ _ _ => rfl) there
      rfl rfl
  | takeToAdd n off free =>
    exact same (Relay.publishing_iff_of_setDoing off rfl (by simp) (by simp)) (fun _ _ _ => rfl) there
      rfl rfl
  | takeToRemove off free fewer gone => exact absurd Relay.doing_setDoing_self calm'.not_removing
  | tidy at_ fewer swept =>
    refine same (fun _ _ => Iff.rfl) ?_ (stays swept) rfl rfl
    intro b f here
    rcases at_ with at_ | at_ <;> exact absurd here (sound.not_publishing at_ rfl (by simp) b f)
  | add at_ fresh =>
    exact same (Relay.publishing_iff_of_setDoing at_ rfl (by simp) (by simp))
      (fun b f here => absurd here (sound.not_publishing at_ rfl (by simp) b f)) (List.mem_append_left _ there) rfl rfl
  | remove at_ => exact absurd at_ calm.not_removing
  | @consume _ n x action found =>
    have quiet : pushedTo s (observeAction n x action).toList = [] ∧
        taken (observeAction n x action).toList = [] := by
      cases shown : observeAction n x action with
      | none => exact ⟨rfl, rfl⟩
      | some y =>
        obtain ⟨p, rfl⟩ := Relay.eq_dequeued_of_observeAction shown
        exact ⟨rfl, rfl⟩
    exact same (fun _ _ => Iff.rfl) (fun _ _ _ => rfl) there quiet.1 quiet.2
  | arrive => exact same (fun _ _ => Iff.rfl) (fun _ _ _ => rfl) there rfl rfl

/-- Nothing is appended to the queue of a subscriber that is not in the registry. -/
theorem pushedTo_of_not_mem (move : Move w e d d') (sound : d.Sound) (absent : s ∉ d.registry) :
    pushedTo s e.toList = [] := by
  cases e with
  | none => rfl
  | some y =>
    cases y with
    | pushed a n p =>
      have inside := (Relay.serves_of_pushed sound move).1
      have other : n ≠ s := by
        rintro rfl
        exact absent inside
      simp [Relay.pushedTo_singleton, other]
    | _ => rfl

/-- Whoever adds a subscriber was at adding it. -/
theorem adding_of_subscribed (move : Move w (some (.subscribed s)) d d') :
    (∃ a, d.doing a = some (.adding s)) ∧ s ∈ d'.registry ∧ d'.holder = none ∧
      d'.subscribers = d.subscribers := by
  generalize shown : some (Relay.Event.subscribed s) = e at move
  cases move with
  | @add _ a n at_ fresh =>
    obtain rfl : s = n := by simpa using shown
    exact ⟨⟨a, at_⟩, List.mem_append_right _ List.mem_cons_self, rfl, rfl⟩
  | serve =>
    rcases Relay.eq_of_observeEnqueue shown.symm with ⟨_, same⟩ | ⟨_, -, same⟩ <;> cases same
  | consume =>
    obtain ⟨_, same⟩ := Relay.eq_dequeued_of_observeAction shown.symm
    cases same
  | _ => simp at shown

end Registry

section Subscribers

/-- A subscriber stays active that no consumer terminates. -/
theorem active_move (move : Move w e d d') (gentle : w.IsGentle s)
    (active : ∀ x, d.subscribers[s]? = some x → x.active) (x : Subscriber Actor)
    (there : d'.subscribers[s]? = some x) : x.active := by
  have served : ∀ {n : Nat} {y y' : Subscriber Actor}, d.subscribers[n]? = some y →
      (n = s → y'.active = y.active) → (d.subscribers.set n y')[s]? = some x → x.active := by
    intro n y y' found same there
    rcases subscriber_of_set found there with ⟨rfl, rfl⟩ | ⟨-, there⟩
    · rw [same rfl]
      exact active y found
    · exact active x there
  cases move with
  | serve at_ entered found last => exact served found (fun _ => (Enqueue.items_step last).2) there
  | push at_ found last => exact served found (fun _ => (Enqueue.items_step last).2) there
  | consume action found =>
    refine served found ?_ there
    rintro rfl
    cases action with
    | terminate | clear => exact absurd rfl gentle
    | dequeue | stir => rfl
  | arrive name suffix capacity =>
    rcases subscriber_of_append there with there | rfl
    · exact active x there
    · rfl
  | _ => exact active x there

theorem length_move (move : Move w e d d') : d.subscribers.length ≤ d'.subscribers.length := by
  cases move <;> simp [setDoing]

end Subscribers

end Desk

namespace Relay

open Desk (Move)

/-- What has been handed out, appended and taken, for a subscriber that nobody disturbs. -/
structure Conserved (s : Nat) (log : List Event) (d : Desk) : Prop where
  active : ∀ x, d.subscribers[s]? = some x → x.active
  queue : pushedTo s log = dequeuedFrom s log ++ d.items s
  absent : .subscribed s ∉ log → s ∉ d.registry ∧ pushedTo s log = []
  present : .subscribed s ∈ log → s ∈ d.registry ∧ s < d.subscribers.length ∧
    taken log = taken (beforeAdded s log) ++ pushedTo s log ++ d.owed s

variable {w : Desk.Mover} {d d' : Desk} {log : List Event} {e : Option Event} {s : Nat}

/-- **What is handed out and what is appended is conserved.** -/
theorem Conserved.move (conserved : Conserved s log d) (move : Move w e d d') (sound : d.Sound)
    (calm : d.Calm s) (calm' : d'.Calm s) (gentle : w.IsGentle s)
    (unstopped : ∀ a, e ≠ some (.asked a true)) : Conserved s (log ++ e.toList) d' := by
  have pushed : pushedTo s (log ++ e.toList) = pushedTo s log ++ pushedTo s e.toList :=
    List.filterMap_append
  have took : taken (log ++ e.toList) = taken log ++ taken e.toList := List.filterMap_append
  have dequeued : dequeuedFrom s (log ++ e.toList) = dequeuedFrom s log ++ dequeuedFrom s e.toList :=
    List.filterMap_append
  refine ⟨Desk.active_move move gentle conserved.active, ?_, ?_, ?_⟩
  · rw [pushed, dequeued, conserved.queue, List.append_assoc, List.append_assoc,
      Desk.items_move move calm gentle]
  · intro unadded
    obtain ⟨absent, none⟩ := conserved.absent fun there => unadded (List.mem_append_left _ there)
    constructor
    · intro inside
      rcases mem_registry_of_move move inside with before | rfl
      · exact absent before
      · simp at unadded
    · rw [pushed, none, Desk.pushedTo_of_not_mem move sound absent]
      rfl
  · intro added
    by_cases earlier : .subscribed s ∈ log
    · obtain ⟨there, known, all⟩ := conserved.present earlier
      have found : (d.subscribers[s]?).isSome := by simpa using known
      obtain ⟨stays, law⟩ := Desk.owed_move move sound calm calm' conserved.active unstopped there found
      refine ⟨stays, Nat.lt_of_lt_of_le known (Desk.length_move move), ?_⟩
      rw [took, all, pushed, beforeAdded_append_of_mem earlier]
      simp only [List.append_assoc]
      rw [law]
    · obtain rfl : e = some (.subscribed s) := by
        have last := (List.mem_append.mp added).resolve_left earlier
        cases e with
        | none => simp at last
        | some y => rw [List.mem_singleton.mp last]
      obtain ⟨absent, none⟩ := conserved.absent earlier
      obtain ⟨⟨a, at_⟩, there, free, subscribers⟩ := Desk.adding_of_subscribed move
      have known : s < d.subscribers.length := by
        cases a with
        | call n =>
          rcases calm.calls n _ at_ with ⟨m, same, known⟩ | ⟨_, _, same, -⟩ <;> cases same
          exact known
        | reader run =>
          obtain ⟨_, same⟩ := calm.readers run _ at_
          cases same
      refine ⟨there, subscribers ▸ known, ?_⟩
      have nothing : d'.owed s = [] := by simp [Desk.owed, free]
      rw [pushed, none, nothing, took]
      show taken log ++ [] = taken (beforeAdded s (log ++ [.subscribed s])) ++ ([] ++ []) ++ []
      rw [beforeAdded_append_subscribed earlier]
      simp

end Relay

end PacketRelay
