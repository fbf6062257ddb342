import PacketRelay.Proofs.Relay.Desk
import Mathlib.Data.List.Nodup

/-!
# Who holds the registry and who waits in a queue

Only one thread at a time is behind the lock of the registry, and the registry lists every subscriber
once. A push that waits in the queue of a subscriber belongs to a thread that is there to put a packet
into this queue, and if the thread publishes, then what waits is the packet that it publishes.

## Main definitions

* `Desk.Waits`: the thread of a push is at the queue in which the push waits
* `Desk.Serves`: the places of a thread at the queue of a subscriber
* `Desk.Sound`: the registry has one holder, and who waits is where it waits

## Main results

* `Desk.Sound.move`: the moves keep this
* `Desk.Sound.eq_of_appended`: what a thread appends that publishes is the packet that it publishes
-/

namespace PacketRelay

/-- The packet on its way into a queue, as long as its thread has it. -/
def Enqueue.packet? : Enqueue → Option Packet
  | .check p | .push p => some p
  | .waiting | .finished => none

section Enqueue

variable {a : Actor} {s s' : Subscriber Actor} {e e' : Enqueue}

theorem Enqueue.packet?_step {p : Packet} (last : e.step a s = some (s', e'))
    (carried : e'.packet? = some p) : e.packet? = some p := by
  cases e with
  | check q =>
    obtain ⟨rfl, rfl⟩ := Prod.mk.inj (Option.some.inj last)
    split at carried
    · exact carried
    · simp [packet?] at carried
  | push q =>
    obtain ⟨rfl, rfl⟩ := Prod.mk.inj (Option.some.inj last)
    split at carried <;> simp [packet?] at carried
  | waiting =>
    obtain ⟨q, -, -, rfl⟩ := exists_resume_of_step last
    split at carried <;> simp [packet?] at carried
  | finished => simp [step] at last

/-- After an access to a queue the pushes wait there that have waited before, but for one that has got
in, and the one that has just found the queue full. -/
theorem Enqueue.waiting_step (last : e.step a s = some (s', e')) {w : Waiter Actor Packet}
    (waits : w ∈ s'.queue.waiting) :
    (∃ v ∈ s.queue.waiting, v.thread = w.thread ∧ v.item = w.item ∧
      (e = .waiting → e' = .waiting ∨ w.thread ≠ a)) ∨
    (w.thread = a ∧ e = .push w.item ∧ e' = .waiting) := by
  cases e with
  | check q =>
    obtain ⟨rfl, rfl⟩ := Prod.mk.inj (Option.some.inj last)
    exact .inl ⟨w, waits, rfl, rfl, by simp⟩
  | push q =>
    obtain ⟨rfl, rfl⟩ := Prod.mk.inj (Option.some.inj last)
    dsimp only at waits
    unfold Queue.push at waits
    split at waits
    · next full =>
      rcases List.mem_append.mp waits with before | new
      · exact .inl ⟨w, before, rfl, rfl, by simp⟩
      · obtain rfl := List.mem_singleton.mp new
        exact .inr ⟨rfl, rfl, if_pos full⟩
    · exact .inl ⟨w, waits, rfl, rfl, by simp⟩
  | waiting =>
    left
    obtain ⟨q, resumed, rfl, rfl⟩ := exists_resume_of_step last
    obtain ⟨_, -, ⟨-, rfl⟩ | ⟨-, rfl⟩⟩ := Queue.resume_cases resumed
    · -- The queue is full again, and the thread waits on.
      obtain ⟨v, before, rfl⟩ := List.mem_map.mp waits
      refine ⟨v, before, ?_, ?_, ?_⟩
      · split <;> rfl
      · split <;> rfl
      · intro _
        by_cases own : v.thread = a
        · left
          refine if_pos (List.any_eq_true.mpr ⟨_, waits, ?_⟩)
          simp [own]
        · right
          simp [own]
    · obtain ⟨before, other⟩ := List.mem_filter.mp waits
      exact ⟨w, before, rfl, rfl, fun _ => .inr (by simpa using other)⟩
  | finished => simp [step] at last

/-- A thread at a queue looks at the mark first. Then it waits, or appends its packet and is done. -/
theorem Enqueue.step_cases (last : e.step a s = some (s', e')) :
    (∃ p, e = .check p ∧ e' = if s.active then .push p else .finished) ∨
      ((∃ p, e = .push p) ∨ e = .waiting) ∧
        (e.appended a s = none ∧ e' = .waiting ∨ ∃ p, e.appended a s = some p ∧ e' = .finished) := by
  cases e with
  | check p =>
    obtain ⟨rfl, rfl⟩ := Prod.mk.inj (Option.some.inj last)
    exact .inl ⟨p, rfl, rfl⟩
  | push p =>
    obtain ⟨rfl, rfl⟩ := Prod.mk.inj (Option.some.inj last)
    refine .inr ⟨.inl ⟨p, rfl⟩, ?_⟩
    by_cases full : s.queue.isFull
    · exact .inl ⟨by simp [appended, full], if_pos full⟩
    · exact .inr ⟨p, by simp [appended, full], if_neg full⟩
  | waiting =>
    obtain ⟨q, resumed, rfl, rfl⟩ := exists_resume_of_step last
    refine .inr ⟨.inr rfl, ?_⟩
    obtain ⟨w, found, ⟨full, rfl⟩ | ⟨room, rfl⟩⟩ := Queue.resume_cases resumed
    · obtain ⟨inside, own, -⟩ := Queue.notified_of_find? found
      left
      refine ⟨by simp [appended, full], if_pos (List.any_eq_true.mpr ?_)⟩
      exact ⟨_, List.mem_map_of_mem inside, by simp [own]⟩
    · right
      refine ⟨w.item, by simp [appended, room, found], if_neg ?_⟩
      simp [Queue.isWaiting]
  | finished => simp [step] at last

/-- What is appended comes behind the packets in the queue, and the mark stays. -/
theorem Enqueue.items_step (last : e.step a s = some (s', e')) :
    s'.queue.items = s.queue.items ++ (e.appended a s).toList ∧ s'.active = s.active := by
  cases e with
  | check p =>
    obtain ⟨rfl, rfl⟩ := Prod.mk.inj (Option.some.inj last)
    simp [appended]
  | push p =>
    obtain ⟨rfl, rfl⟩ := Prod.mk.inj (Option.some.inj last)
    by_cases full : s.queue.isFull <;> simp [appended, Queue.push, full]
  | waiting =>
    obtain ⟨q, resumed, rfl, rfl⟩ := exists_resume_of_step last
    obtain ⟨w, found, ⟨full, rfl⟩ | ⟨room, rfl⟩⟩ := Queue.resume_cases resumed
    · simp [appended, full]
    · simp [appended, room, found]
  | finished => simp [step] at last

theorem Queue.mem_notifyAt {ι α : Type} {w : Waiter ι α} {ws : List (Waiter ι α)} {pick : Nat}
    (waits : w ∈ notifyAt pick ws) : ∃ v ∈ ws, v.thread = w.thread ∧ v.item = w.item := by
  induction ws generalizing pick with
  | nil => simp [notifyAt] at waits
  | cons x xs ih =>
    have later : ∀ {k}, w ∈ notifyAt k xs → ∃ v ∈ x :: xs, v.thread = w.thread ∧ v.item = w.item := by
      intro k inside
      obtain ⟨v, there, same⟩ := ih inside
      exact ⟨v, List.mem_cons_of_mem _ there, same⟩
    unfold notifyAt at waits
    split at waits
    · rcases List.mem_cons.mp waits with rfl | inside
      · exact ⟨w, List.mem_cons_self, rfl, rfl⟩
      · exact later inside
    · split at waits <;> rcases List.mem_cons.mp waits with rfl | inside
      · exact ⟨x, List.mem_cons_self, rfl, rfl⟩
      · exact ⟨w, List.mem_cons_of_mem _ inside, rfl, rfl⟩
      · exact ⟨w, List.mem_cons_self, rfl, rfl⟩
      · exact later inside

/-- What the consumers do notifies pushes that wait and changes nothing else about them. -/
theorem Subscriber.waiting_act (action : Subscriber.Action Actor) {w : Waiter Actor Packet}
    (waits : w ∈ (s.act action).queue.waiting) :
    ∃ v ∈ s.queue.waiting, v.thread = w.thread ∧ v.item = w.item := by
  cases action with
  | dequeue pick =>
    simp only [act] at waits
    rcases s.queue.pop_snd_cases pick with popped | ⟨k, popped⟩ <;> rw [popped] at waits
    · exact ⟨w, waits, rfl, rfl⟩
    · exact Queue.mem_notifyAt waits
  | terminate => exact ⟨w, waits, rfl, rfl⟩
  | clear =>
    obtain ⟨v, before, rfl⟩ := List.mem_map.mp waits
    exact ⟨v, before, rfl, rfl⟩
  | stir thread =>
    obtain ⟨v, before, rfl⟩ := List.mem_map.mp waits
    exact ⟨v, before, by split <;> rfl, by split <;> rfl⟩

end Enqueue

section Carries

variable {p : Packet}

/-- What a thread is about to put into a queue is the packet that it publishes. -/
def Fanout.Carries : Fanout → Prop
  | .serve p _ _ e => ∀ q, e.packet? = some q → q = p
  | _ => True

theorem Fanout.carries_close (reached : Nat) : (close p reached).Carries := by
  unfold close
  split <;> trivial

theorem Fanout.carries_afterSweep (entries : Nat) : (afterSweep p entries).Carries := by
  unfold afterSweep
  split
  · trivial
  · intro q carried
    exact (Option.some.inj carried).symm
  · trivial

theorem Fanout.carries_afterChoice (entries entry reached : Nat) (stop : Bool) :
    (afterChoice p entries entry reached stop).Carries := by
  unfold afterChoice
  dsimp only
  split
  · split
    · exact carries_close reached
    · trivial
  · -- A packet of its own has the same contents.
    intro q carried
    rw [Packet.copy_eq, ite_self] at carried
    exact (Option.some.inj carried).symm

theorem Fanout.carries_afterServe (entries entry reached : Nat) :
    (afterServe p entries entry reached).Carries := by
  unfold afterServe
  split
  · trivial
  · exact carries_close _

theorem Fanout.carries_of_isClosing {f : Fanout} (closing : f.isClosing) : f.Carries := by
  cases f <;> simp_all [isClosing, Carries]

end Carries

namespace Desk

/-- The thread of a push is at the queue in which the push waits. If it publishes, then the packet that
waits is the one that it publishes. -/
def Waits (d : Desk) (n : Nat) (w : Waiter Actor Packet) : Prop :=
  d.doing w.thread = some (.enqueueing n .waiting) ∨
    ∃ entry reached, d.doing w.thread = some (.publishing (.serve w.item entry reached .waiting)) ∧
      d.registry[entry]? = some n

/-- These are the places of a thread that makes its accesses to the queue of a subscriber: it puts a
single packet there, or it publishes and serves an entry of the registry. -/
def Serves (d : Desk) (n : Nat) (place : Enqueue → Doing) : Prop :=
  (∀ e, place e = .enqueueing n e) ∨ ∃ p entry reached, d.registry[entry]? = some n ∧
    ∀ e, place e = .publishing (.serve p entry reached e)

/-- The registry has one holder and lists everybody once, and who waits is where it waits. -/
structure Sound (d : Desk) : Prop where
  holder : ∀ a x, d.doing a = some x → x.holds → d.holder = some a
  nodup : d.registry.Nodup
  gone : ∀ a n, d.doing a = some (.removing n) → n ∉ d.registry
  carries : ∀ a f, d.doing a = some (.publishing f) → f.Carries
  waits : ∀ n s, d.subscribers[n]? = some s → ∀ w ∈ s.queue.waiting, d.Waits n w

variable {d d' : Desk} {a b : Actor} {x y : Option Doing}

theorem doing_setDoing (b : Actor) : (d.setDoing a x).doing b = if b = a then x else d.doing b := by
  by_cases same : b = a <;> simp [setDoing, same]

/-- There is one holder of the registry. -/
theorem Sound.unique (sound : d.Sound) {x y : Doing} (ha : d.doing a = some x) (hx : x.holds)
    (hb : d.doing b = some y) (hy : y.holds) : a = b := by
  have first := sound.holder a x ha hx
  have second := sound.holder b y hb hy
  exact Option.some.inj (first.symm.trans second)

/-- While the lock is free nobody publishes. -/
theorem Sound.not_publishing_of_free (sound : d.Sound) (free : d.holder = none) (b : Actor)
    (f : Fanout) : d.doing b ≠ some (.publishing f) := by
  intro at_
  simpa [free] using sound.holder b _ at_ rfl

/-- While a thread holds the registry that does not publish, nobody publishes. -/
theorem Sound.not_publishing (sound : d.Sound) {x : Doing} (at_ : d.doing a = some x)
    (holds : x.holds) (plain : ∀ f, x ≠ .publishing f) (b : Actor) (f : Fanout) :
    d.doing b ≠ some (.publishing f) := by
  intro here
  obtain rfl := sound.unique at_ holds here rfl
  exact plain f (Option.some.inj (at_.symm.trans here))

/-- A subscriber, after one has changed. -/
theorem subscriber_of_set {m n : Nat} {s s' t : Subscriber Actor} (there : d.subscribers[n]? = some s)
    (found : (d.subscribers.set n s')[m]? = some t) :
    m = n ∧ t = s' ∨ m ≠ n ∧ d.subscribers[m]? = some t := by
  by_cases here : m = n
  · subst here
    rw [List.getElem?_set_self (List.getElem?_eq_some_iff.mp there).1] at found
    exact .inl ⟨rfl, (Option.some.inj found).symm⟩
  · rw [List.getElem?_set_ne (Ne.symm here)] at found
    exact .inr ⟨here, found⟩

/-- A subscriber, after one has come. -/
theorem subscriber_of_append {m : Nat} {s t : Subscriber Actor}
    (found : (d.subscribers ++ [s])[m]? = some t) : d.subscribers[m]? = some t ∨ t = s :=
  (getElem?_snoc_cases found).imp_right And.right

/-- Does a thread wait in a queue? -/
def isWaiting : Option Doing → Bool
  | some (.enqueueing _ .waiting) => true
  | some (.publishing (.serve _ _ _ .waiting)) => true
  | _ => false

theorem Waits.isWaiting {n : Nat} {w : Waiter Actor Packet} (waits : d.Waits n w) :
    isWaiting (d.doing w.thread) := by
  rcases waits with at_ | ⟨entry, reached, at_, -⟩ <;> rw [at_] <;> rfl

theorem Waits.congr {n : Nat} {w : Waiter Actor Packet} (waits : d.Waits n w)
    (doing : d'.doing w.thread = d.doing w.thread) (registry : d'.registry = d.registry) :
    d'.Waits n w := by
  unfold Waits
  rw [doing, registry]
  exact waits

/-- A thread whose push waits is at this queue, and waits. -/
theorem Waits.eq_of_serves {m n : Nat} {w : Waiter Actor Packet} {place : Enqueue → Doing}
    {e : Enqueue} (waits : d.Waits m w) (serves : d.Serves n place)
    (at_ : d.doing w.thread = some (place e)) : m = n ∧ e = .waiting := by
  unfold Waits at waits
  rw [at_] at waits
  rcases serves with plain | ⟨p, entry, reached, entered, serving⟩
  · obtain here | ⟨_, _, here, -⟩ := waits
    · simp_all
    · simp [plain] at here
  · obtain here | ⟨entry', reached', here, entered'⟩ := waits
    · simp [serving] at here
    · obtain ⟨-, rfl, -, rfl⟩ : p = w.item ∧ entry = entry' ∧ reached = reached' ∧ e = .waiting := by
        simpa [serving] using here
      exact ⟨Option.some.inj (entered'.symm.trans entered), rfl⟩

/-- A thread that does not wait goes on to what it may do, and if the registry changes then no other
thread holds it. -/
theorem Sound.of_setDoing (sound : d.Sound) (at_ : d.doing a = y) (awake : isWaiting y = false)
    (same : d'.doing = (d.setDoing a x).doing ∧ d'.subscribers = d.subscribers)
    (others : ∀ b, b ≠ a → d.holder = some b → d'.holder = some b ∧ d'.registry = d.registry)
    (nodup : d'.registry.Nodup)
    (own : ∀ z, x = some z → z.holds → d'.holder = some a)
    (gone : ∀ n, x = some (.removing n) → n ∉ d'.registry)
    (carries : ∀ f, x = some (.publishing f) → f.Carries) : d'.Sound where
  holder b z := by
    rw [same.1, doing_setDoing]
    split
    · next here =>
      intro hz holds
      rw [here]
      exact own z hz holds
    · next other =>
      intro hz holds
      exact (others b other (sound.holder b z hz holds)).1
  nodup := nodup
  gone b n := by
    rw [same.1, doing_setDoing]
    split
    · exact gone n
    · next other =>
      intro hz
      rw [(others b other (sound.holder b _ hz rfl)).2]
      exact sound.gone b n hz
  carries b f := by
    rw [same.1, doing_setDoing]
    split
    · exact carries f
    · exact sound.carries b f
  waits n s there w waits := by
    rw [same.2] at there
    have before := sound.waits n s there w waits
    have other : w.thread ≠ a := by
      intro own
      have asleep := before.isWaiting
      rw [own, at_, awake] at asleep
      simp at asleep
    unfold Waits
    rw [same.1, doing_setDoing, if_neg other]
    rcases before with here | ⟨entry, reached, here, entered⟩
    · exact .inl here
    · right
      refine ⟨entry, reached, here, ?_⟩
      rw [(others _ other (sound.holder _ _ here rfl)).2]
      exact entered

/-- A thread makes an access to the queue it is at. -/
theorem Sound.of_enqueue (sound : d.Sound) {n : Nat} {e e' : Enqueue} {s s' : Subscriber Actor}
    (place : Enqueue → Doing) (at_ : d.doing a = some (place e)) (serves : d.Serves n place)
    (there : d.subscribers[n]? = some s) (last : e.step a s = some (s', e')) :
    ({ d.setDoing a (some (place e')) with subscribers := d.subscribers.set n s' } : Desk).Sound := by
  have holds : (place e').holds = (place e).holds := by
    rcases serves with plain | ⟨p, entry, reached, -, serving⟩ <;> simp [*, Doing.holds]
  refine ⟨?_, sound.nodup, ?_, ?_, ?_⟩
  · intro b z hz
    change (d.setDoing a _).doing b = some z at hz
    rw [doing_setDoing] at hz
    split at hz
    · next here =>
      obtain rfl := Option.some.inj hz
      rw [here, holds]
      exact sound.holder a _ at_
    · exact sound.holder b z hz
  · intro b m hz
    change (d.setDoing a _).doing b = _ at hz
    rw [doing_setDoing] at hz
    split at hz
    · rcases serves with plain | ⟨p, entry, reached, -, serving⟩ <;> simp [*] at hz
    · exact sound.gone b m hz
  · intro b f hz
    change (d.setDoing a _).doing b = _ at hz
    rw [doing_setDoing] at hz
    split at hz
    · rcases serves with plain | ⟨p, entry, reached, -, serving⟩
      · simp [plain] at hz
      · rw [serving] at hz at_
        obtain rfl : Fanout.serve p entry reached e' = f := by simpa using hz
        intro q carried
        exact sound.carries a _ at_ q (Enqueue.packet?_step last carried)
    · exact sound.carries b f hz
  · intro m t found w waits
    change (d.subscribers.set n s')[m]? = some t at found
    -- A push that has waited still waits, unless it is the one of this thread and has got in.
    have old : ∀ v : Waiter Actor Packet, d.Waits m v → v.thread = w.thread → v.item = w.item →
        (e = .waiting → e' = .waiting ∨ w.thread ≠ a ∨ m ≠ n) →
        ({ d.setDoing a (some (place e')) with subscribers := d.subscribers.set n s' } : Desk).Waits
          m w := by
      intro v waited thread item stays
      have before : d.Waits m w := by
        unfold Waits at waited ⊢
        rwa [thread, item] at waited
      refine before.congr ?_ rfl
      show (d.setDoing a _).doing _ = _
      rw [doing_setDoing]
      split
      · next own =>
        obtain ⟨rfl, rfl⟩ := before.eq_of_serves serves (own ▸ at_)
        obtain rfl : e' = .waiting := by simpa [own] using stays rfl
        rw [own, at_]
      · rfl
    rcases subscriber_of_set there found with ⟨rfl, rfl⟩ | ⟨other, found⟩
    · rcases Enqueue.waiting_step last waits with ⟨v, inside, thread, item, stays⟩ | ⟨own, new, rest⟩
      · exact old v (sound.waits m s there v inside) thread item fun asleep =>
          (stays asleep).imp_right .inl
      · unfold Waits
        show (d.setDoing a _).doing _ = _ ∨ ∃ _ _, (d.setDoing a _).doing _ = _ ∧ _
        rw [doing_setDoing, if_pos own, rest]
        rcases serves with plain | ⟨p, entry, reached, entered, serving⟩
        · exact .inl (by rw [plain])
        · right
          rw [serving] at at_ ⊢
          have carried := sound.carries a _ at_ w.item (by rw [new]; rfl)
          exact ⟨entry, reached, by rw [carried], entered⟩
    · exact old w (sound.waits m t found w waits) rfl rfl fun _ => .inr (.inr other)

/-- A thread that publishes goes on, and so does the registry. -/
theorem Sound.of_publishing (sound : d.Sound) {f f' : Fanout}
    (at_ : d.doing a = some (.publishing f)) (awake : isWaiting (some (.publishing f)) = false)
    (carries : f'.Carries) : (d.setDoing a (some (.publishing f'))).Sound := by
  refine sound.of_setDoing at_ awake ⟨rfl, rfl⟩ (fun b other held => ⟨held, rfl⟩) sound.nodup
    (fun _ _ _ => sound.holder _ _ at_ rfl) (by simp) ?_
  rintro g same
  obtain rfl := Doing.publishing.inj (Option.some.inj same)
  exact carries

/-- **The moves keep the holder and those who wait.** -/
theorem Sound.move {w : Mover} {e : Option Relay.Event} (sound : d.Sound) (move : Move w e d d') :
    d'.Sound := by
  -- Behind the lock nobody else holds it.
  have alone : ∀ {a : Actor} {x : Doing}, d.doing a = some x → x.holds →
      ∀ b, b ≠ a → d.holder ≠ some b := by
    intro a x at_ holds b other held
    exact other (Option.some.inj (held.symm.trans (sound.holder a x at_ holds)))
  cases move with
  | stay | read => exact sound
  | take p off free =>
    refine sound.of_setDoing off rfl ⟨rfl, rfl⟩ (by simp [free]) sound.nodup (by simp) (by simp) ?_
    rintro f same
    obtain rfl := Doing.publishing.inj (Option.some.inj same)
    trivial
  | takeToAdd n off free =>
    refine sound.of_setDoing off rfl ⟨rfl, rfl⟩ (by simp [free]) sound.nodup ?_ ?_ ?_ <;> simp
  | takeToRemove off free fewer gone =>
    refine sound.of_setDoing off rfl ⟨rfl, rfl⟩ (by simp [free]) (sound.nodup.sublist fewer) ?_ ?_ ?_
    · simp
    · rintro n same
      simp_all
    · simp
  | sweep next at_ fewer swept =>
    refine sound.of_setDoing at_ rfl ⟨rfl, rfl⟩ (?_) (sound.nodup.sublist fewer)
      (fun _ _ _ => sound.holder _ _ at_ rfl) ?_ ?_
    · intro b other held
      exact absurd held (alone at_ rfl b other)
    · simp
    · rintro f same
      obtain rfl := Doing.publishing.inj (Option.some.inj same)
      trivial
  | swept at_ => exact sound.of_publishing at_ rfl (Fanout.carries_afterSweep _)
  | ask stop at_ => exact sound.of_publishing at_ rfl (Fanout.carries_afterChoice _ _ _ _)
  | served at_ => exact sound.of_publishing at_ rfl (Fanout.carries_afterServe _ _ _)
  | @close _ a f f' at_ before after =>
    have awake : isWaiting (some (.publishing f)) = false := by
      unfold isWaiting
      split <;> simp_all [Fanout.isClosing]
    exact sound.of_publishing at_ awake (Fanout.carries_of_isClosing after)
  | release at_ | pass at_ | remove at_ =>
    refine sound.of_setDoing at_ rfl ⟨rfl, rfl⟩ (fun b other held => ?_) sound.nodup ?_ ?_ ?_
    · exact absurd held (alone at_ rfl b other)
    all_goals simp
  | add at_ fresh =>
    refine sound.of_setDoing at_ rfl ⟨rfl, rfl⟩ (fun b other held => ?_) ?_ ?_ ?_ ?_
    · exact absurd held (alone at_ rfl b other)
    · exact List.nodup_append'.mpr ⟨sound.nodup, List.nodup_singleton _, by simpa using fresh⟩
    all_goals simp
  | enqueue n p off | pushed off =>
    refine sound.of_setDoing off rfl ⟨rfl, rfl⟩ (fun b other held => ⟨held, rfl⟩) sound.nodup ?_ ?_ ?_
    · simp [Doing.holds]
    all_goals simp
  | serve at_ entered there last =>
    exact sound.of_enqueue (fun f => .publishing (.serve _ _ _ f)) at_
      (.inr ⟨_, _, _, entered, fun _ => rfl⟩) there last
  | push at_ there last =>
    exact sound.of_enqueue (.enqueueing _) at_ (.inl fun _ => rfl) there last
  | @tidy _ a n registry at_ fewer swept =>
    have holds : ∃ x, d.doing a = some x ∧ x.holds ∧ isWaiting (some x) = false := by
      rcases at_ with at_ | at_ <;> exact ⟨_, at_, rfl, rfl⟩
    obtain ⟨x, at_, holds, awake⟩ := holds
    have same : d.setDoing a (some x) = d := Relay.setDoing_of_eq at_
    refine sound.of_setDoing at_ awake ⟨by rw [same], rfl⟩ (?_)
      (sound.nodup.sublist fewer) (fun _ _ _ => sound.holder _ _ at_ holds) ?_ ?_
    · intro b other held
      exact absurd held (alone at_ holds b other)
    · intro m own inside
      exact sound.gone a m (at_.trans own) (fewer.mem inside)
    · intro f own
      exact sound.carries a f (at_.trans own)
  | @consume _ n s action there =>
    refine ⟨sound.holder, sound.nodup, sound.gone, sound.carries, ?_⟩
    intro m t found w waits
    change (d.subscribers.set n (s.act action))[m]? = some t at found
    rcases subscriber_of_set there found with ⟨rfl, rfl⟩ | ⟨-, found⟩
    · obtain ⟨v, before, thread, item⟩ := Subscriber.waiting_act action waits
      have stays := sound.waits m s there v before
      unfold Waits at *
      rwa [thread, item] at stays
    · exact sound.waits m t found w waits
  | arrive name suffix capacity =>
    refine ⟨sound.holder, sound.nodup, sound.gone, sound.carries, ?_⟩
    intro m t found w waits
    rcases subscriber_of_append found with found | rfl
    · exact sound.waits m t found w waits
    · -- Nobody waits in a new queue.
      simp [Subscriber.ofName, Queue.ofCapacity] at waits

/-- **What a thread appends that publishes is the packet that it publishes.** -/
theorem Sound.eq_of_appended (sound : d.Sound) {p q : Packet} {entry reached n : Nat} {e : Enqueue}
    {s : Subscriber Actor} (at_ : d.doing a = some (.publishing (.serve p entry reached e)))
    (there : d.subscribers[n]? = some s) (appended : e.appended a s = some q) : q = p := by
  unfold Enqueue.appended at appended
  split at appended
  · split at appended
    · simp at appended
    · obtain rfl := Option.some.inj appended
      exact sound.carries a _ at_ _ rfl
  · split at appended
    · simp at appended
    · obtain ⟨w, found, rfl⟩ := Option.map_eq_some_iff.mp appended
      obtain ⟨inside, own, -⟩ := Queue.notified_of_find? found
      rcases sound.waits n s there w inside with here | ⟨entry', reached', here, -⟩
      · simp [own, at_] at here
      · rw [own, at_] at here
        simp only [Option.some.injEq, Doing.publishing.injEq, Fanout.serve.injEq] at here
        exact here.1.symm
  · simp at appended
  · simp at appended

end Desk

end PacketRelay
