import PacketRelay.Proofs.Record
import PacketRelay.Proofs.Relay.Holder
import PacketRelay.Proofs.Relay.Restart

/-!
# Deliveries to the subscribers

Subscribers come, go and are terminated while packets are handed out, and a delivery may be held up
half way through the registry. What a subscriber gets is told by the record nevertheless: its packets
come in the order of the deliveries, one at most from each, and exactly one from each that is over, has
found the subscriber in the registry, has come to it before it saw a stop, and has found it active. A
subscriber that has been removed gets nothing until it is added again.

The record tells of the queues themselves: whenever it says that a packet has been appended, the queue
has grown by this packet, and the threads that publish do nothing else to a queue.

## Main definitions

* `Delivery.Upto`: a delivery is through with the first entries of the registry
* `Delivery.Tracks`: a delivery is where its thread is
* `Books`: the deliveries of a record fit the state
* `Desk.items`: the packets in the queue of a subscriber
* `Follows`: the queue of a subscriber does what the record says

## Main results

* `Books.move`: a move keeps the books
* `Accounted.move`: so does the record as a whole
* `follows_of_records`: the queues do what the record says
-/

namespace PacketRelay.Relay

open Schedule
open Desk (Move)

section Lists

variable {D : Delivery} {es : List Nat} {k n : Nat}

/-- What a delivery has to append, given whom it has found active. -/
def Delivery.due (D : Delivery) : List (Nat × Packet) :=
  (D.checks.filter (·.2)).map fun c => (c.1, D.packet)

/-- A delivery is through with the first entries of the registry. It has looked at some of them, in
order, and at all of them as long as it saw no stop. -/
structure Delivery.Upto (D : Delivery) (es : List Nat) (k : Nat) : Prop where
  order : (D.checks.map Prod.fst).Sublist (es.take k)
  straight : ∀ i < k, true ∉ D.asked.take (i + 1) → (D.checks.map Prod.fst)[i]? = es[i]?
  gifts : D.gifts = D.due

theorem Delivery.upto_zero (a : Actor) (p : Packet) (entries : Option (List Nat)) (es : List Nat) :
    Delivery.Upto { actor := a, packet := p, entries := entries } es 0 where
  order := by simp
  straight i inside := absurd inside (Nat.not_lt_zero i)
  gifts := rfl

/-- What was not seen at an earlier look was not seen at the first of them. -/
theorem not_mem_take_of_append {xs ys : List Bool} (unseen : true ∉ (xs ++ ys).take k) :
    true ∉ xs.take k := by
  intro seen
  rw [List.take_append] at unseen
  exact unseen (List.mem_append_left _ seen)

/-- Looking for a stop gets a delivery no further. -/
theorem Delivery.Upto.ask (upto : D.Upto es k) (stop : Bool) :
    Delivery.Upto { D with asked := D.asked ++ [stop] } es k where
  order := upto.order
  straight i inside unseen := upto.straight i inside (not_mem_take_of_append unseen)
  gifts := upto.gifts

/-- Once a stop is seen, any number of entries may be passed over. -/
theorem Delivery.Upto.skip {m : Nat} (upto : D.Upto es k) (few : D.asked.length ≤ k) (ahead : k ≤ m) :
    Delivery.Upto { D with asked := D.asked ++ [true] } es m where
  order := upto.order.trans (List.take_sublist_take_left ahead)
  straight i inside unseen := by
    rcases Nat.lt_or_ge i k with before | beyond
    · exact upto.straight i before (not_mem_take_of_append unseen)
    · -- The stop is among the looks that count for this entry.
      have all : (D.asked ++ [true]).length ≤ i + 1 := by
        rw [List.length_append, List.length_singleton]
        omega
      rw [List.take_of_length_le all] at unseen
      simp at unseen
  gifts := upto.gifts

/-- Whoever is through with more entries than there are is through with all. -/
theorem Delivery.Upto.all (upto : D.Upto es k) (beyond : es.length ≤ k) : D.Upto es es.length where
  order := by
    rw [List.take_length]
    exact upto.order.trans (List.take_sublist _ _)
  straight i inside := upto.straight i (Nat.lt_of_lt_of_le inside beyond)
  gifts := upto.gifts

/-- As long as no stop is seen, every entry has been looked at. -/
theorem Delivery.Upto.length_checks (upto : D.Upto es k) (inside : k ≤ es.length)
    (unseen : true ∉ D.asked) : D.checks.length = k := by
  have most : D.checks.length ≤ k := by
    have short := upto.order.length_le
    rw [List.length_map, List.length_take] at short
    omega
  apply Nat.le_antisymm most
  cases k with
  | zero => exact Nat.zero_le _
  | succ k =>
    have looked := upto.straight k (Nat.lt_succ_self k) fun seen =>
      unseen (List.mem_of_mem_take seen)
    have there : k < es.length := inside
    rw [List.getElem?_eq_getElem there, List.getElem?_eq_some_iff] at looked
    obtain ⟨least, -⟩ := looked
    rwa [List.length_map] at least

/-- A delivery that serves the next entry is through with it once it has appended what is due. -/
theorem Delivery.Upto.serve (upto : D.Upto es k) (entered : es[k]? = some n)
    (few : D.asked.length ≤ k + 1) (active : Bool) :
    Delivery.Upto { D with
      checks := D.checks ++ [(n, active)]
      gifts := D.gifts ++ if active then [(n, D.packet)] else [] } es (k + 1) where
  order := by
    have next : es.take (k + 1) = es.take k ++ [n] := by
      rw [List.take_add_one, entered]
      rfl
    rw [next, List.map_append]
    exact upto.order.append (List.Sublist.refl _)
  straight i inside unseen := by
    have there : k < es.length := (List.getElem?_eq_some_iff.mp entered).1
    rw [List.map_append]
    rcases Nat.lt_or_ge i k with before | beyond
    · have looked := upto.straight i before unseen
      rw [List.getElem?_append_left]
      · exact looked
      · rw [List.getElem?_eq_getElem (Nat.lt_trans before there), List.getElem?_eq_some_iff] at looked
        exact looked.1
    · obtain rfl : i = k := by omega
      rw [List.take_of_length_le few] at unseen
      have length := upto.length_checks (Nat.le_of_lt there) unseen
      rw [List.getElem?_append_right (by simp [length]), entered]
      simp [length]
  gifts := by
    rw [upto.gifts]
    cases active <;> simp [Delivery.due]

/-- A delivery has been over all its registry and gives it back. -/
structure Delivery.IsOver (D : Delivery) : Prop where
  completed : D.completed = true
  through : ∃ es, D.entries = some es ∧ es.Nodup ∧ D.Upto es es.length

/-- A delivery is where its thread is. -/
def Delivery.Tracks (es : List Nat) (D : Delivery) : Fanout → Prop
  | .sweep p _ => D = { actor := D.actor, packet := p }
  | .choose p k _ => (D.packet = p ∧ D.entries = some es) ∧ D.Upto es k ∧ D.asked.length ≤ k ∧
      k < es.length
  | .serve p k _ (.check _) => (D.packet = p ∧ D.entries = some es) ∧ D.Upto es k ∧
      D.asked.length ≤ k + 1
  | .serve p k _ .finished => (D.packet = p ∧ D.entries = some es) ∧ D.Upto es (k + 1) ∧
      D.asked.length ≤ k + 1
  | .serve p k _ _ => (D.packet = p ∧ D.entries = some es) ∧ D.asked.length ≤ k + 1 ∧
      ∃ n, es[k]? = some n ∧
        Delivery.Upto { D with gifts := D.gifts ++ [(n, p)] } es (k + 1)
  | f => f.isClosing ∧ D.entries = some es ∧ D.Upto es es.length

variable {p : Packet} {reached : Nat}

theorem Delivery.tracks_of_isClosing {f : Fanout} (closing : f.isClosing)
    (entries : D.entries = some es) (upto : D.Upto es es.length) : D.Tracks es f := by
  cases f <;> simp_all [Fanout.isClosing, Delivery.Tracks]

theorem Delivery.Tracks.closing {f : Fanout} (tracks : D.Tracks es f) (closing : f.isClosing) :
    D.entries = some es ∧ D.Upto es es.length := by
  cases f <;> simp_all [Fanout.isClosing, Delivery.Tracks]

theorem isClosing_close : (Fanout.close p reached).isClosing := by
  unfold Fanout.close
  split <;> rfl

/-- A thread has swept the registry. -/
theorem Delivery.Tracks.swept {entry : Nat} (tracks : D.Tracks es (.sweep p entry)) :
    Delivery.Tracks es { D with entries := some es } (.afterSweep p es.length) := by
  obtain ⟨a, q, entries, asked, checks, gifts, completed⟩ := D
  obtain ⟨rfl, rfl, rfl, rfl, rfl, rfl⟩ : q = p ∧ entries = none ∧ asked = [] ∧ checks = [] ∧
      gifts = [] ∧ completed = false := by
    simpa [Delivery.Tracks] using tracks
  have fresh := Delivery.upto_zero a q (some es) es
  unfold Fanout.afterSweep
  split
  · next empty =>
    apply Delivery.tracks_of_isClosing rfl rfl
    rw [empty]
    exact fresh
  · exact ⟨⟨rfl, rfl⟩, fresh, Nat.zero_le _⟩
  · next none one =>
    refine ⟨⟨rfl, rfl⟩, fresh, Nat.le_refl _, Nat.pos_of_ne_zero ?_⟩
    exact none

/-- A thread has looked for a stop. -/
theorem Delivery.Tracks.asked (tracks : D.Tracks es (.choose p k reached)) (stop : Bool) :
    Delivery.Tracks es { D with asked := D.asked ++ [stop] }
      (.afterChoice p es.length k reached stop) := by
  obtain ⟨this, upto, few, inside⟩ := tracks
  unfold Fanout.afterChoice
  cases stop with
  | false =>
    refine ⟨this, upto.ask false, ?_⟩
    rw [List.length_append]
    exact Nat.add_le_add_right few 1
  | true =>
    dsimp only
    rw [if_pos rfl]
    split
    · exact Delivery.tracks_of_isClosing isClosing_close this.2 (upto.skip few (Nat.le_of_lt inside))
    · next more =>
      have last : k + 1 ≤ es.length - 1 := by omega
      refine ⟨this, upto.skip few (Nat.le_of_succ_le last), ?_, by omega⟩
      rw [List.length_append]
      exact Nat.le_trans (Nat.add_le_add_right few 1) last

/-- A thread has looked whether the subscriber is active. -/
theorem Delivery.Tracks.checked {q : Packet} (tracks : D.Tracks es (.serve p k reached (.check q)))
    (entered : es[k]? = some n) (active : Bool) :
    Delivery.Tracks es { D with checks := D.checks ++ [(n, active)] }
      (.serve p k reached (if active then .push q else .finished)) := by
  obtain ⟨⟨rfl, entries⟩, upto, few⟩ := tracks
  have served := upto.serve entered few active
  cases active with
  | false =>
    refine ⟨⟨rfl, entries⟩, ?_, few⟩
    simpa using served
  | true => exact ⟨⟨rfl, entries⟩, few, n, entered, served⟩

/-- A thread has appended the packet. -/
theorem Delivery.Tracks.pushed {e : Enqueue} (tracks : D.Tracks es (.serve p k reached e))
    (entered : es[k]? = some n) (due : (∃ q, e = .push q) ∨ e = .waiting) :
    Delivery.Tracks es { D with gifts := D.gifts ++ [(n, p)] } (.serve p k reached .finished) := by
  obtain ⟨this, few, m, there, upto⟩ : (D.packet = p ∧ D.entries = some es) ∧
      D.asked.length ≤ k + 1 ∧ ∃ n, es[k]? = some n ∧
        Delivery.Upto { D with gifts := D.gifts ++ [(n, p)] } es (k + 1) := by
    rcases due with ⟨q, rfl⟩ | rfl <;> exact tracks
  obtain rfl : n = m := Option.some.inj (entered.symm.trans there)
  exact ⟨this, upto, few⟩

/-- A thread has found the queue full. -/
theorem Delivery.Tracks.waits {e : Enqueue} (tracks : D.Tracks es (.serve p k reached e))
    (due : (∃ q, e = .push q) ∨ e = .waiting) : D.Tracks es (.serve p k reached .waiting) := by
  rcases due with ⟨q, rfl⟩ | rfl <;> exact tracks

/-- A thread is done with an entry. -/
theorem Delivery.Tracks.served (tracks : D.Tracks es (.serve p k reached .finished)) :
    D.Tracks es (.afterServe p es.length k reached) := by
  obtain ⟨this, upto, few⟩ := tracks
  unfold Fanout.afterServe
  split
  · next more => exact ⟨this, upto, few, more⟩
  · next last => exact Delivery.tracks_of_isClosing isClosing_close this.2 (upto.all (Nat.not_lt.mp last))

end Lists

section Books

variable {d d' : Desk} {ds : List Delivery} {a : Actor} {f f' : Fanout}

/-- The deliveries of a record, last one first, fit the state: the last one belongs to the thread that
publishes, if there is one, and all others are over. -/
def Books (d : Desk) (ds : List Delivery) : Prop :=
  ∃ past, (∀ D ∈ past, D.IsOver) ∧
    ((ds = past ∧ ∀ a f, d.doing a ≠ some (.publishing f)) ∨
      ∃ D f, ds = D :: past ∧ D.completed = false ∧ d.doing D.actor = some (.publishing f) ∧
        D.Tracks d.registry f)

/-- The thread that publishes has the last delivery. -/
theorem Books.current (books : Books d ds) (sound : d.Sound)
    (at_ : d.doing a = some (.publishing f)) :
    ∃ D past, ds = D :: past ∧ (∀ D ∈ past, D.IsOver) ∧ D.completed = false ∧ D.actor = a ∧
      D.Tracks d.registry f := by
  obtain ⟨past, done, ⟨-, nobody⟩ | ⟨D, g, rfl, running, here, tracks⟩⟩ := books
  · exact absurd at_ (nobody a f)
  · obtain rfl : D.actor = a := sound.unique here rfl at_ rfl
    obtain rfl : g = f := by simpa using here.symm.trans at_
    exact ⟨D, past, rfl, done, running, rfl, tracks⟩

theorem Books.isOver_of_idle (books : Books d ds) (idle : ∀ a f, d.doing a ≠ some (.publishing f)) :
    ∀ D ∈ ds, D.IsOver := by
  obtain ⟨past, done, ⟨rfl, -⟩ | ⟨D, g, -, -, here, -⟩⟩ := books
  · exact done
  · exact absurd here (idle D.actor g)

theorem Books.of_tracks {D : Delivery} {past : List Delivery} (done : ∀ D ∈ past, D.IsOver)
    (running : D.completed = false) (at_ : d.doing D.actor = some (.publishing f))
    (tracks : D.Tracks d.registry f) : Books d (D :: past) :=
  ⟨past, done, .inr ⟨D, f, rfl, running, at_, tracks⟩⟩

/-- The books stay as they are if no thread that publishes is concerned. -/
theorem Books.of_same (books : Books d ds)
    (same : ∀ a f, d'.doing a = some (.publishing f) ↔ d.doing a = some (.publishing f))
    (registry : ∀ a f, d.doing a = some (.publishing f) → d'.registry = d.registry) :
    Books d' ds := by
  obtain ⟨past, done, ⟨rfl, nobody⟩ | ⟨D, g, rfl, running, here, tracks⟩⟩ := books
  · exact ⟨ds, done, .inl ⟨rfl, fun a f there => nobody a f ((same a f).mp there)⟩⟩
  · refine .of_tracks done running ((same D.actor g).mpr here) ?_
    rw [registry D.actor g here]
    exact tracks

/-- A thread that does not publish goes on to something else. -/
theorem publishing_iff_of_setDoing {x y : Option Doing} (at_ : d.doing a = y)
    (doing : d'.doing = (d.setDoing a x).doing) (before : ∀ f, y ≠ some (.publishing f))
    (after : ∀ f, x ≠ some (.publishing f)) (b : Actor) (f : Fanout) :
    d'.doing b = some (.publishing f) ↔ d.doing b = some (.publishing f) := by
  rw [doing, Desk.doing_setDoing]
  split
  · next here =>
    rw [here, at_]
    exact iff_of_false (after f) (before f)
  · rfl

theorem Books.of_setDoing {x y : Option Doing} (books : Books d ds) (at_ : d.doing a = y)
    (doing : d'.doing = (d.setDoing a x).doing) (before : ∀ f, y ≠ some (.publishing f))
    (after : ∀ f, x ≠ some (.publishing f))
    (registry : ∀ a f, d.doing a = some (.publishing f) → d'.registry = d.registry) :
    Books d' ds :=
  books.of_same (publishing_iff_of_setDoing at_ doing before after) registry

@[simp] theorem amend_cons_self {D : Delivery} {change : Delivery → Delivery} :
    amend D.actor change (D :: ds) = change D :: ds := if_pos rfl

theorem doing_setDoing_self {x : Option Doing} : (d.setDoing a x).doing a = x := by
  simp [Desk.doing_setDoing]

theorem eq_dequeued_of_observeAction {n : Nat} {s : Subscriber Actor}
    {action : Subscriber.Action Actor} {e : Event} (shown : Desk.observeAction n s action = some e) :
    ∃ p, e = .dequeued n p := by
  cases action with
  | dequeue pick =>
    obtain ⟨p, -, rfl⟩ := Option.map_eq_some_iff.mp shown
    exact ⟨p, rfl⟩
  | _ => simp [Desk.observeAction] at shown

/-- **A move keeps the books.** -/
theorem Books.move {w : Desk.Mover} {e : Option Event} (books : Books d ds) (sound : d.Sound) (move : Move w e d d') :
    Books d' (e.toList.foldl enter ds) := by
  cases move with
  | stay | read => exact books
  | @take _ a p off free =>
    have done := books.isOver_of_idle (sound.not_publishing_of_free free)
    exact .of_tracks done rfl doing_setDoing_self rfl
  | sweep next at_ fewer swept =>
    obtain ⟨D, past, rfl, done, running, rfl, tracks⟩ := books.current sound at_
    exact .of_tracks done running doing_setDoing_self tracks
  | swept at_ =>
    obtain ⟨D, past, rfl, done, running, rfl, tracks⟩ := books.current sound at_
    simp only [Option.toList_some, List.foldl_cons, List.foldl_nil, enter, amend_cons_self]
    exact .of_tracks done running doing_setDoing_self tracks.swept
  | ask stop at_ =>
    obtain ⟨D, past, rfl, done, running, rfl, tracks⟩ := books.current sound at_
    simp only [Option.toList_some, List.foldl_cons, List.foldl_nil, enter, amend_cons_self]
    exact .of_tracks done running doing_setDoing_self (tracks.asked stop)
  | @serve _ a p entry reached n e e' s s' at_ entered there last =>
    obtain ⟨D, past, rfl, done, running, rfl, tracks⟩ := books.current sound at_
    rcases Enqueue.step_cases last with ⟨q, rfl, rfl⟩ | ⟨due, ⟨full, rfl⟩ | ⟨q, appended, rfl⟩⟩
    · simp only [observeEnqueue, Option.toList_some, List.foldl_cons, List.foldl_nil, enter,
        amend_cons_self]
      exact .of_tracks done running doing_setDoing_self (tracks.checked entered s.active)
    · have shown : observeEnqueue D.actor n s e = none := by
        rcases due with ⟨q, rfl⟩ | rfl <;> simp [observeEnqueue, full]
      rw [shown]
      exact .of_tracks done running doing_setDoing_self (tracks.waits due)
    · have shown : observeEnqueue D.actor n s e = some (.pushed D.actor n q) := by
        rcases due with ⟨q, rfl⟩ | rfl <;> simp [observeEnqueue, appended]
      obtain rfl := sound.eq_of_appended at_ there appended
      rw [shown]
      simp only [Option.toList_some, List.foldl_cons, List.foldl_nil, enter, amend_cons_self]
      exact .of_tracks done running doing_setDoing_self (tracks.pushed entered due)
  | served at_ =>
    obtain ⟨D, past, rfl, done, running, rfl, tracks⟩ := books.current sound at_
    exact .of_tracks done running doing_setDoing_self tracks.served
  | close at_ before after =>
    obtain ⟨D, past, rfl, done, running, rfl, tracks⟩ := books.current sound at_
    obtain ⟨entries, upto⟩ := tracks.closing before
    exact .of_tracks done running doing_setDoing_self (Delivery.tracks_of_isClosing after entries upto)
  | @release _ a reached at_ =>
    obtain ⟨D, past, rfl, done, running, rfl, tracks⟩ := books.current sound at_
    obtain ⟨entries, upto⟩ := tracks.closing rfl
    simp only [Option.toList_some, List.foldl_cons, List.foldl_nil, enter, amend_cons_self]
    have finished : Delivery.IsOver { D with completed := true } :=
      ⟨rfl, d.registry, entries, sound.nodup, upto.order, upto.straight, upto.gifts⟩
    refine ⟨_, List.forall_mem_cons.mpr ⟨finished, done⟩, .inl ⟨rfl, ?_⟩⟩
    intro b f there
    change (d.setDoing D.actor none).doing b = _ at there
    rw [Desk.doing_setDoing] at there
    split at there
    · simp at there
    · next other => exact other (sound.unique there rfl at_ rfl)
  | enqueue n p off => exact books.of_setDoing off rfl (by simp) (by simp) fun _ _ _ => rfl
  | push at_ there last | pushed at_ =>
    exact books.of_setDoing at_ rfl (by simp) (by simp) fun _ _ _ => rfl
  | takeToAdd n off free => exact books.of_setDoing off rfl (by simp) (by simp) fun _ _ _ => rfl
  | takeToRemove off free fewer gone =>
    exact books.of_setDoing off rfl (by simp) (by simp) fun b f there =>
      absurd there (sound.not_publishing_of_free free b f)
  | tidy at_ fewer swept =>
    refine books.of_same (fun _ _ => Iff.rfl) ?_
    intro b f there
    rcases at_ with at_ | at_ <;> exact absurd there (sound.not_publishing at_ rfl (by simp) b f)
  | add at_ fresh =>
    exact books.of_setDoing at_ rfl (by simp) (by simp) fun b f there =>
      absurd there (sound.not_publishing at_ rfl (by simp) b f)
  | pass at_ | remove at_ => exact books.of_setDoing at_ rfl (by simp) (by simp) fun _ _ _ => rfl
  | @consume _ n s action there =>
    have same : Books { d with subscribers := d.subscribers.set n (s.act action) } ds :=
      books.of_same (fun _ _ => Iff.rfl) fun _ _ _ => rfl
    cases shown : Desk.observeAction n s action with
    | none => exact same
    | some x =>
      obtain ⟨q, rfl⟩ := eq_dequeued_of_observeAction shown
      exact same
  | arrive => exact books.of_same (fun _ _ => Iff.rfl) fun _ _ _ => rfl

end Books

section Gifts

variable {D : Delivery} {s : Nat}

/-- What a delivery has appended is what is due, as far as it has come, and it has looked at nobody
twice. -/
structure Delivery.IsFair (D : Delivery) : Prop where
  once : (D.checks.map Prod.fst).Nodup
  gifts : D.gifts <+: D.due

theorem Delivery.Upto.isFair {es : List Nat} {k : Nat} (upto : D.Upto es k) (nodup : es.Nodup) :
    D.IsFair where
  once := (nodup.sublist (List.take_sublist k es)).sublist upto.order
  gifts := upto.gifts ▸ List.prefix_refl _

theorem Delivery.Tracks.isFair {es : List Nat} {f : Fanout} (tracks : D.Tracks es f)
    (nodup : es.Nodup) : D.IsFair := by
  have awaits : ∀ {p : Packet} {k n : Nat},
      Delivery.Upto { D with gifts := D.gifts ++ [(n, p)] } es k → D.IsFair := fun upto =>
    ⟨(upto.isFair nodup).once, (List.prefix_append _ _).trans (upto.isFair nodup).gifts⟩
  cases f with
  | checkStop | checkStarted | acquire | finished => simp [Delivery.Tracks, Fanout.isClosing] at tracks
  | sweep p entry =>
    rw [show D = _ from tracks]
    exact ⟨List.nodup_nil, List.prefix_refl _⟩
  | choose p k reached => exact tracks.2.1.isFair nodup
  | serve p k reached e =>
    cases e with
    | check | finished => exact tracks.2.1.isFair nodup
    | push | waiting =>
      obtain ⟨-, -, n, -, upto⟩ := tracks
      exact awaits upto
  | _ => exact (tracks.closing rfl).2.isFair nodup

/-- What is due to a subscriber is told by what was found about it. -/
theorem Delivery.filter_due : D.due.filter (fun g => g.1 = s) =
    ((D.checks.filter fun c => c.1 = s).filter (·.2)).map fun c => (c.1, D.packet) := by
  unfold Delivery.due
  rw [List.filter_map, List.filter_filter, List.filter_filter]
  congr 2
  funext c
  simp [Bool.and_comm]

/-- A delivery gives a subscriber its packet or nothing. -/
theorem Delivery.IsFair.giftsTo (fair : D.IsFair) (s : Nat) :
    D.giftsTo s = [] ∨ D.giftsTo s = [D.packet] := by
  have most : ((D.due.filter fun g => g.1 = s).map Prod.snd) = [] ∨
      ((D.due.filter fun g => g.1 = s).map Prod.snd) = [D.packet] := by
    rw [Delivery.filter_due]
    by_cases looked : ∃ active, (s, active) ∈ D.checks
    · obtain ⟨active, there⟩ := looked
      rw [filter_key_eq_singleton fair.once there]
      cases active <;> simp
    · left
      have none : D.checks.filter (fun c => c.1 = s) = [] := by
        refine List.filter_eq_nil_iff.mpr fun c inside same => looked ⟨c.2, ?_⟩
        rw [← of_decide_eq_true same]
        exact inside
      simp [none]
  have part : D.giftsTo s <+: (D.due.filter fun g => g.1 = s).map Prod.snd :=
    (fair.gifts.filter _).map _
  rcases most with none | one
  · rw [none] at part
    exact .inl (List.prefix_nil.mp part)
  · rw [one] at part
    rcases List.prefix_cons_iff.mp part with nil | ⟨rest, whole, short⟩
    · exact .inl nil
    · right
      rw [whole, List.prefix_nil.mp short]

/-- A delivery that is over has given its packet to whom it has found active. -/
theorem Delivery.giftsTo_of_check {active : Bool} (once : (D.checks.map Prod.fst).Nodup)
    (gifts : D.gifts = D.due) (there : (s, active) ∈ D.checks) :
    D.giftsTo s = if active then [D.packet] else [] := by
  unfold Delivery.giftsTo
  rw [gifts, Delivery.filter_due, filter_key_eq_singleton once there]
  cases active <;> simp

end Gifts

end PacketRelay.Relay

namespace PacketRelay.Desk

open Relay (pushedTo observeEnqueue)

variable {d d' : Desk} {w : Mover} {e : Option Relay.Event} {s n : Nat} {a : Actor}

/-- The packets in the queue of a subscriber. -/
def items (d : Desk) (s : Nat) : List Packet :=
  d.subscribers[s]?.elim [] fun x => x.queue.items

theorem items_of_set {x x' : Subscriber Actor} (there : d.subscribers[n]? = some x)
    (same : d'.subscribers = d.subscribers.set n x') :
    d'.items s = if n = s then x'.queue.items else d.items s := by
  unfold items
  rw [same, List.getElem?_set]
  split
  · rw [if_pos (List.getElem?_eq_some_iff.mp there).1]
    rfl
  · rfl

/-- A subscriber that comes has nothing in its queue. -/
theorem items_of_append {x : Subscriber Actor} (same : d'.subscribers = d.subscribers ++ [x])
    (empty : x.queue.items = []) : d'.items s = d.items s := by
  unfold items
  rw [same, getElem?_snoc]
  split
  · next new => simp [new, empty]
  · rfl

/-- What a thread appends to the queue of a subscriber comes behind what is in it. -/
theorem items_serve {x x' : Subscriber Actor} {f f' : Enqueue} (there : d.subscribers[n]? = some x)
    (last : f.step a x = some (x', f')) :
    (if n = s then x'.queue.items else d.items s) =
      d.items s ++ pushedTo s (observeEnqueue a n x f).toList := by
  have shown : pushedTo s (observeEnqueue a n x f).toList =
      if n = s then (f.appended a x).toList else [] := by
    cases f with
    | check p => simp [observeEnqueue, Enqueue.appended, pushedTo]
    | push | waiting | finished =>
      simp only [observeEnqueue]
      cases Enqueue.appended a x _ with
      | none => simp [pushedTo]
      | some q => exact Relay.pushedTo_singleton
  rw [shown]
  split
  · next here =>
    subst here
    rw [(Enqueue.items_step last).1]
    simp [items, there]
  · simp

theorem pushedTo_observeAction {x : Subscriber Actor} {action : Subscriber.Action Actor} :
    pushedTo s (observeAction n x action).toList = [] := by
  cases shown : observeAction n x action with
  | none => rfl
  | some y =>
    obtain ⟨p, rfl⟩ := Relay.eq_dequeued_of_observeAction shown
    rfl

/-- **A queue changes by what is shown to be appended to it**, unless a consumer of the subscriber acts
or a thread puts a packet into this queue alone. -/
theorem items_of_move (move : Move w e d d') (other : ∀ action, w ≠ .consumer s action)
    (elsewhere : ∀ a f, w = .thread a → d.doing a ≠ some (.enqueueing s f)) :
    d'.items s = d.items s ++ pushedTo s e.toList := by
  cases move with
  | serve at_ entered there last =>
    rw [items_of_set there rfl]
    exact items_serve there last
  | @push _ a n f _ x x' at_ there last =>
    have ne : n ≠ s := by
      rintro rfl
      exact elsewhere a f rfl at_
    rw [items_of_set there rfl, if_neg ne]
    exact (List.append_nil _).symm
  | @consume _ n x action there =>
    have ne : n ≠ s := by
      rintro rfl
      exact other action rfl
    rw [items_of_set there rfl, if_neg ne, pushedTo_observeAction, List.append_nil]
  | arrive => exact (items_of_append rfl rfl).trans (List.append_nil _).symm
  | _ => exact (List.append_nil _).symm

end PacketRelay.Desk

namespace PacketRelay.Relay

open Schedule
open Desk (Move)

section Records

variable {w : Desk.Mover} {d d' : Desk} {ds : List Delivery} {log : List Event} {e : Option Event}
  {s : Nat}

/-- Nobody comes into the registry unless a call adds it. -/
theorem mem_registry_of_move (move : Move w e d d') (inside : s ∈ d'.registry) :
    s ∈ d.registry ∨ e = some (.subscribed s) := by
  cases move with
  | sweep next at_ fewer swept => exact .inl (fewer.mem inside)
  | takeToRemove off free fewer gone => exact .inl (fewer.mem inside)
  | tidy at_ fewer swept => exact .inl (fewer.mem inside)
  | add at_ fresh =>
    rcases List.mem_append.mp inside with old | new
    · exact .inl old
    · exact .inr (by rw [List.mem_singleton.mp new])
  | _ => exact .inl inside

/-- A thread that serves an entry shows whether it is active, or what is appended. -/
theorem eq_of_observeEnqueue {a : Actor} {n : Nat} {x : Subscriber Actor} {f : Enqueue} {shown : Event}
    (shows : observeEnqueue a n x f = some shown) : (∃ active, shown = .checked a n active) ∨
      ∃ p, f.appended a x = some p ∧ shown = .pushed a n p := by
  cases f with
  | check q => exact .inl ⟨x.active, (Option.some.inj shows).symm⟩
  | push | waiting =>
    obtain ⟨p, appended, rfl⟩ := Option.map_eq_some_iff.mp shows
    exact .inr ⟨p, appended, rfl⟩
  | finished => simp [observeEnqueue, Enqueue.appended] at shows

/-- When a call returns that has removed a subscriber, the subscriber is not there. -/
theorem not_mem_of_unsubscribed (sound : d.Sound) (move : Move w (some (.unsubscribed s)) d d') :
    s ∉ d'.registry := by
  generalize shown : some (Event.unsubscribed s) = e at move
  cases move with
  | @remove _ a n at_ =>
    obtain rfl : s = n := by simpa using shown
    exact sound.gone a s at_
  | serve =>
    rcases eq_of_observeEnqueue shown.symm with ⟨_, same⟩ | ⟨_, -, same⟩ <;> cases same
  | consume =>
    obtain ⟨_, same⟩ := eq_dequeued_of_observeAction shown.symm
    cases same
  | _ => simp at shown

/-- Whoever appends a packet publishes it and serves somebody in the registry. -/
theorem serves_of_pushed {a : Actor} {p : Packet} (sound : d.Sound)
    (move : Move w (some (.pushed a s p)) d d') : s ∈ d.registry ∧
      ∃ entry reached e, d.doing a = some (.publishing (.serve p entry reached e)) := by
  generalize shown : some (Event.pushed a s p) = e at move
  cases move with
  | @serve _ b q entry reached n e e' x x' at_ entered there last =>
    rcases eq_of_observeEnqueue shown.symm with ⟨_, same⟩ | ⟨r, appended, same⟩
    · cases same
    obtain ⟨rfl, rfl, rfl⟩ : a = b ∧ s = n ∧ p = r := by simpa using same
    obtain rfl := sound.eq_of_appended at_ there appended
    exact ⟨List.mem_of_getElem? entered, entry, reached, e, at_⟩
  | consume =>
    obtain ⟨_, same⟩ := eq_dequeued_of_observeAction shown.symm
    cases same
  | _ => simp at shown

theorem isGone_of_append (gone : isGone s (log ++ e.toList)) (other : e ≠ some (.unsubscribed s)) :
    isGone s log ∧ e ≠ some (.subscribed s) := by
  cases e with
  | none => simpa using gone
  | some x =>
    simp only [isGone, Option.toList_some, List.foldl_append, List.foldl_cons, List.foldl_nil]
      at gone
    cases x <;> grind [isGone]

theorem map_giftsTo_amend {a : Actor} {change : Delivery → Delivery}
    (keeps : ∀ D, (change D).giftsTo s = D.giftsTo s) :
    (amend a change ds).map (Delivery.giftsTo s) = ds.map (Delivery.giftsTo s) := by
  induction ds with
  | nil => rfl
  | cons D ds ih =>
    unfold amend
    split
    · simp [keeps]
    · simp [ih]

/-- What a thread appends is entered into the last delivery, and nothing else is a gift. -/
theorem flatMap_giftsTo_enter (x : Event)
    (last : ∀ a n p, x = .pushed a n p → ∃ D past, ds = D :: past ∧ D.actor = a) :
    (enter ds x).reverse.flatMap (Delivery.giftsTo s) =
      ds.reverse.flatMap (Delivery.giftsTo s) ++ pushedTo s [x] := by
  have still : ∀ (a : Actor) (change : Delivery → Delivery),
      (∀ D, (change D).giftsTo s = D.giftsTo s) →
      (amend a change ds).reverse.flatMap (Delivery.giftsTo s) =
        ds.reverse.flatMap (Delivery.giftsTo s) := by
    intro a change keeps
    rw [List.flatMap_def, List.flatMap_def, List.map_reverse, List.map_reverse,
      map_giftsTo_amend keeps]
  cases x with
  | pushed a n p =>
    obtain ⟨D, past, rfl, rfl⟩ := last a n p rfl
    simp only [enter, amend_cons_self, List.reverse_cons, List.flatMap_append, List.append_assoc]
    congr 1
    by_cases own : n = s <;> simp [Delivery.giftsTo, pushedTo, own]
  | took a p => simp [enter, pushedTo, Delivery.giftsTo]
  | swept a | asked a | checked a | released a =>
    refine (still a _ ?_).trans (List.append_nil _).symm
    intro _
    rfl
  | _ => simp [enter, pushedTo]

/-- What a record tells, and how it fits the state it leads to. -/
structure Accounted (log : List Event) (d : Desk) : Prop where
  sound : d.Sound
  books : Books d (ledger log)
  pushed : ∀ s, pushedTo s log = (deliveries log).flatMap (Delivery.giftsTo s)
  gone : ∀ s, isGone s log → s ∉ d.registry
  quiet : ∀ before a s p, before ++ [.pushed a s p] <+: log → isGone s before = false

theorem ledger_append_toList : ledger (log ++ e.toList) = e.toList.foldl enter (ledger log) := by
  simp [ledger, List.foldl_append]

/-- **The record and the state stay in keeping.** -/
theorem Accounted.move (accounted : Accounted log d) (move : Move w e d d') :
    Accounted (log ++ e.toList) d' := by
  have sound := accounted.sound
  refine ⟨sound.move move, ?_, ?_, ?_, ?_⟩
  · rw [ledger_append_toList]
    exact accounted.books.move sound move
  · intro s
    rw [deliveries, ledger_append_toList, pushedTo, List.filterMap_append]
    have before := accounted.pushed s
    cases e with
    | none => simpa [pushedTo, deliveries] using before
    | some x =>
      refine Eq.trans ?_ (flatMap_giftsTo_enter x ?_).symm
      · rw [← deliveries, ← before]
        rfl
      · rintro a n p rfl
        obtain ⟨-, entry, reached, e, at_⟩ := serves_of_pushed sound move
        obtain ⟨D, past, same, -, -, actor, -⟩ := accounted.books.current sound at_
        exact ⟨D, past, same, actor⟩
  · intro s gone
    by_cases removed : e = some (.unsubscribed s)
    · subst removed
      exact not_mem_of_unsubscribed sound move
    · obtain ⟨before, other⟩ := isGone_of_append gone removed
      intro inside
      exact accounted.gone s before ((mem_registry_of_move move inside).resolve_right other)
  · intro before a s p told
    cases e with
    | none => exact accounted.quiet before a s p (by simpa using told)
    | some x =>
      rw [Option.toList_some, List.prefix_concat_iff] at told
      rcases told with same | earlier
      · -- The subscriber is served out of the registry, and who is gone is not there.
        obtain ⟨rfl, last⟩ := List.append_inj' same rfl
        obtain rfl : Event.pushed a s p = x := by simpa using last
        by_contra gone
        exact accounted.gone s (by simpa using gone) (serves_of_pushed sound move).1
      · exact accounted.quiet before a s p earlier

theorem doing_ofSettings {settings : PublisherSettings} (a : Actor) :
    (ofSettings settings).desk.doing a = none := by
  cases a with
  | call n => rfl
  | reader run =>
    show ((ofSettings settings).task.target? run).bind _ = none
    rw [target?_ofSettings]
    rfl

theorem accounted_ofSettings {settings : PublisherSettings} :
    Accounted [] (ofSettings settings).desk where
  sound := by
    refine ⟨?_, List.nodup_nil, ?_, ?_, ?_⟩
    · intro a x at_
      simp [doing_ofSettings] at at_
    · intro a n at_
      simp [doing_ofSettings] at at_
    · intro a f at_
      simp [doing_ofSettings] at at_
    · intro n s at_
      simp [desk, ofSettings] at at_
  books := by
    refine ⟨[], by simp, .inl ⟨rfl, ?_⟩⟩
    intro a f
    simp [doing_ofSettings]
  pushed s := rfl
  gone s gone := by simp [isGone] at gone
  quiet before a s p told := by simp at told

variable {settings : PublisherSettings} {r : Relay}

theorem sound_of_reaches (run : Reaches step (ofSettings settings) r) : r.control.Sound :=
  (keeper_of_reaches run).1

theorem accounted (run : Records step Admitted observe (ofSettings settings) log r) :
    Accounted log r.desk := by
  induction run with
  | refl => exact accounted_ofSettings
  | tail run admitted last ih => exact ih.move (desk_step (sound_of_reaches run.reaches) admitted last)

/-- A thread that puts a packet into a single queue is a call made for this. -/
theorem exists_call_of_enqueueing {a : Actor} {f : Enqueue}
    (at_ : r.desk.doing a = some (.enqueueing s f)) :
    ∃ n, a = .call n ∧ r.calls[n]? = some (.enqueue s f) := by
  cases a with
  | call n =>
    obtain ⟨stage, here, does⟩ := Option.bind_eq_some_iff.mp at_
    refine ⟨n, rfl, here.trans (congrArg some ?_)⟩
    cases stage with
    | enqueue m g =>
      obtain ⟨rfl, rfl⟩ : m = s ∧ g = f := by simpa [CallStage.doing] using does
      rfl
    | publish g =>
      simp only [CallStage.doing, Fanout.doing] at does
      split at does <;> simp at does
    | subscribe m at_ | unsubscribe m at_ => cases at_ <;> simp [CallStage.doing] at does
    | _ => simp [CallStage.doing] at does
  | reader run =>
    obtain ⟨reader, -, does⟩ := Option.bind_eq_some_iff.mp at_
    cases at_ : reader.at_ with
    | publish g =>
      simp only [at_, Reading.doing, Fanout.doing] at does
      split at does <;> simp at does
    | _ => simp [at_, Reading.doing] at does

/-- **A queue changes by what a step shows to be appended to it**, unless a consumer of the subscriber
acts or a call puts a packet into this queue alone. -/
theorem items_step {l : Label} {r' : Relay} (sound : r.control.Sound) (admitted : Admitted l)
    (last : r.step l = some r') (other : ∀ action, l ≠ .consumer s action)
    (elsewhere : ∀ n f, l = .call n → r.calls[n]? ≠ some (.enqueue s f)) :
    r'.desk.items s = r.desk.items s ++ pushedTo s (r.observe l).toList := by
  refine Desk.items_of_move (desk_step sound admitted last) ?_ ?_
  · intro action same
    cases l with
    | consumer n action' =>
      obtain ⟨rfl, rfl⟩ : n = s ∧ action' = action := by simpa [mover] using same
      exact other action' rfl
    | _ => simp [mover] at same
  · intro a f same at_
    obtain ⟨n, rfl, here⟩ := exists_call_of_enqueueing at_
    cases l with
    | begin call =>
      obtain rfl : r.calls.length = n := by simpa [mover] using same
      simp at here
    | call m =>
      obtain rfl : m = n := by simpa [mover] using same
      exact elsewhere m f rfl here
    | _ => simp [mover] at same

/-- The queue of a subscriber does what the record says. -/
structure Follows (settings : PublisherSettings) (s : Nat) (log : List Event) (r : Relay) : Prop where
  /-- When a push shows, the queue has grown by its packet. -/
  grown : ∀ before a p after, log = before ++ .pushed a s p :: after → ∃ t l t',
    Records step Admitted observe (ofSettings settings) before t ∧ t.step l = some t' ∧
    t.observe l = some (.pushed a s p) ∧ t'.desk.items s = t.desk.items s ++ [p] ∧
    Records step Admitted observe t' after r
  /-- Nothing else happens to it, unless a consumer acts or a call puts a packet into it alone. -/
  still : ∀ l r', Admitted l → r.step l = some r' → (∀ action, l ≠ .consumer s action) →
    (∀ n f, l = .call n → r.calls[n]? ≠ some (.enqueue s f)) →
    r'.desk.items s = r.desk.items s ++ pushedTo s (r.observe l).toList

/-- A push that shows is a step that has grown the queue. -/
theorem Follows.exists_of_mem {a : Actor} {p : Packet} (follows : Follows settings s log r)
    (told : .pushed a s p ∈ log) : ∃ t t' : Relay, ∃ l, t.step l = some t' ∧
      t.observe l = some (.pushed a s p) ∧ t'.desk.items s = t.desk.items s ++ [p] := by
  obtain ⟨before, after, split⟩ := List.append_of_mem told
  obtain ⟨t, l, t', -, last, shown, grown, -⟩ := follows.grown before a p after split
  exact ⟨t, t', l, last, shown, grown⟩

/-- **The queues do what a record says.** -/
theorem follows_of_records (run : Records step Admitted observe (ofSettings settings) log r) :
    Follows settings s log r where
  grown before a p after split := by
    obtain ⟨t, l, t', earlier, admitted, last, shown, later⟩ := run.exists_admitted_of_split split
    refine ⟨t, l, t', earlier, last, shown, ?_, later⟩
    have grows := items_step (s := s) (sound_of_reaches earlier.reaches) admitted last ?_ ?_
    · rwa [shown, Option.toList_some, pushedTo_singleton, if_pos rfl] at grows
    · rintro action rfl
      cases action with
      | dequeue pick =>
        obtain ⟨x, -, shown⟩ := Option.bind_eq_some_iff.mp shown
        obtain ⟨q, -, same⟩ := Option.map_eq_some_iff.mp shown
        cases same
      | _ => simp [observe] at shown
    · rintro n f rfl here
      simp [observe, here, observeCall] at shown
  still l r' admitted last other elsewhere :=
    items_step (sound_of_reaches run.reaches) admitted last other elsewhere

end Records

end PacketRelay.Relay
