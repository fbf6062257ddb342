import PacketRelay.Proofs.Relay.Handout

/-!
# What publishing reports

A thread that publishes reports how many subscribers its packet has reached, and the counters of the
publisher grow by the packet if that is at least one. Both go by the subscribers that the thread has
come to. One that is terminated after the sweep and before its turn accepts nothing: the thread
comes to it all the same, and its queue gets nothing. So the report is the number of queues that the
packet has been appended to, and of the subscribers that have refused it, together. The queues grow
by what the deliveries append, and by nothing else that is published.

## Main definitions

* `Delivery.refused`: the subscribers that were found terminated
* `Delivery.count`: what a delivery adds to the counters
* `Delivery.Counts`: a delivery and the counters are where the thread is
* `Fanout.Tells`: what a call knows of its delivery

## Main results

* `Delivery.Counts.step`: an access of the thread keeps its count
* `Reported.step`: the record, the reports and the counters stay in keeping
* `reached_eq_gifts_iff`: the report is right exactly if nobody has refused the packet
-/

namespace PacketRelay

/-- The counters after a packet that has reached a subscriber. -/
def Counters.countPacket (c : Counters) (p : Packet) : Counters :=
  let c := c.countPublished.countBytes p.size
  if p.isKeyframe then c.countKeyframe else c

namespace Relay

open Schedule

/-- The subscribers that a delivery has come to and found terminated. -/
def Delivery.refused (D : Delivery) : List Nat :=
  (D.checks.filter fun c => !c.2).map (·.1)

/-- The counters after a delivery. It counts if it has come to a subscriber, and it counts as
discarded if there was none in the registry. -/
def Delivery.count (c : Counters) (D : Delivery) : Counters :=
  if D.checks ≠ [] then c.countPacket D.packet
  else if D.entries = some [] then c.countDiscarded
  else c

/-- The counters after some deliveries, of which the last one comes first. -/
def tally (ds : List Delivery) : Counters :=
  ds.foldr (fun D c => D.count c) {}

/-- A delivery and the counters are where the thread is: it has come to as many subscribers as the
thread says, and the thread has added to the counters what it has added so far. -/
def Delivery.Counts (D : Delivery) (before now : Counters) : Fanout → Prop
  | .sweep p _ => D.packet = p ∧ D.checks = [] ∧ now = before
  | .choose p _ k | .serve p _ k (.check _) =>
    (D.packet = p ∧ D.entries ≠ some []) ∧ D.checks.length = k ∧ now = before
  | .serve p _ k _ => (D.packet = p ∧ D.entries ≠ some []) ∧ D.checks.length = k + 1 ∧ now = before
  | .countDiscarded => (D.checks = [] ∧ D.entries = some []) ∧ now = before
  | .countPublished p k => (D.packet = p ∧ D.checks ≠ []) ∧ D.checks.length = k ∧ now = before
  | .countBytes p k => (D.packet = p ∧ D.checks ≠ []) ∧ D.checks.length = k ∧
      now = before.countPublished
  | .countKeyframe k => (D.packet.isKeyframe ∧ D.checks ≠ []) ∧ D.checks.length = k ∧
      now = before.countPublished.countBytes D.packet.size
  | .release k => D.checks.length = k ∧ now = D.count before
  | .finished k => D.completed ∧ D.checks.length = k ∧ now = D.count before
  | .checkStop _ | .checkStarted _ | .acquire _ => False

section Counts

variable {D : Delivery} {past : List Delivery} {before now : Counters} {p : Packet}
  {entry reached : Nat}

theorem Delivery.counts_close (this : D.packet = p ∧ D.entries ≠ some [])
    (length : D.checks.length = reached) : D.Counts before before (.close p reached) := by
  unfold Fanout.close
  split
  · next none =>
    have empty : D.checks = [] := List.length_eq_zero_iff.mp (length.trans none)
    exact ⟨by simp [empty], by simp [count, empty, this.2]⟩
  · next some =>
    refine ⟨⟨this.1, ?_⟩, length, rfl⟩
    intro empty
    rw [empty] at length
    exact some length.symm

theorem Delivery.Counts.swept {es : List Nat} (counts : D.Counts before now (.sweep p entry)) :
    Delivery.Counts { D with entries := some es } before now (.afterSweep p es.length) := by
  obtain ⟨rfl, fresh, rfl⟩ := counts
  unfold Fanout.afterSweep
  have length : D.checks.length = 0 := by rw [fresh]; rfl
  split
  · next none => exact ⟨⟨fresh, by rw [List.length_eq_zero_iff.mp none]⟩, rfl⟩
  · next one =>
    refine ⟨⟨rfl, ?_⟩, length, rfl⟩
    rintro ⟨⟩
    simp at one
  · next some _ =>
    refine ⟨⟨rfl, ?_⟩, length, rfl⟩
    rintro ⟨⟩
    exact some rfl

theorem Delivery.Counts.asked {entries : Nat}
    (counts : D.Counts before now (.choose p entry reached))
    (stop : Bool) : Delivery.Counts { D with asked := D.asked ++ [stop] } before now
      (.afterChoice p entries entry reached stop) := by
  obtain ⟨this, length, rfl⟩ := counts
  unfold Fanout.afterChoice
  cases stop with
  | false => exact ⟨this, length, rfl⟩
  | true =>
    dsimp only
    rw [if_pos rfl]
    split
    · exact Delivery.counts_close this length
    · exact ⟨this, length, rfl⟩

theorem Delivery.Counts.served {entries : Nat}
    (counts : D.Counts before now (.serve p entry reached .finished)) :
    D.Counts before now (.afterServe p entries entry reached) := by
  obtain ⟨this, length, rfl⟩ := counts
  unfold Fanout.afterServe
  split
  · exact ⟨this, length, rfl⟩
  · exact Delivery.counts_close this length

theorem Delivery.Counts.checked {n : Nat} {q : Packet}
    (counts : D.Counts before now (.serve p entry reached (.check q))) (active : Bool) :
    Delivery.Counts { D with checks := D.checks ++ [(n, active)] } before now
      (.serve p entry reached (if active then .push q else .finished)) := by
  obtain ⟨this, length, rfl⟩ := counts
  have more : (D.checks ++ [(n, active)]).length = reached + 1 := by simp [length]
  cases active <;> exact ⟨this, more, rfl⟩

/-- Between the check and the end of its turn a thread has come to one subscriber more. -/
theorem Delivery.counts_serve_iff {e : Enqueue} (beyond : ∀ q, e ≠ .check q) :
    D.Counts before now (.serve p entry reached e) ↔
      (D.packet = p ∧ D.entries ≠ some []) ∧ D.checks.length = reached + 1 ∧ now = before := by
  cases e with
  | check q => exact absurd rfl (beyond q)
  | _ => rfl

variable {r r' : Relay} {f f' : Fanout}

/-- **An access of a thread that publishes keeps its count.** -/
theorem Delivery.Counts.step (past : List Delivery) (counts : D.Counts before r.counters.outgoing f)
    (last : f.step D.actor r = some (r', f')) :
    ∃ D', (observeFanout D.actor r f).toList.foldl enter (D :: past) = D' :: past ∧
      D'.actor = D.actor ∧ D'.Counts before r'.counters.outgoing f' := by
  cases f with
  | checkStop | checkStarted | acquire => exact counts.elim
  | finished => simp [Fanout.step] at last
  | sweep p entry =>
    rcases Relay.step_sweep last with ⟨next, found, rfl⟩ | ⟨past_, rfl, rfl⟩
    · rw [observeFanout, if_neg (not_le_of_sweep found), sweep_frame found]
      exact ⟨D, rfl, rfl, counts⟩
    · rw [observeFanout, if_pos (sweep_eq_none_iff.mp past_)]
      exact ⟨_, if_pos rfl, rfl, counts.swept⟩
  | choose p entry reached =>
    obtain ⟨rfl, rfl⟩ := Prod.mk.inj (Option.some.inj last)
    exact ⟨_, if_pos rfl, rfl, counts.asked r.stopRequested⟩
  | serve p entry reached e =>
    rcases Relay.step_serve last with
      ⟨rfl, rfl, rfl⟩ | ⟨n, s, s', e', entered, there, step, rfl, rfl⟩
    · have quiet : observeFanout D.actor r' (.serve p entry reached .finished) = none := by
        simp [observeFanout, observeEnqueue, Enqueue.appended]
      rw [quiet]
      exact ⟨D, rfl, rfl, counts.served⟩
    · have shown : observeFanout D.actor r (.serve p entry reached e) =
          observeEnqueue D.actor n s e := by
        simp [observeFanout, entered, there]
      rw [shown]
      rcases Enqueue.step_cases step with ⟨q, rfl, rfl⟩ | ⟨due, after⟩
      · exact ⟨_, if_pos rfl, rfl, counts.checked s.active⟩
      · -- The thread has come to the subscriber already, whatever it appends.
        have beyond : ∀ q, e ≠ .check q := by rcases due with ⟨q, rfl⟩ | rfl <;> simp
        have quiet : observeEnqueue D.actor n s e =
            (e.appended D.actor s).map (.pushed D.actor n) := by
          rcases due with ⟨q, rfl⟩ | rfl <;> rfl
        have still := (Delivery.counts_serve_iff beyond).mp counts
        rw [quiet]
        rcases after with ⟨full, rfl⟩ | ⟨q, appended, rfl⟩
        · rw [full]
          exact ⟨D, rfl, rfl, still⟩
        · rw [appended]
          exact ⟨_, if_pos rfl, rfl, still⟩
  | countDiscarded =>
    obtain ⟨rfl, rfl⟩ := Prod.mk.inj (Option.some.inj last)
    obtain ⟨⟨none, empty⟩, same⟩ := counts
    refine ⟨D, rfl, rfl, by rw [none]; rfl, ?_⟩
    rw [Delivery.count, if_neg (by simp [none]), if_pos empty, ← same]
    rfl
  | countPublished p reached =>
    obtain ⟨rfl, rfl⟩ := Prod.mk.inj (Option.some.inj last)
    obtain ⟨this, length, same⟩ := counts
    exact ⟨D, rfl, rfl, this, length, by rw [← same]; rfl⟩
  | countBytes p reached =>
    obtain ⟨rfl, rfl⟩ := Prod.mk.inj (Option.some.inj last)
    obtain ⟨⟨rfl, some⟩, length, same⟩ := counts
    have bytes : (r.count (·.countBytes D.packet.size)).counters.outgoing =
        before.countPublished.countBytes D.packet.size := by
      rw [← same]
      rfl
    refine ⟨D, rfl, rfl, ?_⟩
    split
    · next key => exact ⟨⟨key, some⟩, length, bytes⟩
    · next plain =>
      refine ⟨length, ?_⟩
      rw [bytes, Delivery.count, if_pos some, Counters.countPacket, if_neg plain]
  | countKeyframe reached =>
    obtain ⟨rfl, rfl⟩ := Prod.mk.inj (Option.some.inj last)
    obtain ⟨⟨key, some⟩, length, same⟩ := counts
    refine ⟨D, rfl, rfl, length, ?_⟩
    rw [Delivery.count, if_pos some, Counters.countPacket, if_pos key, ← same]
    rfl
  | release reached =>
    obtain ⟨rfl, rfl⟩ := Prod.mk.inj (Option.some.inj last)
    obtain ⟨length, same⟩ := counts
    exact ⟨_, if_pos rfl, rfl, rfl, length, same⟩

end Counts

/-- The deliveries of a thread. -/
def ownedBy (a : Actor) (ds : List Delivery) : List Delivery :=
  ds.filter fun D => D.actor = a

/-- What a call knows of its delivery, of which it has one at most: before it takes the registry
there is none, and once it has given it back it knows how many subscribers it has come to. -/
def Tells (ds : List Delivery) : Option Fanout → Prop
  | none => ds = []
  | some (.finished k) => ds = [] ∧ k = 0 ∨ ∃ D, ds = [D] ∧ D.completed ∧ D.checks.length = k
  | some f => if f.isInside then ds.length = 1 else ds = []

/-- The deliveries, last one first, fit what the threads that publish report and what the counters
say. -/
structure Reported (ds : List Delivery) (r : Relay) : Prop where
  idle : (∀ a f, r.fanout? a = some f → f.isInside = false) → r.counters.outgoing = tally ds
  inside : ∀ a f, r.fanout? a = some f → f.isInside →
    ∃ D past, ds = D :: past ∧ D.actor = a ∧ D.Counts (tally past) r.counters.outgoing f
  calls : ∀ n, Tells (ownedBy (.call n) ds) (r.fanout? (.call n))

section Reports

variable {r r' : Relay} {ds : List Delivery} {a : Actor} {f f' : Fanout}

theorem doing_of_fanout? (at_ : r.fanout? a = some f) (inside : f.isInside) :
    r.desk.doing a = some (.publishing f) := by
  have doing : f.doing = some (.publishing f) := if_pos inside
  cases a with
  | call n =>
    obtain ⟨stage, here, same⟩ := Option.bind_eq_some_iff.mp at_
    rw [doing_call here, ← doing]
    cases stage with
    | publish g =>
      obtain rfl := Option.some.inj same
      rfl
    | returned reply =>
      cases reply <;> simp [CallStage.fanout?] at same
      subst same
      simp [Fanout.isInside] at inside
    | _ => simp [CallStage.fanout?] at same
  | reader run =>
    obtain ⟨reader, executing, same⟩ := Option.bind_eq_some_iff.mp at_
    rw [doing_reader executing, ← doing]
    cases here : reader.at_ <;> simp [here, Reading.fanout?] at same
    subst same
    rfl

/-- One thread at most is behind the lock. -/
theorem eq_of_isInside (sound : r.desk.Sound) {b : Actor} {g : Fanout} (at_ : r.fanout? a = some f)
    (inside : f.isInside) (there : r.fanout? b = some g) (within : g.isInside) : a = b :=
  sound.unique (doing_of_fanout? at_ inside) rfl (doing_of_fanout? there within) rfl

/-- A thread goes on in front of the lock or behind it. -/
theorem Reported.of_outside {x : Option Fanout} (reported : Reported ds r)
    (before : ∀ f, r.fanout? a = some f → f.isInside = false)
    (after : ∀ f, x = some f → f.isInside = false)
    (counters : r'.counters.outgoing = r.counters.outgoing)
    (next : r'.fanout? = Function.update r.fanout? a x)
    (tells : ∀ n, a = .call n → Tells (ownedBy a ds) x) : Reported ds r' where
  idle outside := by
    rw [counters]
    apply reported.idle
    intro b g there
    by_cases own : b = a
    · subst own
      exact before g there
    · exact outside b g (by rw [next, Function.update_of_ne own, there])
  inside b g there within := by
    rw [next] at there
    by_cases own : b = a
    · subst own
      rw [Function.update_self] at there
      simp [after g there] at within
    · rw [Function.update_of_ne own] at there
      rw [counters]
      exact reported.inside b g there within
  calls n := by
    rw [next]
    by_cases own : a = .call n
    · subst own
      rw [Function.update_self]
      exact tells n rfl
    · rw [Function.update_of_ne (Ne.symm own)]
      exact reported.calls n

theorem ownedBy_cons_self {D : Delivery} : ownedBy D.actor (D :: ds) = D :: ownedBy D.actor ds := by
  simp [ownedBy]

theorem ownedBy_cons_of_ne {D : Delivery} (other : D.actor ≠ a) :
    ownedBy a (D :: ds) = ownedBy a ds := by
  simp [ownedBy, other]

/-- A thread takes the registry. -/
theorem Reported.take {p : Packet} (reported : Reported ds r) (sound : r.desk.Sound)
    (at_ : r.fanout? a = some (.acquire p)) (free : r.registryHolder = none)
    (counters : r'.counters = r.counters)
    (next : r'.fanout? = Function.update r.fanout? a (some (.sweep p 0))) :
    Reported ({ actor := a, packet := p } :: ds) r' := by
  have nobody : ∀ b g, r.fanout? b = some g → g.isInside = false := by
    intro b g there
    by_contra within
    have held := sound.holder b _ (doing_of_fanout? there (by simpa using within)) rfl
    simp [desk, free] at held
  constructor
  · intro outside
    simpa [Fanout.isInside] using outside a (.sweep p 0) (by rw [next, Function.update_self])
  · intro b g there within
    rw [next] at there
    by_cases own : b = a
    · subst own
      rw [Function.update_self] at there
      obtain rfl := Option.some.inj there
      refine ⟨_, ds, rfl, rfl, rfl, rfl, ?_⟩
      rw [counters]
      exact reported.idle nobody
    · rw [Function.update_of_ne own] at there
      simp [nobody b g there] at within
  · intro n
    rw [next]
    by_cases own : a = .call n
    · subst own
      rw [Function.update_self]
      have fresh := reported.calls n
      rw [at_] at fresh
      have none : ownedBy (.call n) ds = [] := fresh
      show (ownedBy _ _).length = 1
      rw [ownedBy_cons_self (D := { actor := .call n, packet := p }), none]
      rfl
    · rw [Function.update_of_ne (Ne.symm own), ownedBy_cons_of_ne own]
      exact reported.calls n

/-- A thread goes on behind the lock, or gives the registry back. -/
theorem Reported.goOn {D D' : Delivery} {past : List Delivery} (reported : Reported (D :: past) r)
    (sound : r.desk.Sound) (at_ : r.fanout? D.actor = some f) (inside : f.isInside)
    (same : D'.actor = D.actor) (counts : D'.Counts (tally past) r'.counters.outgoing f')
    (next : r'.fanout? = Function.update r.fanout? D.actor (some f')) :
    Reported (D' :: past) r' := by
  constructor
  · intro outside
    have left := outside D.actor f' (by rw [next, Function.update_self])
    cases f' with
    | finished k => exact counts.2.2
    | checkStop | checkStarted | acquire => exact counts.elim
    | _ => simp [Fanout.isInside] at left
  · intro b g there within
    rw [next] at there
    by_cases own : b = D.actor
    · subst own
      rw [Function.update_self] at there
      obtain rfl := Option.some.inj there
      exact ⟨D', past, rfl, same, counts⟩
    · rw [Function.update_of_ne own] at there
      exact absurd (eq_of_isInside sound at_ inside there within).symm own
  · intro n
    have known := reported.calls n
    rw [next]
    by_cases own : D.actor = .call n
    · rw [own, Function.update_self, ← own]
      rw [← own, at_, ownedBy_cons_self] at known
      have single : ownedBy D.actor past = [] := by
        cases f <;> simp_all [Tells, Fanout.isInside]
      rw [← same] at single ⊢
      rw [ownedBy_cons_self, single]
      cases f' with
      | finished k => exact .inr ⟨D', rfl, counts.1, counts.2.1⟩
      | checkStop | checkStarted | acquire => exact counts.elim
      | _ => rfl
    · rw [Function.update_of_ne (Ne.symm own), ownedBy_cons_of_ne (by rwa [same])]
      rwa [ownedBy_cons_of_ne own] at known

/-- What says nothing about a delivery is not entered. -/
theorem foldl_enter_of_isAside {e : Option Event} (quiet : ∀ x, e = some x → x.isAside) :
    e.toList.foldl enter ds = ds := by
  cases e with
  | none => rfl
  | some x =>
    have aside := quiet x rfl
    cases x <;> simp_all [Event.isAside, enter]

/-- **The record, the reports and the counters stay in keeping.** -/
theorem Reported.step {e : Option Event} (reported : Reported ds r) (sound : r.desk.Sound)
    (pace : Pace l r r' e) : Reported (e.toList.foldl enter ds) r' := by
  cases pace with
  | @access a f f' s at_ last counters next =>
    by_cases inside : f.isInside
    · obtain ⟨D, past, rfl, rfl, counts⟩ := reported.inside a f at_ inside
      obtain ⟨D', same, actor, counts'⟩ := counts.step past last
      rw [same]
      rw [← counters] at counts'
      exact reported.goOn sound at_ inside actor counts' next
    · cases f with
      | checkStop p | checkStarted p =>
        obtain ⟨rfl, rfl⟩ := Prod.mk.inj (Option.some.inj last)
        have fresh : ∀ n, a = .call n → ownedBy a ds = [] := by
          rintro n rfl
          have known := reported.calls n
          rw [at_] at known
          exact known
        refine reported.of_outside (by simp [at_, Fanout.isInside]) ?_ (by rw [counters]) next ?_
        · intro g same
          obtain rfl := Option.some.inj same
          split <;> rfl
        · intro n own
          have answer : Tells [] (some (.finished 0)) := .inl ⟨rfl, rfl⟩
          rw [fresh n own]
          split <;> first | exact answer | rfl
      | acquire p =>
        obtain ⟨free, rfl, rfl⟩ := Relay.step_acquire last
        exact reported.take sound at_ free counters next
      | finished k => simp [Fanout.step] at last
      | _ => exact absurd rfl inside
  | @begins a p _ off counters next =>
    refine reported.of_outside (by simp [off]) ?_ counters next ?_
    · rintro g ⟨⟩
      rfl
    · rintro n rfl
      have known := reported.calls n
      rwa [off] at known
  | ends at_ counters next =>
    exact reported.of_outside (by simp [at_, Fanout.isInside]) (by simp) counters next (by simp)
  | @aside e quiet counters same =>
    rw [foldl_enter_of_isAside quiet]
    refine ⟨?_, ?_, ?_⟩
    · rw [counters, same]
      exact reported.idle
    · rw [counters, same]
      exact reported.inside
    · rw [same]
      exact reported.calls

end Reports

section Runs

variable {settings : PublisherSettings} {r : Relay} {log : List Event}

theorem reported_ofSettings : Reported [] (ofSettings settings) where
  idle _ := rfl
  inside a f at_ inside := by
    have doing := doing_of_fanout? at_ inside
    simp [doing_ofSettings] at doing
  calls n := rfl

theorem reported (run : Records step Admitted observe (ofSettings settings) log r) :
    Reported (ledger log) r := by
  induction run with
  | refl => exact reported_ofSettings
  | @tail t u log l run _ last ih =>
    rw [ledger_append_toList]
    exact ih.step (accounted run).sound (pace_step (sound_of_reaches run.reaches) last)

theorem Delivery.length_checks {D : Delivery} (gifts : D.gifts = D.due) :
    D.checks.length = D.gifts.length + D.refused.length := by
  have whole := List.length_eq_length_filter_add (l := D.checks) (·.2)
  rw [gifts, due, refused, List.length_map, List.length_map]
  exact whole

/-- A delivery that is over has appended its packet to the queues of different subscribers, and of
those it has come to it has left out whom it has found terminated. -/
theorem Delivery.IsOver.gifts {D : Delivery} (closed : D.IsOver) :
    D.gifts = D.due ∧ (D.gifts.map (·.1)).Nodup := by
  obtain ⟨-, es, -, nodup, upto⟩ := closed
  refine ⟨upto.gifts, ?_⟩
  have part : (D.due.map (·.1)).Sublist (D.checks.map (·.1)) := by
    unfold due
    rw [List.map_map]
    exact (List.filter_sublist (l := D.checks)).map _
  rw [upto.gifts]
  exact (upto.isFair nodup).once.sublist part

/-- A delivery is reported as it was: by the number of queues that its packet has been appended to,
and in the counters as a published packet if that is at least one. -/
def Delivery.IsReported (D : Delivery) (reached : Nat) : Prop :=
  reached = D.gifts.length ∧ ∀ c, D.count c =
    if 1 ≤ D.gifts.length then c.countPacket D.packet
    else if D.entries = some [] then c.countDiscarded
    else c

theorem Delivery.isReported_iff {D : Delivery} (gifts : D.gifts = D.due) :
    D.IsReported D.checks.length ↔ D.refused = [] := by
  have length := Delivery.length_checks gifts
  constructor
  · rintro ⟨same, -⟩
    apply List.eq_nil_of_length_eq_zero
    omega
  · intro nobody
    rw [nobody, List.length_nil, Nat.add_zero] at length
    refine ⟨length, ?_⟩
    intro c
    have same : D.checks ≠ [] ↔ 1 ≤ D.gifts.length := by
      rw [← length, ← List.length_pos_iff]
      rfl
    unfold count
    simp only [same]

/-- A thread behind the lock is not done with its delivery. -/
theorem isInside_eq_false_of_completed
    (run : Records step Admitted observe (ofSettings settings) log r)
    (done : ∀ D ∈ ledger log, D.completed) {a : Actor} {f : Fanout} (at_ : r.fanout? a = some f) :
    f.isInside = false := by
  by_contra within
  have inside : f.isInside := by simpa using within
  have books := accounted run
  obtain ⟨D, past, same, -, running, -⟩ :=
    books.books.current books.sound (doing_of_fanout? at_ inside)
  have completed := done D (by simp [same])
  simp [running] at completed

/-- **What publishing reports.** A call answers with the number of subscribers that its delivery has
come to, and with zero if it has delivered nothing. A delivery that is over has appended its packet
to one queue for each of them but for those that it has found terminated, so that it is reported as
it was exactly if there are none of these. While nobody delivers, the counters are those of the
deliveries. What the deliveries have appended to a queue, in their order, is all that the queue has
grown by, but for packets that calls have put into it alone. -/
theorem reached_eq_gifts_iff (run : Records step Admitted observe (ofSettings settings) log r) :
    (∀ n k, r.calls[n]? = some (.returned (.reached k)) →
      ownedBy (.call n) (deliveries log) = [] ∧ k = 0 ∨
      ∃ D, ownedBy (.call n) (deliveries log) = [D] ∧ D.completed ∧ k = D.checks.length) ∧
    (∀ D ∈ deliveries log, D.completed →
      (D.gifts.map (·.1)).Nodup ∧ (∀ g ∈ D.gifts, g.2 = D.packet) ∧
      D.checks.length = D.gifts.length + D.refused.length ∧
      (D.IsReported D.checks.length ↔ D.refused = [])) ∧
    ((∀ D ∈ deliveries log, D.completed) →
      r.counters.outgoing = (deliveries log).foldl Delivery.count {}) ∧
    ∀ s, pushedTo s log = (deliveries log).flatMap (Delivery.giftsTo s) ∧
      Follows settings s log r := by
  have told := reported run
  obtain ⟨past, done, books⟩ := (accounted run).books
  refine ⟨?_, ?_, ?_, fun s => ⟨(accounted run).pushed s, follows_of_records run⟩⟩
  · intro n k returned
    have known := told.calls n
    rw [fanout?_call returned] at known
    unfold deliveries ownedBy
    rw [List.filter_reverse]
    rcases known with ⟨nothing, rfl⟩ | ⟨D, one, completed, length⟩
    · exact .inl ⟨by rw [← ownedBy, nothing]; rfl, rfl⟩
    · exact .inr ⟨D, by rw [← ownedBy, one]; rfl, completed, length.symm⟩
  · intro D there completed
    rw [deliveries, List.mem_reverse] at there
    have closed : D.IsOver := by
      rcases books with ⟨same, -⟩ | ⟨C, f, same, running, -, -⟩ <;> rw [same] at there
      · exact done D there
      · rcases List.mem_cons.mp there with rfl | earlier
        · simp [running] at completed
        · exact done D earlier
    obtain ⟨gifts, once⟩ := closed.gifts
    refine ⟨once, ?_, Delivery.length_checks gifts, Delivery.isReported_iff gifts⟩
    intro g given
    rw [gifts] at given
    obtain ⟨c, -, rfl⟩ := List.mem_map.mp given
    rfl
  · intro completed
    have all : ∀ D ∈ ledger log, D.completed := fun D there =>
      completed D (by rwa [deliveries, List.mem_reverse])
    rw [deliveries, List.foldl_reverse]
    exact told.idle fun a f at_ => isInside_eq_false_of_completed run all at_

/-- The calls of `threePackets` that publish answer with two, two and zero, and the second of them
has come to a subscriber that was terminated after the sweep. The queue of the other one has grown by
its packet. -/
theorem reached_of_threePackets : ∃ log r, Records step Admitted observe (ofSettings {}) log r ∧
    (∃ D ∈ deliveries log, ownedBy (.call 3) (deliveries log) = [D] ∧ D.completed ∧
      D.refused = [] ∧ D.IsReported 2) ∧
    (∃ D ∈ deliveries log, ownedBy (.call 4) (deliveries log) = [D] ∧ D.completed ∧
      D.refused = [1] ∧ ¬ D.IsReported 2) ∧
    r.counters.outgoing = { published := 2, discarded := 1 } ∧
    r.counters.outgoing = (deliveries log).foldl Delivery.count {} ∧
    dequeuedFrom 0 log = [.video 1] ∧
    r.subscribers.map (·.queue.items) = [[.video 2], [.video 1]] ∧
    ∃ t t' : Relay, ∃ l, t.step l = some t' ∧
      t.observe l = some (.pushed (.call 4) 0 (.video 2)) ∧
      t'.desk.items 0 = t.desk.items 0 ++ [.video 2] := by
  have ran : (record? step observe (ofSettings {}) threePackets).any (fun x : List Event × Relay =>
      x.2.calls[3]? = some (.returned (.reached 2)) ∧
      x.2.calls[4]? = some (.returned (.reached 2)) ∧
      (∀ D ∈ deliveries x.1, D.completed) ∧
      (ownedBy (.call 3) (deliveries x.1)).map Delivery.refused = [[]] ∧
      (ownedBy (.call 4) (deliveries x.1)).map Delivery.refused = [[1]] ∧
      x.2.counters.outgoing = { published := 2, discarded := 1 } ∧
      dequeuedFrom 0 x.1 = [.video 1] ∧
      x.2.subscribers.map (·.queue.items) = [[.video 2], [.video 1]] ∧
      .pushed (.call 4) 0 (.video 2) ∈ x.1) := by
    decide +kernel
  obtain ⟨log, r, run, facts⟩ := exists_records_of_any admitted_threePackets ran
  obtain ⟨first, second, completed, accepted, refused, counters, dequeued, queues, told⟩ :=
    of_decide_eq_true facts
  obtain ⟨answers, deliver, counted, grown⟩ := reached_eq_gifts_iff run
  have member : ∀ {a : Actor} {D : Delivery},
      ownedBy a (deliveries log) = [D] → D ∈ deliveries log := by
    intro a D one
    have inside : D ∈ ownedBy a (deliveries log) := by simp [one]
    exact List.mem_of_mem_filter inside
  refine ⟨log, r, run, ?_, ?_, counters, counted completed, dequeued, queues,
    (grown 0).2.exists_of_mem told⟩
  · rcases answers 3 2 first with ⟨-, zero⟩ | ⟨D, one, closed, length⟩
    · simp at zero
    · have nobody : D.refused = [] := by simpa [one] using accepted
      have there := member one
      exact ⟨D, there, one, closed, nobody, length ▸ (deliver D there closed).2.2.2.mpr nobody⟩
  · rcases answers 4 2 second with ⟨-, zero⟩ | ⟨D, one, closed, length⟩
    · simp at zero
    · have somebody : D.refused = [1] := by simpa [one] using refused
      have there := member one
      refine ⟨D, there, one, closed, somebody, ?_⟩
      rw [length, (deliver D there closed).2.2.2, somebody]
      simp

/-- One subscriber, terminated while a packet is on its way to it. -/
def oneTerminated : List Label :=
  List.flatten [
    [.addSubscriber (.ofName "a" "" 1), .addSource { allowNoStreams := true }],
    [.begin (.start 0 "")], List.replicate 19 (.call 0), List.replicate 4 (.thread 1),
    List.replicate 3 (.reader 1), [.begin (.subscribe 0)], List.replicate 3 (.call 1),
    [.begin (.publish (.video 1))], List.replicate 5 (.call 2), [.consumer 0 .terminate],
    List.replicate 6 (.call 2)]

/-- The call answers that one subscriber was reached, and the packet counts as published. It is in
no queue. -/
theorem published_to_nobody : ∃ log r D, Records step Admitted observe (ofSettings {}) log r ∧
    deliveries log = [D] ∧ D.completed ∧ D.gifts = [] ∧
    r.calls[2]? = some (.returned (.reached 1)) ∧ r.counters.published = 1 ∧
    r.subscribers.map (·.queue.items) = [[]] := by
  have ran : (record? step observe (ofSettings {}) oneTerminated).any (fun x : List Event × Relay =>
      (deliveries x.1).map (fun D => (D.completed, D.gifts)) = [(true, [])] ∧
      x.2.calls[2]? = some (.returned (.reached 1)) ∧ x.2.counters.published = 1 ∧
      x.2.subscribers.map (·.queue.items) = [[]]) := by
    decide +kernel
  have admitted : ∀ l ∈ oneTerminated, Admitted l := by decide +kernel
  obtain ⟨log, r, run, facts⟩ := exists_records_of_any admitted ran
  obtain ⟨delivered, answer, counted, empty⟩ := of_decide_eq_true facts
  obtain ⟨D, one, shown⟩ := List.map_eq_singleton_iff.mp delivered
  obtain ⟨completed, gifts⟩ := Prod.mk.inj shown
  exact ⟨log, r, D, run, one, completed, gifts, answer, counted, empty⟩

end Runs

end Relay

end PacketRelay
