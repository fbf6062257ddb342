import PacketRelay.Proofs.Relay.Sweep

/-!
# Answers about the registry

A call that adds or removes a subscriber answers whether the registry has gained or lost it. The
answer is what the record of the registry shows of the call: whether it was turned away by a stop,
whether it found the identity when it had swept the registry, or whether it found it when it took the
registry. In between, an entry leaves only with its identity, or because it is terminated.

## Main definitions

* `story`, `Story`: what a call has shown, told by its errand

## Main results

* `Roster.Tells.move`: each call shows what its errand tells
* `Relay.registry_follows_calls`: the registry, the answers, and who leaves
-/

namespace PacketRelay

/-- The call that a notice is about, if the call adds or removes a subscriber. -/
def Notice.call? : Notice → Option Nat
  | .began n _ | .asked n _ _ | .removed n _ _ | .settled n _ _ | .parted n _ _ => some n
  | _ => none

/-- What a call has shown. -/
def story (n : Nat) (log : List Notice) : List Notice := log.filter fun e => e.call? = some n

/-- All that a call has shown, told by its errand. -/
def Story (n : Nat) : Option Errand → List Notice → Prop
  | none, told | some .serving, told | some (.sweeping .serve _), told =>
    told = [] ∨ ∃ kind, kind.subscriber? = none ∧ told = [.began n kind]
  | some (.asking s), told => told = [.began n (.subscribe s)]
  | some (.adding s), told | some (.sweeping (.add s) _), told =>
    told = [.began n (.subscribe s), .asked n s false]
  | some (.removing s), told => told = [.began n (.unsubscribe s)]
  | some (.sweeping (.remove s found) _), told =>
    told = [.began n (.unsubscribe s), .removed n s found]
  | some (.answered b), told => ∃ s,
    b = false ∧ told = [.began n (.subscribe s), .asked n s true] ∨
      told = [.began n (.subscribe s), .asked n s false, .settled n s b] ∨
      told = [.began n (.unsubscribe s), .removed n s b, .parted n s b]

section Stories

variable {n s : Nat} {x : Option Errand} {told log : List Notice} {e : Notice}

@[simp] theorem story_snoc :
    story n (log ++ [e]) = story n log ++ if e.call? = some n then [e] else [] := by
  simp [story, List.filter_append, List.filter_cons]

theorem mem_story : e ∈ story n log ↔ e ∈ log ∧ e.call? = some n := by simp [story]

/-- A call that has shown anything has begun. -/
theorem Story.exists_began (tale : Story n x told) (shown : told ≠ []) :
    ∃ kind, .began n kind ∈ told := by
  unfold Story at tale
  split at tale
  case h_9 =>
    obtain ⟨s, ⟨-, rfl⟩ | rfl | rfl⟩ := tale <;> exact ⟨_, List.mem_cons_self⟩
  case h_1 | h_2 | h_3 =>
    rcases tale with rfl | ⟨kind, -, rfl⟩
    · exact absurd rfl shown
    · exact ⟨kind, List.mem_cons_self⟩
  all_goals
    subst tale
    exact ⟨_, List.mem_cons_self⟩

end Stories

namespace Roster

/-- The errand of each call tells what it has shown. -/
structure Tells (t : Roster) (log : List Notice) : Prop where
  begun : ∀ n kind, .began n kind ∈ log → n < t.calls
  tale : ∀ n, Story n (t.errand (.call n)) (story n log)

variable {t t' : Roster} {a : Actor} {x : Option Errand} {log : List Notice} {e : Option Notice}

theorem Tells.story_eq_nil (tells : t.Tells log) {n : Nat} (beyond : t.calls ≤ n) :
    story n log = [] := by
  by_contra shown
  obtain ⟨kind, there⟩ := (tells.tale n).exists_began shown
  exact absurd (tells.begun n kind (mem_story.mp there).1) (Nat.not_lt.mpr beyond)

theorem Tells.begun_move (tells : t.Tells log) (move : Move e t t') :
    ∀ n kind, .began n kind ∈ log ++ e.toList → n < t'.calls := by
  intro n kind inside
  cases move with
  | begin kind' there =>
    rcases List.mem_append.mp inside with earlier | last
    · exact Nat.lt_succ_of_lt (tells.begun n kind earlier)
    · cases List.mem_singleton.mp last
      exact Nat.lt_succ_self _
  | _ => exact tells.begun n kind (by simpa using inside)

theorem Tells.told (tells : t.Tells log) {n : Nat} {y : Errand}
    (at_ : t.errand (.call n) = some y) : Story n (some y) (story n log) := at_ ▸ tells.tale n

/-- A call goes on and shows something. -/
theorem Tells.goOn (tells : t.Tells log) {m : Nat} {f : Notice} (about : f.call? = some m)
    (next : Story m x (story m log ++ [f])) (n : Nat) :
    Story n ((t.setErrand (.call m) x).errand (.call n)) (story n (log ++ [f])) := by
  rw [errand_setErrand, story_snoc, about]
  by_cases own : n = m
  · simpa [own] using next
  · simpa [own, Ne.symm own] using tells.tale n

/-- A thread goes on, and what it shows is about no call that adds or removes a subscriber. -/
theorem Tells.goOn_silent (tells : t.Tells log) (silent : ∀ f, e = some f → f.call? = none)
    (next : ∀ m, a = .call m → Story m x (story m log)) (n : Nat) :
    Story n ((t.setErrand a x).errand (.call n)) (story n (log ++ e.toList)) := by
  have still : story n (log ++ e.toList) = story n log := by
    cases e with
    | none => rw [Option.toList_none, List.append_nil]
    | some f => simp [silent f rfl]
  rw [errand_setErrand, still]
  split
  · next own => exact next n own.symm
  · exact tells.tale n

/-- What a call has shown does not depend on the entry that it looks at. -/
theorem Tells.next_entry (tells : t.Tells log) {aim : Aim} {entry : Nat}
    (at_ : t.errand a = some (.sweeping aim entry)) (next m : Nat) (own : a = .call m) :
    Story m (some (.sweeping aim next)) (story m log) := by
  subst own
  have tale := tells.told at_
  cases aim <;> exact tale

theorem Tells.tale_move (tells : t.Tells log) (move : Move e t t') (n : Nat) :
    Story n (t'.errand (.call n)) (story n (log ++ e.toList)) := by
  cases move with
  | stay | arrive => simpa using tells.tale n
  | clear | terminate => simpa [Notice.call?] using tells.tale n
  | begin kind there =>
    refine tells.goOn rfl ?_ n
    rw [tells.story_eq_nil (Nat.le_refl _)]
    cases kind with
    | subscribe s | unsubscribe s => rfl
    | _ => exact .inr ⟨_, rfl, rfl⟩
  | @ask _ m s stop at_ =>
    refine tells.goOn rfl ?_ n
    have told : story m log = [.began m (.subscribe s)] := tells.told at_
    rw [told]
    cases stop with
    | false => rfl
    | true => exact ⟨s, .inl ⟨rfl, rfl⟩⟩
  | take at_ free =>
    refine tells.goOn_silent (by simp [Notice.call?]) ?_ n
    rintro m ⟨⟩
    have tale := tells.told at_
    exact tale
  | takeToServe off free =>
    refine tells.goOn_silent (by simp [Notice.call?]) ?_ n
    rintro m rfl
    have tale := tells.tale m
    rw [off] at tale
    exact tale
  | @remove _ m s at_ free =>
    refine tells.goOn rfl ?_ n
    have told : story m log = [.began m (.unsubscribe s)] := tells.told at_
    rw [told]
    rfl
  | keep at_ entered live => exact tells.goOn_silent (by simp) (tells.next_entry at_ _) n
  | @settle _ m s entry at_ past =>
    refine tells.goOn rfl ?_ n
    have told : story m log = [.began m (.subscribe s), .asked m s false] := tells.told at_
    rw [told]
    exact ⟨s, .inr (.inl rfl)⟩
  | @part _ m s entry found at_ past =>
    refine tells.goOn rfl ?_ n
    have told : story m log = [.began m (.unsubscribe s), .removed m s found] := tells.told at_
    rw [told]
    exact ⟨s, .inr (.inr rfl)⟩
  | serve at_ past =>
    refine tells.goOn_silent (by simp) ?_ n
    rintro m rfl
    have tale := tells.told at_
    exact tale
  | release at_ =>
    refine tells.goOn_silent (by simp [Notice.call?]) ?_ n
    rintro m rfl
    have tale := tells.told at_
    exact tale

/-- **Each call shows what its errand tells.** -/
theorem Tells.move (tells : t.Tells log) (move : Move e t t') : t'.Tells (log ++ e.toList) :=
  ⟨tells.begun_move move, tells.tale_move move⟩

end Roster

namespace Relay

open Schedule (Records record? exists_records_of_any)

variable {settings : PublisherSettings} {log past later : List Notice} {r : Relay}

theorem tells_of_records (run : Records step Admitted notice (ofSettings settings) log r) :
    r.roster.Tells log := by
  induction run with
  | refl =>
    refine ⟨by simp, fun n => ?_⟩
    rw [errand_ofSettings]
    exact .inl rfl
  | tail run admitted last ih =>
    exact ih.move (roster_step (keeper_of_reaches run.reaches).1 admitted last)

section Answers

variable {n s : Nat} {reply : RelayReply}

theorem errand_returned (returned : r.calls[n]? = some (.returned reply)) :
    (∃ b, reply = .changed b ∧ r.roster.errand (.call n) = some (.answered b)) ∨
      r.roster.errand (.call n) = none := by
  rw [errand_call returned]
  cases reply with
  | changed b => exact .inl ⟨b, rfl, rfl⟩
  | _ => exact .inr rfl

/-- What a call has shown that has returned, if it adds or removes a subscriber. -/
theorem story_of_returned (tells : r.roster.Tells log) {kind : RelayCall}
    (began : .began n kind ∈ log) (named : kind.subscriber? = some s)
    (returned : r.calls[n]? = some (.returned reply)) : ∃ b, reply = .changed b ∧
      (kind = .subscribe s ∧
        (b = false ∧ story n log = [.began n (.subscribe s), .asked n s true] ∨
          story n log = [.began n (.subscribe s), .asked n s false, .settled n s b]) ∨
        kind = .unsubscribe s ∧
          story n log = [.began n (.unsubscribe s), .removed n s b, .parted n s b]) := by
  have own : .began n kind ∈ story n log := mem_story.mpr ⟨began, rfl⟩
  rcases errand_returned returned with ⟨b, rfl, at_⟩ | off
  · obtain ⟨x, told⟩ : ∃ x, _ := tells.told at_
    refine ⟨b, rfl, ?_⟩
    rcases told with ⟨no, told⟩ | told | told <;> rw [told] at own <;>
      simp only [List.mem_cons, List.not_mem_nil, Notice.began.injEq, reduceCtorEq, true_and,
        or_false] at own <;>
      subst own <;> cases named
    · exact .inl ⟨rfl, .inl ⟨no, told⟩⟩
    · exact .inl ⟨rfl, .inr told⟩
    · exact .inr ⟨rfl, told⟩
  · have tale := tells.tale n
    rw [off] at tale
    rcases tale with told | ⟨kind', plain, told⟩
    · simp [told] at own
    · rw [told, List.mem_singleton] at own
      cases own
      simp [plain] at named

/-- A call that adds a subscriber has been turned away by a stop, or has settled the matter. -/
theorem answer_of_subscribe (tells : r.roster.Tells log) (began : .began n (.subscribe s) ∈ log)
    (returned : r.calls[n]? = some (.returned reply)) :
    reply = .changed false ∧ .asked n s true ∈ log ∨
      ∃ added, reply = .changed added ∧ .asked n s false ∈ log ∧ .settled n s added ∈ log := by
  obtain ⟨b, rfl, ⟨-, ⟨rfl, told⟩ | told⟩ | ⟨same, -⟩⟩ := story_of_returned tells began rfl returned
  · have shown : .asked n s true ∈ story n log := by simp [told]
    exact .inl ⟨rfl, (mem_story.mp shown).1⟩
  · have shown : .asked n s false ∈ story n log ∧ .settled n s b ∈ story n log := by simp [told]
    exact .inr ⟨b, rfl, (mem_story.mp shown.1).1, (mem_story.mp shown.2).1⟩
  · cases same

/-- A call that removes a subscriber answers what it has found when it took the registry. -/
theorem answer_of_unsubscribe (tells : r.roster.Tells log)
    (began : .began n (.unsubscribe s) ∈ log)
    (returned : r.calls[n]? = some (.returned reply)) :
    ∃ found, reply = .changed found ∧ .removed n s found ∈ log := by
  obtain ⟨b, rfl, ⟨same, -⟩ | ⟨-, told⟩⟩ := story_of_returned tells began rfl returned
  · cases same
  · have shown : .removed n s b ∈ story n log := by simp [told]
    exact ⟨b, rfl, (mem_story.mp shown).1⟩

end Answers

section Prefixes

variable {t : Relay} {e : Notice}

/-- By what a subscriber is told from all others stays. -/
theorem identity_of_records (there : Schedule.Reaches step (ofSettings settings) t)
    (run : Records step Admitted notice t log r) :
    t.subscribers.length ≤ r.subscribers.length ∧
      ∀ s < t.subscribers.length, r.identity s = t.identity s := by
  induction run with
  | refl => exact ⟨Nat.le_refl _, fun _ _ => rfl⟩
  | tail run admitted last ih =>
    have move := roster_step (keeper_of_reaches (there.trans run.reaches)).1 admitted last
    refine ⟨Nat.le_trans ih.1 (Roster.subscribers_move move), fun s known => ?_⟩
    rw [← ih.2 s known]
    exact Roster.identity_move move (Nat.lt_of_lt_of_le known ih.1)

/-- What a record tells of the registry is what has been in it when the record had come so far. -/
theorem registry_eq_of_records (first : Records step Admitted notice (ofSettings settings) past t)
    (run : Records step Admitted notice t later r) : t.registry = registryOf r.identity past := by
  have keeps := keeps_of_records first
  have same := (identity_of_records first.reaches run).2
  refine Eq.trans keeps.registry (registryOf_congr fun e inside s named => ?_)
  exact (same s (keeps.named e inside s named)).symm

/-- Each thing that is seen changes the registry as its record tells. -/
theorem exists_registry_of_split
    (run : Records step Admitted notice (ofSettings settings) (past ++ e :: later) r) :
    ∃ t l t', Records step Admitted notice (ofSettings settings) past t ∧ t.step l = some t' ∧
      t.notice l = some e ∧ t.registry = registryOf r.identity past ∧
      t'.registry = registryOf r.identity (past ++ [e]) := by
  obtain ⟨t, l, t', first, admitted, last, shown, rest⟩ := run.exists_admitted_of_split rfl
  have next : Records step Admitted notice (ofSettings settings) (past ++ [e]) t' := by
    simpa [shown] using first.tail admitted last
  have whole : Records step Admitted notice t (e :: later) r := by
    have start : Records step Admitted notice t [] t := .refl t
    have head : Records step Admitted notice t [e] t' := by
      simpa [shown] using start.tail admitted last
    exact head.trans rest
  exact ⟨t, l, t', first, last, shown, registry_eq_of_records first whole,
    registry_eq_of_records next rest⟩

/-- A look at an entry shows that it is thrown out, or nothing. -/
theorem exists_cleared_of_noticeSweep {a : Actor} {entry : Nat}
    (shown : t.noticeSweep a entry = some e) : ∃ x, e = .cleared a x := by
  obtain ⟨x, -, shown⟩ := Option.bind_eq_some_iff.mp shown
  split at shown
  · exact ⟨x, (Option.some.inj shown).symm⟩
  · simp at shown

/-- A call that adds a subscriber shows whether a stop is requested. -/
theorem stopRequested_of_notice {n s : Nat} {stop : Bool} {l : Label}
    (shown : t.notice l = some (.asked n s stop)) : t.stopRequested = stop := by
  have swept : ∀ a entry, t.noticeSweep a entry ≠ some (.asked n s stop) := fun a entry shown => by
    obtain ⟨x, same⟩ := exists_cleared_of_noticeSweep shown
    cases same
  have published : ∀ a f, t.noticeFanout a f ≠ some (.asked n s stop) := fun a f => by
    unfold noticeFanout
    split <;> simp [swept]
  cases l with
  | call m =>
    obtain ⟨stage, -, shown⟩ := Option.bind_eq_some_iff.mp shown
    unfold noticeCall at shown
    split at shown <;> grind
  | reader run =>
    obtain ⟨reader, -, shown⟩ := Option.bind_eq_some_iff.mp shown
    unfold noticeReading at shown
    split at shown
    · exact absurd shown (published _ _)
    · simp at shown
  | consumer m action => cases action <;> simp [notice] at shown
  | _ => simp [notice] at shown

end Prefixes

/-- **The registry follows the calls.** Its entries are told by what has been seen of it, have
different identities and stand in the order of the latest addition of each. A call that adds a
subscriber is turned away if it sees a stop; if not, it sweeps the registry and adds the subscriber
at the end exactly if its identity is missing then. A call that removes one answers whether the
identity was there when it took the registry. An entry leaves only with its identity, or because it
is terminated, and a live subscriber that has been added stays until it is removed. -/
theorem registry_follows_calls
    (run : Records step Admitted notice (ofSettings settings) log r) :
    (r.registry = registryOf r.identity log ∧
      ∀ past e later, log = past ++ e :: later → ∃ t l t',
        Records step Admitted notice (ofSettings settings) past t ∧ t.step l = some t' ∧
        t.notice l = some e ∧ t.registry = registryOf r.identity past ∧
        t'.registry = registryOf r.identity (past ++ [e])) ∧
    ((r.registry.map r.identity).Nodup ∧ r.registry.Sublist (latest log)) ∧
    (∀ n s reply, .began n (.subscribe s) ∈ log → r.calls[n]? = some (.returned reply) →
      (reply = .changed false ∧ ∃ past later t, log = past ++ .asked n s true :: later ∧
        Records step Admitted notice (ofSettings settings) past t ∧ t.stopRequested) ∨
      ∃ added, reply = .changed added ∧
        (∃ past later t, log = past ++ .asked n s false :: later ∧
          Records step Admitted notice (ofSettings settings) past t ∧ t.stopRequested = false) ∧
        ∃ past later, log = past ++ .settled n s added :: later ∧
          Visit past (.call n) (registryOf r.identity past) ∧
          (added = true ↔ ∀ x ∈ registryOf r.identity past, r.identity x ≠ r.identity s)) ∧
    (∀ n s reply, .began n (.unsubscribe s) ∈ log → r.calls[n]? = some (.returned reply) →
      ∃ found past later, reply = .changed found ∧ log = past ++ .removed n s found :: later ∧
        (found = true ↔ ∃ x ∈ registryOf r.identity past, r.identity x = r.identity s)) ∧
    (∀ past e later, log = past ++ e :: later →
      ∀ x ∈ registryOf r.identity past, x ∉ registryOf r.identity (past ++ [e]) →
        (∃ n s found, e = .removed n s found ∧ r.identity x = r.identity s) ∨
          (∃ a, e = .cleared a x) ∧ .terminated x ∈ past) ∧
    ∀ n s past later, log = past ++ .settled n s true :: later → .terminated s ∉ log →
      (∀ m t found, .removed m t found ∈ later → r.identity t ≠ r.identity s) →
        s ∈ r.registry := by
  have keeps := keeps_of_records run
  have tells := tells_of_records run
  have truthful : Truthful r.identity log := keeps.truthful
  have registry : r.registry = registryOf r.identity log := keeps.registry
  refine ⟨⟨registry, ?_⟩, ?_, ?_, ?_, ?_, ?_⟩
  · rintro past e later rfl
    exact exists_registry_of_split run
  · rw [registry]
    exact ⟨truthful.nodup, truthful.sublist_latest⟩
  · intro n s reply began returned
    have seen : ∀ stop, .asked n s stop ∈ log → ∃ past later t,
        log = past ++ .asked n s stop :: later ∧
        Records step Admitted notice (ofSettings settings) past t ∧ t.stopRequested = stop := by
      intro stop asked
      obtain ⟨past, later, rfl⟩ := List.append_of_mem asked
      obtain ⟨t, l, -, there, -, shown, -⟩ := exists_registry_of_split run
      exact ⟨past, later, t, rfl, there, stopRequested_of_notice shown⟩
    rcases answer_of_subscribe tells began returned with ⟨no, asked⟩ | ⟨added, same, asked, settled⟩
    · exact .inl ⟨no, seen true asked⟩
    · obtain ⟨past, later, split⟩ := List.append_of_mem settled
      exact .inr ⟨added, same, seen false asked, past, later, split, truthful past _ later split⟩
  · intro n s reply began returned
    obtain ⟨found, same, removed⟩ := answer_of_unsubscribe tells began returned
    obtain ⟨past, later, split⟩ := List.append_of_mem removed
    exact ⟨found, past, later, same, split, truthful past _ later split⟩
  · rintro past e later rfl x before after
    exact truthful.leaves before after
  · rintro n s past later rfl live kept
    rw [registry]
    have added : s ∈ registryOf r.identity (past ++ [.settled n s true]) := by
      rw [registryOf_snoc]
      exact List.mem_append_right _ (List.mem_singleton_self s)
    rw [← List.singleton_append, ← List.append_assoc] at truthful live ⊢
    exact truthful.mem_of_stays added live kept

/-- Two subscribers are added, one of them is refused for being there, and then removed. -/
def departure : List Label :=
  enlist ["a", "b"] ++ perform 0 (.subscribe 0) 3 ++ perform 1 (.subscribe 1) 4 ++
    perform 2 (.subscribe 0) 5 ++ perform 3 (.unsubscribe 0) 3

/-- The removal has found the subscriber, and the other one stays. -/
theorem registry_after_departure : ∃ log r,
    Records step Admitted notice (ofSettings {}) log r ∧
    r.calls = [.returned (.changed true), .returned (.changed true), .returned (.changed false),
      .returned (.changed true)] ∧
    latest log = [0, 1] ∧ r.registry.Sublist (latest log) ∧
    (∃ past later, log = past ++ .removed 3 0 true :: later ∧
      ∃ x ∈ registryOf r.identity past, r.identity x = r.identity 0) ∧ 1 ∈ r.registry := by
  have ran : (record? step notice (ofSettings {}) departure).any (fun x =>
      x.2.calls = [.returned (.changed true), .returned (.changed true),
        .returned (.changed false), .returned (.changed true)] ∧ latest x.1 = [0, 1] ∧
      .began 3 (.unsubscribe 0) ∈ x.1 ∧ 1 ∈ x.2.registry) := by
    decide +kernel
  have admitted : ∀ l ∈ departure, Admitted l := by decide +kernel
  obtain ⟨log, r, run, facts⟩ := exists_records_of_any admitted ran
  obtain ⟨calls, order, began, stays⟩ := of_decide_eq_true facts
  dsimp only at calls
  obtain ⟨-, ⟨-, sorted⟩, -, removed, -⟩ := registry_follows_calls run
  have returned : r.calls[3]? = some (.returned (.changed true)) := by
    rw [calls]
    rfl
  obtain ⟨found, past, later, same, split, there⟩ := removed 3 0 _ began returned
  cases same
  exact ⟨log, r, run, calls, order, sorted, ⟨past, later, split, there.mp rfl⟩, stays⟩

end Relay

end PacketRelay
