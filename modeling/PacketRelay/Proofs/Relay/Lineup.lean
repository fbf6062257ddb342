import PacketRelay.Proofs.Relay.Origin
import PacketRelay.Proofs.Relay.Report

/-!
# Whom a read loop serves

A request to stop stays while a read loop executes: a start clears it when the run that it has reserved
has no thread yet. So a loop that has seen it before one entry of the registry sees it before the last
one too, and those that it has come to are the first in the registry, in order. A call that publishes
on a thread of its own may pass over entries and come to the last one nevertheless, if a start clears
the request in between.

## Main definitions

* `Delivery.Leads`: those that a delivery has come to are the first in its registry
* `Delivery.Heads`: how far its thread is with them
* `Lined`: the deliveries of the read loops are like this

## Main results

* `stop_step`: a request to stop stays while a read loop executes
* `lined`: along every schedule
-/

namespace PacketRelay.Relay

open Schedule

/-- The thread whose delivery an event is about. -/
def Event.by? : Event → Option Actor
  | .took a _ | .swept a _ | .asked a _ | .checked a .. | .pushed a .. | .released a => some a
  | _ => none

/-- Those that a delivery has come to are the first in the registry that its sweep has left. -/
def Delivery.Leads (D : Delivery) : Prop :=
  D.checks.map Prod.fst <+: D.entries.getD []

/-- Those that a delivery has come to are a number of entries. -/
def Delivery.CameTo (D : Delivery) (k : Nat) : Prop :=
  D.checks.map Prod.fst = (D.entries.getD []).take k

/-- A delivery has come to the first entries of its registry, up to where its thread is. Where the
thread looks for a stop, it may have passed over some if there is one. -/
def Delivery.Heads (D : Delivery) (stop : Bool) : Fanout → Prop
  | .sweep .. => D.checks = []
  | .choose _ k _ => D.Leads ∧ (stop = false → D.CameTo k)
  | .serve _ k _ (.check _) => D.CameTo k
  | .serve _ k _ _ => D.CameTo (k + 1)
  | _ => D.Leads

section Deliveries

variable {D : Delivery} {ds : List Delivery} {r r' : Relay} {a : Actor} {f f' : Fanout}
  {p : Packet} {k reached : Nat} {stop : Bool}

theorem Delivery.CameTo.leads (came : D.CameTo k) : D.Leads := by
  rw [Leads, came]
  exact List.take_prefix k _

theorem Delivery.leads_of_nil (none : D.checks = []) : D.Leads := by
  rw [Leads, none]
  exact List.nil_prefix

theorem Delivery.Heads.leads (heads : D.Heads stop f) : D.Leads := by
  cases f with
  | sweep => exact leads_of_nil heads
  | choose => exact heads.1
  | serve p k reached e => cases e <;> exact CameTo.leads heads
  | _ => exact heads

/-- A stop that comes changes nothing about it. -/
theorem Delivery.Heads.mono {stop' : Bool} (heads : D.Heads stop f) (stays : stop → stop') :
    D.Heads stop' f := by
  cases f with
  | choose => exact ⟨heads.1, fun none => heads.2 (by simpa [none] using stays)⟩
  | serve p k reached e => cases e <;> exact heads
  | _ => exact heads

theorem Delivery.Leads.heads_close (leads : D.Leads) : D.Heads stop (.close p reached) := by
  unfold Fanout.close
  split <;> exact leads

theorem Delivery.heads_afterSweep {entries : Nat} (none : D.checks = []) :
    D.Heads stop (.afterSweep p entries) := by
  have came : D.CameTo 0 := by simp [CameTo, none]
  unfold Fanout.afterSweep
  split
  · exact leads_of_nil none
  · exact came
  · exact ⟨leads_of_nil none, fun _ => came⟩

theorem Delivery.Heads.asked {entries : Nat} (heads : D.Heads stop (.choose p k reached)) :
    Delivery.Heads { D with asked := D.asked ++ [stop] } stop
      (.afterChoice p entries k reached stop) := by
  obtain ⟨leads, came⟩ := heads
  unfold Fanout.afterChoice
  cases stop with
  | false => exact came rfl
  | true =>
    dsimp only
    rw [if_pos rfl]
    split
    · exact Leads.heads_close leads
    · exact ⟨leads, by simp⟩

theorem Delivery.CameTo.afterServe {entries : Nat} (came : D.CameTo (k + 1)) :
    D.Heads stop (.afterServe p entries k reached) := by
  unfold Fanout.afterServe
  split
  · exact ⟨came.leads, fun _ => came⟩
  · exact came.leads.heads_close

theorem Delivery.CameTo.checked {es : List Nat} {n : Nat} (came : D.CameTo k)
    (entries : D.entries = some es) (entered : es[k]? = some n) (active : Bool) :
    Delivery.CameTo { D with checks := D.checks ++ [(n, active)] } (k + 1) := by
  have before : D.checks.map Prod.fst = (D.entries.getD []).take k := came
  show (D.checks ++ [(n, active)]).map Prod.fst = (D.entries.getD []).take (k + 1)
  rw [List.map_append, before, entries, Option.getD_some, List.take_add_one, entered]
  rfl

/-- **An access of a thread that publishes keeps it at the front of the registry.** -/
theorem Delivery.Heads.step (past : List Delivery) (heads : D.Heads r.stopRequested f)
    (tracks : D.Tracks r.registry f) (last : f.step D.actor r = some (r', f')) :
    ∃ D', (observeFanout D.actor r f).toList.foldl enter (D :: past) = D' :: past ∧
      D'.actor = D.actor ∧ D'.Heads r.stopRequested f' := by
  cases f with
  | checkStop | checkStarted | acquire | finished =>
    simp [Delivery.Tracks, Fanout.isClosing] at tracks
  | sweep p entry =>
    rcases Relay.step_sweep last with ⟨next, found, rfl⟩ | ⟨over_, rfl, rfl⟩
    · rw [observeFanout, if_neg (not_le_of_sweep found)]
      exact ⟨D, rfl, rfl, heads⟩
    · rw [observeFanout, if_pos (sweep_eq_none_iff.mp over_)]
      exact ⟨_, amend_cons_self, rfl, heads_afterSweep heads⟩
  | choose p k reached =>
    obtain ⟨rfl, rfl⟩ := Prod.mk.inj (Option.some.inj last)
    exact ⟨_, amend_cons_self, rfl, heads.asked⟩
  | serve p k reached e =>
    rcases Relay.step_serve last with
      ⟨rfl, rfl, rfl⟩ | ⟨n, s, s', e', entered, there, step, rfl, rfl⟩
    · have quiet : observeFanout D.actor r' (.serve p k reached .finished) = none := by
        simp [observeFanout, observeEnqueue, Enqueue.appended]
      rw [quiet]
      exact ⟨D, rfl, rfl, CameTo.afterServe heads⟩
    · have shown : observeFanout D.actor r (.serve p k reached e) =
          observeEnqueue D.actor n s e := by
        simp [observeFanout, entered, there]
      rw [shown]
      rcases Enqueue.step_cases step with ⟨q, rfl, rfl⟩ | ⟨due, after⟩
      · refine ⟨_, amend_cons_self, rfl, ?_⟩
        have came := CameTo.checked heads tracks.1.2 entered s.active
        split <;> exact came
      · have quiet : observeEnqueue D.actor n s e =
            (e.appended D.actor s).map (.pushed D.actor n) := by
          rcases due with ⟨q, rfl⟩ | rfl <;> rfl
        have came : D.CameTo (k + 1) := by rcases due with ⟨q, rfl⟩ | rfl <;> exact heads
        rw [quiet]
        rcases after with ⟨full, rfl⟩ | ⟨q, appended, rfl⟩
        · rw [full]
          exact ⟨D, rfl, rfl, came⟩
        · rw [appended]
          exact ⟨_, amend_cons_self, rfl, came⟩
  | release reached =>
    obtain ⟨rfl, rfl⟩ := Prod.mk.inj (Option.some.inj last)
    exact ⟨_, amend_cons_self, rfl, heads⟩
  | countBytes p reached =>
    obtain ⟨rfl, rfl⟩ := Prod.mk.inj (Option.some.inj last)
    refine ⟨D, rfl, rfl, ?_⟩
    split <;> exact heads
  | countDiscarded | countPublished | countKeyframe =>
    obtain ⟨rfl, rfl⟩ := Prod.mk.inj (Option.some.inj last)
    exact ⟨D, rfl, rfl, heads⟩

theorem by?_of_isAside {x : Event} (aside : x.isAside) : x.by? = none := by
  cases x <;> simp_all [Event.isAside, Event.by?]

/-- A change of the last delivery of one thread leaves the deliveries of the others. -/
theorem mem_of_amend {change : Delivery → Delivery} (there : D ∈ amend a change ds)
    (keeps : ∀ D, (change D).actor = D.actor) : D ∈ ds ∨ D.actor = a := by
  induction ds with
  | nil => exact .inl there
  | cons C ds ih =>
    unfold amend at there
    split at there
    · next own =>
      rcases List.mem_cons.mp there with rfl | later
      · exact .inr ((keeps C).trans own)
      · exact .inl (List.mem_cons_of_mem _ later)
    · rcases List.mem_cons.mp there with rfl | later
      · exact .inl List.mem_cons_self
      · exact (ih later).imp_left (List.mem_cons_of_mem _)

/-- An event adds or changes a delivery of its own thread only. -/
theorem mem_of_enter {x : Event} (there : D ∈ enter ds x) : D ∈ ds ∨ x.by? = some D.actor := by
  have changed {a : Actor} {change : Delivery → Delivery} (inside : D ∈ amend a change ds)
      (keeps : ∀ D, (change D).actor = D.actor) : D ∈ ds ∨ some a = some D.actor :=
    (mem_of_amend inside keeps).imp_right fun own => congrArg some own.symm
  cases x with
  | took a p =>
    rcases List.mem_cons.mp there with rfl | before
    · exact .inr rfl
    · exact .inl before
  | swept | asked | checked | pushed | released => exact changed there fun _ => rfl
  | _ => exact .inl there

/-- What a thread shows that publishes is its own. -/
theorem by?_observeFanout {x : Event} (shown : observeFanout a r f = some x) : x.by? = some a := by
  cases f with
  | sweep p entry =>
    simp only [observeFanout] at shown
    split at shown
    · exact Option.some.inj shown ▸ rfl
    · simp at shown
  | acquire | choose | release => exact Option.some.inj shown ▸ rfl
  | serve p k reached e =>
    simp only [observeFanout, Option.bind_eq_bind, Option.bind_eq_some_iff] at shown
    obtain ⟨n, -, s, -, shows⟩ := shown
    rcases eq_of_observeEnqueue shows with ⟨active, rfl⟩ | ⟨q, -, rfl⟩ <;> rfl
  | _ => simp [observeFanout] at shown

end Deliveries

/-- The deliveries of the read loops lead their registries, and a loop that delivers is with the last
of them. -/
structure Lined (ds : List Delivery) (r : Relay) : Prop where
  leads : ∀ D ∈ ds, ∀ run, D.actor = .reader run → D.Leads
  heads : ∀ run f, r.fanout? (.reader run) = some f → f.isInside →
    ∃ D past, ds = D :: past ∧ D.actor = .reader run ∧ D.Heads r.stopRequested f

section Steps

variable {ds : List Delivery} {r r' : Relay}

/-- A request to stop stays while a read loop executes. -/
theorem stop_step {k : Keeper} {run : Nat} {reader : Reader} {l : Label} (kept : r.control.KeptBy k)
    (executing : r.task.target? run = some reader) (last : r.step l = some r')
    (stop : r.stopRequested) : r'.stopRequested := by
  have after : r'.stopRequested = Signal.stopAfter r.stopRequested (r.signal l) :=
    congrArg Prod.fst (flags_step last)
  rw [after]
  cases shown : r.signal l with
  | none => exact stop
  | some e =>
    cases e with
    | cleared n =>
      obtain ⟨m, stage, -, here, shows⟩ := exists_shows_of_signal shown
      cases shows with
      | cleared =>
        have claimed := kept.eq_call (role_start here) rfl
        simp [kept.eq_run executing] at claimed
      | ofStop stops => simp [Signal.isOfStop] at stops
    | raised n => rfl
    | _ => exact stop

variable {a : Actor} {f f' : Fanout} {s : Relay}

/-- A thread takes the registry. -/
theorem Lined.take {p : Packet} (lined : Lined ds r) (sound : r.desk.Sound)
    (free : r.registryHolder = none)
    (next : r'.fanout? = Function.update r.fanout? a (some (.sweep p 0))) :
    Lined ({ actor := a, packet := p } :: ds) r' := by
  have fresh : Delivery.Leads { actor := a, packet := p } := Delivery.leads_of_nil rfl
  refine ⟨List.forall_mem_cons.mpr ⟨fun _ _ => fresh, lined.leads⟩, ?_⟩
  intro run f at_ inside
  rw [next] at at_
  by_cases own : .reader run = a
  · rw [own, Function.update_self] at at_
    obtain rfl := Option.some.inj at_
    exact ⟨_, ds, rfl, own.symm, rfl⟩
  · rw [Function.update_of_ne own] at at_
    have held := sound.holder _ _ (doing_of_fanout? at_ inside) rfl
    simp [desk, free] at held

variable
  (stays : ∀ run reader, r.task.target? run = some reader → r.stopRequested → r'.stopRequested)

include stays

/-- Nothing is delivered, and the loops that deliver are where they were. -/
theorem Lined.of_still (lined : Lined ds r)
    (same : ∀ run f, r'.fanout? (.reader run) = some f → f.isInside →
      r.fanout? (.reader run) = some f) : Lined ds r' where
  leads := lined.leads
  heads run f at_ inside := by
    have before := same run f at_ inside
    obtain ⟨D, past, same, actor, heads⟩ := lined.heads run f before inside
    obtain ⟨reader, executing, -⟩ := Option.bind_eq_some_iff.mp before
    exact ⟨D, past, same, actor, heads.mono (stays run reader executing)⟩

/-- A thread goes on behind the lock. -/
theorem Lined.access (lined : Lined ds r) (sound : r.desk.Sound) (books : Books r.desk ds)
    (at_ : r.fanout? a = some f) (inside : f.isInside) (last : f.step a r = some (s, f'))
    (next : r'.fanout? = Function.update r.fanout? a (some f')) :
    Lined ((observeFanout a r f).toList.foldl enter ds) r' := by
  have mine {D : Delivery} (there : D ∈ (observeFanout a r f).toList.foldl enter ds) :
      D ∈ ds ∨ D.actor = a := by
    cases shown : observeFanout a r f with
    | none => exact .inl (by simpa [shown] using there)
    | some x =>
      rw [shown] at there
      refine (mem_of_enter there).imp_right fun own => ?_
      exact Option.some.inj (own.symm.trans (by?_observeFanout shown))
  -- No other thread is behind the lock.
  have alone {b : Actor} {g : Fanout} (there : r.fanout? b = some g) (within : g.isInside) : b = a :=
    eq_of_isInside sound there within at_ inside
  cases a with
  | call n =>
    refine ⟨?_, ?_⟩
    · intro D there run own
      refine lined.leads D ((mine there).resolve_right ?_) run own
      simp [own]
    · intro run g there within
      rw [next, Function.update_of_ne (by simp)] at there
      exact absurd (alone there within) (by simp)
  | reader run =>
    obtain ⟨D, past, rfl, actor, heads⟩ := lined.heads run f at_ inside
    obtain ⟨_, _, same, -, -, -, tracks⟩ := books.current sound (doing_of_fanout? at_ inside)
    obtain ⟨rfl, -⟩ := List.cons.inj same
    obtain ⟨reader, executing, -⟩ := Option.bind_eq_some_iff.mp at_
    obtain ⟨D', changed, actor', heads'⟩ := heads.step past tracks (actor ▸ last)
    rw [actor] at changed actor'
    rw [changed]
    refine ⟨?_, ?_⟩
    · refine List.forall_mem_cons.mpr ⟨fun _ _ => heads'.leads, ?_⟩
      exact fun C there => lined.leads C (List.mem_cons_of_mem _ there)
    · intro other g there within
      rw [next] at there
      by_cases own : other = run
      · subst own
        rw [Function.update_self] at there
        obtain rfl := Option.some.inj there
        exact ⟨D', past, rfl, actor', heads'.mono (stays other reader executing)⟩
      · rw [Function.update_of_ne (by simpa using own)] at there
        exact absurd (alone there within) (by simpa using own)

/-- **The deliveries of the read loops stay lined up.** -/
theorem Lined.step {e : Option Event} (lined : Lined ds r) (sound : r.desk.Sound)
    (books : Books r.desk ds) (pace : Pace l r r' e) : Lined (e.toList.foldl enter ds) r' := by
  -- Threads that come to a place in front of the lock leave the others alone.
  have outside {a : Actor} {x : Option Fanout}
      (next : r'.fanout? = Function.update r.fanout? a x)
      (off : ∀ f, x = some f → f.isInside = false) : Lined ds r' := by
    refine lined.of_still stays fun run f at_ inside => ?_
    rw [next] at at_
    by_cases own : .reader run = a
    · rw [own, Function.update_self] at at_
      simp [off f at_] at inside
    · rwa [Function.update_of_ne own] at at_
  cases pace with
  | @access a f f' s at_ last counters next =>
    cases f with
    | checkStop p | checkStarted p =>
      obtain ⟨rfl, rfl⟩ := Prod.mk.inj (Option.some.inj last)
      refine outside next fun f same => ?_
      obtain rfl := Option.some.inj same
      split <;> rfl
    | acquire p =>
      obtain ⟨free, rfl, rfl⟩ := Relay.step_acquire last
      exact lined.take sound free next
    | finished => simp [Fanout.step] at last
    | _ => exact lined.access stays sound books at_ rfl last next
  | begins p _ off counters next =>
    refine outside next fun f same => ?_
    obtain rfl := Option.some.inj same
    rfl
  | ends at_ counters next => exact outside next (by simp)
  | @aside e quiet counters same =>
    rw [foldl_enter_of_isAside quiet]
    exact lined.of_still stays fun run f at_ _ => same ▸ at_

end Steps

/-- **Along every schedule the deliveries of the read loops are lined up.** -/
theorem lined {settings : PublisherSettings} {log : List Event} {r : Relay}
    (run : Records step Admitted observe (ofSettings settings) log r) : Lined (ledger log) r := by
  induction run with
  | refl =>
    refine ⟨by simp [ledger], fun run f at_ inside => ?_⟩
    have doing := doing_of_fanout? at_ inside
    simp [doing_ofSettings] at doing
  | @tail t u log l run _ last ih =>
    obtain ⟨sound, k, kept⟩ := keeper_of_reaches run.reaches
    have told := accounted run
    rw [ledger_append_toList]
    exact ih.step (fun run reader executing => stop_step kept executing last) told.sound told.books
      (pace_step sound last)

end PacketRelay.Relay
