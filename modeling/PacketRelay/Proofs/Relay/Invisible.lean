import PacketRelay.Proofs.Relay.Erasure
import PacketRelay.Proofs.Relay.Publishing
import PacketRelay.Proofs.Relay.Signals

/-!
# Starts that nobody notices

A start that finds the run reserved, or whose source does not open, leaves nothing behind. Take any
number of such starts out of what has happened on a publisher: the rest can happen without them, with
the same answers and the same packets for every consumer, and leads to the same publisher. Put them
back in, and whatever can happen without them can happen still, once they have returned.

## Main definitions

* `Relay.Reports`: what a record says of a start that has begun no run

## Main results

* `Relay.Reduces.exists_without`: what happens can happen without these starts
* `Relay.Reduces.exists_restored`: what happens without them can happen behind them
* `Relay.vain_starts_invisible`: such starts are noticed by nobody
-/

namespace PacketRelay

open Schedule

/-- The error with which a start gives the run back. -/
def CallStage.refusal? : CallStage → Option SourceError
  | .start _ _ (.refuse e) | .returned (.started (some (.source e))) => some e
  | _ => none

namespace Relay

variable {settings : PublisherSettings} {hidden given : List Nat} {log later : List View}
variable {r r' q q' : Relay} {n : Nat}

section Without

theorem filterMap_without_renumber (v : Option View) :
    (v.map (.renumber (seen hidden))).toList.filterMap (View.without hidden) = v.toList := by
  cases v with
  | none => rfl
  | some v => simp [View.without_renumber_seen]

/-- A step that is not one of a call that is taken out, and wakes none. -/
def Label.Keeps (hidden : List Nat) : Label → Prop
  | .call n | .consumer _ (.stir (.call n)) => n ∉ hidden
  | _ => True

/-- Such a step can be said of what is left. -/
theorem exists_renumber {l : Label} (admitted : Admitted l) (keeps : l.Keeps hidden) :
    ∃ l', Admitted l' ∧ l'.renumber (seen hidden) = l := by
  cases l with
  | call n => exact ⟨.call (rank hidden n), trivial, congrArg Label.call (seen_rank keeps)⟩
  | consumer subscriber action =>
    cases action with
    | dequeue pick => exact ⟨.consumer subscriber (.dequeue pick), trivial, rfl⟩
    | terminate => exact ⟨.consumer subscriber .terminate, trivial, rfl⟩
    | clear => exact ⟨.consumer subscriber .clear, trivial, rfl⟩
    | stir thread =>
      cases thread with
      | call n =>
        refine ⟨.consumer subscriber (.stir (.call (rank hidden n))), trivial, ?_⟩
        simp [Label.renumber, Subscriber.Action.rename, Actor.renumber, seen_rank keeps]
      | reader run => exact ⟨.consumer subscriber (.stir (.reader run)), trivial, rfl⟩
  | addSubscriber s =>
    have fresh : s = .ofName s.name s.suffix s.queue.capacity := admitted
    refine ⟨.addSubscriber s, admitted, ?_⟩
    rw [fresh]
    rfl
  | begin call => exact ⟨.begin call, trivial, rfl⟩
  | reader run => exact ⟨.reader run, trivial, rfl⟩
  | thread run => exact ⟨.thread run, trivial, rfl⟩
  | writer source action => exact ⟨.writer source action, trivial, rfl⟩
  | addSource s => exact ⟨.addSource s, trivial, rfl⟩

/-- A step that can be said of what is left is a step of it, and shows the same. -/
theorem Reduces.exists_kept {l : Label} (reduces : r.Reduces (seen hidden) given q)
    (regular : r.Regular ∧ q.Regular) (admitted : Admitted l) (keeps : l.Keeps hidden)
    (last : r.step l = some r') (kept : ∀ call, l = .begin call → r.calls.length ∉ hidden) :
    ∃ q', Records Relay.step Admitted view q ((view r l).toList.filterMap (View.without hidden)) q' ∧
      r'.Reduces (seen hidden) given q' := by
  obtain ⟨l, own, rfl⟩ := exists_renumber admitted keeps
  obtain ⟨q', stepped, after, views⟩ := reduces.step_kept regular last fun call same =>
    kept call (by rw [same]; rfl)
  have start : Records Relay.step Admitted view q [] q := .refl q
  exact ⟨q', by simpa [views, filterMap_without_renumber] using start.tail own stepped, after⟩

theorem setSubscriber_of_getElem? {s : Subscriber Actor} (here : r.subscribers[n]? = some s) :
    r.setSubscriber n s = r := by
  obtain ⟨there, same⟩ := List.getElem?_eq_some_iff.mp here
  have unchanged : r.subscribers.set n s = r.subscribers := same ▸ List.set_getElem_self there
  simp [setSubscriber, unchanged]

/-- No thread that waits in a queue has the name of a call that is taken out. -/
theorem Reduces.stir_hidden {subscriber : Nat} (reduces : r.Reduces (seen hidden) given q)
    (taken : n ∈ hidden) (last : r.step (.consumer subscriber (.stir (.call n))) = some r') :
    r' = r := by
  simp only [Relay.step, Option.bind_eq_bind, Option.bind_eq_some_iff] at last
  obtain ⟨s, here, same⟩ := last
  obtain rfl := Option.some.inj same
  have renamed := here
  rw [reduces.getElem?_subscribers] at renamed
  obtain ⟨s, -, rfl⟩ := Option.map_eq_some_iff.mp renamed
  have unnamed : ∀ b : Actor, b.renumber (seen hidden) ≠ .call n := by
    intro b same
    cases b with
    | call i => exact seen_ne taken i (Actor.call.inj same)
    | reader run => simp [Actor.renumber] at same
  have still : (s.rename (Actor.renumber (seen hidden))).act (.stir (.call n)) =
      s.rename (Actor.renumber (seen hidden)) := by
    simp [Subscriber.act, Subscriber.rename, Queue.stir_of_unnamed unnamed]
  rw [still]
  exact setSubscriber_of_getElem? here

/-- An access of a call is seen as one of that call. -/
theorem call?_view_call {v : View} (shown : view r (.call n) = some v) : v.call? = some n := by
  simp only [view, Option.bind_eq_some_iff] at shown
  obtain ⟨stage, -, shown⟩ := shown
  unfold viewCall at shown
  split at shown <;> obtain ⟨_, -, rfl⟩ := Option.map_eq_some_iff.mp shown <;> rfl

/-- Every step is one of what is left, or goes unseen. -/
theorem Reduces.exists_step {l : Label} (reduces : r.Reduces (seen hidden) given q)
    (regular : r.Regular ∧ q.Regular) (admitted : Admitted l) (last : r.step l = some r')
    (vain : Vain hidden (view r l).toList) :
    ∃ q', Records Relay.step Admitted view q ((view r l).toList.filterMap (View.without hidden)) q' ∧
      r'.Reduces (seen hidden) (given ++ Relay.given hidden (view r l).toList) q' := by
  by_cases kept : l.Keeps hidden ∧ ∀ call, l = .begin call → r.calls.length ∉ hidden
  · obtain ⟨q', run, after⟩ := reduces.exists_kept regular admitted kept.1 last kept.2
    exact ⟨q', run, after.mono fun _ inside => List.mem_append_left _ inside⟩
  cases l with
  | begin call =>
    have taken : r.calls.length ∈ hidden := by simpa [Label.Keeps] using kept
    have shown : view r (.begin call) = some (.asked r.calls.length call) := rfl
    obtain ⟨source, uri, rfl⟩ := (vain _ taken).1 call (by simp [shown])
    have begun : r.begin (.start source uri) = r' := by
      simp only [Relay.step] at last
      split at last
      · exact Option.some.inj last
      · simp at last
    have gone : [View.asked r.calls.length (.start source uri)].filterMap (View.without hidden) = [] := by
      simp [View.without, View.call?, taken]
    have gift : Relay.given hidden [.asked r.calls.length (.start source uri)] = [source] := by
      simp [Relay.given, View.gift?, taken]
    have more : r.Reduces (seen hidden) (given ++ [source]) q :=
      reduces.mono fun _ inside => List.mem_append_left _ inside
    rw [shown, Option.toList_some, gone, gift, ← begun]
    exact ⟨q, .refl q, more.begin_hidden (seen_ne taken) (by simp) uri⟩
  | call n =>
    have taken : n ∈ hidden := by simpa [Label.Keeps] using kept
    have unopened : view r (.call n) ≠ some (.opened n none) := fun opened =>
      (vain n taken).2 (by simp [opened])
    have after := reduces.callStep_hidden (seen_ne taken) regular last
      fun source uri x y here there opened => unopened (by
        simp [Relay.view, here, Relay.viewCall, there, ScriptedSource.refusal?, opened])
    have gone : (view r (.call n)).toList.filterMap (View.without hidden) = [] := by
      cases shown : view r (.call n) with
      | none => rfl
      | some v => simp [View.without, call?_view_call shown, taken]
    exact ⟨q, gone ▸ .refl q, after.mono fun _ inside => List.mem_append_left _ inside⟩
  | consumer subscriber action =>
    obtain ⟨n, rfl, taken⟩ : ∃ n, action = .stir (.call n) ∧ n ∈ hidden := by
      rcases action with _ | _ | _ | (n | run) <;> simp [Label.Keeps] at kept
      exact ⟨n, rfl, kept⟩
    obtain rfl := reduces.stir_hidden taken last
    exact ⟨q, .refl q, reduces.mono fun _ inside => List.mem_append_left _ inside⟩
  | _ => simp [Label.Keeps] at kept

theorem Regular.of_records (regular : r.Regular) (run : Records Relay.step Admitted view r log r') :
    r'.Regular := by
  induction run with
  | refl => exact regular
  | tail _ _ last ih => exact ih.step last

/-- **What happens can happen without starts that begin no run**, with the same answers. -/
theorem Reduces.exists_without (reduces : r.Reduces (seen hidden) given q)
    (regular : r.Regular ∧ q.Regular) (run : Records Relay.step Admitted view r log r')
    (vain : Vain hidden log) :
    ∃ q', Records Relay.step Admitted view q (log.filterMap (View.without hidden)) q' ∧
      r'.Reduces (seen hidden) (given ++ Relay.given hidden log) q' := by
  induction run with
  | refl => exact ⟨q, .refl q, reduces.mono fun _ inside => List.mem_append_left _ inside⟩
  | @tail s t log l before admitted last ih =>
    obtain ⟨u, recorded, same⟩ := ih vain.left
    have both : s.Regular ∧ u.Regular := ⟨regular.1.of_records before, regular.2.of_records recorded⟩
    obtain ⟨u', more, after⟩ := same.exists_step both admitted last vain.right
    refine ⟨u', ?_, ?_⟩
    · rw [List.filterMap_append]
      exact recorded.trans more
    · rwa [given_append, ← List.append_assoc]

end Without

section Restored

/-- Only its own accesses take a call on, once it has begun. -/
theorem getElem?_of_step {l : Label} (other : l ≠ .call n) (last : r.step l = some r') :
    r'.calls[n]? = r.calls[n]? ∨
      r.calls[n]? = none ∧ ∃ call, r'.calls[n]? = some (entry call) := by
  cases l with
  | begin call =>
    simp only [step] at last
    split at last
    · obtain rfl := Option.some.inj last
      have same : (r.prepare call).calls = r.calls := by cases call <;> rfl
      have calls : (r.begin call).calls[n]? = (r.calls ++ [entry call])[n]? :=
        congrArg (fun calls => (calls ++ [entry call])[n]?) same
      rw [calls, getElem?_snoc]
      split
      · next new => exact .inr ⟨by simp [new], call, rfl⟩
      · exact .inl rfl
    · simp at last
  | call m => exact .inl (getElem?_of_callStep (fun same => other (congrArg Label.call same)) last)
  | reader run => exact .inl (by rw [calls_readerStep last])
  | thread run =>
    obtain ⟨t, -, rfl⟩ := Option.map_eq_some_iff.mp last
    exact .inl rfl
  | consumer | writer =>
    simp only [step, Option.bind_eq_bind, Option.bind_eq_some_iff] at last
    obtain ⟨_, -, same⟩ := last
    obtain rfl := Option.some.inj same
    exact .inl rfl
  | addSubscriber | addSource =>
    obtain rfl := Option.some.inj last
    exact .inl rfl

/-- A call that has returned stays where it is. -/
theorem getElem?_returned {l : Label} {reply : RelayReply} (last : r.step l = some r')
    (ended : r.calls[n]? = some (.returned reply)) : r'.calls[n]? = some (.returned reply) := by
  have other : l ≠ .call n := by
    rintro rfl
    simp [step, callStep, ended] at last
  rcases getElem?_of_step other last with same | ⟨fresh, -⟩
  · exact same.trans ended
  · simp [fresh] at ended

theorem admitted_renumber {f : Nat → Nat} {l : Label} (admitted : Admitted l) :
    Admitted (l.renumber f) := by
  cases l with
  | addSubscriber s =>
    have fresh : s = .ofName s.name s.suffix s.queue.capacity := admitted
    exact congrArg (Subscriber.rename (Actor.renumber f)) fresh
  | _ => trivial

/-- **What happens without starts that begin no run can happen behind them**, with the same answers. -/
theorem Reduces.exists_restored (reduces : r.Reduces (seen hidden) given q)
    (regular : r.Regular ∧ q.Regular) (returned : r.HasReturned hidden)
    (run : Records Relay.step (fun l => Admitted l ∧ l.Avoids given) view q later q') :
    ∃ r', Records Relay.step Admitted view r (later.map (.renumber (seen hidden))) r' ∧
      r'.Reduces (seen hidden) given q' := by
  suffices ∃ r', Records Relay.step Admitted view r (later.map (.renumber (seen hidden))) r' ∧
      r'.Reduces (seen hidden) given q' ∧ r'.HasReturned hidden from
    this.imp fun _ facts => ⟨facts.1, facts.2.1⟩
  induction run with
  | refl => exact ⟨r, .refl r, reduces, returned⟩
  | @tail s t log l before allowed last ih =>
    obtain ⟨u, recorded, same, ended⟩ := ih
    have both : u.Regular ∧ s.Regular := ⟨regular.1.of_records recorded,
      regular.2.of_records (before.mono fun _ allowed => allowed.1)⟩
    obtain ⟨u', stepped, after, views⟩ := same.step_restored ended both last allowed.2
    refine ⟨u', ?_, after, fun n taken => (ended n taken).imp fun _ => getElem?_returned stepped⟩
    have more := recorded.tail (admitted_renumber allowed.1) stepped
    rw [views] at more
    cases shown : view s l with
    | none => simpa [shown] using more
    | some v => simpa [shown] using more

end Restored

section Reports

/-- What a record says of a start that begins no run: its source has been opened when there is an
error to return, and it has returned. -/
structure Reports (log : List View) (r : Relay) (n : Nat) : Prop where
  opened : ∀ e, .opened n e ∈ log ↔ (r.calls[n]?.bind CallStage.refusal?).map some = some e
  answered : ∀ reply, .answered n reply ∈ log → r.calls[n]? = some (.returned reply)

variable {stage stage' : CallStage}

/-- What concerns other calls leaves a report as it is. -/
theorem Reports.of_other (reports : Reports log r n) {v : Option View}
    (same : r'.calls[n]? = r.calls[n]? ∨ r.calls[n]? = none ∧ ∃ call, r'.calls[n]? = some (entry call))
    (other : ∀ x, v = some x → x.call? ≠ some n ∨ ∃ m call, x = .asked m call) :
    Reports (log ++ v.toList) r' n := by
  have silent : (∀ e, v ≠ some (.opened n e)) ∧ ∀ reply, v ≠ some (.answered n reply) := by
    constructor
    · rintro e rfl
      simpa [View.call?] using other _ rfl
    · rintro reply rfl
      simpa [View.call?] using other _ rfl
  constructor
  · intro e
    have before := reports.opened e
    have refusal : r'.calls[n]?.bind CallStage.refusal? = r.calls[n]?.bind CallStage.refusal? := by
      rcases same with same | ⟨fresh, call, new⟩
      · rw [same]
      · rw [fresh, new]
        cases call <;> rfl
    rw [refusal, ← before]
    simp [silent.1 e]
  · intro reply answered
    have before := reports.answered reply (by simpa [silent.2 reply] using answered)
    rcases same with same | ⟨fresh, -⟩
    · exact same.trans before
    · simp [fresh] at before

/-- A call that goes on, and neither comes by an error nor gives one up. -/
theorem Reports.of_goes (reports : Reports log r n) (here : r.calls[n]? = some stage)
    (there : r'.calls[n]? = some stage') (same : stage'.refusal? = stage.refusal?)
    (going : stage.reply? = none) :
    Reports (log ++ (stage'.reply?.map (View.answered n)).toList) r' n where
  opened e := by
    have before := reports.opened e
    rw [here, Option.bind_some] at before
    rw [there, Option.bind_some, same, ← before]
    cases stage'.reply? <;> simp
  answered reply answered := by
    rcases List.mem_append.mp answered with earlier | new
    · obtain rfl := Option.some.inj (here.symm.trans (reports.answered reply earlier))
      simp [CallStage.reply?] at going
    · obtain ⟨reply', own, same⟩ := Option.map_eq_some_iff.mp (Option.mem_toList.mp new)
      obtain rfl := (View.answered.inj same).2
      cases stage' with
      | returned reply =>
        obtain rfl := Option.some.inj own
        exact there
      | _ => simp [CallStage.reply?] at own

/-- A call whose source does not open. -/
theorem Reports.of_opened {e : SourceError} (reports : Reports log r n)
    (here : r.calls[n]? = some stage) (there : r'.calls[n]? = some stage')
    (before : stage.refusal? = none) (after : stage'.refusal? = some e) (going : stage.reply? = none) :
    Reports (log ++ (some (View.opened n (some e))).toList) r' n where
  opened x := by
    have earlier := reports.opened x
    rw [here, Option.bind_some, before] at earlier
    rw [there, Option.bind_some, after]
    simp [earlier, eq_comm]
  answered reply answered := by
    have earlier := reports.answered reply (by simpa using answered)
    obtain rfl := Option.some.inj (here.symm.trans earlier)
    simp [CallStage.reply?] at going

/-- An access of a start that has begun no run. -/
theorem Reports.callStep (reports : Reports log r n) (here : r.calls[n]? = some stage)
    (vain : stage.isVain = true) (last : r.callStep n = some r')
    (unopened : view r (.call n) ≠ some (.opened n none)) :
    Reports (log ++ (view r (.call n)).toList) r' n := by
  have step := last
  simp only [Relay.callStep, here, Option.bind_eq_bind, Option.bind_some] at step
  have inside := (List.getElem?_eq_some_iff.mp here).1
  have there : ∀ {s : Relay} {stage' : CallStage}, s.calls.length = r.calls.length →
      (s.setCall n stage').calls[n]? = some stage' := fun same => getElem?_setCall (same ▸ inside)
  -- Unless it opens its source, a start shows its answer only.
  have goes : ∀ {stage' : CallStage}, (∀ source uri, stage ≠ .start source uri .openSource) →
      r'.calls[n]? = some stage' → stage'.refusal? = stage.refusal? → stage.reply? = none →
      Reports (log ++ (view r (.call n)).toList) r' n := by
    intro stage' before after same going
    have shown : view r (.call n) = stage'.reply?.map (.answered n) := by
      simp only [view, here, Option.bind_some]
      unfold viewCall
      split
      · exact absurd rfl (before _ _)
      · simp [last, after]
    rw [shown]
    exact reports.of_goes here after same going
  cases stage with
  | start source uri at_ =>
    cases at_ with
    | lock =>
      obtain ⟨-, rfl⟩ := startStep_lock step
      exact goes (by simp) (there rfl) rfl rfl
    | reserve =>
      simp only [startStep, Option.some.injEq] at step
      split at step
      · subst step
        exact goes (by simp) (there rfl) rfl rfl
      · subst step
        exact goes (by simp) (there rfl) rfl rfl
    | joining =>
      rcases taskStep_cases step with ⟨-, rfl⟩ | ⟨t, -, rfl⟩
      · exact goes (by simp) (there rfl) rfl rfl
      · exact goes (by simp) here rfl rfl
    | openSource =>
      obtain ⟨x, found, -, ⟨y, opened, -⟩ | ⟨e, refused, rfl⟩⟩ := startStep_openSource step
      · exact absurd (by simp [view, here, viewCall, found, ScriptedSource.refusal?, opened]) unopened
      · have shown : view r (.call n) = some (.opened n (some e)) := by
          simp [view, here, viewCall, found, ScriptedSource.refusal?, refused]
        rw [shown]
        exact reports.of_opened here (there rfl) rfl rfl rfl
    | refuse e =>
      obtain rfl := Option.some.inj step
      exact goes (by simp) (there rfl) rfl rfl
    | _ => simp [CallStage.isVain] at vain
  | returned reply => simp at step
  | _ => simp [CallStage.isVain] at vain

/-- A step reports what it does to a start that has begun no run. -/
theorem Reports.step {l : Label} (reports : Reports log r n)
    (vain : ∀ stage, r.calls[n]? = some stage → stage.isVain = true) (last : r.step l = some r')
    (unopened : view r l ≠ some (.opened n none)) : Reports (log ++ (view r l).toList) r' n := by
  by_cases own : l = .call n
  · subst own
    obtain ⟨stage, here⟩ := exists_stage_of_callStep last
    exact reports.callStep here (vain stage here) last unopened
  refine reports.of_other (getElem?_of_step own last) fun v shown => ?_
  cases l with
  | begin call =>
    obtain rfl := Option.some.inj shown
    exact .inr ⟨_, call, rfl⟩
  | call m =>
    left
    rw [call?_view_call shown]
    exact fun same => own (congrArg Label.call (Option.some.inj same))
  | consumer subscriber action =>
    cases action with
    | dequeue pick =>
      obtain ⟨s, -, rfl⟩ := Option.map_eq_some_iff.mp shown
      exact .inl (by simp [View.call?])
    | _ => simp [view] at shown
  | _ => simp [view] at shown

end Reports

theorem reduces_ofSettings : (ofSettings settings).Reduces (seen hidden) [] (ofSettings settings) where
  settings := rfl
  subscribers := rfl
  sources _ := .none
  registry := rfl
  registryHolder := rfl
  started := rfl
  stopRequested := rfl
  lastId := rfl
  token := rfl
  video := rfl
  audio := rfl
  uri := rfl
  counters := rfl
  dropped := rfl
  running _ := rfl
  claimed _ := rfl
  task := .inl (.refl _)
  attended _ _ _ _ := .refl _
  calls _ := rfl
  vain _ _ _ here := by simp [ofSettings] at here

/-- Whatever happens on a new publisher can happen without starts that begin no run. -/
theorem exists_without (run : Records step Admitted view (ofSettings settings) log r)
    (vain : Vain hidden log) :
    ∃ q, Records step Admitted view (ofSettings settings) (log.filterMap (View.without hidden)) q ∧
      r.Reduces (seen hidden) (Relay.given hidden log) q := by
  simpa using reduces_ofSettings.exists_without ⟨regular_ofSettings, regular_ofSettings⟩ run vain

theorem reports_of_records (run : Records step Admitted view (ofSettings settings) log r)
    (vain : Vain hidden log) (taken : n ∈ hidden) : Reports log r n := by
  induction run with
  | refl => exact ⟨by simp [ofSettings], by simp⟩
  | @tail s t log l before admitted last ih =>
    obtain ⟨q, -, reduces⟩ := exists_without before vain.left
    refine (ih vain.left).step (fun stage => reduces.vain n stage (seen_ne taken)) last ?_
    exact fun opened => (vain.right n taken).2 (by simp [opened])

/-- **A start that begins no run returns with success, and its source has not been opened, or it
returns the very error that its source has given.** -/
theorem answer_of_vain {reply : RelayReply}
    (run : Records step Admitted view (ofSettings settings) log r) (vain : Vain hidden log)
    (taken : n ∈ hidden) (answered : .answered n reply ∈ log) :
    reply = .started none ∧ (∀ e, .opened n e ∉ log) ∨
      ∃ e, reply = .started (some (.source e)) ∧ .opened n (some e) ∈ log := by
  obtain ⟨q, -, reduces⟩ := exists_without run vain
  have reports := reports_of_records run vain taken
  have ended := reports.answered reply answered
  have empty := reduces.vain n _ (seen_ne taken) ended
  have opened := reports.opened
  rw [ended, Option.bind_some] at opened
  cases reply with
  | started fault =>
    cases fault with
    | none => exact .inl ⟨rfl, fun e found => by simpa [CallStage.refusal?] using (opened e).mp found⟩
    | some fault =>
      cases fault with
      | source e => exact .inr ⟨e, rfl, (opened _).mpr rfl⟩
      | _ => simp [CallStage.isVain] at empty
  | _ => simp [CallStage.isVain] at empty

/-- **Nobody notices a start that begins no run.** At any time, a start that finds the run reserved
returns with success, and one whose source does not open returns the error of that source; both leave
the publisher as it is, apart from their own place among the calls and the threads behind the task,
whose tokens they leave alone. Take any number of such starts out of what has happened: each of them
has returned so, whatever else went on meanwhile; all that has happened apart from them can happen
without them, and leads to the same publisher; and whatever happens there from then on can happen
here, once they have returned. -/
theorem vain_starts_invisible (run : Records step Admitted view (ofSettings settings) log r) :
    (∀ n source uri, r.calls[n]? = some (.start source uri .lock) → r.taskHolder = none →
      (r.running = true →
        Records step Admitted view r [.answered n (.started none)] (r.answer n (.started none))) ∧
      ∀ x e, r.running = false → r.sources[source]? = some x → x.isShut = false →
        x.openAt uri = .error e → ∃ t : Task Reader,
          (∀ run, t.isCancelled run = r.task.isCancelled run) ∧
          Records step Admitted view r [.opened n (some e), .answered n (.started (some (.source e)))]
            (({ r with task := t } : Relay).answer n (.started (some (.source e))))) ∧
    ∀ hidden, Vain hidden log →
      (∀ n ∈ hidden, ∀ reply, .answered n reply ∈ log →
        reply = .started none ∧ (∀ e, .opened n e ∉ log) ∨
          ∃ e, reply = .started (some (.source e)) ∧ .opened n (some e) ∈ log) ∧
      ∃ q, Records step Admitted view (ofSettings settings) (log.filterMap (View.without hidden)) q ∧
        r.Reduces (seen hidden) (Relay.given hidden log) q ∧
        (r.HasReturned hidden → ∀ later q',
          Records step (fun l => Admitted l ∧ l.Avoids (Relay.given hidden log)) view q later q' →
          ∃ r', Records step Admitted view r (later.map (.renumber (seen hidden))) r' ∧
            r'.Reduces (seen hidden) (Relay.given hidden log) q') := by
  have regular := regular_of_reaches run.reaches
  refine ⟨fun n source uri here free => ⟨records_ignored here free, fun x e idle there gate refused =>
    exists_refused regular here free idle there gate refused⟩, fun hidden vain => ?_⟩
  obtain ⟨q, recorded, reduces⟩ := exists_without run vain
  refine ⟨fun n taken reply => answer_of_vain run vain taken, q, recorded, reduces, ?_⟩
  intro returned later q' more
  exact reduces.exists_restored ⟨regular, regular_of_reaches recorded.reaches⟩ returned more

/-- A start whose source does not open, one that begins a run, one that finds it reserved, and a look at
the publisher. -/
def threeStarts : List Label :=
  List.flatten [[.addSource {}, .addSource { allowNoStreams := true }, .addSource {}],
    .begin (.start 0 "a") :: List.replicate 6 (.call 0),
    .begin (.start 1 "b") :: List.replicate 19 (.call 1),
    .begin (.start 2 "c") :: List.replicate 2 (.call 2),
    .begin .describe :: List.replicate 5 (.call 3)]

/-- Without the first start and the last, the one that is left and the look give the same answers. -/
theorem invisible_of_threeStarts : ∃ log r q, Records step Admitted view (ofSettings {}) log r ∧
    .answered 0 (.started (some (.source .noStreams))) ∈ log ∧ .answered 2 (.started none) ∈ log ∧
    r.HasReturned [0, 2] ∧
    Records step Admitted view (ofSettings {})
      [.asked 0 (.start 1 "b"), .opened 0 none, .answered 0 (.started none), .asked 1 .describe,
        .answered 1 (.described
          { uri := some "b", started := false, stopRequested := false, subscribers := 0, lastId := 0 })] q ∧
    r.Reduces (seen [0, 2]) [0, 2] q := by
  have ran : (record? step view (ofSettings {}) threeStarts).any (fun x : List View × Relay =>
      x.1 = [.asked 0 (.start 0 "a"), .opened 0 (some .noStreams),
        .answered 0 (.started (some (.source .noStreams))), .asked 1 (.start 1 "b"), .opened 1 none,
        .answered 1 (.started none), .asked 2 (.start 2 "c"), .answered 2 (.started none),
        .asked 3 .describe, .answered 3 (.described
          { uri := some "b", started := false, stopRequested := false, subscribers := 0, lastId := 0 })] ∧
      x.2.calls[0]? = some (.returned (.started (some (.source .noStreams)))) ∧
      x.2.calls[2]? = some (.returned (.started none))) := by
    decide +kernel
  have admitted : ∀ l ∈ threeStarts, Admitted l := by decide +kernel
  obtain ⟨log, r, run, facts⟩ := exists_records_of_any admitted ran
  obtain ⟨rfl, first, last⟩ := of_decide_eq_true facts
  obtain ⟨-, q, without, reduces, -⟩ := (vain_starts_invisible run).2 [0, 2] (by simp [Vain])
  exact ⟨_, r, q, run, by simp, by simp, by simp [HasReturned, first, last], without, reduces⟩

end Relay

end PacketRelay
