import PacketRelay.Proofs.Relay.Signals

/-!
# When a stop is kept

A call that stops the publisher while a start is under way may come too early. The start clears the
request to stop that it finds, and shares the token of its run only when that run has been made, so
that a stop can raise its request before the one and cancel before the other. Nothing of it is left
then, and the new run goes on.

Here a start is followed from the point where it reserves its run. What has been shown since then is
cut by its own accesses: it clears the request, makes the run, and shares the token. In between
there are the accesses of those that stop. The request is up exactly if one of them has raised it
after it was cleared, and the token is set exactly if one of them has cancelled after it was shared.

## Main definitions

* `Relay.Stands`: where a start stands that has reserved its run, and what it has left behind

## Main results

* `Relay.Stands.startStep`, `Relay.Stands.disturbed`: its own steps and those of others keep this
* `Relay.kept_iff`: which stops are kept
-/

namespace PacketRelay.Relay

open Schedule

variable {r r' : Relay} {n : Nat} {log : List Signal} {l : Label}

/-- Where a start stands that has reserved its run, when this has been shown since then. -/
inductive Stands (n : Nat) (r : Relay) (log : List Signal) : Prop
  -- It is on its way to clearing the request to stop.
  | opening {source : Nat} {uri : String} {at_ : Starting}
      (here : r.calls[n]? = some (.start source uri at_)) (place : at_ = .joining ∨ at_.isPreparing)
      (stops : ∀ e ∈ log, e.isOfStop)
  -- It is on its way to making its run.
  | launching {source : Nat} {uri : String} {at_ : Starting} (opening launching : List Signal)
      (here : r.calls[n]? = some (.start source uri at_))
      (place : at_ = .launching ∧ r.task.newRun? = none ∨ at_ = .refuseThread)
      (told : log = opening ++ .cleared n :: launching)
      (stops : ∀ e ∈ opening ++ launching, e.isOfStop)
      (stop : r.stopRequested = true ↔ ∃ m, .raised m ∈ launching)
  -- It is on its way to sharing the token of its run.
  | sharing {source : Nat} {uri : String} {at_ : Starting} (k : Nat)
      (opening launching sharing : List Signal) (here : r.calls[n]? = some (.start source uri at_))
      (place : at_ = .launching ∨ at_ = .shareToken ∧ r.task.isFree) (new : r.task.newRun? = some k)
      (told : log = opening ++ .cleared n :: launching ++ .spawned n k :: sharing)
      (stops : ∀ e ∈ opening ++ launching ++ sharing, e.isOfStop)
      (stop : r.stopRequested = true ↔ ∃ m, .raised m ∈ launching ++ sharing)
      (token : r.token ≠ some k) (unset : r.task.isCancelled k = false)
  -- It has returned, and its run has begun.
  | started (k : Nat) (opening launching sharing since : List Signal)
      (here : r.calls[n]? = some (.returned (.started none)))
      (told : log =
        opening ++ .cleared n :: launching ++ .spawned n k :: sharing ++ .shared n k :: since)
      (stops : ∀ e ∈ opening ++ launching ++ sharing ++ since, e.isOfStop)
      (stop : r.stopRequested = true ↔ ∃ m, .raised m ∈ launching ++ sharing ++ since)
      (token : r.token = some k)
      (cancelled : r.task.isCancelled k = true ↔ ∃ m, .cancelled m ∈ since)
      (dropping : ∀ m, r.control.role m = some (.drop .dropTask) → ∃ m, .cancelled m ∈ since)
  -- It has failed.
  | failed {e : Fault} (here : r.calls[n]? = some (.returned (.started (some e))))

section Others

variable {e : Option Signal}

theorem newRun?_congr {t t' : Task Reader}
    (same : t'.position = t.position ∧ t'.current = t.current) : t'.newRun? = t.newRun? := by
  rw [Task.newRun?, Task.newRun?, same.1, same.2]

/-- A start that has come to the task holds it. -/
theorem holder_of_start {source : Nat} {uri : String} {at_ : Starting} (sound : r.control.Sound)
    (here : r.calls[n]? = some (.start source uri at_)) (past : at_ ≠ .lock) :
    r.taskHolder = some n := by
  have role : r.control.role n = some (.start source at_) := by simp [control, here, CallStage.role]
  exact (sound.holder n).mpr (by simp [role, holds_start past])

/-- While a start is in progress nobody drops the task. -/
theorem not_dropping_of_start {source : Nat} {uri : String} {at_ : Starting}
    (sound : r.control.Sound) (here : r.calls[n]? = some (.start source uri at_)) (m : Nat)
    (place : Dropping) : r.control.role m ≠ some (.drop place) := by
  intro there
  have role : r.control.role n = some (.start source at_) := by simp [control, here, CallStage.role]
  have same : n = m := sound.drop_alone there (by simp [role])
  subst same
  simp [role] at there

theorem Disturbs.stops (disturbs : Disturbs n r r' e) {part : List Signal}
    (stops : ∀ x ∈ part, x.isOfStop) : ∀ x ∈ part ++ e.toList, x.isOfStop := by
  intro x inside
  rcases List.mem_append.mp inside with inside | inside
  · exact stops x inside
  · exact disturbs.signal x (Option.mem_toList.mp inside)

/-- A request to stop that has been raised stays. -/
theorem Disturbs.raised (disturbs : Disturbs n r r' e) (flags : r'.flags = Signal.after e r.flags)
    {part : List Signal} (stop : r.stopRequested = true ↔ ∃ m, .raised m ∈ part) :
    r'.stopRequested = true ↔ ∃ m, .raised m ∈ part ++ e.toList := by
  have next : r'.stopRequested = Signal.stopAfter r.stopRequested e := congrArg Prod.fst flags
  rw [next]
  cases e with
  | none => simpa [Signal.stopAfter] using stop
  | some x =>
    have ofStop := disturbs.signal x rfl
    cases x <;> simp_all [Signal.isOfStop, Signal.stopAfter]

theorem Disturbs.token (disturbs : Disturbs n r r' e) (flags : r'.flags = Signal.after e r.flags) :
    r'.token = r.token := by
  have next : r'.token = Signal.tokenAfter r.token e := congrArg Prod.snd flags
  rw [next]
  cases e with
  | none => rfl
  | some x =>
    have ofStop := disturbs.signal x rfl
    cases x <;> simp_all [Signal.isOfStop, Signal.tokenAfter]

/-- **The steps of others leave a start where it stands.** -/
theorem Stands.disturbed (stands : Stands n r log) (disturbs : Disturbs n r r' e)
    (sound : r.control.Sound) (flags : r'.flags = Signal.after e r.flags) :
    Stands n r' (log ++ e.toList) := by
  have token := disturbs.token flags
  cases stands with
  | opening here place old => exact .opening (disturbs.call.trans here) place (disturbs.stops old)
  | failed here => exact .failed (disturbs.call.trans here)
  | launching opening launching here place told old stop =>
    refine .launching opening (launching ++ e.toList) (disturbs.call.trans here) ?_ (by simp [told])
      (by simpa using disturbs.stops old) (disturbs.raised flags stop)
    refine place.imp_left fun ⟨at_, off⟩ => ⟨at_, ?_⟩
    rw [newRun?_congr (disturbs.handle (holder_of_start sound here (by simp [at_]))), off]
  | sharing k opening launching sharing here place new told old stop fresh unset =>
    have handle := disturbs.handle
      (holder_of_start sound here (by rcases place with rfl | ⟨rfl, -⟩ <;> simp))
    refine .sharing k opening launching (sharing ++ e.toList) (disturbs.call.trans here) ?_
      ((newRun?_congr handle).trans new) (by simp [told]) (by simpa using disturbs.stops old)
      (by simpa using disturbs.raised flags stop) (token ▸ fresh) ?_
    · refine place.imp_right fun ⟨at_, free⟩ => ⟨at_, ?_⟩
      rwa [Task.isFree, handle.1]
    · rcases disturbs.tokens k with same | ⟨⟨m, drops⟩, -⟩
      · simp [same, unset, fresh]
      · exact absurd drops (not_dropping_of_start sound here m _)
  | started k opening launching sharing since here told old stop shared cancelled dropping =>
    refine .started k opening launching sharing (since ++ e.toList) (disturbs.call.trans here)
      (by simp [told]) (by simpa using disturbs.stops old)
      (by simpa using disturbs.raised flags stop) (token.trans shared) ?_ ?_
    · rcases disturbs.tokens k with same | ⟨⟨m, drops⟩, set⟩
      · rw [same, shared, Bool.or_eq_true, cancelled]
        cases e with
        | none => simp
        | some x => cases x <;> simp [Signal.isCancelling]
      · obtain ⟨j, inside⟩ := dropping m drops
        exact iff_of_true set ⟨j, List.mem_append_left _ inside⟩
    · intro m drops
      rcases disturbs.dropping m drops with before | rfl
      · obtain ⟨j, inside⟩ := dropping m before
        exact ⟨j, List.mem_append_left _ inside⟩
      · exact ⟨m, by simp⟩

end Others

section Own

variable {source : Nat} {uri : String} {at_ : Starting}

theorem signalStart_launching (nothing : ∀ target, r.task.position ≠ .spawn target) :
    r.signalStart n .launching = none := by
  cases at_ : r.task.position with
  | spawn target => exact absurd at_ (nothing target)
  | _ => simp only [signalStart, at_]

/-- A start that prepares its run goes on, clears the request to stop, or fails. -/
theorem stands_of_opening (here : r.calls[n]? = some (.start source uri at_))
    (place : at_ = .joining ∨ at_.isPreparing) (stops : ∀ e ∈ log, e.isOfStop)
    (last : r.startStep n source uri at_ = some r') :
    Stands n r' (log ++ (r.signalStart n at_).toList) := by
  have there := (List.getElem?_eq_some_iff.mp here).1
  cases at_ with
  | joining =>
    simp only [signalStart, Option.toList_none, List.append_nil]
    rcases taskStep_cases last with ⟨-, rfl⟩ | ⟨t, -, rfl⟩
    · exact .opening (getElem?_setCall there) (.inr rfl) stops
    · exact .opening here place stops
  | openSource =>
    simp only [signalStart, Option.toList_none, List.append_nil]
    obtain ⟨s, -, -, ⟨s', -, rfl⟩ | ⟨e, -, rfl⟩⟩ := startStep_openSource last
    · exact .opening (getElem?_setCall there) (.inr rfl) stops
    · exact .opening (getElem?_setCall there) (.inr rfl) stops
  | setVideo | setAudio | setUri =>
    simp only [signalStart, Option.toList_none, List.append_nil]
    obtain rfl := Option.some.inj last
    exact .opening (getElem?_setCall there) (.inr rfl) stops
  | clearStop =>
    obtain rfl := Option.some.inj last
    refine .launching log [] (getElem?_setCall there) (.inl ⟨rfl, rfl⟩) rfl
      (by simpa using stops) ?_
    simp [setCall, beginTask]
  | refuse e =>
    obtain rfl := Option.some.inj last
    exact .failed (getElem?_setCall there)
  | _ => simp [Starting.isPreparing] at place

/-- A start that has cleared the request to stop goes on, makes its run, or fails. -/
theorem stands_of_launching {opening launching : List Signal} (known : r.Known)
    (here : r.calls[n]? = some (.start source uri at_))
    (place : at_ = .launching ∧ r.task.newRun? = none ∨ at_ = .refuseThread)
    (told : log = opening ++ .cleared n :: launching)
    (stops : ∀ e ∈ opening ++ launching, e.isOfStop)
    (stop : r.stopRequested = true ↔ ∃ m, .raised m ∈ launching)
    (last : r.startStep n source uri at_ = some r') :
    Stands n r' (log ++ (r.signalStart n at_).toList) := by
  have there := (List.getElem?_eq_some_iff.mp here).1
  rcases place with ⟨rfl, off⟩ | rfl
  · rcases taskStep_cases last with ⟨free, rfl⟩ | ⟨t, step, rfl⟩
    · -- The task has answered that it has made no run.
      have answered : r.task.position = .returned false := by
        unfold Task.isFree at free
        split at free
        · next begun at_ => cases begun <;> simp_all [Task.newRun?]
        · simp at free
      have refuses : r.afterLaunch = .refuseThread := by simp [afterLaunch, answered]
      simp only [signalStart, answered, Option.toList_none, List.append_nil, refuses]
      exact .launching opening launching (getElem?_setCall there) (.inr rfl) told stops stop
    · rcases Task.newRun?_advance step with ⟨new, nothing, -⟩ | ⟨target, at_, new, -⟩
      · simp only [signalStart_launching nothing, Option.toList_none, List.append_nil]
        exact .launching opening launching here (.inl ⟨rfl, new.trans off⟩) told stops stop
      · simp only [signalStart, at_, Option.toList_some]
        refine .sharing r.task.contexts.length opening launching [] here (.inl rfl) new
          (by simp [told]) (by simpa using stops) (by simpa using stop) ?_ ?_
        · exact fun shared => Nat.lt_irrefl _ (known.token _ shared)
        · rcases Task.isCancelled_advance step r.task.contexts.length with same | ⟨other, -⟩
          · rw [same, Task.isCancelled_eq_any, List.getElem?_eq_none (Nat.le_refl _)]
            rfl
          · simp [at_] at other
  · obtain rfl := Option.some.inj last
    exact .failed (getElem?_setCall there)

/-- A start that has made its run goes on, and shares the token of that run. -/
theorem stands_of_sharing {k : Nat} {opening launching sharing : List Signal}
    (sound : r.control.Sound) (here : r.calls[n]? = some (.start source uri at_))
    (place : at_ = .launching ∨ at_ = .shareToken ∧ r.task.isFree) (new : r.task.newRun? = some k)
    (told : log = opening ++ .cleared n :: launching ++ .spawned n k :: sharing)
    (stops : ∀ e ∈ opening ++ launching ++ sharing, e.isOfStop)
    (stop : r.stopRequested = true ↔ ∃ m, .raised m ∈ launching ++ sharing)
    (token : r.token ≠ some k) (unset : r.task.isCancelled k = false)
    (last : r.startStep n source uri at_ = some r') :
    Stands n r' (log ++ (r.signalStart n at_).toList) := by
  have there := (List.getElem?_eq_some_iff.mp here).1
  rcases place with rfl | ⟨rfl, free⟩
  · have nothing : ∀ target, r.task.position ≠ .spawn target := by
      intro target at_
      simp [Task.newRun?, at_] at new
    simp only [signalStart_launching nothing, Option.toList_none, List.append_nil]
    rcases taskStep_cases last with ⟨free, rfl⟩ | ⟨t, step, rfl⟩
    · have shares : r.afterLaunch = .shareToken := by
        simp [afterLaunch, (Task.current_eq_of_newRun? free new).1]
      rw [shares]
      exact .sharing k opening launching sharing (getElem?_setCall there) (.inr ⟨rfl, free⟩) new
        told stops stop token unset
    · rcases Task.newRun?_advance step with ⟨same, -⟩ | ⟨target, at_, -⟩
      · refine .sharing k opening launching sharing here (.inl rfl) (same.trans new) told stops stop
          token ?_
        rcases Task.isCancelled_advance step k with same | ⟨at_, -⟩
        · exact same.trans unset
        · simp [Task.newRun?, at_] at new
      · exact absurd at_ (nothing target)
  · obtain rfl := Option.some.inj last
    have current := (Task.current_eq_of_newRun? free new).2
    simp only [signalStart, current, Option.toList_some]
    refine .started k opening launching sharing [] (getElem?_setCall there) (by simp [told])
      (by simpa using stops) ((List.append_nil _).symm ▸ stop) rfl (iff_of_false ?_ (by simp)) ?_
    · show ¬ r.task.isCancelled k = true
      simp [unset]
    · intro m drops
      have next : ({ r with token := some k }.answerFreeing n (.started none)).control.role =
          (r.control.setRole n none).role :=
        role_setCall (r := { r with token := some k, taskHolder := none }) there
      rw [next, Control.role_setRole] at drops
      split at drops
      · simp at drops
      · exact absurd drops (not_dropping_of_start sound here m _)

/-- What a start does that has reserved its run. -/
theorem Stands.startStep (stands : Stands n r log) (known : r.Known) (sound : r.control.Sound)
    (here : r.calls[n]? = some (.start source uri at_))
    (last : r.startStep n source uri at_ = some r') :
    Stands n r' (log ++ (r.signalStart n at_).toList) := by
  cases stands with
  | opening here' place stops =>
    obtain ⟨rfl, rfl, rfl⟩ := CallStage.start.inj (Option.some.inj (here.symm.trans here'))
    exact stands_of_opening here place stops last
  | launching opening launching here' place told stops stop =>
    obtain ⟨rfl, rfl, rfl⟩ := CallStage.start.inj (Option.some.inj (here.symm.trans here'))
    exact stands_of_launching known here place told stops stop last
  | sharing k opening launching sharing here' place new told stops stop token unset =>
    obtain ⟨rfl, rfl, rfl⟩ := CallStage.start.inj (Option.some.inj (here.symm.trans here'))
    exact stands_of_sharing sound here place new told stops stop token unset last
  | started _ _ _ _ _ here' => simp [here] at here'
  | failed here' => simp [here] at here'

end Own

section Run

variable {settings : PublisherSettings} {before after : List Signal}

theorem eq_call_of_claimed (shown : r.signal l = some (.claimed n)) : l = .call n ∧
    r.running = false ∧ ∃ source uri, r.calls[n]? = some (.start source uri .reserve) := by
  obtain ⟨m, stage, rfl, here, shows⟩ := exists_shows_of_signal shown
  cases shows with
  | claimed idle => exact ⟨rfl, idle, _, _, here⟩
  | ofStop stops => simp [Signal.isOfStop] at stops

/-- A start goes on alone. -/
theorem solitary_of_callStep (solitary : r.control.Solitary n) (last : r.callStep n = some r') :
    r'.control.Solitary n := by
  intro m source at_ ne role
  refine solitary m source at_ ne ?_
  rw [← role]
  simp only [control, getElem?_of_callStep (Ne.symm ne) last]

/-- A start that reserves its run is the first one to come to it. -/
theorem stands_of_claimed (sound : r.control.Sound) (shown : r.signal l = some (.claimed n))
    (last : r.step l = some r') : Stands n r' [] ∧ r'.control.Solitary n := by
  obtain ⟨rfl, idle, source, uri, here⟩ := eq_call_of_claimed shown
  have there := (List.getElem?_eq_some_iff.mp here).1
  have solitary : r.control.Solitary n := by
    intro m source' at_ ne role
    by_contra late
    have past : at_ ≠ .lock := fun early => late (.inl early)
    exact not_holds sound ne (holder_of_start sound here (by simp)) role (.inl (holds_start past))
  refine ⟨?_, solitary_of_callStep solitary last⟩
  have begun : r.startStep n source uri .reserve = some r' := (callStep_start here).symm.trans last
  simp only [Relay.startStep, idle, Bool.false_eq_true, if_false, Option.some.injEq] at begun
  subst begun
  exact .opening (getElem?_setCall there) (.inl rfl) (by simp)

/-- **Every step keeps where a start stands**, as long as no other one reserves its run. -/
theorem Stands.step (stands : Stands n r log) (solitary : r.control.Solitary n)
    (sound : r.control.Sound) (known : r.Known) (unclaimed : ∀ m, r.signal l ≠ some (.claimed m))
    (last : r.step l = some r') :
    Stands n r' (log ++ (r.signal l).toList) ∧ r'.control.Solitary n := by
  by_cases own : l = .call n
  · subst own
    refine ⟨?_, solitary_of_callStep solitary last⟩
    obtain ⟨stage, here⟩ := exists_stage_of_callStep last
    rw [signal_call here]
    cases stage with
    | start source uri at_ =>
      exact stands.startStep known sound here ((callStep_start here).symm.trans last)
    | returned reply => simp [Relay.step, callStep, here] at last
    | _ => cases stands <;> simp_all
  · obtain ⟨stage, here⟩ : ∃ stage, r.calls[n]? = some stage := by
      cases stands <;> exact ⟨_, ‹_›⟩
    have there := (List.getElem?_eq_some_iff.mp here).1
    have disturbs := disturbs_step own there sound known solitary unclaimed last
    exact ⟨stands.disturbed disturbs sound (flags_step last), disturbs.solitary⟩

theorem known_of_reaches (run : Reaches step (ofSettings settings) r) : r.Known := by
  induction run with
  | refl => exact known_ofSettings
  | tail run last ih => exact ih.step (sound_of_reaches run) last

/-- Where the last start stands that has reserved its run. -/
theorem stands_of_records (run : Records step (fun _ => True) signal (ofSettings settings) log r)
    (told : log = before ++ .claimed n :: after) (unclaimed : ∀ m, .claimed m ∉ after) :
    Stands n r after ∧ r.control.Solitary n := by
  induction run generalizing after with
  | refl => simp at told
  | @tail t u log l run _ last ih =>
    have sound := sound_of_reaches run.reaches
    have known := known_of_reaches run.reaches
    cases shown : t.signal l with
    | none =>
      obtain ⟨stands, solitary⟩ := ih (by simpa [shown] using told) unclaimed
      simpa [shown] using stands.step solitary sound known (by simp [shown]) last
    | some e =>
      rw [shown, Option.toList_some] at told
      rcases List.eq_nil_or_concat after with rfl | ⟨later, x, rfl⟩
      · obtain ⟨-, same⟩ := List.append_inj' told rfl
        obtain rfl := List.singleton_inj.mp same
        exact stands_of_claimed sound shown last
      · rw [List.concat_eq_append] at told unclaimed ⊢
        rw [← List.cons_append, ← List.append_assoc] at told
        obtain ⟨earlier, same⟩ := List.append_inj' told rfl
        obtain rfl := List.singleton_inj.mp same
        obtain ⟨stands, solitary⟩ := ih earlier fun m inside => unclaimed m (by simp [inside])
        have other : ∀ m, t.signal l ≠ some (.claimed m) := by
          rintro m same
          obtain rfl := Option.some.inj (shown.symm.trans same)
          exact unclaimed m (by simp)
        simpa [shown] using stands.step solitary sound known other last

/-- **When a stop is kept.** A start has reserved its run and has returned with success, and no
other start has reserved one since. Then it has cleared the request to stop, has made a run and has
shared the token of that run, and beside these only calls that stop have shown anything. The stop is
requested or the token is set exactly if one of these calls has raised its request after it was
cleared, or has cancelled after the token was shared. -/
theorem kept_iff
    (run : Records step (fun _ => True) signal (ofSettings settings)
      (before ++ .claimed n :: after) r)
    (latest : ∀ m, .claimed m ∉ after) (ok : r.calls[n]? = some (.returned (.started none))) :
    ∃ k opening launching sharing since,
      after =
        opening ++ .cleared n :: launching ++ .spawned n k :: sharing ++ .shared n k :: since ∧
      (∀ e ∈ opening ++ launching ++ sharing ++ since, e.isOfStop) ∧
      ((r.stopRequested = true ∨ r.task.isCancelled k = true) ↔
        (∃ m, .raised m ∈ launching ++ sharing ++ since) ∨ ∃ m, .cancelled m ∈ since) := by
  cases (stands_of_records run rfl latest).1 with
  | started k opening launching sharing since _ told stops stop _ cancelled =>
    exact ⟨k, opening, launching, sharing, since, told, stops, or_congr stop cancelled⟩
  | opening here | launching _ _ here | sharing _ _ _ _ here | failed here => simp [ok] at here

/-- A start, and a stop that is called once the start has reserved its run. The accesses of the stop
come before and after the given parts of the start, and the read thread enters its loop at the end.
-/
def startAndStop (raised cancelled : Nat) : List Label :=
  List.flatten [[.addSource { allowNoStreams := true }, .begin (.start 0 "")],
    List.replicate raised (.call 0), [.begin .stop, .call 1],
    List.replicate (cancelled - raised) (.call 0), [.call 1],
    List.replicate (19 - cancelled) (.call 0), List.replicate 4 (.thread 1)]

/-- A stop that raises its request while the source is being opened, and cancels when the start has
returned, is kept. -/
theorem kept_of_late_cancel : ∃ r k, Records step (fun _ => True) signal (ofSettings {})
      ([] ++ .claimed 0 :: [.raised 1, .cleared 0, .spawned 0 1, .shared 0 1, .cancelled 1]) r ∧
    r.calls = [.returned (.started none), .returned .stopped] ∧
      (r.stopRequested = true ∨ r.task.isCancelled k = true) := by
  have ran : (record? step signal (ofSettings {}) (startAndStop 4 19)).any (fun x =>
      x.1 = [.claimed 0, .raised 1, .cleared 0, .spawned 0 1, .shared 0 1, .cancelled 1] ∧
        x.2.calls = [.returned (.started none), .returned .stopped]) := by
    decide +kernel
  obtain ⟨log, r, run, facts⟩ := exists_records_of_any (fun _ _ => trivial) ran
  obtain ⟨rfl, calls⟩ := of_decide_eq_true facts
  have ok : r.calls[0]? = some (.returned (.started none)) := congrArg (·[0]?) calls
  have recorded : Records step (fun _ => True) signal (ofSettings {})
      ([] ++ .claimed 0 :: _) r := run
  obtain ⟨k, opening, launching, sharing, since, told, -, kept⟩ :=
    kept_iff recorded (by simp) ok
  refine ⟨r, k, run, calls, kept.mpr (.inr ⟨1, ?_⟩)⟩
  -- The last signal of all is the last one since the token was shared.
  rcases List.eq_nil_or_concat since with rfl | ⟨xs, x, rfl⟩
  · have last := (congrArg List.getLast? told).trans List.getLast?_concat
    simp at last
  · rw [List.concat_eq_append, ← List.cons_append, ← List.append_assoc] at told
    have last := (congrArg List.getLast? told).trans List.getLast?_concat
    obtain rfl : .cancelled 1 = x := by simpa using last
    simp

/-- **A stop that comes while the source is being opened is lost**: the start and the stop have
returned, the read loop goes on, and neither is the stop requested nor the token of the run set. -/
theorem lost_while_opening : ∃ r, Records step (fun _ => True) signal (ofSettings {})
      [.claimed 0, .raised 1, .cancelled 1, .cleared 0, .spawned 0 1, .shared 0 1] r ∧
    r.calls = [.returned (.started none), .returned .stopped] ∧ (r.task.target? 1).isSome ∧
      r.stopRequested = false ∧ r.task.isCancelled 1 = false := by
  have ran : (record? step signal (ofSettings {}) (startAndStop 4 4)).any (fun x =>
      x.1 = [.claimed 0, .raised 1, .cancelled 1, .cleared 0, .spawned 0 1, .shared 0 1] ∧
        x.2.calls = [.returned (.started none), .returned .stopped] ∧ (x.2.task.target? 1).isSome ∧
        x.2.stopRequested = false ∧ x.2.task.isCancelled 1 = false) := by
    decide +kernel
  obtain ⟨log, r, run, facts⟩ := exists_records_of_any (fun _ _ => trivial) ran
  obtain ⟨rfl, rest⟩ := of_decide_eq_true facts
  exact ⟨r, run, rest⟩

end Run

end PacketRelay.Relay
