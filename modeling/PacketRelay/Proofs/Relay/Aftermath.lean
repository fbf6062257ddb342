import PacketRelay.Proofs.Relay.Lineup

/-!
# What is left to do once a stop is requested

A request to stop is looked for at four places: at the head of the read loop, before a packet is
published, before an entry of the registry is served, and before the last one is. A thread that has
just looked goes on with what it was about to do, however long it has to wait for it, and then comes
to one of these places again. So each thread has one thing left to do at most: the loop one unit to
read and one number to take, a thread that publishes one packet to append. What is left is told by
where the thread is, and every access uses up what it does.

A thread that has yet to look before it publishes has nothing left. It changes neither the registry
nor a queue nor a counter.

## Main definitions

* `Relay.heldStep`: the steps under a request to stop
* `Reading.readsLeft`, `Reading.numbersLeft`, `Fanout.pushesLeft`: what a thread has left to do
* `Relay.IsBarred`: a thread has nothing left to do to the subscribers

## Main results

* `Relay.Round.spends`, `Relay.pushesLeft_step`: an access uses up what it does
* `Relay.bounded_after_stop`: what happens after a request to stop
-/

namespace PacketRelay

/-- The packets that a thread has left to append to a queue, once it has come there. -/
def Enqueue.pushesLeft : Enqueue → Nat
  | .finished => 0
  | _ => 1

/-- The packets that a thread has left to append that publishes under a request to stop. -/
def Fanout.pushesLeft : Fanout → Nat
  | .checkStarted _ | .acquire _ | .sweep .. => 1
  | .serve _ _ _ e => e.pushesLeft
  | _ => 0

/-- The units that a loop has left to read under a request to stop. -/
def Reading.readsLeft : Reading → Nat
  | .read => 1
  | _ => 0

/-- The numbers that it has left to take. -/
def Reading.numbersLeft : Reading → Nat
  | .read | .countRead _ | .number .. => 1
  | _ => 0

/-- Has a thread that publishes yet to look for a stop, or is it done? -/
def Fanout.isBarred : Fanout → Bool
  | .checkStop _ | .finished _ => true
  | _ => false

/-- Has a loop neither a unit to handle nor a packet to hand out? -/
def Reading.isBarred : Reading → Bool
  | .read | .countRead _ | .number .. => false
  | .publish f => f.isBarred
  | _ => true

/-- The label under which a thread takes its steps. -/
def Actor.label : Actor → Relay.Label
  | .call n => .call n
  | .reader run => .reader run

namespace Relay

open Schedule

/-- Does the loop of a run read a unit? -/
def Event.isRead : Event → Bool
  | .read .. => true
  | _ => false

/-- Does a thread append the packet that it publishes? -/
def Event.isPushBy (a : Actor) : Event → Bool
  | .pushed b .. => b = a
  | _ => false

/-- A step that leaves a request to stop standing. -/
def heldStep (r : Relay) (l : Label) : Option Relay :=
  (r.step l).filter (·.stopRequested)

section Pushes

variable {r r' : Relay} {a : Actor} {f f' : Fanout} {p : Packet} {entries entry reached : Nat}

@[simp] theorem pushesLeft_close : (Fanout.close p reached).pushesLeft = 0 := by
  unfold Fanout.close
  split <;> rfl

theorem pushesLeft_afterSweep : (Fanout.afterSweep p entries).pushesLeft ≤ 1 := by
  unfold Fanout.afterSweep
  split <;> simp [Fanout.pushesLeft, Enqueue.pushesLeft]

@[simp] theorem pushesLeft_afterServe :
    (Fanout.afterServe p entries entry reached).pushesLeft = 0 := by
  unfold Fanout.afterServe
  split
  · rfl
  · exact pushesLeft_close

@[simp] theorem pushesLeft_afterChoice :
    (Fanout.afterChoice p entries entry reached true).pushesLeft = 0 := by
  unfold Fanout.afterChoice
  dsimp only
  rw [if_pos rfl]
  split
  · exact pushesLeft_close
  · rfl

/-- At a queue a thread that has come there appends what it has left to append. -/
theorem pushesLeft_enqueue {n : Nat} {s s' : Subscriber Actor} {e e' : Enqueue}
    (step : e.step a s = some (s', e')) :
    (observeEnqueue a n s e).toList.countP (Event.isPushBy a) + e'.pushesLeft ≤ e.pushesLeft := by
  rcases Enqueue.step_cases step with ⟨q, rfl, rfl⟩ | ⟨due, after⟩
  · have quiet : (observeEnqueue a n s (.check q)).toList.countP (Event.isPushBy a) = 0 := rfl
    rw [quiet]
    split <;> simp [Enqueue.pushesLeft]
  · have shown : observeEnqueue a n s e = (e.appended a s).map (.pushed a n) := by
      rcases due with ⟨q, rfl⟩ | rfl <;> rfl
    have left : e.pushesLeft = 1 := by rcases due with ⟨q, rfl⟩ | rfl <;> rfl
    rw [shown, left]
    rcases after with ⟨full, rfl⟩ | ⟨q, appended, rfl⟩
    · rw [full]
      exact Nat.le_refl 1
    · rw [appended]
      simp [Event.isPushBy, Enqueue.pushesLeft]

/-- **An access of a thread that publishes uses up what it appends.** -/
theorem pushesLeft_fanout (stop : r.stopRequested) (last : f.step a r = some (r', f')) :
    (observeFanout a r f).toList.countP (Event.isPushBy a) + f'.pushesLeft ≤ f.pushesLeft := by
  cases f with
  | checkStop p =>
    obtain ⟨rfl, rfl⟩ := Prod.mk.inj (Option.some.inj last)
    rw [if_pos stop]
    exact Nat.le_refl 0
  | checkStarted p =>
    obtain ⟨rfl, rfl⟩ := Prod.mk.inj (Option.some.inj last)
    split <;> simp [observeFanout, Fanout.pushesLeft]
  | acquire p =>
    obtain ⟨-, rfl, rfl⟩ := Relay.step_acquire last
    exact Nat.le_refl 1
  | sweep p entry =>
    have quiet : (observeFanout a r (.sweep p entry)).toList.countP (Event.isPushBy a) = 0 := by
      simp only [observeFanout]
      split <;> rfl
    rw [quiet, Nat.zero_add]
    rcases Relay.step_sweep last with ⟨next, -, rfl⟩ | ⟨-, rfl, rfl⟩
    · exact Nat.le_refl 1
    · exact pushesLeft_afterSweep
  | choose p entry reached =>
    obtain ⟨rfl, rfl⟩ := Prod.mk.inj (Option.some.inj last)
    rw [stop, pushesLeft_afterChoice]
    exact Nat.le_refl 0
  | serve p entry reached e =>
    rcases Relay.step_serve last with
      ⟨rfl, rfl, rfl⟩ | ⟨n, s, s', e', entered, there, step, rfl, rfl⟩
    · have quiet : observeFanout a r' (.serve p entry reached .finished) = none := by
        simp [observeFanout, observeEnqueue, Enqueue.appended]
      rw [quiet, pushesLeft_afterServe]
      exact Nat.le_refl 0
    · have shown : observeFanout a r (.serve p entry reached e) = observeEnqueue a n s e := by
        simp [observeFanout, entered, there]
      rw [shown]
      exact pushesLeft_enqueue step
  | countBytes p reached =>
    obtain ⟨rfl, rfl⟩ := Prod.mk.inj (Option.some.inj last)
    split <;> exact Nat.le_refl 0
  | countDiscarded | countPublished | countKeyframe | release =>
    obtain ⟨rfl, rfl⟩ := Prod.mk.inj (Option.some.inj last)
    exact Nat.le_refl 0
  | finished => simp [Fanout.step] at last

/-- The packets that a thread has left to append under a request to stop. -/
def pushesLeft (r : Relay) (a : Actor) : Nat :=
  (r.fanout? a).elim 0 Fanout.pushesLeft

theorem pushesLeft_le_one : r.pushesLeft a ≤ 1 := by
  unfold pushesLeft
  cases r.fanout? a with
  | none => exact Nat.zero_le 1
  | some f =>
    show f.pushesLeft ≤ 1
    cases f with
    | serve p entry reached e => cases e <;> simp [Fanout.pushesLeft, Enqueue.pushesLeft]
    | _ => simp [Fanout.pushesLeft]

theorem countP_isPushBy_of_by? {e : Option Event} (other : ∀ x, e = some x → x.by? ≠ some a) :
    e.toList.countP (Event.isPushBy a) = 0 := by
  cases e with
  | none => rfl
  | some x =>
    have other := other x rfl
    cases x <;> simp_all [Event.by?, Event.isPushBy]

/-- **Every step uses up what it appends for a thread.** -/
theorem pushesLeft_step {l : Label} (sound : r.control.Sound) (stop : r.stopRequested)
    (last : r.step l = some r') :
    (r.observe l).toList.countP (Event.isPushBy a) + r'.pushesLeft a ≤ r.pushesLeft a := by
  have pace := pace_step sound last
  unfold pushesLeft
  generalize r.observe l = e at pace
  cases pace with
  | @access b f f' s at_ step counters next =>
    rw [next]
    by_cases own : a = b
    · subst own
      rw [Function.update_self, at_]
      exact pushesLeft_fanout stop step
    · have silent : (observeFanout b r f).toList.countP (Event.isPushBy a) = 0 := by
        refine countP_isPushBy_of_by? fun x shown => ?_
        rw [by?_observeFanout shown]
        simpa using Ne.symm own
      rw [Function.update_of_ne own, silent]
      exact Nat.le_of_eq (Nat.zero_add _)
  | @begins b p _ off counters next =>
    rw [next]
    by_cases own : a = b
    · subst own
      rw [Function.update_self]
      exact Nat.zero_le _
    · rw [Function.update_of_ne own]
      exact Nat.le_of_eq (Nat.zero_add _)
  | @ends run reached at_ counters next =>
    rw [next]
    by_cases own : a = .reader run
    · subst own
      rw [Function.update_self]
      exact Nat.zero_le _
    · rw [Function.update_of_ne own]
      exact Nat.le_of_eq (Nat.zero_add _)
  | @aside e quiet counters same =>
    have silent : e.toList.countP (Event.isPushBy a) = 0 :=
      countP_isPushBy_of_by? fun x shown => by simp [by?_of_isAside (quiet x shown)]
    rw [same, silent]
    exact Nat.le_of_eq (Nat.zero_add _)

end Pushes

section Reads

variable {r r' : Relay} {run : Nat} {reader : Reader} {l : Label}

/-- Under a request to stop no loop comes to read a unit. -/
theorem ne_read_of_readerStep (stop : r.stopRequested) (last : r.readerStep run = some r')
    (reader' : Reader) (executing' : r'.task.target? run = some reader') :
    reader'.at_ ≠ .read := by
  obtain ⟨reader, executing⟩ := exists_target_of_readerStep last
  have goes {t : Relay} {x : Reader} {at_ : Reading} (same : r' = t.goOn run x at_)
      (task : t.task = r.task) (off : at_ ≠ .read) : reader'.at_ ≠ .read := by
    subst same
    rw [target?_goOn (r := t) (by rw [task]; exact executing), if_pos rfl] at executing'
    obtain rfl := Option.some.inj executing'
    exact off
  have leaves {t : Relay} (same : r' = t.leave run) (task : t.task = r.task) : False := by
    subst same
    rw [target?_leave (r := t) (by rw [task]; exact executing), if_pos rfl] at executing'
    cases executing'
  have whole := last
  simp only [readerStep, executing, Option.bind_eq_bind, Option.bind_some] at last
  obtain ⟨source, video, audio, at_⟩ := reader
  cases at_ with
  | checkToken | paused =>
    refine goes (Option.some.inj last).symm rfl ?_
    split <;> simp
  | checkStop =>
    refine goes (Option.some.inj last).symm rfl ?_
    rw [if_pos stop]
    simp
  | read =>
    obtain ⟨x, -, ⟨outcome, -, same⟩ | ⟨-, same⟩⟩ := readUnit_cases last
    · exact goes same rfl (by cases outcome <;> simp [afterRead])
    · exact (leaves same rfl).elim
  | countRead u =>
    refine goes (Option.some.inj last).symm rfl ?_
    unfold afterCount
    split <;> simp
  | number u kind =>
    refine goes (Option.some.inj last).symm rfl ?_
    unfold afterNumber
    split <;> simp
  | publish f =>
    rcases readerStep_publish executing rfl whole with ⟨reached, rfl, same⟩ | ⟨t, f', step, same⟩
    · exact goes same rfl (by simp)
    · exact goes same (by rw [Fanout.step_frame step]) (by simp)
  | pause =>
    rcases readerStep_pause executing rfl whole with ⟨delay, -, same⟩ | ⟨-, same⟩
    · exact goes same rfl (by simp)
    · exact (leaves same rfl).elim
  | lowerRunning => exact (leaves (Option.some.inj last).symm rfl).elim
  | _ => exact goes (Option.some.inj last).symm rfl (by simp)

/-- A loop that is done with its units, and not about to read one, has nothing left. -/
theorem numbersLeft_of_isBetween {at_ : Reading} (between : at_.isBetween) (off : at_ ≠ .read) :
    at_.readsLeft = 0 ∧ at_.numbersLeft = 0 := by
  cases at_ <;> simp_all [Reading.isBetween, Reading.isHandling, Reading.readsLeft,
    Reading.numbersLeft]

/-- **An access of a loop uses up the unit that it reads and the number that it takes.** -/
theorem Round.spends {e : Option Event} {lastId : Int} {next : Option Reader}
    (round : Round r run reader e lastId next)
    (off : ∀ reader', next = some reader' → reader'.at_ ≠ .read) :
    e.toList.countP Event.isRead + next.elim 0 (·.at_.readsLeft) ≤ reader.at_.readsLeft ∧
      ∃ taken : Nat, lastId = r.lastId + taken ∧
        taken + next.elim 0 (·.at_.numbersLeft) ≤ reader.at_.numbersLeft := by
  cases round with
  | video | audio => exact ⟨Nat.le_refl 0, 0, by simp, Nat.le_refl 0⟩
  | @pass _ at_ before after =>
    obtain ⟨reads, numbers⟩ := numbersLeft_of_isBetween after (off _ rfl)
    exact ⟨by simp [reads], 0, by simp, by simp [numbers]⟩
  | leave before => exact ⟨Nat.zero_le _, 0, by simp, Nat.zero_le _⟩
  | read there outcome => exact ⟨Nat.le_refl 1, 0, by simp, Nat.le_refl 1⟩
  | @count _ u at_ =>
    rw [at_]
    refine ⟨?_, 0, by simp, ?_⟩ <;> unfold afterCount
    · split <;> exact Nat.le_refl 0
    · split
      · exact Nat.le_refl 1
      · exact Nat.zero_le 1
  | @number _ u kind at_ =>
    rw [at_]
    refine ⟨?_, 1, rfl, ?_⟩ <;> unfold afterNumber
    · split <;> exact Nat.le_refl 0
    · split <;> exact Nat.le_refl 1
  | @publish _ f f' t at_ step =>
    have quiet : (observeFanout (.reader run) r f).toList.countP Event.isRead = 0 := by
      cases shown : observeFanout (.reader run) r f with
      | none => rfl
      | some x =>
        have own := by?_observeFanout shown
        cases x <;> simp_all [Event.by?, Event.isRead]
    rw [at_, quiet]
    exact ⟨Nat.le_refl 0, 0, by simp, Nat.le_refl 0⟩
  | published at_ =>
    rw [at_]
    exact ⟨Nat.le_refl 0, 0, by simp, Nat.le_refl 0⟩

/-- What has been used up so far, and what any loop has left, is one at most. -/
structure Within (left : Reading → Nat) (used : Nat) (r : Relay) : Prop where
  most : used ≤ 1
  room : ∀ run reader, r.task.target? run = some reader → used + left reader.at_ ≤ 1

variable {left : Reading → Nat} {used taken : Nat}

theorem within_zero (few : ∀ at_, left at_ ≤ 1) : Within left 0 r where
  most := Nat.zero_le 1
  room run reader _ := by
    rw [Nat.zero_add]
    exact few reader.at_

/-- One loop at most executes, so that what its access uses up has been left to it alone. -/
theorem Within.spend {k : Keeper} (within : Within left used r) (kept : r.control.KeptBy k)
    (executing : r.task.target? run = some reader) (last : r.readerStep run = some r')
    (spends : taken + (r'.task.target? run).elim 0 (left ·.at_) ≤ left reader.at_) :
    Within left (used + taken) r' := by
  have few := within.room run reader executing
  refine ⟨by omega, ?_⟩
  intro run' reader' executing'
  by_cases same : run = run'
  · subst same
    rw [executing'] at spends
    have spends : taken + left reader'.at_ ≤ left reader.at_ := spends
    omega
  · have before := ((round_readerStep executing last).2 run' same).symm.trans executing'
    have alone := (kept.eq_run executing).symm.trans (kept.eq_run before)
    exact absurd (Keeper.run.inj alone) same

/-- The steps of others use up nothing, and a loop that begins has nothing left. -/
theorem Within.keep (within : Within left used r) (sound : r.control.Sound)
    (last : r.step l = some r') (fresh : left .readVideo = 0) (other : ∀ run, l ≠ .reader run) :
    Within left used r' := by
  refine ⟨within.most, ?_⟩
  intro run reader' executing'
  rcases target?_step sound sound.coherent last executing' with before | at_ | ⟨reader, same, -⟩
  · exact within.room run reader' before
  · rw [at_, fresh]
    exact within.most
  · exact absurd same (other run)

/-- Only a loop reads units. -/
theorem exists_reader_of_isRead {x : Event} (shown : r.observe l = some x) (reads : x.isRead) :
    ∃ run, l = .reader run := by
  cases l with
  | reader run => exact ⟨run, rfl⟩
  | call n =>
    obtain ⟨stage, here, shown⟩ := Option.bind_eq_some_iff.mp shown
    cases stage with
    | publish f =>
      have own := by?_observeFanout shown
      cases x <;> simp_all [Event.by?, Event.isRead]
    | subscribe m at_ | unsubscribe m at_ =>
      cases at_ <;> simp only [observeCall, reduceCtorEq] at shown
      split at shown
      · obtain rfl := Option.some.inj shown
        cases reads
      · simp at shown
    | _ => simp [observeCall] at shown
  | consumer n action =>
    cases action with
    | dequeue pick =>
      obtain ⟨s, -, shown⟩ := Option.bind_eq_some_iff.mp shown
      obtain ⟨p, -, rfl⟩ := Option.map_eq_some_iff.mp shown
      cases reads
    | _ => simp [observe] at shown
  | _ => simp [observe] at shown

/-- Only a loop takes numbers. -/
theorem lastId_step (sound : r.control.Sound) (last : r.step l = some r')
    (other : ∀ run, l ≠ .reader run) : r'.lastId = r.lastId := by
  cases l with
  | reader run => exact absurd rfl (other run)
  | begin call =>
    simp only [step] at last
    split at last
    · obtain rfl := Option.some.inj last
      cases call <;> rfl
    · simp at last
  | call n =>
    obtain ⟨stage, here⟩ := exists_stage_of_callStep last
    rcases quiet_callStep sound here last with
      quiet | ⟨source, uri, at_, rfl, noting | ⟨rfl, target, t, -, -, rfl⟩⟩
    · exact quiet.lastId
    · rw [step, callStep_start here] at last
      cases at_ <;> simp only [Starting.isNoting, Bool.false_eq_true] at noting <;>
        obtain rfl := Option.some.inj last <;> rfl
    · rfl
  | thread run =>
    obtain ⟨t, -, rfl⟩ := Option.map_eq_some_iff.mp last
    rfl
  | consumer m action | writer m action =>
    simp only [step, Option.bind_eq_bind, Option.bind_eq_some_iff, Option.some.injEq] at last
    obtain ⟨s, -, rfl⟩ := last
    rfl
  | addSubscriber s | addSource s =>
    obtain rfl := Option.some.inj last
    rfl

/-- **Under a request to stop, one unit is read at most and one number taken.** -/
theorem Within.step {k : Keeper} (reads : Within Reading.readsLeft used r)
    (numbers : Within Reading.numbersLeft taken r) (sound : r.control.Sound)
    (kept : r.control.KeptBy k) (stop : r.stopRequested) (last : r.step l = some r') :
    Within Reading.readsLeft (used + (r.observe l).toList.countP Event.isRead) r' ∧
      ∃ more : Nat, r'.lastId = r.lastId + more ∧
        Within Reading.numbersLeft (taken + more) r' := by
  by_cases own : ∃ run, l = .reader run
  · obtain ⟨run, rfl⟩ := own
    obtain ⟨reader, executing⟩ := exists_target_of_readerStep last
    obtain ⟨read, more, lastId, taken⟩ :=
      (round_readerStep executing last).1.spends (ne_read_of_readerStep stop last)
    exact ⟨reads.spend kept executing last read, more, lastId,
      numbers.spend kept executing last taken⟩
  · have other : ∀ run, l ≠ .reader run := fun run same => own ⟨run, same⟩
    have silent : (r.observe l).toList.countP Event.isRead = 0 := by
      refine List.countP_eq_zero.mpr fun x shown reads => own ?_
      exact exists_reader_of_isRead (Option.mem_toList.mp shown) reads
    rw [silent, Nat.add_zero]
    refine ⟨reads.keep sound last rfl other, 0, ?_, ?_⟩
    · rw [lastId_step sound last other]
      simp
    · exact numbers.keep sound last rfl other

end Reads

section Barred

variable {r r' : Relay} {a : Actor} {l : Label}

/-- A thread has nothing left to do to the subscribers: it is done, or has yet to look for a stop. -/
def IsBarred (r : Relay) : Actor → Prop
  | .call n => (r.fanout? (.call n)).any Fanout.isBarred
  | .reader run => ∀ reader, r.task.target? run = some reader → reader.at_.isBarred

/-- A thread that has yet to look for a stop before it publishes. -/
theorem isBarred_of_fanout? {p : Packet} (at_ : r.fanout? a = some (.checkStop p)) :
    r.IsBarred a := by
  cases a with
  | call n =>
    show (r.fanout? (.call n)).any Fanout.isBarred
    rw [at_]
    rfl
  | reader run =>
    intro reader executing
    rw [fanout?_reader executing] at at_
    cases here : reader.at_ <;> simp [here, Reading.fanout?] at at_
    subst at_
    rfl

/-- A thread that looks for a stop before it publishes sees the request, and publishes nothing. -/
theorem isBarred_fanout {f f' : Fanout} (barred : f.isBarred) (stop : r.stopRequested)
    (last : f.step a r = some (r', f')) : r' = r ∧ f' = .finished 0 := by
  cases f with
  | checkStop p =>
    obtain ⟨rfl, rfl⟩ := Prod.mk.inj (Option.some.inj last)
    exact ⟨rfl, if_pos stop⟩
  | finished => simp [Fanout.step] at last
  | _ => cases barred

theorem isBarred_of_isBetween {at_ : Reading} (between : at_.isBetween)
    (off : at_ ≠ .read) : at_.isBarred := by
  cases at_ <;> simp_all [Reading.isBetween, Reading.isHandling, Reading.isBarred]

theorem Round.isBarred {run : Nat} {reader reader' : Reader} {e : Option Event} {lastId : Int}
    {next : Option Reader} (round : Round r run reader e lastId next) (goes : next = some reader')
    (off : reader'.at_ ≠ .read) (stop : r.stopRequested) (barred : reader.at_.isBarred) :
    reader'.at_.isBarred := by
  cases round with
  | video | audio | published => exact Option.some.inj goes ▸ rfl
  | pass before after =>
    obtain rfl := Option.some.inj goes
    exact isBarred_of_isBetween after off
  | leave => cases goes
  | read => cases barred
  | count at_ | number at_ => simp [at_, Reading.isBarred] at barred
  | publish at_ step =>
    rw [at_] at barred
    obtain ⟨-, rfl⟩ := isBarred_fanout barred stop step
    exact Option.some.inj goes ▸ rfl

/-- **Under a request to stop, a thread that has nothing left to do gets nothing to do.** -/
theorem IsBarred.step (barred : r.IsBarred a) (sound : r.control.Sound) (stop : r.stopRequested)
    (last : r.step l = some r') : r'.IsBarred a := by
  cases a with
  | call n =>
    have pace := pace_step sound last
    show (r'.fanout? (.call n)).any Fanout.isBarred
    change (r.fanout? (.call n)).any Fanout.isBarred at barred
    generalize r.observe l = e at pace
    cases pace with
    | @access b f f' s at_ step counters next =>
      rw [next]
      by_cases own : .call n = b
      · subst own
        rw [at_] at barred
        obtain ⟨-, rfl⟩ := isBarred_fanout barred stop step
        rw [Function.update_self]
        rfl
      · rwa [Function.update_of_ne own]
    | @begins b p _ off counters next =>
      rw [next, Function.update_of_ne]
      · exact barred
      · rintro rfl
        simp [off] at barred
    | ends at_ counters next => rwa [next, Function.update_of_ne (by simp)]
    | aside quiet counters same => rwa [same]
  | reader run =>
    intro reader' executing'
    rcases target?_step sound sound.coherent last executing' with
      before | at_ | ⟨reader, rfl, before, round⟩
    · exact barred reader' before
    · rw [at_]
      rfl
    · exact round.isBarred rfl (ne_read_of_readerStep stop last reader' executing') stop
        (barred reader before)

/-- **A thread that has nothing left to do changes neither the registry nor a queue nor a counter.** -/
theorem IsBarred.inert (barred : r.IsBarred a) (stop : r.stopRequested)
    (last : r.step a.label = some r') :
    r'.registry = r.registry ∧ r'.subscribers = r.subscribers ∧ r'.counters = r.counters := by
  cases a with
  | call n =>
    obtain ⟨stage, here⟩ := exists_stage_of_callStep last
    change (r.fanout? (.call n)).any Fanout.isBarred at barred
    rw [fanout?_call here] at barred
    cases stage with
    | publish f =>
      rcases callStep_publish here last with ⟨reached, rfl, rfl⟩ | ⟨s, f', step, rfl⟩
      · exact ⟨rfl, rfl, rfl⟩
      · obtain ⟨rfl, -⟩ := isBarred_fanout barred stop step
        exact ⟨rfl, rfl, rfl⟩
    | returned reply => simp [Actor.label, Relay.step, callStep, here] at last
    | _ => simp [CallStage.fanout?] at barred
  | reader run =>
    obtain ⟨⟨source, video, audio, at_⟩, executing⟩ := exists_target_of_readerStep last
    have off := barred _ executing
    have whole : r.readerStep run = some r' := last
    simp only [readerStep, executing, Option.bind_eq_bind, Option.bind_some] at whole
    cases at_ with
    | read | countRead | number => cases off
    | publish f =>
      rcases readerStep_publish executing rfl last with ⟨reached, rfl, rfl⟩ | ⟨s, f', step, rfl⟩
      · exact ⟨rfl, rfl, rfl⟩
      · obtain ⟨rfl, -⟩ := isBarred_fanout off stop step
        exact ⟨rfl, rfl, rfl⟩
    | pause =>
      rcases readerStep_pause executing rfl last with ⟨delay, -, rfl⟩ | ⟨-, rfl⟩
      · exact ⟨rfl, rfl, rfl⟩
      · exact ⟨rfl, rfl, rfl⟩
    | _ =>
      obtain rfl := Option.some.inj whole
      exact ⟨rfl, rfl, rfl⟩

end Barred

section Runs

variable {settings : PublisherSettings} {log since : List Event} {r t : Relay}

theorem heldStep_eq_some {l : Label} (last : heldStep r l = some t) :
    r.step l = some t ∧ t.stopRequested :=
  Option.filter_eq_some_iff.mp last

/-- What has happened since a state under a request to stop. -/
structure Aftermath (r : Relay) (since : List Event) (t : Relay) : Prop where
  stop : t.stopRequested
  reads : Within Reading.readsLeft (since.countP Event.isRead) t
  numbers : ∃ taken : Nat, t.lastId = r.lastId + taken ∧ Within Reading.numbersLeft taken t
  pushes : ∀ a, since.countP (Event.isPushBy a) + t.pushesLeft a ≤ r.pushesLeft a
  barred : ∀ a, r.IsBarred a → t.IsBarred a

theorem aftermath_nil (stop : r.stopRequested) : Aftermath r [] r where
  stop := stop
  reads := within_zero fun at_ => by cases at_ <;> simp [Reading.readsLeft]
  numbers := ⟨0, by simp, within_zero fun at_ => by cases at_ <;> simp [Reading.numbersLeft]⟩
  pushes a := by simp
  barred _ := id

theorem Aftermath.step {k : Keeper} {u : Relay} {l : Label} (before : Aftermath r since t)
    (sound : t.control.Sound) (kept : t.control.KeptBy k) (last : heldStep t l = some u) :
    Aftermath r (since ++ (t.observe l).toList) u := by
  obtain ⟨last, stop⟩ := heldStep_eq_some last
  obtain ⟨taken, lastId, numbers⟩ := before.numbers
  obtain ⟨reads, more, lastId', numbers'⟩ :=
    before.reads.step numbers sound kept before.stop last
  refine ⟨stop, ?_, ⟨taken + more, ?_, numbers'⟩, ?_, ?_⟩
  · rw [List.countP_append]
    exact reads
  · rw [lastId', lastId, Int.natCast_add, Int.add_assoc]
  · intro a
    have spent := pushesLeft_step (a := a) sound before.stop last
    have earlier := before.pushes a
    rw [List.countP_append]
    omega
  · exact fun a barred => (before.barred a barred).step sound before.stop last

/-- Steps under a request to stop are steps. -/
theorem records_of_held (held : Records heldStep Admitted observe r since t) :
    Records step Admitted observe r since t := by
  induction held with
  | refl => exact .refl _
  | tail _ admitted last ih => exact ih.tail admitted (heldStep_eq_some last).1

theorem aftermath (run : Records step Admitted observe (ofSettings settings) log r)
    (stop : r.stopRequested) (held : Records heldStep Admitted observe r since t) :
    Aftermath r since t := by
  induction held with
  | refl => exact aftermath_nil stop
  | tail held _ last ih =>
    obtain ⟨sound, k, kept⟩ := keeper_of_reaches (run.trans (records_of_held held)).reaches
    exact ih.step sound kept last

/-- **What happens after a request to stop.** As long as the request stands, one unit is read at most
and one number taken, by whatever loops there are, and each thread that publishes appends one packet
at most. A thread that has yet to look for a stop before it publishes changes neither the registry nor
a queue nor a counter. And whether a stop is requested or not: those that a read loop comes to with a
packet are the first in the registry that its sweep has left. -/
theorem bounded_after_stop (run : Records step Admitted observe (ofSettings settings) log r) :
    (r.stopRequested → ∀ since t, Records heldStep Admitted observe r since t →
      since.countP Event.isRead ≤ 1 ∧ t.lastId ≤ r.lastId + 1 ∧
        (∀ a, since.countP (Event.isPushBy a) ≤ 1) ∧
        ∀ a p, r.fanout? a = some (.checkStop p) → ∀ u, t.step a.label = some u →
          u.registry = t.registry ∧ u.subscribers = t.subscribers ∧ u.counters = t.counters) ∧
      ∀ D ∈ deliveries log, ∀ k, D.actor = .reader k → D.Leads := by
  refine ⟨?_, ?_⟩
  · intro stop since t held
    have after := aftermath run stop held
    obtain ⟨taken, lastId, numbers⟩ := after.numbers
    refine ⟨after.reads.most, ?_, ?_, ?_⟩
    · have few := numbers.most
      omega
    · intro a
      have spent := after.pushes a
      have few : r.pushesLeft a ≤ 1 := pushesLeft_le_one
      omega
    · intro a p at_ u last
      exact (after.barred a (isBarred_of_fanout? at_)).inert after.stop last
  · intro D there k own
    rw [deliveries, List.mem_reverse] at there
    exact (lined run).leads D there k own

/-- A loop is about to read the first of two units, and a call waits with a packet in front of a full
queue, as a stop is requested. Another packet is about to be published. -/
def inFlight : List Label :=
  let unit : MediaUnit := { stream := 0, data := [2, 1] }
  let memory : MemorySource := {
    feed := { units := [unit, unit] }
    video := some { index := 0, codec := "", timeBase := ⟨1, 1⟩ } }
  List.flatten [
    [.addSubscriber (.ofName "a" "" 1), .addSubscriber (.ofName "b" "" 1)],
    [.addSource { memory := memory }, .begin (.start 0 "")], List.replicate 19 (.call 0),
    List.replicate 4 (.thread 1), List.replicate 5 (.reader 1),
    [.begin (.subscribe 0), .begin (.subscribe 1)],
    List.replicate 3 (.call 1), List.replicate 4 (.call 2),
    [.begin (.publish (.video 1))], List.replicate 18 (.call 3),
    [.begin (.publish (.video 2))], List.replicate 9 (.call 4),
    [.begin .stop, .begin (.publish (.video 3)), .call 5]]

/-- There is room in the queue, and everybody goes on. -/
def afterwards : List Label :=
  List.flatten [[.call 6, .call 6, .consumer 0 (.dequeue 0)], List.replicate 7 (.call 4),
    List.replicate 7 (.reader 1)]

/-- The loop reads its unit and takes a number for it, the call that waits appends its packet to the
first queue and not to the second, and that is all that there is left to do. -/
theorem aftermath_of_inFlight : ∃ log since r t,
    Records step Admitted observe (ofSettings {}) log r ∧ r.stopRequested ∧
      Records heldStep Admitted observe r since t ∧
      since.countP Event.isRead = 1 ∧ t.lastId = r.lastId + 1 ∧
      since.countP (Event.isPushBy (.call 4)) = 1 ∧
      (∀ a, since.countP (Event.isPushBy a) ≤ 1) ∧
      t.subscribers.map (·.queue.items.map (·.id)) = [[2], [1]] := by
  have ran : (record? step observe (ofSettings {}) inFlight).any (fun x : List Event × Relay =>
      x.2.stopRequested ∧
        (record? heldStep observe x.2 afterwards).any fun y : List Event × Relay =>
          y.1.countP Event.isRead = 1 ∧ y.2.lastId = x.2.lastId + 1 ∧
            y.1.countP (Event.isPushBy (.call 4)) = 1 ∧
            y.2.subscribers.map (·.queue.items.map (·.id)) = [[2], [1]]) := by
    decide +kernel
  have admitted : ∀ l ∈ inFlight, Admitted l := by decide +kernel
  have admitted' : ∀ l ∈ afterwards, Admitted l := by decide +kernel
  obtain ⟨log, r, run, facts⟩ := exists_records_of_any admitted ran
  obtain ⟨stop, later⟩ := of_decide_eq_true facts
  obtain ⟨since, t, held, facts'⟩ := exists_records_of_any admitted' later
  obtain ⟨read, number, pushed, queues⟩ := of_decide_eq_true facts'
  obtain ⟨-, -, pushes, -⟩ := (bounded_after_stop run).1 stop since t held
  exact ⟨log, since, r, t, run, stop, held, read, number, pushed, pushes, queues⟩

end Runs

end Relay

end PacketRelay
