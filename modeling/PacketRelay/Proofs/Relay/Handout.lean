import PacketRelay.Proofs.Relay.Publishing

/-!
# What is handed out

A thread is given a packet to publish by a call that begins, or by a read loop that makes it of a unit.
It takes this packet to the registry, unless it gives up before that. From then on its delivery tells
what becomes of the packet, and the queues follow the deliveries. So what a subscriber gets is told from
the calls and the units on down to its queue.

## Main definitions

* `Given`: a thread has been given a packet and has not taken one to the registry since

## Main results

* `given_of_entering?`: a thread in front of the registry has the packet that it was given
* `delivered_in_order_once`: what a subscriber gets
-/

namespace PacketRelay.Relay

open Schedule

/-- A step of the record has given a thread a packet to publish, and the thread has taken none to the
registry since. -/
def Given (settings : PublisherSettings) (log : List Event) (r : Relay) (a : Actor) (p : Packet) :
    Prop :=
  ∃ before since t l t', log = before ++ since ∧
    Records step Admitted observe (ofSettings settings) before t ∧
    t.Brings a p l ∧ t.step l = some t' ∧ Records step Admitted observe t' since r ∧
    ∀ q, .took a q ∉ since

section Given

variable {settings : PublisherSettings} {r r' : Relay} {l : Label} {log : List Event} {a b : Actor}
  {f f' : Fanout} {p q : Packet}

/-- Only a thread that is about to take the registry takes it, with its own packet. -/
theorem eq_of_took (shown : observeFanout b r f = some (.took a p)) : b = a ∧ f = .acquire p := by
  cases f with
  | acquire q =>
    obtain ⟨rfl, rfl⟩ := Event.took.inj (Option.some.inj shown)
    exact ⟨rfl, rfl⟩
  | sweep q entry =>
    simp only [observeFanout] at shown
    split at shown <;> simp at shown
  | serve q entry reached e =>
    simp only [observeFanout, Option.bind_eq_bind, Option.bind_eq_some_iff] at shown
    obtain ⟨n, -, x, -, shown⟩ := shown
    rcases eq_of_observeEnqueue shown with ⟨_, same⟩ | ⟨_, -, same⟩ <;> cases same
  | _ => simp [observeFanout] at shown

/-- A thread that has its packet after an access has had it before, and has not taken it to the
registry. -/
theorem entering?_of_step (last : f.step b r = some (r', f')) (has : f'.entering? = some p) :
    f.entering? = some p ∧ ∀ q, observeFanout b r f ≠ some (.took a q) := by
  rcases entering?_cases last with same | ⟨-, none_, -⟩
  · rw [has, taken_observeFanout] at same
    refine ⟨?_, fun q shown => ?_⟩
    · cases f <;> simp_all [Fanout.entering?]
    · obtain ⟨rfl, rfl⟩ := eq_of_took shown
      simp [Fanout.entering?] at same
  · simp [none_] at has

/-- What a thread was given it keeps while it does not take the registry. -/
theorem Given.tail (given : Given settings log r a p) (admitted : Admitted l)
    (last : r.step l = some r') (other : ∀ q, r.observe l ≠ some (.took a q)) :
    Given settings (log ++ (r.observe l).toList) r' a p := by
  obtain ⟨before, since, t, m, t', rfl, first, brings, begun, later, untaken⟩ := given
  refine ⟨before, since ++ (r.observe l).toList, t, m, t', List.append_assoc .., first, brings, begun,
    later.tail admitted last, fun q told => ?_⟩
  rcases List.mem_append.mp told with earlier | new
  · exact untaken q earlier
  · exact other q (Option.mem_toList.mp new)

/-- **A thread in front of the registry has the packet that it was given.** -/
theorem given_of_entering? (run : Records step Admitted observe (ofSettings settings) log r)
    (at_ : r.fanout? a = some f) (has : f.entering? = some p) : Given settings log r a p := by
  induction run generalizing f with
  | refl =>
    cases a with
    | call n => cases at_
    | reader k =>
      obtain ⟨reader, executing, -⟩ := Option.bind_eq_some_iff.mp at_
      rw [target?_ofSettings] at executing
      cases executing
  | @tail t u log l run admitted last ih =>
    have pace := pace_step (sound_of_reaches run.reaches) last
    generalize shown : t.observe l = e at pace
    -- Whatever another thread shows, it is not that this one takes the registry.
    have stays (here : t.fanout? a = some f) (other : ∀ q, e ≠ some (.took a q)) :
        Given settings (log ++ e.toList) u a p := by
      subst shown
      exact (ih here has).tail admitted last other
    cases pace with
    | @access b g g' s here step counters next =>
      by_cases own : a = b
      · subst own
        rw [next, Function.update_self] at at_
        obtain rfl := Option.some.inj at_
        obtain ⟨had, untaken⟩ := entering?_of_step step has
        rw [← shown] at untaken ⊢
        exact (ih here had).tail admitted last untaken
      · rw [next, Function.update_of_ne own] at at_
        exact stays at_ fun q told => own (eq_of_took told).1.symm
    | @begins b q brought off counters next =>
      by_cases own : a = b
      · subst own
        rw [next, Function.update_self] at at_
        obtain rfl := Option.some.inj at_
        obtain rfl := Option.some.inj has
        exact ⟨log, [], t, l, u, rfl, run, brought, last, .refl u, by simp⟩
      · rw [next, Function.update_of_ne own] at at_
        exact stays at_ (by simp)
    | @ends k reached here counters next =>
      by_cases own : a = .reader k
      · subst own
        rw [next, Function.update_self] at at_
        cases at_
      · rw [next, Function.update_of_ne own] at at_
        exact stays at_ (by simp)
    | aside quiet counters same =>
      rw [same] at at_
      refine stays at_ fun q told => ?_
      have aside := quiet _ told
      cases aside

/-- A thread takes to the registry what it was given. -/
theorem exists_given_of_took {before after : List Event}
    (run : Records step Admitted observe (ofSettings settings) log r)
    (split : log = before ++ .took a p :: after) : ∃ t l t', Given settings before t a p ∧
      t.step l = some t' ∧ Records step Admitted observe t' after r := by
  obtain ⟨t, l, t', earlier, -, last, shown, later⟩ := run.exists_admitted_of_split split
  refine ⟨t, l, t', ?_, last, later⟩
  have pace := pace_step (sound_of_reaches earlier.reaches) last
  rw [shown] at pace
  generalize told : some (Event.took a p) = e at pace
  cases pace with
  | access at_ =>
    obtain ⟨rfl, rfl⟩ := eq_of_took told.symm
    exact given_of_entering? earlier at_ rfl
  | begins | ends => cases told
  | aside quiet =>
    have aside := quiet _ told.symm
    cases aside

end Given

section Records

variable {settings : PublisherSettings} {r : Relay} {log : List Event}

/-- **What a subscriber gets.** Its packets come in the order of the deliveries, at most one from each,
and from each that is over exactly one if the delivery has found the subscriber in the registry, has
come to it before it saw a stop, and has found it active. Nothing comes to a subscriber that has been
removed, until it is added again.

This is about the queue itself. Each packet that a record shows to be appended is at the end of the
queue after this step, behind those that were in it before, and what publishes does nothing else to the
queue. The packet of a delivery is the one that its thread was given to publish. -/
theorem delivered_in_order_once (run : Records step Admitted observe (ofSettings settings) log r)
    (s : Nat) :
    pushedTo s log = (deliveries log).flatMap (Delivery.giftsTo s) ∧
    (∀ D ∈ deliveries log, D.giftsTo s = [] ∨ D.giftsTo s = [D.packet]) ∧
    (∀ D ∈ deliveries log, D.completed → ∃ entries, D.entries = some entries ∧
      ∀ i, entries[i]? = some s → true ∉ D.asked.take (i + 1) →
        ∃ active, D.checks[i]? = some (s, active) ∧
          D.giftsTo s = if active then [D.packet] else []) ∧
    (∀ before a p, before ++ [.pushed a s p] <+: log → isGone s before = false) ∧
    Follows settings s log r ∧
    ∀ before a p after, log = before ++ .took a p :: after → ∃ t l t',
      Given settings before t a p ∧ t.step l = some t' ∧
        Records step Admitted observe t' after r := by
  have accounted := accounted run
  obtain ⟨past, done, books⟩ := accounted.books
  -- A delivery is over, or it is the last one and its thread still at it.
  have either : ∀ D ∈ deliveries log, D.IsOver ∨ D.completed = false ∧ D.IsFair := by
    intro D there
    rw [deliveries, List.mem_reverse] at there
    rcases books with ⟨same, -⟩ | ⟨C, f, same, running, at_, tracks⟩ <;> rw [same] at there
    · exact .inl (done D there)
    · rcases List.mem_cons.mp there with rfl | earlier
      · exact .inr ⟨running, tracks.isFair accounted.sound.nodup⟩
      · exact .inl (done D earlier)
  refine ⟨accounted.pushed s, ?_, ?_, fun before a p => accounted.quiet before a s p,
    follows_of_records run, fun before a p after split => exists_given_of_took run split⟩
  · intro D there
    rcases either D there with ⟨-, entries, -, nodup, upto⟩ | ⟨-, fair⟩
    · exact (upto.isFair nodup).giftsTo s
    · exact fair.giftsTo s
  · intro D there completed
    rcases either D there with ⟨-, entries, same, nodup, upto⟩ | ⟨running, -⟩
    · refine ⟨entries, same, ?_⟩
      intro i entered unseen
      have inside : i < entries.length := (List.getElem?_eq_some_iff.mp entered).1
      have looked := upto.straight i inside unseen
      rw [entered, List.getElem?_map, Option.map_eq_some_iff] at looked
      obtain ⟨⟨n, active⟩, found, rfl⟩ := looked
      exact ⟨active, found, Delivery.giftsTo_of_check (upto.isFair nodup).once upto.gifts
        (List.mem_of_getElem? found)⟩
    · simp [running] at completed

/-- Three packets for two subscribers: one is terminated while the second packet is handed out, and the
other removed before the third. -/
def threePackets : List Label :=
  List.flatten [
    [.addSubscriber (.ofName "a" "" 1), .addSubscriber (.ofName "b" "" 1)],
    [.addSource { allowNoStreams := true }, .begin (.start 0 "")], List.replicate 19 (.call 0),
    List.replicate 4 (.thread 1), List.replicate 3 (.reader 1),
    [.begin (.subscribe 0), .begin (.subscribe 1)],
    List.replicate 3 (.call 1), List.replicate 4 (.call 2),
    [.begin (.publish (.video 1))], List.replicate 18 (.call 3),
    [.consumer 0 (.dequeue 0), .begin (.publish (.video 2))], List.replicate 10 (.call 4),
    [.consumer 1 .terminate], List.replicate 7 (.call 4),
    [.begin (.unsubscribe 0)], List.replicate 3 (.call 5),
    [.begin (.publish (.video 3))], List.replicate 7 (.call 6)]

theorem admitted_threePackets : ∀ l ∈ threePackets, Admitted l := by decide +kernel

/-- The first two packets come to the subscriber that is removed before the third: one has been taken
since, and the other one is in its queue, to which the second call has appended it. -/
theorem delivered_until_removed : ∃ log r,
    Records step Admitted observe (ofSettings {}) log r ∧
      (deliveries log).map Delivery.packet = [.video 1, .video 2, .video 3] ∧
      (∀ D ∈ deliveries log, D.completed ∧ (D.giftsTo 0 = [] ∨ D.giftsTo 0 = [D.packet])) ∧
      (deliveries log).flatMap (Delivery.giftsTo 0) = [.video 1, .video 2] ∧ isGone 0 log ∧
      dequeuedFrom 0 log = [.video 1] ∧
      r.subscribers.map (·.queue.items) = [[.video 2], [.video 1]] ∧
      ∃ t t' : Relay, ∃ l, t.step l = some t' ∧
        t.observe l = some (.pushed (.call 4) 0 (.video 2)) ∧
        t'.desk.items 0 = t.desk.items 0 ++ [.video 2] := by
  have ran : (record? step observe (ofSettings {}) threePackets).any (fun x : List Event × Relay =>
      (deliveries x.1).map Delivery.packet = [.video 1, .video 2, .video 3] ∧
      (∀ D ∈ deliveries x.1, D.completed) ∧ pushedTo 0 x.1 = [.video 1, .video 2] ∧
      isGone 0 x.1 ∧ dequeuedFrom 0 x.1 = [.video 1] ∧
      x.2.subscribers.map (·.queue.items) = [[.video 2], [.video 1]] ∧
      .pushed (.call 4) 0 (.video 2) ∈ x.1) := by
    decide +kernel
  obtain ⟨log, r, run, facts⟩ := exists_records_of_any admitted_threePackets ran
  obtain ⟨packets, completed, pushed, gone, dequeued, queues, told⟩ := of_decide_eq_true facts
  obtain ⟨order, once, -, -, follows, -⟩ := delivered_in_order_once run 0
  exact ⟨log, r, run, packets, fun D there => ⟨completed D there, once D there⟩,
    order.symm.trans pushed, gone, dequeued, queues, follows.exists_of_mem told⟩

end Records

end PacketRelay.Relay
