import PacketRelay.Relay.Machine
import Mathlib.Tactic.Common

/-!
# The ways an access can take

Most accesses of a call or of a read loop take one way only. Those listed here wait for a lock or a
gate, or go on in one of several ways, and each lemma tells all of them: what has been found, and
what is left.

## Main results

* `Relay.taskStep_cases`: an access of a call on the task
* `Relay.step_sweep`, `Relay.step_serve`: an access of a thread that publishes
* `Relay.callStep_publish`, `Relay.readerStep_publish`: an access of a call or a loop that publishes
* `Relay.readUnit_cases`: a read from the source
-/

namespace PacketRelay.Relay

variable {r r' : Relay} {n : Nat}

section Locks

theorem acquire_eq_some {a : Actor} (last : r.acquire a = some r') :
    r.registryHolder = none ∧ r' = { r with registryHolder := some a } := by
  unfold acquire at last
  split at last
  · next free => exact ⟨Option.isNone_iff_eq_none.mp free, (Option.some.inj last).symm⟩
  · simp at last

theorem acquireTask_eq_some (last : r.acquireTask n = some r') :
    r.taskHolder = none ∧ r' = { r with taskHolder := some n } := by
  unfold acquireTask at last
  split at last
  · next free => exact ⟨Option.isNone_iff_eq_none.mp free, (Option.some.inj last).symm⟩
  · simp at last

/-- A start waits until nobody holds the task, and takes it. -/
theorem startStep_lock {source : Nat} {uri : String}
    (last : r.startStep n source uri .lock = some r') : r.taskHolder = none ∧
      r' = ({ r with taskHolder := some n } : Relay).setCall n (.start source uri .reserve) := by
  simp only [startStep, Option.bind_eq_bind, Option.bind_eq_some_iff] at last
  obtain ⟨t, taken, same⟩ := last
  obtain ⟨free, rfl⟩ := acquireTask_eq_some taken
  exact ⟨free, (Option.some.inj same).symm⟩

/-- A call that joins waits until nobody holds the task, and takes it. -/
theorem joinStep_lock (last : r.joinStep n .lock = some r') : r.taskHolder = none ∧
    r' = (({ r with taskHolder := some n } : Relay).beginTask .join).setCall n (.join .joining) := by
  simp only [joinStep, Option.bind_eq_bind, Option.bind_eq_some_iff] at last
  obtain ⟨t, taken, same⟩ := last
  obtain ⟨free, rfl⟩ := acquireTask_eq_some taken
  exact ⟨free, (Option.some.inj same).symm⟩

/-- A call that adds a subscriber waits until nobody holds the registry, and takes it. -/
theorem subscribeStep_acquire {s : Nat} (last : r.subscribeStep n s .acquire = some r') :
    r.registryHolder = none ∧
      r' = ({ r with registryHolder := some (.call n) } : Relay).setCall n
        (.subscribe s (.sweep 0)) := by
  simp only [subscribeStep, Option.bind_eq_bind, Option.bind_eq_some_iff] at last
  obtain ⟨t, taken, same⟩ := last
  obtain ⟨free, rfl⟩ := acquire_eq_some taken
  exact ⟨free, (Option.some.inj same).symm⟩

/-- A call that removes a subscriber waits until nobody holds the registry, and takes it. -/
theorem unsubscribeStep_acquire {s : Nat} (last : r.unsubscribeStep n s .acquire = some r') :
    r.registryHolder = none ∧
      r' = (({ r with registryHolder := some (.call n) } : Relay).unregister s).setCall n
        (.unsubscribe s (.sweep 0 (r.isRegistered s))) := by
  simp only [unsubscribeStep, Option.bind_eq_bind, Option.bind_eq_some_iff] at last
  obtain ⟨t, taken, same⟩ := last
  obtain ⟨free, rfl⟩ := acquire_eq_some taken
  exact ⟨free, (Option.some.inj same).symm⟩

/-- The entries are counted while nobody holds the registry. -/
theorem describeStep_countEntries {uri : Option String} {started stop : Bool}
    (last : r.describeStep n (.countEntries uri started stop) = some r') :
    r.registryHolder = none ∧
      r' = r.setCall n (.describe (.readLast uri started stop r.registry.length)) := by
  simp only [describeStep] at last
  split at last
  · next free => exact ⟨Option.isNone_iff_eq_none.mp free, (Option.some.inj last).symm⟩
  · simp at last

/-- A thread that publishes waits until nobody holds the registry, and takes it. -/
theorem step_acquire {a : Actor} {p : Packet} {f' : Fanout}
    (last : (Fanout.acquire p).step a r = some (r', f')) :
    r.registryHolder = none ∧ r' = { r with registryHolder := some a } ∧ f' = .sweep p 0 := by
  obtain ⟨s, taken, same⟩ := Option.map_eq_some_iff.mp last
  obtain ⟨free, rfl⟩ := acquire_eq_some taken
  obtain ⟨rfl, rfl⟩ := Prod.mk.inj same
  exact ⟨free, rfl, rfl⟩

end Locks

section Calls

/-- A call on the task goes on with it, or goes on itself once the task has answered. -/
theorem taskStep_cases {atEnd : Relay} (last : r.taskStep atEnd = some r') :
    r.task.isFree ∧ r' = atEnd ∨ ∃ t, r.task.advance = some t ∧ r' = { r with task := t } := by
  unfold taskStep at last
  split at last
  · next free => exact .inl ⟨free, (Option.some.inj last).symm⟩
  · obtain ⟨t, step, rfl⟩ := Option.map_eq_some_iff.mp last
    exact .inr ⟨t, step, rfl⟩

/-- The source opens or refuses, once its gate lets the start through. -/
theorem startStep_openSource {source : Nat} {uri : String}
    (last : r.startStep n source uri .openSource = some r') :
    ∃ s, r.sources[source]? = some s ∧ s.isShut = false ∧
      ((∃ s', s.openAt uri = .ok s' ∧
          r' = (r.setSource source s').setCall n (.start source uri .setVideo)) ∨
        ∃ e, s.openAt uri = .error e ∧ r' = r.setCall n (.start source uri (.refuse e))) := by
  simp only [startStep, openSource, Option.bind_eq_bind, Option.bind_eq_some_iff] at last
  obtain ⟨s, there, last⟩ := last
  split at last
  · simp at last
  · next isOpen =>
    obtain rfl := Option.some.inj last
    refine ⟨s, there, by simpa using isOpen, ?_⟩
    split
    · next s' opened => exact .inl ⟨s', opened, rfl⟩
    · next e refused => exact .inr ⟨e, refused, rfl⟩

/-- A call that adds a subscriber removes the terminated entries one by one, and adds it then. -/
theorem subscribeStep_sweep {s entry : Nat}
    (last : r.subscribeStep n s (.sweep entry) = some r') :
    (∃ t next, r.sweep entry = some (t, next) ∧ r' = t.setCall n (.subscribe s (.sweep next))) ∨
      r.sweep entry = none ∧ r' = r.register n s := by
  simp only [subscribeStep] at last
  split at last
  · next t next swept => exact .inl ⟨t, next, swept, (Option.some.inj last).symm⟩
  · next past => exact .inr ⟨past, (Option.some.inj last).symm⟩

/-- A call that removes a subscriber removes the terminated entries one by one, and returns then. -/
theorem unsubscribeStep_sweep {s entry : Nat} {removed : Bool}
    (last : r.unsubscribeStep n s (.sweep entry removed) = some r') :
    (∃ t next, r.sweep entry = some (t, next) ∧
        r' = t.setCall n (.unsubscribe s (.sweep next removed))) ∨
      r.sweep entry = none ∧ r' = r.release.answer n (.changed removed) := by
  simp only [unsubscribeStep] at last
  split at last
  · next t next swept => exact .inl ⟨t, next, swept, (Option.some.inj last).symm⟩
  · next past => exact .inr ⟨past, (Option.some.inj last).symm⟩

/-- A call that puts a packet into a queue goes on there, or returns. -/
theorem enqueueStep_cases {s : Nat} {e : Enqueue} (last : r.enqueueStep n s e = some r') :
    e = .finished ∧ r' = r.answer n .enqueued ∨
      ∃ x x' e', r.subscribers[s]? = some x ∧ e.step (.call n) x = some (x', e') ∧
        r' = (r.setSubscriber s x').setCall n (.enqueue s e') := by
  unfold enqueueStep at last
  split at last
  · exact .inl ⟨rfl, (Option.some.inj last).symm⟩
  · simp only [Option.bind_eq_bind, Option.bind_eq_some_iff] at last
    obtain ⟨x, found, ⟨x', e'⟩, step, same⟩ := last
    exact .inr ⟨x, x', e', found, step, (Option.some.inj same).symm⟩

/-- A call that publishes goes on with the fan-out, or returns. -/
theorem callStep_publish {f : Fanout} (here : r.calls[n]? = some (.publish f))
    (last : r.callStep n = some r') :
    (∃ reached, f = .finished reached ∧ r' = r.answer n (.reached reached)) ∨
      ∃ s f', f.step (.call n) r = some (s, f') ∧ r' = s.setCall n (.publish f') := by
  simp only [callStep, here, Option.bind_eq_bind, Option.bind_some] at last
  cases f with
  | finished reached => exact .inl ⟨reached, rfl, (Option.some.inj last).symm⟩
  | _ =>
    obtain ⟨⟨s, f'⟩, step, same⟩ := Option.bind_eq_some_iff.mp last
    exact .inr ⟨s, f', step, (Option.some.inj same).symm⟩

end Calls

section Fanouts

variable {a : Actor} {p : Packet} {entry reached : Nat} {f' : Fanout}

/-- A thread that publishes removes the terminated entries one by one, and goes to the others then.
-/
theorem step_sweep (last : (Fanout.sweep p entry).step a r = some (r', f')) :
    (∃ next, r.sweep entry = some (r', next) ∧ f' = .sweep p next) ∨
      r.sweep entry = none ∧ r' = r ∧ f' = .afterSweep p r.registry.length := by
  simp only [Fanout.step] at last
  split at last
  · next t next swept =>
    obtain ⟨rfl, rfl⟩ := Prod.mk.inj (Option.some.inj last)
    exact .inl ⟨next, swept, rfl⟩
  · next past =>
    obtain ⟨rfl, rfl⟩ := Prod.mk.inj (Option.some.inj last)
    exact .inr ⟨past, rfl, rfl⟩

/-- A thread that publishes goes on in the queue of an entry, or behind it. -/
theorem step_serve {e : Enqueue}
    (last : (Fanout.serve p entry reached e).step a r = some (r', f')) :
    (e = .finished ∧ r' = r ∧ f' = .afterServe p r.registry.length entry reached) ∨
      ∃ m s s' e', r.registry[entry]? = some m ∧ r.subscribers[m]? = some s ∧
        e.step a s = some (s', e') ∧ r' = r.setSubscriber m s' ∧
        f' = .serve p entry reached e' := by
  by_cases done : e = .finished
  · subst done
    obtain ⟨rfl, rfl⟩ := Prod.mk.inj (Option.some.inj last)
    exact .inl ⟨rfl, rfl, rfl⟩
  · simp only [Fanout.step, Option.bind_eq_bind, Option.bind_eq_some_iff, Option.some.injEq,
      Prod.mk.injEq] at last
    obtain ⟨m, entered, s, there, ⟨s', e'⟩, step, rfl, rfl⟩ := last
    exact .inr ⟨m, s, s', e', entered, there, step, rfl, rfl⟩

end Fanouts

section Readers

variable {run : Nat} {reader : Reader}

/-- A read from the source gives its outcome, or panics. -/
theorem readUnit_cases (last : r.readUnit run reader = some r') :
    ∃ s, r.sources[reader.source]? = some s ∧
      ((∃ outcome, s.read.2 = some outcome ∧
          r' = (r.setSource reader.source s.read.1).goOn run reader (afterRead outcome)) ∨
        s.read.2 = none ∧ r' = (r.setSource reader.source s.read.1).leave run) := by
  simp only [readUnit, Option.bind_eq_bind, Option.bind_eq_some_iff, Option.some.injEq] at last
  obtain ⟨s, there, rfl⟩ := last
  refine ⟨s, there, ?_⟩
  split
  · next outcome given => exact .inl ⟨outcome, given, rfl⟩
  · next panics => exact .inr ⟨panics, rfl⟩

/-- A loop that publishes goes on with the fan-out, or behind it. -/
theorem readerStep_publish {f : Fanout} (executing : r.task.target? run = some reader)
    (at_ : reader.at_ = .publish f) (last : r.readerStep run = some r') :
    (∃ reached, f = .finished reached ∧ r' = r.goOn run reader .checkToken) ∨
      ∃ s f', f.step (.reader run) r = some (s, f') ∧ r' = s.goOn run reader (.publish f') := by
  simp only [readerStep, executing, at_, Option.bind_eq_bind, Option.bind_some] at last
  cases f with
  | finished reached => exact .inl ⟨reached, rfl, (Option.some.inj last).symm⟩
  | _ =>
    obtain ⟨⟨s, f'⟩, step, same⟩ := Option.bind_eq_some_iff.mp last
    exact .inr ⟨s, f', step, (Option.some.inj same).symm⟩

/-- A loop that has nothing to read waits, or panics if it has no delay to wait for. -/
theorem readerStep_pause (executing : r.task.target? run = some reader) (at_ : reader.at_ = .pause)
    (last : r.readerStep run = some r') :
    (∃ delay, r.settings.retryDelay = some delay ∧ r' = r.goOn run reader .paused) ∨
      r.settings.retryDelay = none ∧ r' = r.leave run := by
  simp only [readerStep, executing, at_, Option.bind_eq_bind, Option.bind_some] at last
  split at last
  · next delay given => exact .inl ⟨delay, given, (Option.some.inj last).symm⟩
  · next missing => exact .inr ⟨missing, (Option.some.inj last).symm⟩

end Readers

end PacketRelay.Relay
