import PacketRelay.Proofs.Relay.Enrolment

/-!
# Which entries are live after an operation

A thread that gives the registry back has thrown out all entries that were terminated when it took
it. A subscriber that is added is not looked at: a terminated one enters like any other, and stays
until the next thread takes the registry. The same call made again finds it gone, and adds it again.

## Main results

* `Relay.live_iff_added_live`: the entries are live after an operation exactly if it has added no
  terminated subscriber, and exactly a terminated one is added twice in a row
* `Relay.terminated_added_twice`: a terminated subscriber that has been added twice
-/

namespace PacketRelay

section Records

variable {id : Nat → Option String} {log past during between : List Notice} {e f : Notice}
  {a : Actor} {n s x : Nat}

/-- Whoever gives the registry back has looked at all entries. -/
theorem Notice.Holds.visit (holds : e.Holds id past) (closes : e.Closes a) :
    Visit past a (registryOf id past) := by
  cases closes with
  | settled n s added => exact holds.1
  | parted n s found => exact holds
  | released a => exact holds

theorem Notice.Closes.isDoor (closes : e.Closes a) : e.isDoor = true := by
  cases closes <;> rfl

theorem Notice.Opens.not_closes {b : Actor} (opens : e.Opens a) : ¬ e.Closes b := by
  cases opens <;> rintro ⟨⟩

/-- The thread that holds the registry has taken it since it was last given back. -/
theorem Visit.after_closes {b : Actor} {entries : List Nat}
    (visit : Visit (past ++ e :: between) a entries) (closes : e.Closes b) :
    ∀ x ∈ entries, .terminated x ∉ past := by
  obtain ⟨before, opening, during, split, opens, closed, live⟩ := visit
  suffices earlier : past <+: before from
    fun x inside there => live x inside (earlier.subset there)
  rcases List.append_eq_append_iff.mp split with ⟨more, rfl, -⟩ | ⟨more, rfl, same⟩
  · exact List.prefix_append _ _
  · -- The registry has not been given back since it was taken.
    cases more with
    | nil =>
      rw [List.nil_append] at same
      exact absurd closes ((List.head_eq_of_cons_eq same) ▸ opens.not_closes)
    | cons g more =>
      have door := closes.isDoor
      obtain ⟨-, rest⟩ := List.cons_eq_cons.mp same
      have inside : e ∈ during := by simp [rest]
      simp [closed e inside] at door

/-- Who has been added is the only one of its identity, and is thrown out by the next thread that
takes the registry exactly if it has been terminated before. -/
theorem Truthful.added_again_iff {m : Nat} {again : Bool}
    (truthful : Truthful id (past ++ .settled n s true :: between ++ [.settled m s again]))
    (live : .terminated s ∉ between)
    (kept : ∀ k t found, .removed k t found ∈ between → id t ≠ id s)
    (only : ∀ k t, .settled k t true ∈ between → id t ≠ id s) :
    again = true ↔ .terminated s ∈ past := by
  obtain ⟨before, visit, fresh⟩ := truthful_snoc.mp truthful
  rw [fresh]
  have added : s ∈ registryOf id (past ++ [.settled n s true]) := by
    rw [registryOf_snoc]
    exact List.mem_append_right _ (List.mem_singleton_self s)
  have whole : past ++ .settled n s true :: between = past ++ [.settled n s true] ++ between := by
    simp
  constructor
  · intro missing
    by_contra unmarked
    rw [whole] at before missing
    refine missing s (before.mem_of_stays added ?_ kept) rfl
    simpa [unmarked] using live
  · intro terminated x inside same
    have gone := visit.after_closes (.settled n s true) x inside
    rw [whole] at before inside
    rcases mem_of_mem_registryOf_append inside with old | ⟨k, new⟩
    · -- The identities differ, so that it is the subscriber itself.
      obtain rfl := before.of_append.eq_of_same old added same
      exact gone terminated
    · exact only k x new same

end Records

namespace Relay

open Schedule (Records record? exists_records_of_any)

variable {settings : PublisherSettings} {past : List Notice} {e : Notice} {a : Actor} {r : Relay}

/-- An entry that was live when the registry was taken, with nothing terminated since, is live. -/
theorem live_of_calm {before during : List Notice} {opening : Notice} {x : Nat}
    (keeps : r.roster.Keeps (before ++ opening :: during ++ [e])) (opens : opening.Opens a)
    (closes : e.Closes a) (calm : .terminated x ∉ during) (live : .terminated x ∉ before)
    (there : x < r.subscribers.length) : r.isTerminated x = false := by
  have opened : opening ≠ .terminated x := by
    rintro rfl
    cases opens
  have closed : e ≠ .terminated x := by
    rintro rfl
    cases closes
  have unmarked := (keeps.marked x there).not.mpr (by simp [calm, live, opened.symm, closed.symm])
  exact Bool.eq_false_iff.mpr unmarked

/-- **Which entries are live after an operation.** Take a thread that has just given the registry
back, and suppose that no subscriber has been terminated since it took it. Then all entries are live,
unless it has added a subscriber that is terminated. And if it has added one, or found its identity,
that was added before, with nothing of its identity terminated, removed or added in between, then it
has been added again exactly if it was terminated the first time already. -/
theorem live_iff_added_live
    (run : Records step Admitted notice (ofSettings settings) (past ++ [e]) r)
    (closes : e.Closes a) :
    (∃ before opening during, past = before ++ opening :: during ∧ opening.Opens a ∧
      (∀ f ∈ during, f.isDoor = false) ∧
      ((∀ x, .terminated x ∉ during) →
        ((∀ x ∈ r.registry, r.isTerminated x = false) ↔
          ∀ n s, e = .settled n s true → r.isTerminated s = false))) ∧
    ∀ first between n m s again, past = first ++ .settled n s true :: between →
      e = .settled m s again → .terminated s ∉ between →
      (∀ k t found, .removed k t found ∈ between → r.identity t ≠ r.identity s) →
      (∀ k t, .settled k t true ∈ between → r.identity t ≠ r.identity s) →
        (again = true ↔ .terminated s ∈ first) := by
  have keeps := keeps_of_records run
  have truthful : Truthful r.identity (past ++ [e]) := keeps.truthful
  constructor
  · obtain ⟨before, opening, during, split, opens, closed, live⟩ :=
      (truthful_snoc.mp truthful).2.visit closes
    refine ⟨before, opening, during, split, opens, closed, fun calm => ⟨?_, fun own x inside => ?_⟩⟩
    · rintro all n s rfl
      refine all s ?_
      show s ∈ r.roster.registry
      rw [keeps.registry, registryOf_snoc]
      exact List.mem_append_right _ (List.mem_singleton_self s)
    · have there := keeps.lt_of_mem inside
      have entered : x ∈ r.roster.registry := inside
      rw [keeps.registry, registryOf_snoc] at entered
      rcases mem_enter entered with old | ⟨n, rfl⟩
      · exact live_of_calm (split ▸ keeps) opens closes (calm x) (live x old) there
      · exact own n x rfl
  · rintro first between n m s again rfl rfl live kept only
    exact truthful.added_again_iff live kept only

section Runs

/-- There are some subscribers, told from each other by their names. -/
def enlist (names : List String) : List Label :=
  names.map fun name => .addSubscriber (.ofName name "" 1)

/-- A call is made, with as many accesses as it needs. -/
def perform (n : Nat) (kind : RelayCall) (accesses : Nat) : List Label :=
  .begin kind :: List.replicate accesses (.call n)

/-- A subscriber is added, terminated, and thrown out by a call that adds another one, which is called
for once more. -/
def replacement : List Label :=
  enlist ["a", "b"] ++ perform 0 (.subscribe 1) 3 ++ [.consumer 1 .terminate] ++
    perform 1 (.subscribe 0) 4 ++ perform 2 (.subscribe 0) 4

/-- Once it has been refused, the only entry is live. -/
theorem live_after_refusal : ∃ log r,
    Records step Admitted notice (ofSettings {}) (log ++ [.settled 2 0 false]) r ∧
    (.settled 0 1 true ∈ log ∧ .terminated 1 ∈ log ∧ r.registry = [0]) ∧
    ∀ x ∈ r.registry, r.isTerminated x = false := by
  have ran : (record? step notice (ofSettings {}) replacement).any (fun x =>
        x.1 = x.1.take 12 ++ [.took (.call 2)] ++ [.settled 2 0 false] ∧
        .settled 0 1 true ∈ x.1.take 12 ∧ .terminated 1 ∈ x.1.take 12 ∧ x.2.registry = [0]) := by
    decide +kernel
  have admitted : ∀ l ∈ replacement, Admitted l := by decide +kernel
  obtain ⟨log, r, run, facts⟩ := exists_records_of_any admitted ran
  obtain ⟨split, added, terminated, registry⟩ := of_decide_eq_true facts
  dsimp only at split
  rw [split] at run
  refine ⟨_, r, run, ⟨List.mem_append_left _ added, List.mem_append_left _ terminated, registry⟩, ?_⟩
  obtain ⟨⟨before, opening, during, same, -, closed, live⟩, -⟩ :=
    live_iff_added_live run (.settled 2 0 false)
  have calm : during = [] := by
    rcases List.eq_nil_or_concat during with none | ⟨rest, f, rfl⟩
    · exact none
    · rw [List.concat_eq_append, ← List.cons_append, ← List.append_assoc] at same
      have last := List.head_eq_of_cons_eq (List.append_inj' same rfl).2
      simpa [← last, Notice.isDoor] using closed f (by simp)
  refine (live ?_).mpr ?_
  · simp [calm]
  · rintro n s ⟨⟩

/-- A subscriber is terminated and then added, two times. -/
def insistence : List Label :=
  enlist ["a"] ++ [.consumer 0 .terminate] ++ perform 0 (.subscribe 0) 3 ++
    perform 1 (.subscribe 0) 4

/-- A subscriber that is terminated is added all the same, and stands in the registry. The same call
made again throws it out and adds it once more. -/
theorem terminated_added_twice : ∃ log r, Records step Admitted notice (ofSettings {}) log r ∧
    log = [.terminated 0,
      .began 0 (.subscribe 0), .asked 0 0 false, .took (.call 0), .settled 0 0 true,
      .began 1 (.subscribe 0), .asked 1 0 false, .took (.call 1), .cleared (.call 1) 0,
      .settled 1 0 true] ∧
    r.calls = [.returned (.changed true), .returned (.changed true)] ∧
    r.registry = [0] ∧ r.isTerminated 0 = true := by
  have ran : (record? step notice (ofSettings {}) insistence).any
      (fun x => x.1 = [.terminated 0,
          .began 0 (.subscribe 0), .asked 0 0 false, .took (.call 0), .settled 0 0 true,
          .began 1 (.subscribe 0), .asked 1 0 false, .took (.call 1), .cleared (.call 1) 0,
          .settled 1 0 true] ∧
        x.2.calls = [.returned (.changed true), .returned (.changed true)] ∧
        x.2.registry = [0] ∧ x.2.isTerminated 0 = true) := by
    decide +kernel
  have admitted : ∀ l ∈ insistence, Admitted l := by decide +kernel
  obtain ⟨log, r, run, facts⟩ := exists_records_of_any admitted ran
  exact ⟨log, r, run, of_decide_eq_true facts⟩

end Runs

end Relay

end PacketRelay
