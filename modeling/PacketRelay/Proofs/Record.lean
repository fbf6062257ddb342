import PacketRelay.Schedule

/-!
# Recorded schedules

A statement about what happens along a schedule speaks of more than the state it leads to. Here a
schedule is followed together with a record of what its steps have shown: each step may show one
thing, read off the state before it and its label. The labels may be limited to those that are
admitted.

## Main definitions

* `Records`: the states that some schedule leads to, each with a record
* `record?`: the record of a given schedule

## Main results

* `Records.reaches`, `Reaches.exists_records`: recording changes nothing
* `records_of_record?_eq_some`: a record that is computed is one
-/

namespace PacketRelay

/-- What comes and is never removed keeps its place in its list. -/
theorem getElem?_snoc {α : Type} (xs : List α) (x : α) (i : Nat) :
    (xs ++ [x])[i]? = if i = xs.length then some x else xs[i]? := by
  rw [List.getElem?_append]
  grind

theorem getElem?_snoc_cases {α : Type} {xs : List α} {x y : α} {i : Nat}
    (found : (xs ++ [x])[i]? = some y) : xs[i]? = some y ∨ i = xs.length ∧ y = x := by
  rw [getElem?_snoc] at found
  split at found
  · next last => exact .inr ⟨last, (Option.some.inj found).symm⟩
  · exact .inl found

end PacketRelay

namespace PacketRelay.Schedule

variable {σ ℓ ε : Type} {step : σ → ℓ → Option σ} {admits : ℓ → Prop} {shows : σ → ℓ → Option ε}

/-- Some schedule of admitted labels leads from the first state to the second, and the list is what
its steps have shown. -/
inductive Records (step : σ → ℓ → Option σ) (admits : ℓ → Prop) (shows : σ → ℓ → Option ε) :
    σ → List ε → σ → Prop
  -- The schedule without a step
  | refl (s : σ) : Records step admits shows s [] s
  -- One more step
  | tail {s t u : σ} {log : List ε} {l : ℓ} (run : Records step admits shows s log t)
      (admitted : admits l) (last : step t l = some u) :
      Records step admits shows s (log ++ (shows t l).toList) u

/-- A recorded schedule is a schedule. -/
theorem Records.reaches {s t : σ} {log : List ε} (run : Records step admits shows s log t) :
    Reaches step s t := by
  induction run with
  | refl => exact .refl _
  | tail _ _ last ih => exact ih.tail last

theorem Records.mono {admits' : ℓ → Prop} {s t : σ} {log : List ε} (fewer : ∀ l, admits l → admits' l)
    (run : Records step admits shows s log t) : Records step admits' shows s log t := by
  induction run with
  | refl => exact .refl _
  | tail _ admitted last ih => exact ih.tail (fewer _ admitted) last

/-- A step shows one thing at most, so that every part of a record from the first on is one. -/
theorem Records.exists_of_prefix {s t : σ} {log first : List ε}
    (run : Records step admits shows s log t) (part : first <+: log) :
    ∃ u, Records step admits shows s first u := by
  induction run with
  | refl =>
    obtain rfl := List.prefix_nil.mp part
    exact ⟨s, .refl s⟩
  | @tail t u log l run admitted last ih =>
    cases shown : shows t l with
    | none => exact ih (by simpa [shown] using part)
    | some e =>
      rw [shown, Option.toList_some, List.prefix_concat_iff] at part
      rcases part with rfl | earlier
      · exact ⟨u, by simpa [shown] using run.tail admitted last⟩
      · exact ih earlier

/-- A recorded schedule falls apart at each thing that it has shown, and an admitted label has shown
it. -/
theorem Records.exists_admitted_of_split {s u : σ} {log before after : List ε} {e : ε}
    (run : Records step admits shows s log u) (split : log = before ++ e :: after) :
    ∃ t l t', Records step admits shows s before t ∧ admits l ∧ step t l = some t' ∧
      shows t l = some e ∧ Records step admits shows t' after u := by
  induction run generalizing after with
  | refl => simp at split
  | @tail v w log l run admitted last ih =>
    cases shown : shows v l with
    | none =>
      obtain ⟨t, m, t', earlier, allowed, here, own, later⟩ := ih (by simpa [shown] using split)
      exact ⟨t, m, t', earlier, allowed, here, own, by simpa [shown] using later.tail admitted last⟩
    | some x =>
      rw [shown, Option.toList_some] at split
      rcases List.eq_nil_or_concat after with rfl | ⟨after, y, rfl⟩
      · obtain ⟨rfl, same⟩ := List.append_inj' split rfl
        obtain rfl := List.head_eq_of_cons_eq same
        exact ⟨v, l, w, run, admitted, last, shown, .refl w⟩
      · rw [List.concat_eq_append, ← List.cons_append, ← List.append_assoc] at split
        obtain ⟨same, own⟩ := List.append_inj' split rfl
        obtain rfl := List.head_eq_of_cons_eq own
        obtain ⟨t, m, t', earlier, allowed, here, told, later⟩ := ih same
        refine ⟨t, m, t', earlier, allowed, here, told, ?_⟩
        simpa [shown] using later.tail admitted last

/-- A recorded schedule falls apart at each thing that it has shown. -/
theorem Records.exists_of_split {s u : σ} {log before after : List ε} {e : ε}
    (run : Records step admits shows s log u) (split : log = before ++ e :: after) :
    ∃ t l t', Records step admits shows s before t ∧ step t l = some t' ∧ shows t l = some e ∧
      Records step admits shows t' after u := by
  obtain ⟨t, l, t', first, -, last, shown, later⟩ := run.exists_admitted_of_split split
  exact ⟨t, l, t', first, last, shown, later⟩

theorem Reaches.head {s t u : σ} {l : ℓ} (first : step s l = some t) (later : Reaches step t u) :
    Reaches step s u :=
  ((Reaches.refl s).tail first).trans later

/-- Every schedule can be recorded. -/
theorem Reaches.exists_records (shows : σ → ℓ → Option ε) {s t : σ} (run : Reaches step s t) :
    ∃ log, Records step (fun _ => True) shows s log t := by
  induction run with
  | refl => exact ⟨[], .refl _⟩
  | tail _ last ih =>
    obtain ⟨log, recorded⟩ := ih
    exact ⟨_, recorded.tail trivial last⟩

theorem Records.trans {s t u : σ} {log log' : List ε} (first : Records step admits shows s log t)
    (second : Records step admits shows t log' u) :
    Records step admits shows s (log ++ log') u := by
  induction second with
  | refl => simpa using first
  | tail _ admitted last ih =>
    rw [← List.append_assoc]
    exact ih.tail admitted last

/-- Follows a schedule and records what it shows; nothing, if a step cannot be taken. -/
def record? (step : σ → ℓ → Option σ) (shows : σ → ℓ → Option ε) :
    σ → List ℓ → Option (List ε × σ)
  | s, [] => some ([], s)
  | s, l :: ls => do
    let t ← step s l
    let (log, u) ← record? step shows t ls
    some ((shows s l).toList ++ log, u)

theorem records_of_record?_eq_some {s t : σ} {ls : List ℓ} {log : List ε}
    (admitted : ∀ l ∈ ls, admits l) (found : record? step shows s ls = some (log, t)) :
    Records step admits shows s log t := by
  induction ls generalizing s log with
  | nil =>
    obtain ⟨rfl, rfl⟩ : [] = log ∧ s = t := by simpa [record?] using found
    exact .refl s
  | cons l ls ih =>
    simp only [record?, Option.bind_eq_bind, Option.bind_eq_some_iff] at found
    obtain ⟨u, first, ⟨rest, v⟩, later, same⟩ := found
    obtain ⟨rfl, rfl⟩ : (shows s l).toList ++ rest = log ∧ v = t := by simpa using same
    have start : Records step admits shows s [] s := .refl s
    have head := start.tail (admitted l (by simp)) first
    have tail := ih (fun m hm => admitted m (by simp [hm])) later
    simpa using head.trans tail

/-- A schedule that can be followed, and whose record and last state are as computed. -/
theorem exists_records_of_any {s : σ} {ls : List ℓ} {p : List ε × σ → Bool}
    (admitted : ∀ l ∈ ls, admits l) (found : (record? step shows s ls).any p) :
    ∃ log t, Records step admits shows s log t ∧ p (log, t) := by
  obtain ⟨⟨log, t⟩, there, holds⟩ := (Option.any_eq_true _ _).mp found
  exact ⟨log, t, records_of_record?_eq_some admitted there, holds⟩

/-- Of entries with different keys one at most has a given key. -/
theorem filter_key_eq_singleton {κ α : Type} [DecidableEq κ] {xs : List (κ × α)} {k : κ} {x : α}
    (once : (xs.map Prod.fst).Nodup) (there : (k, x) ∈ xs) :
    xs.filter (fun p => p.1 = k) = [(k, x)] := by
  induction xs with
  | nil => simp at there
  | cons p ps ih =>
    obtain ⟨new, once⟩ := List.nodup_cons.mp once
    rcases List.mem_cons.mp there with rfl | later
    · have none : ps.filter (fun p => p.1 = k) = [] := by
        refine List.filter_eq_nil_iff.mpr fun p inside same => new ?_
        exact List.mem_map.mpr ⟨p, inside, of_decide_eq_true same⟩
      simp [none]
    · have other : p.1 ≠ k := by
        rintro rfl
        exact new (List.mem_map.mpr ⟨_, later, rfl⟩)
      simpa [other] using ih once later

end PacketRelay.Schedule
