/-!
# Schedules of step machines

A concurrent part of the library is a machine: a state, and labels each of which may take a step. A
label stands for one access to shared memory by one thread, and a schedule is any list of labels. A
machine that is run to rest follows one schedule among all of them: it takes steps that are worth
taking for as long as there is one.

## Main definitions

* `Reaches`: the states that some schedule leads to
* `settle`: running to rest

## Main results

* `reaches_settle`: running to rest leads to a state that a schedule leads to
-/

namespace PacketRelay.Schedule

variable {σ ℓ : Type}

/-- Some schedule leads from the first state to the second. -/
inductive Reaches (step : σ → ℓ → Option σ) : σ → σ → Prop
  -- The schedule without a step
  | refl (s : σ) : Reaches step s s
  -- One more step
  | tail {s t u : σ} {l : ℓ} (run : Reaches step s t) (last : step t l = some u) :
      Reaches step s u

/-- Takes the first of the proposed steps that can be taken, at most `budget` times. -/
def settle (step : σ → ℓ → Option σ) (proposals : σ → List ℓ) : Nat → σ → σ
  | 0, s => s
  | budget + 1, s =>
    match (proposals s).findSome? (step s) with
    | none => s
    | some t => settle step proposals budget t

theorem Reaches.trans {step : σ → ℓ → Option σ} {s t u : σ} (first : Reaches step s t)
    (second : Reaches step t u) : Reaches step s u := by
  induction second with
  | refl => exact first
  | tail _ last ih => exact ih.tail last

/-- Running to rest follows a schedule. -/
theorem reaches_settle (step : σ → ℓ → Option σ) (proposals : σ → List ℓ) (budget : Nat) (s : σ) :
    Reaches step s (settle step proposals budget s) := by
  induction budget generalizing s with
  | zero => exact .refl s
  | succ budget ih =>
    unfold settle
    split
    · exact .refl s
    · next t found =>
      obtain ⟨l, _, last⟩ := List.exists_of_findSome?_eq_some found
      exact ((Reaches.refl s).tail last).trans (ih t)

end PacketRelay.Schedule
