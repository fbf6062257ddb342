import PacketRelay.Proofs.Record
import PacketRelay.Proofs.Relay.Access

/-!
# What publishing leaves alone

A thread that publishes touches the registry, the queues and the counters, and nothing else of a
publisher. Only a call that has begun and a loop that runs take steps.

## Main results

* `Relay.sweep_frame`, `Fanout.step_frame`: what a sweep and an access of a thread that publishes
  leave alone
-/

namespace PacketRelay

variable {r r' : Relay} {a : Actor}

theorem Relay.exists_stage_of_callStep {n : Nat} (last : r.callStep n = some r') :
    ∃ stage, r.calls[n]? = some stage := by
  simp only [callStep, Option.bind_eq_bind, Option.bind_eq_some_iff] at last
  obtain ⟨stage, here, -⟩ := last
  exact ⟨stage, here⟩

/-- A call that stays where it is. -/
theorem Relay.calls_eq_set {n : Nat} {stage : CallStage} (here : r.calls[n]? = some stage) :
    r.calls = r.calls.set n stage := by
  obtain ⟨inside, found⟩ := List.getElem?_eq_some_iff.mp here
  rw [← found, List.set_getElem_self]

theorem Relay.exists_target_of_readerStep {run : Nat} (last : r.readerStep run = some r') :
    ∃ reader, r.task.target? run = some reader := by
  simp only [readerStep, Option.bind_eq_bind, Option.bind_eq_some_iff] at last
  obtain ⟨reader, executing, -⟩ := last
  exact ⟨reader, executing⟩

theorem Relay.sweep_frame {entry next : Nat} (last : r.sweep entry = some (r', next)) :
    r' = { r with registry := r'.registry } := by
  unfold sweep at last
  split at last
  · simp at last
  · split at last <;> simp only [Option.some.injEq, Prod.mk.injEq] at last <;>
      obtain ⟨rfl, -⟩ := last <;> rfl

/-- An access of a thread that publishes changes the registry, the queues and the counters only. -/
theorem Fanout.step_frame {f f' : Fanout} (last : f.step a r = some (r', f')) :
    r' = { r with
      registryHolder := r'.registryHolder
      registry := r'.registry
      subscribers := r'.subscribers
      counters := r'.counters } := by
  cases f with
  | acquire p =>
    obtain ⟨-, rfl, -⟩ := Relay.step_acquire last
    rfl
  | sweep p entry =>
    rcases Relay.step_sweep last with ⟨next, found, -⟩ | ⟨-, rfl, -⟩
    · rw [Relay.sweep_frame found]
    · rfl
  | serve p entry reached e =>
    rcases Relay.step_serve last with ⟨-, rfl, -⟩ | ⟨m, s, s', e', -, -, -, rfl, -⟩
    · rfl
    · rfl
  | finished reached => simp [Fanout.step] at last
  | _ =>
    obtain ⟨rfl, -⟩ := Prod.mk.inj (Option.some.inj last)
    rfl

end PacketRelay
