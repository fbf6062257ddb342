import PacketRelay.Proofs.Relay.Desk
import PacketRelay.Proofs.Relay.Regular
import PacketRelay.Proofs.Task.Exit

/-!
# Starts that return without a run

A start that has taken the task finds the run reserved and returns at once, with success. Or it finds
that no run is reserved, and then its source may not open: it waits for the thread of the run before,
which needs nobody else to exit, and returns the error that its source has given. In both cases the
publisher is what it was before, the call and the threads of the task apart.

## Main definitions

* `Relay.View`, `Relay.view`: what the users of a publisher see of a step

## Main results

* `Relay.records_ignored`: a start that finds the run reserved
* `Relay.exists_refused`: a start whose source does not open
-/

namespace PacketRelay

open Schedule

/-- What a call has returned. -/
def CallStage.reply? : CallStage → Option RelayReply
  | .returned reply => some reply
  | _ => none

/-- Why a source does not open. -/
def ScriptedSource.refusal? (s : ScriptedSource) (uri : String) : Option SourceError :=
  match s.openAt uri with
  | .ok _ => none
  | .error e => some e

namespace Relay

/-- What the users of a publisher see of a step. -/
inductive View
  -- A call begins.
  | asked (n : Nat) (call : RelayCall)
  -- A start has its source opened, which may give an error.
  | opened (n : Nat) (e : Option SourceError)
  -- A call returns.
  | answered (n : Nat) (reply : RelayReply)
  -- A consumer takes the oldest packet, if there is one.
  | taken (subscriber : Nat) (p : Option Packet)
deriving DecidableEq

/-- What is seen of an access of a call. -/
def viewCall (r : Relay) (n : Nat) : CallStage → Option View
  | .start source uri .openSource =>
    r.sources[source]?.map fun s => .opened n (s.refusal? uri)
  | _ => (((r.callStep n).bind (·.calls[n]?)).bind CallStage.reply?).map (.answered n)

/-- What is seen of a step. -/
def view (r : Relay) : Label → Option View
  | .begin call => some (.asked r.calls.length call)
  | .call n => r.calls[n]?.bind (r.viewCall n)
  | .consumer n (.dequeue pick) => r.subscribers[n]?.map fun s => .taken n (s.queue.pop pick).1
  | _ => none

variable {r s t : Relay} {n source : Nat} {uri : String} {stage : CallStage}

theorem records_of_callStep {log : List View} (last : r.callStep n = some s)
    (seen : (view r (.call n)).toList = log) : Records step Admitted view r log s := by
  have start : Records step Admitted view r [] r := .refl r
  have recorded := start.tail (show Admitted (.call n) from trivial) last
  simpa [seen] using recorded

/-- A call that goes on shows nothing. -/
theorem records_of_silent {stage' : CallStage} (here : r.calls[n]? = some stage)
    (last : r.callStep n = some s) (there : s.calls[n]? = some stage')
    (before : ∀ source uri, stage ≠ .start source uri .openSource) (goes : stage'.reply? = none) :
    Records step Admitted view r [] s := by
  refine records_of_callStep last ?_
  have silent : r.viewCall n stage = none := by
    unfold viewCall
    split
    · exact absurd rfl (before _ _)
    · simp [last, there, goes]
  simp [view, here, silent]

/-- A call that returns shows its answer. -/
theorem records_of_reply {reply : RelayReply} (here : r.calls[n]? = some stage)
    (last : r.callStep n = some (s.answer n reply)) (same : s.calls.length = r.calls.length)
    (before : ∀ source uri, stage ≠ .start source uri .openSource) :
    Records step Admitted view r [.answered n reply] (s.answer n reply) := by
  refine records_of_callStep last ?_
  have returned : (s.answer n reply).calls[n]? = some (.returned reply) :=
    getElem?_setCall (same ▸ (List.getElem?_eq_some_iff.mp here).1)
  have shown : r.viewCall n stage = some (.answered n reply) := by
    unfold viewCall
    split
    · exact absurd rfl (before _ _)
    · simp [last, returned, CallStage.reply?]
  simp [view, here, shown]

/-- While a start waits, the steps of the task show nothing. -/
theorem records_of_unwinds (here : r.calls[n]? = some (.start source uri .joining))
    {t : Task Reader} (path : r.task.Unwinds t) :
    Records step Admitted view r [] { r with task := t } := by
  induction path with
  | refl => exact .refl r
  | @tail u v run _ last ih =>
    cases run with
    | none =>
      have step := callStep_of_advance (r := { r with task := u }) here rfl last
      exact ih.trans (records_of_silent here step here (by simp) rfl)
    | some run =>
      have last : u.advanceThread run = some v := last
      have step : ({ r with task := u } : Relay).step (.thread run) = some { r with task := v } := by
        simp [Relay.step, last]
      exact ih.tail (show Admitted (.thread run) from trivial) step

/-- A start takes the task. -/
theorem records_locked (here : r.calls[n]? = some (.start source uri .lock))
    (free : r.taskHolder = none) : Records step Admitted view r []
      (({ r with taskHolder := some n } : Relay).setCall n (.start source uri .reserve)) := by
  have there := (List.getElem?_eq_some_iff.mp here).1
  refine records_of_silent here ?_ (getElem?_setCall there) (by simp) rfl
  simp [callStep, here, startStep, acquireTask, free]

/-- **A start that finds the run reserved returns with success**, and leaves everything as it is. -/
theorem records_ignored (here : r.calls[n]? = some (.start source uri .lock))
    (free : r.taskHolder = none) (running : r.running = true) :
    Records step Admitted view r [.answered n (.started none)] (r.answer n (.started none)) := by
  let locked := ({ r with taskHolder := some n } : Relay).setCall n (.start source uri .reserve)
  have at_locked : locked.calls[n]? = some (.start source uri .reserve) :=
    getElem?_setCall (List.getElem?_eq_some_iff.mp here).1
  have same : r.answer n (.started none) = locked.answerFreeing n (.started none) := by
    simp [locked, answerFreeing, answer, setCall, free]
  have last : locked.callStep n = some (locked.answerFreeing n (.started none)) := by
    rw [callStep_start at_locked]
    exact congrArg some (if_pos running)
  rw [same]
  exact (records_locked here free).trans
    (records_of_reply at_locked last rfl (by simp))

/-- While no run is reserved no thread is in its loop, so that waiting comes to an end. The tokens are
as before. -/
theorem exists_unwound (regular : r.Regular) (idle : r.running = false) :
    ∃ t, (r.task.begin .outside .join).Unwinds t ∧ t.isFree = true ∧
      ∀ run, t.isCancelled run = r.task.isCancelled run := by
  obtain ⟨k, kept⟩ := regular.kept
  have nobody : k = .nobody := by simpa [control, idle] using kept.running
  have left : r.task.isLive r.task.current = false := by
    have live : r.task.isLive r.task.current = decide (k = .run r.task.current) := kept.live _
    rw [live, nobody]
    rfl
  obtain ⟨t, path, position⟩ := Task.exists_joined_of_left
    (regular.sound.coherent.begin (by simp)) (regular.attended.owns.begin .outside .join) left rfl
  exact ⟨t, path, by simp [Task.isFree, position], (path.isCancelled rfl).2⟩

/-- A source that does not open is reported, and the run is given back. -/
theorem records_refused {e : SourceError} {x : ScriptedSource}
    (here : r.calls[n]? = some (.start source uri .openSource)) (there : r.sources[source]? = some x)
    (gate : x.isShut = false) (refused : x.openAt uri = .error e) : Records step Admitted view r
      [.opened n (some e), .answered n (.started (some (.source e)))]
      (({ r with running := false } : Relay).answerFreeing n (.started (some (.source e)))) := by
  let refusing := r.setCall n (.start source uri (.refuse e))
  have at_refusing : refusing.calls[n]? = some (.start source uri (.refuse e)) :=
    getElem?_setCall (List.getElem?_eq_some_iff.mp here).1
  have opens : r.callStep n = some refusing := by
    rw [callStep_start here]
    simp [startStep, openSource, there, gate, refused, refusing]
  have shown : (view r (.call n)).toList = [.opened n (some e)] := by
    simp [view, here, viewCall, there, ScriptedSource.refusal?, refused]
  have same : ({ r with running := false } : Relay).answerFreeing n (.started (some (.source e))) =
      ({ refusing with running := false } : Relay).answerFreeing n (.started (some (.source e))) := by
    simp [refusing, answerFreeing, answer, setCall]
  rw [same]
  exact (records_of_callStep opens shown).trans
    (records_of_reply at_refusing (callStep_start at_refusing) rfl (by simp))

/-- **A start whose source does not open returns the very error**, and leaves everything as it is but
the threads of the task, with their tokens. -/
theorem exists_refused {e : SourceError} {x : ScriptedSource} (regular : r.Regular)
    (here : r.calls[n]? = some (.start source uri .lock)) (free : r.taskHolder = none)
    (idle : r.running = false) (there : r.sources[source]? = some x) (gate : x.isShut = false)
    (refused : x.openAt uri = .error e) : ∃ t : Task Reader,
      (∀ run, t.isCancelled run = r.task.isCancelled run) ∧
      Records step Admitted view r [.opened n (some e), .answered n (.started (some (.source e)))]
        (({ r with task := t } : Relay).answer n (.started (some (.source e)))) := by
  let locked := ({ r with taskHolder := some n } : Relay).setCall n (.start source uri .reserve)
  have at_locked : locked.calls[n]? = some (.start source uri .reserve) :=
    getElem?_setCall (List.getElem?_eq_some_iff.mp here).1
  let reserved := (({ locked with running := true } : Relay).beginTask .join).setCall n
    (.start source uri .joining)
  have at_reserved : reserved.calls[n]? = some (.start source uri .joining) :=
    getElem?_setCall (List.getElem?_eq_some_iff.mp at_locked).1
  have reserves : locked.callStep n = some reserved := by
    rw [callStep_start at_locked]
    exact congrArg some (if_neg (by simp [locked, setCall, idle]))
  obtain ⟨t, path, vacant, tokens⟩ := exists_unwound regular idle
  let waited : Relay := { reserved with task := t }
  let opening := waited.setCall n (.start source uri .openSource)
  have at_opening : opening.calls[n]? = some (.start source uri .openSource) :=
    getElem?_setCall (List.getElem?_eq_some_iff.mp at_reserved).1
  have at_waited : waited.calls[n]? = some (.start source uri .joining) := at_reserved
  have returns : waited.callStep n = some opening := by
    rw [callStep_start at_waited]
    simp [startStep, taskStep, waited, vacant, opening]
  have same : ({ r with task := t } : Relay).answer n (.started (some (.source e))) =
      ({ opening with running := false } : Relay).answerFreeing n (.started (some (.source e))) := by
    simp [opening, waited, reserved, locked, beginTask, answerFreeing, answer, setCall, free, idle]
  refine ⟨t, tokens, ?_⟩
  rw [same]
  have before : Records step Admitted view r [] opening :=
    (((records_locked here free).trans (records_of_silent at_locked reserves at_reserved (by simp)
      rfl)).trans (records_of_unwinds at_reserved path)).trans
        (records_of_silent at_reserved returns at_opening (by simp) rfl)
  exact before.trans (records_refused at_opening there gate refused)

end Relay

end PacketRelay
