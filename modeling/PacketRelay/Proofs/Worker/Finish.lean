import PacketRelay.Decoder
import PacketRelay.Proofs.Worker.Ledger
import PacketRelay.Worker.Scripted

/-!
# The end of a drain run

A drain loop that sees its token set goes on behind the loop, where it finishes its handler. A
panic, of the handler or of a pause without end, leaves the loop past that place, and the task goes
on as if the run were over. So when a run is over its handler has been finished once, after the last
packet, or the run has panicked and its handler has never been finished, whatever it holds open.

## Main definitions

* `Site.Panics`: a run has panicked
* `Site.Begun`: the runs that starts have begun are there
* `Decoder.handler`: the handler that drives a decoder

## Main results

* `begun_of_records`: a start that says so has begun a run
* `exists_finish_of_observe`: finishing shows when the handler is finished, and only then
* `finished_iff_calm`: the handler of a run is finished once, unless the run panics
* `decoder_finished`: a decoder that is driven by a worker is flushed and closed at the end of a run
-/

namespace PacketRelay

open Schedule

/-- The handler that drives a decoder, and keeps what it lets out. -/
def Decoder.handler {δ ε : Type} (d : Decoder δ ε) : Handler (List ε) δ where
  receive out s _ := (out, s)
  conclude out s p :=
    let r := d.handle s p
    some (out ++ r.output, r.state, if r.error.isSome then .refused else .accepted)
  finish out s :=
    let r := d.finish s
    (out ++ r.output, r.state)

namespace Site

variable {ω η : Type}

/-- The handler of a run has panicked, or a pause of its drain loop has. -/
def Panics (run : Nat) (log : List Event) : Prop :=
  .answered run .panicked ∈ log ∨ .overflowed run ∈ log

/-- The runs that starts have begun are there. -/
structure Begun (log : List Event) (s : Site ω η) : Prop where
  /-- A start that has begun a run can wait for its thread. -/
  launched : s.worker.task.position = .returned true →
    s.worker.task.joinable = some s.worker.task.current
  threads : ∀ run, .started run ∈ log → (s.worker.task.stage? run).isSome

section Threads

variable {h : Handler ω η} {s s' : Site ω η} {l : Turn ω η} {t t' : Task (Drain η)}
  {log : List Event} {run : Nat}

/-- No thread is lost. -/
theorem Aside.isSome_stage? (aside : Aside t t') (coherent : t.Coherent Drain.IsFresh)
    (there : (t.stage? run).isSome) : (t'.stage? run).isSome := by
  rcases aside.stage? coherent run with same | ⟨-, made⟩ | ⟨c, d, -, step, -, after⟩
  · rwa [same]
  · rw [made]
    rfl
  · rw [after]
    cases step <;> rfl

/-- A start that begins a run takes up its thread. -/
theorem Aside.launched (aside : Aside t t')
    (launched : t.position = .returned true → t.joinable = some t.current) :
    t'.position = .returned true → t'.joinable = some t'.current := by
  cases aside with
  | same | cancel => exact launched
  | @begin call => cases call <;> simp [Task.begin, Task.Call.entry]
  | call last =>
    cases Task.access_of_advance last with
    | adopt => exact fun _ => rfl
    | @released _ next => cases next <;> simp [Task.afterLetGo]
    | @pass next | @joined _ next => cases next <;> simp [Task.AfterJoin.position]
    | _ => simp
  | thread last =>
    obtain ⟨_, _, -, -, rfl⟩ := Task.exists_access_of_advanceThread last
    exact launched

/-- A start says that it has begun the current run once it has returned so. -/
theorem eq_of_started (shown : s.observe h l = some (.started run)) :
    s.worker.task.position = .returned true ∧ s.worker.task.current = run := by
  unfold observe at shown
  split at shown
  · next a _ => cases observed : s.subscriber.queue.observe a <;> simp [observed] at shown
  · split at shown
    · unfold answer? at shown
      split at shown
      · split at shown
        · next launched =>
          unfold Worker.hasStartedTask at launched
          split at launched
          · next at_ =>
            subst launched
            exact ⟨at_, Event.started.inj (Option.some.inj shown)⟩
          · simp at launched
        · simp at shown
      · simp at shown
    · next own _ =>
      obtain ⟨d, -, told⟩ := Option.bind_eq_some_iff.mp shown
      unfold remark? at told
      split at told
      · simp at told
      · simp at told
      · split at told <;> simp at told
      · simp at told
      · simp at told
    · simp at shown

/-- Finishing shows when the drain loop of the run finishes its handler, and only then. -/
theorem exists_finish_of_observe (shown : s.observe h l = some (.finished run))
    (last : s.turn h l = some s') :
    ∃ d, s.worker.task.target? run = some d ∧ d.at_ = .finish ∧
      s'.worker.world = (h.finish s.worker.world d.handler).1 := by
  obtain ⟨d, executing, at_, world, -⟩ := exists_serves_of_observe rfl shown last
  exact ⟨d, executing, at_, world⟩

/-- The runs that starts have begun stay there. -/
theorem Begun.turn (begun : Begun log s) (fresh : s.worker.task.Coherent Drain.IsFresh)
    (last : s.turn h l = some s') : Begun (log ++ (s.observe h l).toList) s' := by
  have next : (s'.worker.task.position = .returned true →
        s'.worker.task.joinable = some s'.worker.task.current) ∧
      ∀ run, (s.worker.task.stage? run).isSome → (s'.worker.task.stage? run).isSome := by
    cases drains : l.isDrain with
    | false =>
      obtain ⟨aside, -⟩ := aside_turn drains last
      exact ⟨aside.launched begun.launched, fun run => aside.isSome_stage? fresh⟩
    | true =>
      obtain ⟨own, pick, rfl⟩ := Turn.eq_of_isDrain drains
      obtain ⟨d, next, -, -, -, stages⟩ := exists_stride_of_drain last
      obtain ⟨⟨w, x⟩, step, rfl⟩ := Option.map_eq_some_iff.mp last
      constructor
      · obtain ⟨-, -, ⟨d, same⟩ | same, -⟩ := Worker.exists_of_drainStep step <;>
          exact same ▸ begun.launched
      · intro run there
        rw [stages]
        split
        · rfl
        · exact there
  refine ⟨next.1, fun run told => next.2 run ?_⟩
  rcases List.mem_append.mp told with earlier | new
  · exact begun.threads run earlier
  · obtain ⟨at_, rfl⟩ := eq_of_started (Option.mem_toList.mp new)
    obtain ⟨c, stage, found, at_⟩ := fresh.thread _ (.inl (begun.launched at_))
    rw [Task.stage?, found, Option.bind_some, at_]
    rfl

end Threads

section Runs

variable {h : Handler ω η} {s : Site ω η} {log : List Event} {name suffix : String}
  {settings : DrainSettings} {world : ω} {k : Nat}

theorem begun_of_records
    (run : Records (turn h) (fun _ => True) (observe h) (ofSettings name suffix settings world) log
      s) : Begun log s := by
  induction run with
  | refl => exact ⟨by simp [ofSettings, Worker.ofSettings], by simp⟩
  | tail run _ last ih => exact ih.turn (kept_of_records run).fresh last

/-- What has been told of a run that is over: the last thing is told last. -/
theorem exists_last_of_idle
    (run : Records (turn h) (fun _ => True) (observe h) (ofSettings name suffix settings world) log
      s)
    (started : .started k ∈ log) (idle : (s.worker.task.contexts.getD k {}).phase = .idle) :
    ∃ calls last, runLog k log = calls ++ [last] ∧ (∀ e ∈ calls, e.isLast = false) ∧
      last.isLast := by
  have kept := kept_of_records run
  obtain ⟨stage, at_⟩ := Option.isSome_iff_exists.mp ((begun_of_records run).threads k started)
  obtain ⟨c, found, here⟩ := Option.bind_eq_some_iff.mp at_
  have phase : stage.phase = .idle := by
    have same := (kept.fresh.contexts k c found).phase
    rw [here] at same
    simpa [found, same] using idle
  have ran := kept.runs k
  rw [at_] at ran
  cases stage with
  | spawned | holding | up | named | executing | returned => cases phase
  | idle | releasing | exited => exact ran

/-- The last thing that a drain loop shows is a panic, or that it finishes its handler. -/
theorem Event.eq_of_isLast {e : Event} (own : e.run? = some k) (last : e.isLast) :
    e = .answered k .panicked ∨ e = .overflowed k ∨ e = .finished k := by
  cases e with
  | queue | started | passed => simp [Event.isLast] at last
  | answered run verdict =>
    obtain rfl := Option.some.inj own
    cases verdict <;> simp_all [Event.isLast]
  | overflowed run =>
    obtain rfl := Option.some.inj own
    exact .inr (.inl rfl)
  | finished run =>
    obtain rfl := Option.some.inj own
    exact .inr (.inr rfl)

/-- What a run shows before the last thing is of no panic, and not that it finishes its handler. -/
theorem mem_iff_of_runLog_eq {calls : List Event} {last e : Event}
    (split : runLog k log = calls ++ [last]) (quiet : ∀ e ∈ calls, e.isLast = false)
    (own : e.run? = some k) (ends : e.isLast) : e ∈ log ↔ e = last := by
  have inside : e ∈ runLog k log ↔ e ∈ log := by simp [runLog, own]
  rw [← inside, split, List.mem_append, List.mem_singleton, or_iff_right]
  intro earlier
  simp [quiet e earlier] at ends

/-- The last thing that a run shows is that it finishes its handler, unless it has panicked. -/
theorem panics_iff {calls : List Event} {last : Event} (split : runLog k log = calls ++ [last])
    (quiet : ∀ e ∈ calls, e.isLast = false) (ends : last.isLast) :
    Panics k log ↔ last ≠ .finished k := by
  have own : last.run? = some k := by
    have inside : last ∈ runLog k log := by simp [split]
    simpa [runLog] using (List.mem_filter.mp inside).2
  rw [Panics, mem_iff_of_runLog_eq split quiet rfl rfl, mem_iff_of_runLog_eq split quiet rfl rfl]
  rcases Event.eq_of_isLast own ends with rfl | rfl | rfl <;> simp

/-- **The handler of a drain run is finished once, after the last packet, unless the run panics.**
Let a start have begun a run, and let that run be over. It has not panicked exactly if the last
thing it had to do with its handler was to finish it, which it had not done before. If it has
panicked its handler has never been finished. Whenever a record shows it, finishing takes the
handler as the last packet has left it. -/
theorem finished_iff_calm
    (run : Records (turn h) (fun _ => True) (observe h) (ofSettings name suffix settings world) log
      s)
    (started : .started k ∈ log) (idle : (s.worker.task.contexts.getD k {}).phase = .idle) :
    (¬ Panics k log ↔ ∃ calls, runLog k log = calls ++ [.finished k] ∧ .finished k ∉ calls) ∧
    (Panics k log → .finished k ∉ log) ∧
    ∀ before after, log = before ++ .finished k :: after → ∃ u l v d,
      Records (turn h) (fun _ => True) (observe h) (ofSettings name suffix settings world) before
        u ∧
      u.turn h l = some v ∧ u.worker.task.target? k = some d ∧ d.at_ = .finish ∧
      v.worker.world = (h.finish u.worker.world d.handler).1 ∧
      Records (turn h) (fun _ => True) (observe h) v after s := by
  obtain ⟨calls, last, split, quiet, ends⟩ := exists_last_of_idle run started idle
  have panics := panics_iff split quiet ends
  refine ⟨?_, ?_, ?_⟩
  · rw [panics, not_not]
    constructor
    · rintro rfl
      exact ⟨calls, split, fun earlier => by simpa [Event.isLast] using quiet _ earlier⟩
    · rintro ⟨others, same, -⟩
      exact List.head_eq_of_cons_eq (List.append_inj' (split.symm.trans same) rfl).2
  · rw [panics, mem_iff_of_runLog_eq split quiet rfl rfl]
    exact fun other same => other same.symm
  · rintro before after rfl
    obtain ⟨u, l, v, earlier, step, shown, later⟩ := run.exists_of_split rfl
    obtain ⟨d, executing, at_, world⟩ := exists_finish_of_observe shown step
    exact ⟨u, l, v, d, earlier, step, executing, at_, world, later⟩

/-- **A decoder that a worker drives is flushed and closed at the end of a run that does not
panic**, if it is open then. -/
theorem decoder_finished {δ ε : Type} (d : Decoder δ ε) {s : Site (List ε) δ} {world : List ε}
    (run : Records (turn d.handler) (fun _ => True) (observe d.handler)
      (ofSettings name suffix settings world) log s)
    (started : .started k ∈ log) (idle : (s.worker.task.contexts.getD k {}).phase = .idle)
    (calm : ¬ Panics k log) : ∃ u v : Site (List ε) δ, ∃ l x, u.turn d.handler l = some v ∧
      u.observe d.handler l = some (.finished k) ∧ u.worker.task.target? k = some x ∧
      v.worker.world = u.worker.world ++ if d.isOpen x.handler then
        (d.flush x.handler).output ++ (d.close (d.flush x.handler).state).output else [] := by
  obtain ⟨calls, last, split, quiet, ends⟩ := exists_last_of_idle run started idle
  have finished : last = .finished k := by
    by_contra other
    exact calm ((panics_iff split quiet ends).mpr other)
  have inside : .finished k ∈ log := (mem_iff_of_runLog_eq split quiet rfl rfl).mpr finished.symm
  obtain ⟨before, after, whole⟩ := List.append_of_mem inside
  obtain ⟨u, l, v, -, step, shown, -⟩ := run.exists_of_split whole
  obtain ⟨x, executing, -, after⟩ := exists_finish_of_observe shown step
  refine ⟨u, v, l, x, step, shown, executing, ?_⟩
  rw [after, Decoder.handler]
  by_cases on : d.isOpen x.handler <;> simp [Decoder.finish, on]

/-- A scripted handler with an open decoder, which may panic on a packet -/
def opened (panics : List Int) : ScriptedHandler where
  panics := panics
  decoder := some { size := some (640, 480) }

/-- A start, up to where the drain loop of its run comes up. -/
def launch (handler : ScriptedHandler) : List (Turn Bench ScriptedHandler) :=
  .inside (.worker (.begin (.start handler))) ::
    (List.replicate 10 (.inside (.worker .owner)) ++
      List.replicate 4 (.inside (.worker (.thread 1))))

/-- The drain loop of the first run, for a number of accesses. -/
def drains (count : Nat) : List (Turn Bench ScriptedHandler) :=
  List.replicate count (.inside (.worker (.drain 1 0)))

/-- A thread that puts a packet into the queue. -/
def arrives (p : Packet) : List (Turn Bench ScriptedHandler) :=
  [.inside (.begin p), .inside (.producer 0), .inside (.producer 0)]

/-- A run that is stopped while it pauses. It sees its token set, and the decoder is flushed and
closed after the only packet. -/
theorem finished_of_stop : ∃ log s,
    Records (turn ScriptedHandler.handler) (fun _ => True) (observe ScriptedHandler.handler)
      (ofSettings "w" "" {} {}) log s ∧ .started 1 ∈ log ∧
    (∃ calls, runLog 1 log = calls ++ [.finished 1] ∧ .finished 1 ∉ calls) ∧
    s.worker.world.log = [.received 1, .decoder (.decoded 1), .finished, .decoder .flushed,
      .decoder .closed] := by
  have ran : (record? (turn ScriptedHandler.handler) (observe ScriptedHandler.handler)
      (ofSettings "w" "" {} {}) (launch (opened []) ++ arrives (.video 1) ++ drains 8 ++
        [.inside (.worker (.begin .stop)), .inside (.worker .owner)] ++ drains 2 ++
        [.inside (.worker (.thread 1))])).any (fun x =>
          .started 1 ∈ x.1 ∧ (x.2.worker.task.contexts.getD 1 {}).phase = .idle ∧
            .answered 1 .panicked ∉ x.1 ∧ .overflowed 1 ∉ x.1 ∧
            x.2.worker.world.log = [.received 1, .decoder (.decoded 1), .finished,
              .decoder .flushed, .decoder .closed]) := by
    decide +kernel
  obtain ⟨log, s, run, facts⟩ := exists_records_of_any (fun _ _ => trivial) ran
  obtain ⟨started, idle, calm, limited, world⟩ := of_decide_eq_true facts
  have finished := (finished_iff_calm run started idle).1.mp fun panics =>
    panics.elim calm limited
  exact ⟨log, s, run, started, finished, world⟩

/-- Two runs that are over and whose handlers have not been finished. In the first one the handler
panics on a packet, and its decoder stays open; in the second one the pause has no end. -/
theorem unfinished_of_panic :
    (∃ log s, Records (turn ScriptedHandler.handler) (fun _ => True)
      (observe ScriptedHandler.handler) (ofSettings "w" "" {} {}) log s ∧
      .started 1 ∈ log ∧ (s.worker.task.contexts.getD 1 {}).phase = .idle ∧ .finished 1 ∉ log ∧
      s.worker.world.log = [.received 1]) ∧
    ∃ log s, Records (turn ScriptedHandler.handler) (fun _ => True)
      (observe ScriptedHandler.handler) (ofSettings "w" "" { pollInterval := none } {}) log s ∧
      .started 1 ∈ log ∧ (s.worker.task.contexts.getD 1 {}).phase = .idle ∧ .finished 1 ∉ log ∧
      s.worker.world.log = [] := by
  constructor
  · have ran : (record? (turn ScriptedHandler.handler) (observe ScriptedHandler.handler)
        (ofSettings "w" "" {} {}) (launch (opened [1]) ++ arrives (.video 1) ++ drains 4 ++
          [.inside (.worker (.thread 1))])).any (fun x =>
            .started 1 ∈ x.1 ∧ (x.2.worker.task.contexts.getD 1 {}).phase = .idle ∧
              .finished 1 ∉ x.1 ∧ x.2.worker.world.log = [.received 1]) := by
      decide +kernel
    obtain ⟨log, s, run, facts⟩ := exists_records_of_any (fun _ _ => trivial) ran
    exact ⟨log, s, run, of_decide_eq_true facts⟩
  · have ran : (record? (turn ScriptedHandler.handler) (observe ScriptedHandler.handler)
        (ofSettings "w" "" { pollInterval := none } {}) (launch (opened []) ++ drains 3 ++
          [.inside (.worker (.thread 1))])).any (fun x =>
            .started 1 ∈ x.1 ∧ (x.2.worker.task.contexts.getD 1 {}).phase = .idle ∧
              .finished 1 ∉ x.1 ∧ x.2.worker.world.log = []) := by
      decide +kernel
    obtain ⟨log, s, run, facts⟩ := exists_records_of_any (fun _ _ => trivial) ran
    exact ⟨log, s, run, of_decide_eq_true facts⟩

end Runs

end Site

end PacketRelay
