import PacketRelay.Proofs.Relay.Frame
import PacketRelay.Proofs.Relay.Observation
import PacketRelay.Proofs.Task.Threads

/-!
# What an access of a read loop does

A loop goes from place to place, and on its way it notes the streams it reads by, reads units, numbers
them and publishes their packets. All that one access can do to the loop is listed here once, together
with what it shows and the last number that it leaves. Loops of other runs stay where they are.

## Main definitions

* `ScriptedSource.streams`, `ScriptedSource.indexes`: the streams of a source, and what a loop knows of them
* `Reading.isHandling`, `Reading.isBetween`: has a loop a unit in hand?
* `Relay.Round`: what an access does

## Main results

* `Relay.round_readerStep`: every access of a loop is one of these
-/

namespace PacketRelay

/-- The streams of a source. -/
def ScriptedSource.streams (s : ScriptedSource) : Option Stream × Option Stream :=
  (s.memory.video, s.memory.audio)

/-- The streams of a source, by their indexes. -/
def ScriptedSource.indexes (s : ScriptedSource) : Option Nat × Option Nat :=
  (s.memory.video.map (·.index), s.memory.audio.map (·.index))

section Sources

variable {s s' : ScriptedSource}

@[simp] theorem ScriptedSource.streams_read : s.read.1.streams = s.streams := by
  unfold read
  dsimp only
  split <;> rfl

@[simp] theorem ScriptedSource.streams_act (action : ScriptedSource.Action) :
    (s.act action).streams = s.streams := by
  cases action <;> rfl

theorem ScriptedSource.streams_openAt {uri : String} (opened : s.openAt uri = .ok s') :
    s'.streams = s.streams := by
  unfold openAt MemorySource.openAt at opened
  split at opened
  · next memory found =>
    obtain rfl := Except.ok.inj opened
    split at found
    · cases found
    · split at found
      · cases found
      · obtain rfl := Except.ok.inj found
        rfl
  · split at opened
    · obtain rfl := Except.ok.inj opened
      rfl
    · cases opened

theorem ScriptedSource.indexes_of_streams (same : s'.streams = s.streams) :
    s'.indexes = s.indexes :=
  congrArg (Prod.map (Option.map Stream.index) (Option.map Stream.index)) same

@[simp] theorem ScriptedSource.indexes_read : s.read.1.indexes = s.indexes :=
  indexes_of_streams streams_read

@[simp] theorem ScriptedSource.indexes_act (action : ScriptedSource.Action) :
    (s.act action).indexes = s.indexes :=
  indexes_of_streams (streams_act action)

theorem ScriptedSource.indexes_openAt {uri : String} (opened : s.openAt uri = .ok s') :
    s'.indexes = s.indexes :=
  indexes_of_streams (streams_openAt opened)

end Sources

/-- Has a loop read a unit that it is not done with? -/
def Reading.isHandling : Reading → Bool
  | .countRead _ | .number .. | .publish _ => true
  | _ => false

/-- Does a loop know its streams, and is done with the units that it has read? -/
def Reading.isBetween : Reading → Bool
  | .readVideo | .readAudio => false
  | at_ => !at_.isHandling

theorem Reading.isHandling_of_isBetween {at_ : Reading} (between : at_.isBetween) :
    at_.isHandling = false := by
  cases at_ <;> simp_all [isBetween, isHandling]

namespace Relay

variable {r r' : Relay} {run : Nat} {reader : Reader}

theorem target?_goOn (executing : r.task.target? run = some reader) (reader' : Reader) (at_ : Reading)
    (other : Nat) : (r.goOn run reader' at_).task.target? other =
      if run = other then some { reader' with at_ := at_ } else r.task.target? other := by
  simp only [goOn, Task.setTarget, Task.target?_eq_bind, Task.stage?_modify_stage _ executing]
  split
  · rfl
  · rw [← Task.target?_eq_bind]

theorem target?_leave (executing : r.task.target? run = some reader) (other : Nat) :
    (r.leave run).task.target? other = if run = other then none else r.task.target? other := by
  simp only [leave, Task.leave, Task.target?_eq_bind, Task.stage?_modify_stage _ executing]
  split
  · rfl
  · rw [← Task.target?_eq_bind]

/-- What an access of a loop does to it, what it shows, and the last number it leaves: the loop goes on,
or it is left. -/
inductive Round (r : Relay) (run : Nat) : Reader → Option Event → Int → Option Reader → Prop
  | video {source : Nat} {video audio : Option Nat} :
      Round r run ⟨source, video, audio, .readVideo⟩ none r.lastId
        (some ⟨source, r.video.map (·.index), audio, .readAudio⟩)
  | audio {source : Nat} {video audio : Option Nat} :
      Round r run ⟨source, video, audio, .readAudio⟩ none r.lastId
        (some ⟨source, video, r.audio.map (·.index), .raiseStarted⟩)
  | pass {reader : Reader} {at_ : Reading} (before : reader.at_.isBetween) (after : at_.isBetween) :
      Round r run reader none r.lastId (some { reader with at_ := at_ })
  | leave {reader : Reader} (before : reader.at_.isBetween) : Round r run reader none r.lastId none
  | read {source : Nat} {video audio : Option Nat} {x : ScriptedSource} {u : MediaUnit}
      (there : r.sources[source]? = some x) (outcome : x.read.2 = some (.unit u)) :
      Round r run ⟨source, video, audio, .read⟩ (some (.read run x.indexes.1 x.indexes.2 u)) r.lastId
        (some ⟨source, video, audio, .countRead u⟩)
  | count {reader : Reader} {u : MediaUnit} (at_ : reader.at_ = .countRead u) :
      Round r run reader none r.lastId (some { reader with at_ := r.afterCount reader u })
  | number {reader : Reader} {u : MediaUnit} {kind : MediaKind} (at_ : reader.at_ = .number u kind) :
      Round r run reader none (r.lastId + 1)
        (some { reader with at_ := afterNumber (r.lastId + 1) u kind })
  | publish {reader : Reader} {f f' : Fanout} {t : Relay} (at_ : reader.at_ = .publish f)
      (step : f.step (.reader run) r = some (t, f')) :
      Round r run reader (observeFanout (.reader run) r f) r.lastId
        (some { reader with at_ := .publish f' })
  | published {reader : Reader} {reached : Nat} (at_ : reader.at_ = .publish (.finished reached)) :
      Round r run reader none r.lastId (some { reader with at_ := .checkToken })

theorem round_readerStep (executing : r.task.target? run = some reader)
    (last : r.readerStep run = some r') :
    Round r run reader (r.observe (.reader run)) r'.lastId (r'.task.target? run) ∧
      ∀ other, run ≠ other → r'.task.target? other = r.task.target? other := by
  have shown : r.observe (.reader run) = r.observeReading run reader := by simp [observe, executing]
  rw [shown]
  have goes : ∀ {t : Relay} {e : Option Event} {x : Reader} {at_ : Reading}, r' = t.goOn run x at_ →
      t.task = r.task → Round r run reader e t.lastId (some { x with at_ := at_ }) →
      Round r run reader e r'.lastId (r'.task.target? run) ∧
        ∀ other, run ≠ other → r'.task.target? other = r.task.target? other := by
    rintro t e x at_ rfl same round
    have targets := target?_goOn (r := t) (by rw [same]; exact executing) x at_
    constructor
    · rw [targets, if_pos rfl]
      exact round
    · intro other ne
      rw [targets, if_neg ne, same]
  have leaves : ∀ {t : Relay} {e : Option Event}, r' = t.leave run → t.task = r.task →
      Round r run reader e t.lastId none →
      Round r run reader e r'.lastId (r'.task.target? run) ∧
        ∀ other, run ≠ other → r'.task.target? other = r.task.target? other := by
    rintro t e rfl same round
    have targets := target?_leave (r := t) (by rw [same]; exact executing)
    constructor
    · rw [targets, if_pos rfl]
      exact round
    · intro other ne
      rw [targets, if_neg ne, same]
  have whole := last
  simp only [readerStep, executing, Option.bind_eq_bind, Option.bind_some] at last
  obtain ⟨source, video, audio, at_⟩ := reader
  cases at_ with
  | readVideo => exact goes (Option.some.inj last).symm rfl .video
  | readAudio => exact goes (Option.some.inj last).symm rfl .audio
  | raiseStarted | lowerStarted => exact goes (Option.some.inj last).symm rfl (.pass rfl rfl)
  | checkToken | checkStop | paused =>
    refine goes (Option.some.inj last).symm rfl (.pass rfl ?_)
    split <;> rfl
  | read =>
    obtain ⟨x, there, ⟨outcome, given, same⟩ | ⟨panics, same⟩⟩ := readUnit_cases last
    · cases outcome with
      | unit u =>
        have read : r.observeReading run ⟨source, video, audio, .read⟩ =
            some (.read run x.indexes.1 x.indexes.2 u) := by
          simp [observeReading, there, given, ScriptedSource.indexes]
        rw [read]
        exact goes same rfl (.read there given)
      | pending | ended | failed =>
        have quiet : r.observeReading run ⟨source, video, audio, .read⟩ = none := by
          simp [observeReading, there, given]
        rw [quiet]
        exact goes same rfl (.pass rfl rfl)
    · have quiet : r.observeReading run ⟨source, video, audio, .read⟩ = none := by
        simp [observeReading, there, panics]
      rw [quiet]
      exact leaves same rfl (.leave rfl)
  | countRead u => exact goes (Option.some.inj last).symm rfl (.count rfl)
  | number u kind => exact goes (Option.some.inj last).symm rfl (.number rfl)
  | publish f =>
    rcases readerStep_publish executing rfl whole with ⟨reached, rfl, same⟩ | ⟨t, f', step, same⟩
    · exact goes same rfl (.published rfl)
    · have frame := Fanout.step_frame step
      apply goes same (by rw [frame])
      have lastId : t.lastId = r.lastId := by rw [frame]
      rw [lastId]
      exact .publish rfl step
  | pause =>
    rcases readerStep_pause executing rfl whole with ⟨delay, -, same⟩ | ⟨-, same⟩
    · exact goes same rfl (.pass rfl rfl)
    · exact leaves same rfl (.leave rfl)
  | lowerRunning => exact leaves (Option.some.inj last).symm rfl (.leave rfl)

end Relay

end PacketRelay
