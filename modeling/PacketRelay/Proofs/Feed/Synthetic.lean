import PacketRelay.Decoder.Slice
import PacketRelay.Feed.Synthetic
import PacketRelay.Proofs.FrameRate
import PacketRelay.Proofs.Packet.Unit
import Mathlib.Algebra.Ring.Int.Defs
import Mathlib.Algebra.Ring.Nat
import Mathlib.Tactic.Common

/-!
# Counting the frames of the synthetic stream

The synthetic stream, the classification of its packets, the decoder that counts pictures and the
window of the frame rate are made for each other, whatever the length of the stream. Every frame
becomes one picture; the parameter sets at the head of a group become packets, but no picture. Times
are cut off to whole milliseconds, so that two frames are 33 or 34 of them apart; but the window adds
up differences of these times, and what has been cut off from one difference comes back with the next.
The sixtieth frame after the one that ended a window is shown exactly two seconds after it.

## Main definitions

* `Decoder.answers`, `FrameRate.watch`: a decoder and a frame rate window over a list
* `Feed.Synthetic.emit`: a round of the feed
* `Feed.Synthetic.shown`: what becomes of the units of a frame
* `FrameRate.after`, `FrameRate.reportAt`: the window behind a frame, and the report

## Main results

* `Packet.exists_ofUnit?`: how a unit comes out as a video packet
* `FrameRate.watch_frames`: one frame after the other, for any number of them
* `Feed.Synthetic.frames_counted`: from the feed to the reports
-/

namespace PacketRelay

/-- What a decoder answers to packets that it is given one after the other. -/
def Decoder.answers {δ ω : Type} (d : Decoder δ ω) (s : δ) : List Packet → List (Response δ ω)
  | [] => []
  | p :: ps => d.handle s p :: d.answers (d.handle s p).state ps

/-- What a decoder lets out while it is given packets one after the other. -/
def Decoder.emitted {δ ω : Type} (d : Decoder δ ω) (s : δ) (ps : List Packet) : List ω :=
  (d.answers s ps).flatMap (·.output)

/-- The reports behind frames that are taken in one after the other, unless a word overflows. -/
def FrameRate.watch (r : FrameRate) : List Frame → Except Overflow (List (Option Report))
  | [] => .ok []
  | f :: fs => do
    let (r, report) ← r.onFrame f.pts
    let later ← r.watch fs
    .ok (report :: later)

namespace Packet

/-- A unit that is long enough comes out as a video packet described by its bytes, a key picture if
its bytes or its container say so. -/
theorem exists_ofUnit? (id : Int) {u : MediaUnit} (long : Nal.minLength ≤ u.data.length) :
    ∃ p, ofUnit? id u .video = some p ∧ p.isVideo = true ∧ p.pts = u.pts ∧
      p.frame = (Nal.classify u.data).frame ∧
      p.isKeyframe = ((Nal.classify u.data).isKeyframe || u.isKey) := by
  have made := (ofUnit?_eq id u .video).trans (if_neg (Nat.not_lt.mpr long))
  obtain ⟨ofKind, ofKey, -⟩ := contains_unitFlags .video
    (u.isKey || (Nal.classify u.data).isKeyframe) u.isCorrupt
  exact ⟨_, made, (ofKind .video).mpr rfl, rfl, rfl, ofKey.trans (Bool.or_comm _ _)⟩

end Packet

namespace SliceDecoder

/-- What an open decoder lets out for a video packet. -/
def picture (width height : Nat) (frame : Nal.FrameType) (pts : Int) (isKey : Bool) : List Frame :=
  if isPicture frame then [⟨width, height, pts, isKey, []⟩] else []

/-- The decoder once it is open for a stream. -/
def opened (stream : Stream) : SliceDecoder := ⟨some (stream.width.getD 0, stream.height.getD 0)⟩

/-- An open decoder stays open, and takes every packet by itself. -/
theorem answers_eq_map (stream : Stream) (ps : List Packet) :
    decoder.answers (opened stream) ps = ps.map (decoder.handle (opened stream)) := by
  have stays (p : Packet) : (decoder.handle (opened stream) p).state = opened stream := by
    unfold Decoder.handle
    split <;> rfl
  induction ps with
  | nil => rfl
  | cons p ps ih => rw [Decoder.answers, stays, ih, List.map_cons]

end SliceDecoder

namespace FrameRate

open Feed.Synthetic

/-- The milliseconds at which a frame is shown, in whole ones. -/
def millis (frame : Nat) : Int := (100 * frame / 3 : Nat)

/-- The window behind a frame: the frames since the last that ended a window, and the time since then.
-/
def after (frame : Nat) : FrameRate where
  timeBase := ⟨1, Stream.videoClock⟩
  frames := (frame % 60 : Nat)
  last := some (millis frame)
  window := millis frame - 2000 * (frame / 60 : Nat)

/-- Every sixtieth frame but the first ends a window. -/
def reportAt (frame : Nat) : Option Report :=
  if 0 < frame ∧ 60 ∣ frame then some ⟨60, 2000⟩ else none

/-- A frame behind another one, as long as no word overflows. -/
theorem onFrame_of_last {r : FrameRate} {pts last : Int} (before : r.last = some last)
    (passed : isWord (r.timeBase.toMillis pts - last) = true)
    (window : isWord (r.window + (r.timeBase.toMillis pts - last)) = true)
    (frames : isWord (r.frames + 1) = true) :
    r.onFrame pts = .ok (
      if reportLength ≤ r.window + (r.timeBase.toMillis pts - last) then
        ({ r with last := some (r.timeBase.toMillis pts), frames := 0, window := 0 },
          some ⟨r.frames + 1, r.window + (r.timeBase.toMillis pts - last)⟩)
      else
        ({ r with
            last := some (r.timeBase.toMillis pts)
            window := r.window + (r.timeBase.toMillis pts - last)
            frames := r.frames + 1 }, none)) := by
  have fits : r.Fits (r.timeBase.toMillis pts) := ⟨by simpa [before], by simpa [before], by simpa [before]⟩
  rw [onFrame_eq, outcome, next, run_takeIn_of_fits fits]
  obtain ⟨none_, -⟩ | ⟨_, same, counted⟩ := r.counted_cases (r.timeBase.toMillis pts)
  · cases before.symm.trans none_
  · obtain rfl := Option.some.inj (before.symm.trans same)
    rw [counted, close]
    split <;> rfl

/-- The time of a frame is cut off to whole milliseconds, and is none of those that do not fit. -/
theorem toMillis_frame {frame : Nat} (short : frameTicks * frame < 2 ^ 63) :
    TimeBase.toMillis ⟨1, Stream.videoClock⟩ ((frame : Int) * frameTicks) = millis frame := by
  have exact_ : ((frame : Int) * frameTicks * 1000 * 1).tdiv Stream.videoClock = millis frame := by
    have ticks : (frame : Int) * frameTicks * 1000 * 1 = (3000000 * frame : Nat) := by
      simp only [show frameTicks = 3000 from rfl]
      omega
    rw [ticks, show Stream.videoClock = ((90000 : Nat) : Int) from rfl, ← Int.ofNat_tdiv, millis]
    omega
  have fits : isWord (millis frame) = true := by
    rw [show frameTicks = 3000 from rfl] at short
    refine isWord_of_nonneg ?_ ?_ <;> simp only [millis] <;> omega
  rw [TimeBase.toMillis, if_neg (by decide), exact_, clampWord_of_isWord fits]

/-- **What is cut off comes back.** The window behind a frame, and the report, depend on the number
of the frame alone. -/
theorem onFrame_after {frame : Nat} (short : frameTicks * (frame + 1) < 2 ^ 63) :
    (after frame).onFrame (((frame + 1 : Nat) : Int) * frameTicks) =
      .ok (after (frame + 1), reportAt (frame + 1)) := by
  have now := toMillis_frame short
  rw [show frameTicks = 3000 from rfl] at short
  have passed : isWord (millis (frame + 1) - millis frame) = true :=
    isWord_of_nonneg (by simp only [millis]; omega) (by simp only [millis]; omega)
  have window : isWord ((after frame).window + (millis (frame + 1) - millis frame)) = true :=
    isWord_of_nonneg (by simp only [after, millis]; omega) (by simp only [after, millis]; omega)
  have frames : isWord ((after frame).frames + 1) = true :=
    isWord_of_nonneg (by simp only [after]; omega) (by simp only [after]; omega)
  have before : (after frame).last = some (millis frame) := rfl
  have base : (after frame).timeBase = ⟨1, Stream.videoClock⟩ := rfl
  rw [← now, ← base] at passed window
  rw [onFrame_of_last before passed window frames, base, now]
  refine congrArg Except.ok ?_
  by_cases full : 60 ∣ frame + 1
  · have length : (after frame).window + (millis (frame + 1) - millis frame) = 2000 := by
      simp only [after, millis]
      omega
    have counted : (after frame).frames + 1 = 60 := by
      simp only [after]
      omega
    have start : (0 : Int) = ((frame + 1) % 60 : Nat) ∧
        (0 : Int) = millis (frame + 1) - 2000 * ((frame + 1) / 60 : Nat) := by
      simp only [millis]
      omega
    rw [length, counted, if_pos (show reportLength ≤ 2000 by decide), reportAt,
      if_pos ⟨Nat.succ_pos _, full⟩, after, ← start.1, ← start.2]
  · have same : (frame + 1) / 60 = frame / 60 := by omega
    have length : ¬ reportLength ≤ (after frame).window + (millis (frame + 1) - millis frame) := by
      simp only [after, millis, reportLength]
      omega
    have counted : (after frame).frames + 1 = ((frame + 1) % 60 : Nat) := by
      simp only [after]
      omega
    have passed : (after frame).window + (millis (frame + 1) - millis frame) =
        millis (frame + 1) - 2000 * ((frame + 1) / 60 : Nat) := by
      simp only [after]
      omega
    rw [if_neg length, counted, passed, reportAt, if_neg (fun ended => full ended.2), after]

/-- Frames that are taken in behind a given one are reported by their numbers. -/
theorem watch_after {picture : Nat → Frame} (timed : ∀ i, (picture i).pts = (i : Int) * frameTicks)
    (frame count : Nat) (short : frameTicks * (frame + count) < 2 ^ 63) :
    (after frame).watch ((List.range' (frame + 1) count).map picture) =
      .ok ((List.range' (frame + 1) count).map reportAt) := by
  induction count generalizing frame with
  | zero => rfl
  | succ count ih =>
    have here := @onFrame_after frame (by rw [show frameTicks = 3000 from rfl] at *; omega)
    have later := ih (frame + 1) (by rw [show frameTicks = 3000 from rfl] at *; omega)
    rw [List.range'_succ, List.map_cons, List.map_cons, watch, timed, here]
    simp only [bind, Except.bind, later]

/-- **One frame after the other**: no word overflows, and the reports are those of the numbers. -/
theorem watch_frames {picture : Nat → Frame} (timed : ∀ i, (picture i).pts = (i : Int) * frameTicks)
    (count : Nat) (short : frameTicks * count < 2 ^ 63) :
    watch { timeBase := ⟨1, Stream.videoClock⟩ } ((List.range count).map picture) =
      .ok ((List.range count).map reportAt) := by
  cases count with
  | zero => rfl
  | succ count =>
    have first : onFrame { timeBase := ⟨1, Stream.videoClock⟩ } ((0 : Nat) * frameTicks) =
        .ok (after 0, reportAt 0) := by rfl
    have later := watch_after timed 0 count (by rw [show frameTicks = 3000 from rfl] at *; omega)
    rw [List.range_eq_range', List.range'_succ, List.map_cons, List.map_cons, watch, timed, first]
    simp only [bind, Except.bind, later]

end FrameRate

namespace Feed.Synthetic

/-- A round of the feed: the units of a frame are pushed one after the other. -/
def emit (f : Feed) (frame : Nat) : Feed := (frameUnits frame).foldl Feed.push f

/-- The picture that a frame becomes. -/
def picture (stream : Stream) (frame : Nat) : Frame where
  width := stream.width.getD 0
  height := stream.height.getD 0
  pts := frame * frameTicks
  isKey := decide (groupLength ∣ frame)

/-- What becomes of the units of a frame: for each the frame type of its packet, what the decoder lets
out for it, and its error. -/
def shown (stream : Stream) (frame : Nat) :
    List (Nal.FrameType × List Frame × Option DecodeError) :=
  if groupLength ∣ frame then
    [(.sps, [], none), (.pps, [], none), (.iFrame, [picture stream frame], none)]
  else [(.pFrame, [picture stream frame], none)]

/-- What becomes of one unit. -/
def shownOf (stream : Stream) (u : MediaUnit) :
    Nal.FrameType × List Frame × Option DecodeError :=
  let c := Nal.classify u.data
  (c.frame, SliceDecoder.picture (stream.width.getD 0) (stream.height.getD 0) c.frame u.pts
    (c.isKeyframe || u.isKey), none)

section Units

variable {frames : Nat}

theorem foldl_push (f : Feed) (us : List MediaUnit) : us.foldl Feed.push f = f.extend us := by
  induction us generalizing f with
  | nil => simp [extend]
  | cons u us ih => simp [ih, push, extend]

theorem units_succ (frames : Nat) : units (frames + 1) = units frames ++ frameUnits frames := by
  simp [units, List.range_succ]

/-- The feed after a number of rounds. -/
theorem foldl_emit (frames : Nat) :
    (List.range frames).foldl emit {} = Feed.extend {} (units frames) := by
  induction frames with
  | zero => rfl
  | succ n ih =>
    rw [List.range_succ, List.foldl_append, ih, units_succ]
    simp [emit, foldl_push, extend]

theorem length_units (frames : Nat) : (units frames).length = frames + 2 * ((frames + 29) / 30) := by
  induction frames with
  | zero => rfl
  | succ n ih =>
    rw [units_succ, List.length_append, ih, frameUnits, show groupLength = 30 from rfl]
    split
    · simp only [List.length_cons, List.length_nil]
      omega
    · simp only [List.length_singleton]
      omega

/-- Every unit has the time of its frame, and is long enough for a packet. -/
theorem exists_of_mem_units {u : MediaUnit} (inside : u ∈ units frames) :
    ∃ frame < frames, u.pts = (frame : Int) * frameTicks ∧ Nal.minLength ≤ u.data.length := by
  obtain ⟨frame, there, inside⟩ := List.mem_flatMap.mp inside
  refine ⟨frame, List.mem_range.mp there, ?_⟩
  unfold frameUnits at inside
  split at inside
  · simp only [List.mem_cons, List.not_mem_nil, or_false] at inside
    rcases inside with rfl | rfl | rfl <;>
      exact ⟨rfl, by simp [sequenceSet, pictureSet, keyPicture, Nal.minLength]⟩
  · obtain rfl := List.mem_singleton.mp inside
    exact ⟨rfl, by simp [plainPicture, Nal.minLength]⟩

/-- The bytes of the feed, their classification and the decoder agree. -/
theorem map_shownOf_frameUnits (stream : Stream) (frame : Nat) :
    (frameUnits frame).map (shownOf stream) = shown stream frame := by
  unfold frameUnits shown
  by_cases first : groupLength ∣ frame
  · have key : picture stream frame = ⟨stream.width.getD 0, stream.height.getD 0,
        (frame : Int) * frameTicks, true, []⟩ := by
      simp [picture, first]
    rw [if_pos (Nat.mod_eq_zero_of_dvd first), if_pos first, key]
    rfl
  · have plain : picture stream frame = ⟨stream.width.getD 0, stream.height.getD 0,
        (frame : Int) * frameTicks, false, []⟩ := by
      simp [picture, first]
    rw [if_neg (mt Nat.dvd_of_mod_eq_zero first), if_neg first, plain]
    rfl

theorem map_shownOf_units (stream : Stream) (frames : Nat) :
    (units frames).map (shownOf stream) = (List.range frames).flatMap (shown stream) := by
  rw [units, List.map_flatMap]
  exact congrArg (List.flatMap · _) (funext (map_shownOf_frameUnits stream))

/-- One picture comes out for every frame. -/
theorem flatMap_shown (stream : Stream) (frames : Nat) :
    ((List.range frames).flatMap (shown stream)).flatMap (·.2.1) =
      (List.range frames).map (picture stream) := by
  have one (frame : Nat) : (shown stream frame).flatMap (·.2.1) = [picture stream frame] := by
    unfold shown
    split <;> rfl
  rw [List.flatMap_assoc, List.map_eq_flatMap]
  exact congrArg (List.flatMap · _) (funext one)

end Units

section Pictures

/-- Entries each of which comes out, and comes out as told. -/
theorem exists_map_some {α β γ : Type} {f : α → Option β} {g : β → γ} {h : α → γ} {xs : List α}
    (each : ∀ x ∈ xs, ∃ y, f x = some y ∧ g y = h x) :
    ∃ ys : List β, xs.map f = ys.map some ∧ ys.map g = xs.map h := by
  induction xs with
  | nil => exact ⟨[], rfl, rfl⟩
  | cons x xs ih =>
    obtain ⟨y, found, same⟩ := each x List.mem_cons_self
    obtain ⟨ys, all, told⟩ := ih fun z inside => each z (List.mem_cons_of_mem x inside)
    exact ⟨y :: ys, by rw [List.map_cons, List.map_cons, found, all],
      by rw [List.map_cons, List.map_cons, same, told]⟩

/-- What an open decoder says to the packet of a unit. -/
theorem exists_shownOf (stream : Stream) (id : Int) {u : MediaUnit}
    (long : Nal.minLength ≤ u.data.length) :
    ∃ p, Packet.ofUnit? id u .video = some p ∧
      (let r := SliceDecoder.decoder.handle (.opened stream) p
       (p.frame, r.output, r.error)) = shownOf stream u := by
  obtain ⟨p, made, video, pts, frame, key⟩ := Packet.exists_ofUnit? id long
  refine ⟨p, made, ?_⟩
  simp only [Decoder.handle, video, if_true, shownOf, ← frame, ← key, ← pts]
  rfl

/-- **From the feed to the reports**, for every length whose times are words. The feed pushes one unit
for a frame and two more at the head of each group, and none of their times overflows. All of them
become video packets, whatever their numbers. The decoder lets out nothing for the two parameter sets
at the head of a group and one picture for each frame, with the time of the frame, and a key picture
exactly at the head of a group; it never fails. And the frame rate never overflows and reports sixty
frames in exactly two seconds, behind every sixtieth frame. -/
theorem frames_counted (s : SliceDecoder) (stream : Stream) (number : Nat → Int) (frames : Nat)
    (short : frameTicks * frames < 2 ^ 63) :
    ((List.range frames).foldl emit {}).finish = run frames ∧
    (run frames).pending = frames + 2 * ((frames + 29) / 30) ∧
    (∀ u ∈ (run frames).units, isWord u.pts = true) ∧
    ∃ d packets, SliceDecoder.decoder.start s stream = ([], .ok d) ∧
      (run frames).units.zipIdx.map (fun x => Packet.ofUnit? (number x.2) x.1 .video) =
        packets.map some ∧
      packets.zipWith (fun p r => (p.frame, r.output, r.error))
        (SliceDecoder.decoder.answers d packets) = (List.range frames).flatMap (shown stream) ∧
      SliceDecoder.decoder.emitted d packets = (List.range frames).map (picture stream) ∧
      FrameRate.watch { timeBase := ⟨1, 90000⟩ } (SliceDecoder.decoder.emitted d packets) =
        .ok ((List.range frames).map fun frame =>
          if 0 < frame ∧ 60 ∣ frame then some ⟨60, 2000⟩ else none) := by
  have pushed : (run frames).units = units frames := by simp [run, finish, extend]
  have each : ∀ x ∈ (units frames).zipIdx, ∃ p, Packet.ofUnit? (number x.2) x.1 .video = some p ∧
      (let r := SliceDecoder.decoder.handle (.opened stream) p
       (p.frame, r.output, r.error)) = shownOf stream x.1 := by
    intro x inside
    obtain ⟨-, -, -, long⟩ := exists_of_mem_units (List.fst_mem_of_mem_zipIdx inside)
    exact exists_shownOf stream _ long
  obtain ⟨packets, made, told⟩ := exists_map_some each
  have shows : packets.zipWith (fun p r => (p.frame, r.output, r.error))
      (SliceDecoder.decoder.answers (.opened stream) packets) =
        (List.range frames).flatMap (shown stream) := by
    have units_ : (units frames).zipIdx.map (fun x => shownOf stream x.1) =
        (units frames).map (shownOf stream) := by
      rw [← List.zipIdx_map_fst 0 (units frames), List.map_map, List.zipIdx_map_fst]
      rfl
    rw [SliceDecoder.answers_eq_map, List.zipWith_map_right, List.zipWith_self, told, units_,
      map_shownOf_units]
  have pictures : SliceDecoder.decoder.emitted (.opened stream) packets =
      (List.range frames).map (picture stream) := by
    rw [← flatMap_shown, ← shows, Decoder.emitted, SliceDecoder.answers_eq_map, List.zipWith_map_right,
      List.zipWith_self, List.flatMap_map, List.flatMap_map]
  refine ⟨by rw [foldl_emit, run], by rw [pending, pushed, length_units], fun u inside => ?_,
    .opened stream, packets, rfl, by rw [pushed, made], shows, pictures, ?_⟩
  · obtain ⟨frame, before, pts, -⟩ := exists_of_mem_units (pushed ▸ inside)
    rw [show frameTicks = 3000 from rfl] at pts short
    exact isWord_of_nonneg (by omega) (by omega)
  · rw [pictures]
    exact FrameRate.watch_frames (fun _ => rfl) frames short

/-- Sixty-one frames of a stream of 1280 by 720: three groups, one report. -/
theorem frames_counted_of_sixtyOne : frameTicks * 61 < 2 ^ 63 ∧ (run 61).pending = 67 ∧
    ∃ (d : SliceDecoder) (packets : List Packet),
      SliceDecoder.decoder.start {} (.video 0 "h264" 1280 720) = ([], .ok d) ∧ packets.length = 67 ∧
      (SliceDecoder.decoder.emitted d packets).length = 61 ∧
      FrameRate.watch { timeBase := ⟨1, 90000⟩ } (SliceDecoder.decoder.emitted d packets) =
        .ok (List.replicate 60 none ++ [some ⟨60, 2000⟩]) := by
  have short : frameTicks * 61 < 2 ^ 63 := by decide
  obtain ⟨-, pending, -, d, packets, start, made, -, pictures, reports⟩ :=
    frames_counted {} (.video 0 "h264" 1280 720) (fun i => i + 1) 61 short
  refine ⟨short, pending, d, packets, start, ?_, by rw [pictures]; rfl, reports⟩
  have length := congrArg List.length made
  rw [List.length_map, List.length_zipIdx, List.length_map] at length
  exact length.symm.trans pending

end Pictures

end Feed.Synthetic

end PacketRelay
