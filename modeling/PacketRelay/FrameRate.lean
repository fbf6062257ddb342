import PacketRelay.TimeBase
import PacketRelay.Fault
import PacketRelay.Text.Fixed

/-!
# Frame rate over a window of show time

The times of frames are added up, one difference after the other, until at least two seconds have
passed; then the frames of the window are reported and a new window starts. The sums are signed
words of 64 bits: a frame whose difference or sum is out of range overflows and changes nothing.

## Main definitions

* `FrameRate`: the window so far
* `FrameRate.takeIn`: the next frame, taken in place
* `FrameRate.onFrame`: the next frame, as long as nothing overflows
* `FrameRate.Report`: a full window
-/

namespace PacketRelay

/-- The frames of the current window. -/
structure FrameRate where
  /-- The time base of the frames -/
  timeBase : TimeBase
  /-- Frames counted in the window -/
  frames : Int := 0
  /-- The time of the last frame in milliseconds -/
  last : Option Int := none
  /-- The length of the window so far in milliseconds -/
  window : Int := 0
deriving DecidableEq, Repr

namespace FrameRate

/-- The least length of a window that is reported, in milliseconds. -/
def reportLength : Int := 2000

/-- A window that was long enough. -/
structure Report where
  /-- Frames in the window -/
  frames : Int
  /-- Its length in milliseconds -/
  window : Int
deriving DecidableEq, Repr

/-- A word that must not leave its range. -/
def checked (overflow : Overflow) (n : Int) : Except Overflow Int :=
  if isWord n then .ok n else .error overflow

/-- The window with one more frame in it, shown at the given time. -/
def extendTo (r : FrameRate) (now : Int) : Except Overflow FrameRate :=
  match r.last with
  | none => .ok { r with last := some now }
  | some last => do
    let passed ← checked .subtraction (now - last)
    let window ← checked .addition (r.window + passed)
    let frames ← checked .addition (r.frames + 1)
    .ok { r with last := some now, window := window, frames := frames }

/-- Takes in the next frame, shown at a number of ticks, and reports the window if it is full. -/
def onFrame (r : FrameRate) (pts : Int) : Except Overflow (FrameRate × Option Report) := do
  let r ← r.extendTo (r.timeBase.toMillis pts)
  if reportLength ≤ r.window then
    .ok ({ r with frames := 0, window := 0 }, some ⟨r.frames, r.window⟩)
  else .ok (r, none)

/-- Takes in the next frame in place, one field after the other. An overflow ends this where it arises,
and the fields that have been set by then stay set. -/
def takeIn (pts : Int) : ExceptT Overflow (StateM FrameRate) (Option Report) := do
  let now := (← get).timeBase.toMillis pts
  if let some last := (← get).last then
    let passed ← checked .subtraction (now - last)
    let window ← checked .addition ((← get).window + passed)
    modify ({ · with window := window })
    let frames ← checked .addition ((← get).frames + 1)
    modify ({ · with frames := frames })
  modify ({ · with last := some now })
  let r ← get
  if reportLength ≤ r.window then
    modify ({ · with frames := 0, window := 0 })
    return some ⟨r.frames, r.window⟩
  else
    return none

/-- The frames per second of a window. -/
def Report.perSecond (w : Report) : Float :=
  (Int64.ofInt w.frames).toFloat * 1000 / (Int64.ofInt w.window).toFloat

/-- The line written for a full window of pictures of the given size. -/
def Report.text (w : Report) (width height : Nat) : String :=
  "Frame rate: " ++ Text.twoPlaces w.perSecond ++ " fps (" ++ toString width ++ "x" ++
    toString height ++ ")"

end FrameRate

end PacketRelay
