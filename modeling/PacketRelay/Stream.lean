import PacketRelay.TimeBase

/-!
# Elementary streams and their units

A source describes the streams in it and hands out their units one by one.

## Main definitions

* `Stream`: the description of one elementary stream, made by `Stream.video` and `Stream.audio`
* `MediaUnit`: one unit of a stream as the source delivers it
-/

namespace PacketRelay

/-- The description of one elementary stream. -/
structure Stream where
  /-- The number of the stream in its container -/
  index : Nat
  /-- The name of the codec -/
  codec : String
  /-- The unit of all times of the stream -/
  timeBase : TimeBase
  /-- Picture width, for video -/
  width : Option Nat := none
  /-- Picture height, for video -/
  height : Option Nat := none
  /-- Samples per second, for audio -/
  sampleRate : Option Nat := none
  /-- Number of channels, for audio -/
  channels : Option Nat := none
deriving DecidableEq, Repr

namespace Stream

/-- Ticks per second of a video stream whose time base is not given. -/
def videoClock : Int := 90000

/-- The greatest denominator that a time base can have, one below `2 ^ 31`. -/
def maxDenominator : Nat := 2147483647

def video (index : Nat) (codec : String) (width height : Nat) : Stream where
  index := index
  codec := codec
  timeBase := ⟨1, videoClock⟩
  width := some width
  height := some height

/-- An audio stream. One tick is one sample, as far as the rate can be a denominator. -/
def audio (index : Nat) (codec : String) (sampleRate channels : Nat) : Stream where
  index := index
  codec := codec
  timeBase := ⟨1, (min sampleRate maxDenominator : Nat)⟩
  sampleRate := some sampleRate
  channels := some channels

/-- The same stream in another time base. -/
def withTimeBase (s : Stream) (base : TimeBase) : Stream :=
  { s with timeBase := base }

end Stream

/-- One unit of a stream, as a source delivers it. Times are in ticks of the stream. -/
structure MediaUnit where
  /-- The stream of the unit -/
  stream : Nat
  /-- The coded bytes -/
  data : List UInt8
  /-- When the unit is to be shown -/
  pts : Int := 0
  /-- When it is to be decoded, if the container says so -/
  dts : Option Int := none
  /-- How long it lasts -/
  duration : Int := 0
  /-- The container marks the unit as a key picture. -/
  isKey : Bool := false
  /-- The container marks the unit as damaged. -/
  isCorrupt : Bool := false
deriving DecidableEq, Repr

end PacketRelay
