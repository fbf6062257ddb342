/-!
# Classification of a video payload by its first NAL unit

A payload in byte-stream form opens with a start code and the header byte of its first NAL unit:

    00 00 01     header  rest …        short start code
    00 00 00 01  header  rest …        long start code

The low five bits of the header are the type of the unit. A fragmentation unit carries the type of
the unit it is a part of in the low five bits of the next byte, and marks the first part by the top
bit of that byte. Only the first unit is looked at: that tells parameter sets, key pictures and
other pictures apart, and everything else stays unknown.

## Main definitions

* `UnitType`: the type of a NAL unit, read from a header by `UnitType.ofHeader`
* `FrameType`: what a payload holds, as far as its first unit tells
* `StartCode`: the start code in front of it, found by `StartCode.detect`
* `classify`: the frame type and the start code of a payload
-/

namespace PacketRelay.Nal

/-- The type of a NAL unit. -/
inductive UnitType
  -- Slice of a picture that is no key picture
  | slice
  -- Partition A of a slice
  | slicePartA
  -- Partition B of a slice
  | slicePartB
  -- Partition C of a slice
  | slicePartC
  -- Slice of a key picture
  | idr
  -- Supplemental enhancement information
  | sei
  -- Sequence parameter set
  | sps
  -- Picture parameter set
  | pps
  -- Access unit delimiter
  | aud
  -- End of sequence
  | endSeq
  -- End of stream
  | endStream
  -- Filler data
  | filler
  -- Fragmentation unit without a decoding order number
  | fuA
  -- Fragmentation unit with a decoding order number
  | fuB
deriving DecidableEq, Repr

namespace UnitType

/-- The number of a unit type in the header. -/
def code : UnitType → Nat
  | slice => 1
  | slicePartA => 2
  | slicePartB => 3
  | slicePartC => 4
  | idr => 5
  | sei => 6
  | sps => 7
  | pps => 8
  | aud => 9
  | endSeq => 10
  | endStream => 11
  | filler => 12
  | fuA => 28
  | fuB => 29

/-- The unit type with a given number. -/
def ofCode? : Nat → Option UnitType
  | 1 => some slice
  | 2 => some slicePartA
  | 3 => some slicePartB
  | 4 => some slicePartC
  | 5 => some idr
  | 6 => some sei
  | 7 => some sps
  | 8 => some pps
  | 9 => some aud
  | 10 => some endSeq
  | 11 => some endStream
  | 12 => some filler
  | 28 => some fuA
  | 29 => some fuB
  | _ => none

/-- The unit type of a header byte: the number in its low five bits. -/
def ofHeader (header : UInt8) : Option UnitType :=
  ofCode? (header.toNat % 32)

/-- Does the unit belong to a key picture? -/
def isKeyframe (t : UnitType) : Bool :=
  t == idr

def isParameterSet (t : UnitType) : Bool :=
  t == sps || t == pps

/-- Is the unit a part of another one? -/
def isFragment (t : UnitType) : Bool :=
  t == fuA || t == fuB

theorem ofCode?_code (t : UnitType) : ofCode? t.code = some t := by
  cases t <;> rfl

end UnitType

/-- What a payload holds, as far as its first NAL unit tells. -/
inductive FrameType
  | unknown
  | sei
  | sps
  | pps
  | iFrame
  | pFrame
  | bFrame
deriving DecidableEq, Repr, Inhabited

namespace FrameType

/-- The written name of a frame type. -/
def text : FrameType → String
  | unknown => "Unknown"
  | sei => "SEI"
  | sps => "SPS"
  | pps => "PPS"
  | iFrame => "I_Frame"
  | pFrame => "P_Frame"
  | bFrame => "B_Frame"

/-- All frame types, in the order of their declaration. -/
def all : List FrameType := [unknown, sei, sps, pps, iFrame, pFrame, bFrame]

end FrameType

/-- The start code at the head of a payload. -/
inductive StartCode
  -- There is none.
  | absent
  -- Three bytes, the last of them one
  | short
  -- Four bytes, the last of them one
  | long
deriving DecidableEq, Repr, Inhabited

namespace StartCode

/-- The start code of a payload. Only the byte that ends it is looked at: byte two, then byte
three. -/
def detect (payload : List UInt8) : StartCode :=
  if payload[2]? = some 1 then short
  else if payload[3]? = some 1 then long
  else absent

/-- The number of bytes a start code takes. -/
def length : StartCode → Nat
  | absent => 0
  | short => 3
  | long => 4

/-- Is there a start code at all? -/
def isPresent (c : StartCode) : Bool :=
  c != absent

end StartCode

/-- The frame type and the start code of a payload. -/
structure Classification where
  /-- What the payload holds -/
  frame : FrameType := .unknown
  /-- What stands in front of it -/
  startCode : StartCode := .absent
deriving DecidableEq, Repr, Inhabited

/-- Does the payload start a key picture? -/
def Classification.isKeyframe (c : Classification) : Bool :=
  c.frame == .iFrame

/-- The least length of a payload that can be classified. -/
def minLength : Nat := 2

/-- Does a fragmentation header mark the first part of a key picture? -/
def startsKeyframe (header : UInt8) : Bool :=
  UnitType.ofHeader header == some .idr && 128 ≤ header.toNat

/-- The frame type that the header of a NAL unit and the byte after it stand for. Supplemental
information stays unknown, as do all units without a rule of their own. -/
def FrameType.ofHeader (header second : UInt8) : FrameType :=
  match UnitType.ofHeader header with
  | some .sps => .sps
  | some .pps => .pps
  | some .idr => .iFrame
  | some .slice => .pFrame
  | some t => if t.isFragment && startsKeyframe second then .iFrame else .unknown
  | none => .unknown

/-- Classifies a payload by its first NAL unit. A payload too short to be told is unknown and has no
start code; one that ends right behind the start code is unknown; a missing second byte is read as
zero. -/
def classify (payload : List UInt8) : Classification :=
  if payload.length < minLength then {}
  else
    let code := StartCode.detect payload
    match payload[code.length]? with
    | none => ⟨.unknown, code⟩
    | some header => ⟨.ofHeader header (payload[code.length + 1]?.getD 0), code⟩

end PacketRelay.Nal
