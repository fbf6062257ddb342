import PacketRelay.Nal
import PacketRelay.Flags
import PacketRelay.Buffer
import PacketRelay.Stream
import PacketRelay.Text.Quoted
import PacketRelay.Text.Record

/-!
# Media packets

A packet owns a payload and describes it. The description of a video payload is derived: every write
through `Packet.store` and `Packet.add` classifies the payload anew and sets the flags from the kind
of the packet and the classification alone. Audio payloads are not looked into. A byte written
through `Packet.poke` changes the payload only, until `Packet.reclassify` is asked for.

## Main definitions

* `Packet`: payload, description, identity and times
* `Packet.store`, `Packet.add`, `Packet.reclassify`, `Packet.clear`: the operations that set the
  description
* `Packet.ofUnit?`: the packet made from a unit of a source
* `Packet.copy`: a packet of its own with the same contents
-/

namespace PacketRelay

/-- What a packet carries, fixed when it is made. -/
inductive MediaKind
  | video
  | audio
deriving DecidableEq, Repr

def MediaKind.flag : MediaKind → Flags
  | video => .video
  | audio => .audio

/-- A media packet. -/
structure Packet where
  /-- The number of the packet -/
  id : Int
  /-- What it carries -/
  kind : MediaKind
  /-- The stream it comes from -/
  streamId : Int := 0
  /-- A key of the caller's choice -/
  groupId : Int := 0
  /-- When it is to be shown -/
  pts : Int := 0
  /-- When it is to be decoded -/
  dts : Int := 0
  /-- How long it lasts -/
  duration : Int := 0
  /-- The flags set on it -/
  flags : Flags
  /-- What the payload holds -/
  frame : Nal.FrameType := .unknown
  /-- The start code in front of the payload -/
  startCode : Nal.StartCode := .absent
  /-- The payload -/
  payload : Buffer
  /-- Free text -/
  metadata : String := ""
deriving DecidableEq, Repr

namespace Packet

/-- The payload capacity of a packet for which none is asked. -/
def defaultCapacity : Nat := 240 * 1024

/-- The room left behind the payload of a packet made from a unit. -/
def unitSlack : Nat := 100

/-- An empty packet of the given kind and payload capacity. -/
def ofCapacity (id : Int) (kind : MediaKind) (capacity : Nat) : Packet where
  id := id
  kind := kind
  flags := kind.flag
  payload := .ofCapacity capacity

def video (id : Int) : Packet := ofCapacity id .video defaultCapacity

def audio (id : Int) : Packet := ofCapacity id .audio defaultCapacity

def data (p : Packet) : List UInt8 := p.payload.bytes

/-- The payload, taken out of a packet that is given up. -/
def intoBytes (p : Packet) : List UInt8 := p.payload.bytes

def size (p : Packet) : Nat := p.payload.size

/-- The number of bytes the payload can hold without growing. -/
def capacity (p : Packet) : Nat := p.payload.capacity

/-- The description a payload has in a packet of the given kind. -/
def describe (kind : MediaKind) (payload : List UInt8) : Nal.Classification :=
  match kind with
  | .audio => {}
  | .video => Nal.classify payload

/-- The flags a packet of the given kind has by its description alone. -/
def derivedFlags (kind : MediaKind) (c : Nal.Classification) : Flags :=
  if c.isKeyframe then kind.flag.union .keyFrame else kind.flag

/-- Describes the payload anew. All flags but that of the kind are forgotten first. -/
def reclassify (p : Packet) : Packet :=
  let c := describe p.kind p.data
  { p with flags := derivedFlags p.kind c, frame := c.frame, startCode := c.startCode }

def store (p : Packet) (bytes : List UInt8) : Packet :=
  { p with payload := p.payload.clear.append bytes }.reclassify

def add (p : Packet) (bytes : List UInt8) : Packet :=
  { p with payload := p.payload.append bytes }.reclassify

/-- Empties the packet: payload, description, flags, stream, group and show time. Its number, the
other times and the free text stay. -/
def clear (p : Packet) : Packet :=
  { p with
    payload := p.payload.clear
    frame := .unknown
    startCode := .absent
    flags := .empty
    streamId := 0
    groupId := 0
    pts := 0 }

/-- Sets the show time. Audio is decoded when it is shown. -/
def setPts (p : Packet) (pts : Int) : Packet :=
  match p.kind with
  | .video => { p with pts := pts }
  | .audio => { p with pts := pts, dts := pts }

/-- Sets flags. Those that follow the kind are left as they are. -/
def addFlag (p : Packet) (f : Flags) : Packet :=
  { p with flags := p.flags.union (f.without .kinds) }

/-- Removes flags. Those that follow the kind are left as they are. -/
def removeFlag (p : Packet) (f : Flags) : Packet :=
  { p with flags := p.flags.without (f.without .kinds) }

/-- Overwrites one byte of the payload and leaves the description as it is. -/
def poke (p : Packet) (i : Nat) (byte : UInt8) : Packet :=
  { p with payload := p.payload.set i byte }

/-- A packet of its own with the same contents. -/
def copy (p : Packet) : Packet :=
  { p with payload := p.payload.copy }

/-- Does the packet have all the given flags? -/
def hasFlag (p : Packet) (f : Flags) : Bool := p.flags.contains f

def isVideo (p : Packet) : Bool := p.hasFlag .video

def isAudio (p : Packet) : Bool := p.hasFlag .audio

/-- Is the packet flagged as a key picture? -/
def isKeyframe (p : Packet) : Bool := p.hasFlag .keyFrame

/-- Is the packet worth decoding? -/
def isValid (p : Packet) : Bool :=
  1 < p.size && !p.hasFlag .corrupted && 0 ≤ p.pts

/-- What the packet is called: its frame type, or just audio. -/
def label (p : Packet) : String :=
  match p.kind with
  | .audio => "Audio"
  | .video => p.frame.text

def text (p : Packet) : String :=
  Text.record "Packet"
    [("id", toString p.id), ("stream_id", toString p.streamId), ("pts", toString p.pts),
      ("dts", toString p.dts), ("kind", Text.quote p.label), ("flags", p.flags.text),
      ("size", toString p.size)]

/-- A stream number read as a signed word of 64 bits. -/
def signedIndex (stream : Nat) : Int := Int.bmod stream 18446744073709551616

/-- The packet with the given number and kind for a unit of a source; none for a payload too short
to be classified. What the container says about key pictures and damage is added to what the
classification says. -/
def ofUnit? (id : Int) (unit : MediaUnit) (kind : MediaKind) : Option Packet :=
  if unit.data.length < Nal.minLength then none
  else
    let stored := (ofCapacity id kind (unit.data.length + unitSlack)).store unit.data
    let timed := { stored.setPts unit.pts with
      dts := unit.dts.getD unit.pts
      duration := unit.duration
      streamId := signedIndex unit.stream }
    let marked := if unit.isKey then timed.addFlag .keyFrame else timed
    some (if unit.isCorrupt then marked.addFlag .corrupted else marked)

@[simp] theorem copy_eq (p : Packet) : p.copy = p := by
  simp [copy]

@[simp] theorem data_store (p : Packet) (bytes : List UInt8) : (p.store bytes).data = bytes := by
  simp [store, reclassify, data]

@[simp] theorem data_add (p : Packet) (bytes : List UInt8) :
    (p.add bytes).data = p.data ++ bytes := by
  simp [add, reclassify, data]

end Packet

end PacketRelay
