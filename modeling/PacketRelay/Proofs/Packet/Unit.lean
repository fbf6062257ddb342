import PacketRelay.Packet
import Mathlib.Algebra.Ring.Nat
import Mathlib.Tactic.Common

/-!
# What a packet takes over from its unit

A packet is made from a unit step by step, and the steps undo parts of each other: storing the payload
forgets the flags, setting the show time of audio sets the time of decoding as well, and the marks of the
container are added to what the payload itself says. What comes out can be said at once, field by field.

## Main definitions

* `Packet.unitFlags`: the flags of a packet that is made from a unit
* `Packet.carrier`: the packet that is made from a unit

## Main results

* `Packet.ofUnit?_eq`: it is made from every unit that is long enough, and from no other
* `Packet.unit_carried_over`: what it has of the unit
-/

namespace PacketRelay

theorem Buffer.append_ofCapacity {capacity : Nat} {bytes : List UInt8}
    (fits : bytes.length ≤ capacity) : (ofCapacity capacity).append bytes = ⟨bytes, capacity, fits⟩ := by
  simp [append, ofCapacity, grownTo, fits]

theorem Flags.union_empty (s : Flags) : s.union .empty = s := by
  simp [union, empty]

namespace Packet

/-- The flags of a packet of the given kind that holds a key picture or not, and is damaged or not. -/
def unitFlags (kind : MediaKind) (key corrupt : Bool) : Flags :=
  (kind.flag.union (if key then .keyFrame else .empty)).union
    (if corrupt then .corrupted else .empty)

/-- The packet that a unit is carried over into. -/
def carrier (id : Int) (unit : MediaUnit) (kind : MediaKind) : Packet where
  id := id
  kind := kind
  streamId := signedIndex unit.stream
  pts := unit.pts
  dts := unit.dts.getD unit.pts
  duration := unit.duration
  flags := unitFlags kind (unit.isKey || (describe kind unit.data).isKeyframe) unit.isCorrupt
  frame := (describe kind unit.data).frame
  startCode := (describe kind unit.data).startCode
  payload := ⟨unit.data, unit.data.length + unitSlack, Nat.le_add_right _ _⟩

variable {id : Int} {unit : MediaUnit} {kind : MediaKind} {p : Packet}

section Steps

/-- A payload that fits is stored as it is, and the packet is described by it alone. -/
theorem store_ofCapacity {capacity : Nat} {bytes : List UInt8} (fits : bytes.length ≤ capacity) :
    (ofCapacity id kind capacity).store bytes =
      { id := id
        kind := kind
        flags := derivedFlags kind (describe kind bytes)
        frame := (describe kind bytes).frame
        startCode := (describe kind bytes).startCode
        payload := ⟨bytes, capacity, fits⟩ } := by
  have written : (ofCapacity id kind capacity).payload.clear.append bytes = ⟨bytes, capacity, fits⟩ :=
    Buffer.append_ofCapacity fits
  rw [store, written]
  rfl

/-- The time of decoding that comes with the show time of audio does not last. -/
theorem setPts_with (p : Packet) (pts dts duration streamId : Int) :
    { p.setPts pts with dts := dts, duration := duration, streamId := streamId } =
      { p with pts := pts, dts := dts, duration := duration, streamId := streamId } := by
  unfold setPts
  split <;> rfl

/-- A mark of the container is added to the flags, if there is one. -/
theorem addFlag_ite (p : Packet) (marked : Bool) {f : Flags} (own : f.without .kinds = f) :
    (if marked then p.addFlag f else p) =
      { p with flags := p.flags.union (if marked then f else .empty) } := by
  cases marked with
  | true => simp only [addFlag, own, if_true]
  | false => simp only [Flags.union_empty, Bool.false_eq_true, if_false]

/-- Payload and container are asked alike whether it is a key picture. -/
theorem union_derivedFlags (c : Nal.Classification) (marked corrupt : Bool) :
    ((derivedFlags kind c).union (if marked then .keyFrame else .empty)).union
      (if corrupt then .corrupted else .empty) = unitFlags kind (marked || c.isKeyframe) corrupt := by
  unfold derivedFlags unitFlags
  cases kind <;> cases c.isKeyframe <;> cases marked <;> cases corrupt <;> decide

end Steps

/-- **A unit is carried over if it is long enough.** -/
theorem ofUnit?_eq (id : Int) (unit : MediaUnit) (kind : MediaKind) :
    ofUnit? id unit kind =
      if unit.data.length < Nal.minLength then none else some (carrier id unit kind) := by
  have keyFrame : Flags.without .keyFrame .kinds = .keyFrame := by decide
  have corrupted : Flags.without .corrupted .kinds = .corrupted := by decide
  unfold ofUnit?
  split
  · rfl
  · dsimp only
    rw [store_ofCapacity (Nat.le_add_right _ unitSlack), setPts_with]
    dsimp only
    rw [addFlag_ite _ _ keyFrame]
    dsimp only
    rw [addFlag_ite _ _ corrupted]
    dsimp only
    rw [union_derivedFlags, carrier]

theorem ofUnit?_eq_none_iff : ofUnit? id unit kind = none ↔ unit.data.length < Nal.minLength := by
  rw [ofUnit?_eq]
  split
  · next short => exact iff_of_true rfl short
  · next long => exact iff_of_false nofun long

theorem eq_carrier_of_ofUnit? (made : ofUnit? id unit kind = some p) :
    Nal.minLength ≤ unit.data.length ∧ p = carrier id unit kind := by
  rw [ofUnit?_eq] at made
  split at made
  · cases made
  · next long => exact ⟨Nat.not_lt.mp long, (Option.some.inj made).symm⟩

section Fields

/-- A packet that is made from a unit has the number it is given. -/
theorem id_ofUnit? (made : ofUnit? id unit kind = some p) : p.id = id :=
  congrArg Packet.id (eq_carrier_of_ofUnit? made).2

/-- The number of a stream, read as a signed word. -/
theorem signedIndex_eq (stream : Nat) :
    signedIndex stream = (UInt64.ofNat stream).toInt64.toInt := by
  show _ = (BitVec.ofNat 64 stream).toInt
  rw [BitVec.toInt_ofNat']
  rfl

theorem isKeyframe_describe {payload : List UInt8} : (describe kind payload).isKeyframe = true ↔
    kind = .video ∧ (Nal.classify payload).frame = .iFrame := by
  cases kind <;> simp [describe, Nal.Classification.isKeyframe]

theorem contains_unitFlags (kind : MediaKind) (key corrupt : Bool) :
    (∀ k : MediaKind, (unitFlags kind key corrupt).contains k.flag = true ↔ k = kind) ∧
      (unitFlags kind key corrupt).contains .keyFrame = key ∧
      (unitFlags kind key corrupt).contains .corrupted = corrupt := by
  refine ⟨fun k => ?_, ?_⟩
  · cases k <;> cases kind <;> cases key <;> cases corrupt <;> decide
  · cases kind <;> cases key <;> cases corrupt <;> decide

theorem isValid_carrier (long : Nal.minLength ≤ unit.data.length) :
    (carrier id unit kind).isValid = true ↔ unit.isCorrupt = false ∧ 0 ≤ unit.pts := by
  have size : 1 < (carrier id unit kind).size := long
  have damaged : (carrier id unit kind).hasFlag .corrupted = unit.isCorrupt :=
    (contains_unitFlags kind _ unit.isCorrupt).2.2
  rw [isValid, damaged, decide_eq_true size, Bool.true_and, Bool.and_eq_true, Bool.not_eq_true',
    decide_eq_true_iff]
  rfl

end Fields

/-- **A unit is carried over completely.** A packet is made of a unit unless its payload has fewer than two
bytes. It has the number and the kind that it is given, the bytes of the unit with room for a hundred more,
the times of the unit, with the show time in place of a time of decoding that is not there, and the number
of its stream read as a signed word; no group and no text. Its flags are that of its kind, that of a key
picture if the container says so or it is a video packet whose payload says so, and that of damage if the
container says so, and no others; it says of its payload what the classification says if it is a video
packet, and nothing otherwise. It is valid unless it is damaged or to be shown before time zero. -/
theorem unit_carried_over (id : Int) (unit : MediaUnit) (kind : MediaKind) :
    (ofUnit? id unit kind = none ↔ unit.data.length < 2) ∧
    ∀ p, ofUnit? id unit kind = some p →
      (p.id = id ∧ p.kind = kind) ∧
      (p.data = unit.data ∧ p.intoBytes = unit.data ∧ p.capacity = unit.data.length + 100) ∧
      (p.pts = unit.pts ∧ p.duration = unit.duration ∧ p.dts = unit.dts.getD unit.pts) ∧
      (p.streamId = (UInt64.ofNat unit.stream).toInt64.toInt ∧ p.groupId = 0 ∧ p.metadata = "") ∧
      p.flags = (kind.flag.union
        (if unit.isKey = true ∨ kind = .video ∧ (Nal.classify unit.data).frame = .iFrame
          then .keyFrame else .empty)).union (if unit.isCorrupt then .corrupted else .empty) ∧
      ((∀ k : MediaKind, p.hasFlag k.flag = true ↔ k = kind) ∧
        (p.isKeyframe = true ↔
          unit.isKey = true ∨ kind = .video ∧ (Nal.classify unit.data).frame = .iFrame) ∧
        (p.hasFlag .corrupted = true ↔ unit.isCorrupt = true)) ∧
      (kind = .video → p.frame = (Nal.classify unit.data).frame ∧
        p.startCode = (Nal.classify unit.data).startCode) ∧
      (kind = .audio → p.frame = .unknown ∧ p.startCode = .absent) ∧
      (p.isValid = true ↔ unit.isCorrupt = false ∧ 0 ≤ unit.pts) := by
  refine ⟨ofUnit?_eq_none_iff, fun p made => ?_⟩
  obtain ⟨long, rfl⟩ := eq_carrier_of_ofUnit? made
  have key : (unit.isKey || (describe kind unit.data).isKeyframe) = true ↔
      unit.isKey = true ∨ kind = .video ∧ (Nal.classify unit.data).frame = .iFrame := by
    rw [Bool.or_eq_true, isKeyframe_describe]
  obtain ⟨ofKind, ofKey, ofDamage⟩ := contains_unitFlags kind
    (unit.isKey || (describe kind unit.data).isKeyframe) unit.isCorrupt
  refine ⟨⟨rfl, rfl⟩, ⟨rfl, rfl, rfl⟩, ⟨rfl, rfl, rfl⟩, ⟨?_, rfl, rfl⟩, ?_, ⟨ofKind, ?_, ?_⟩,
    ?_, ?_, isValid_carrier long⟩
  · rw [carrier, signedIndex_eq]
  · simp only [← key]
    rfl
  · rw [← key, ← ofKey]
    rfl
  · rw [← ofDamage]
    rfl
  · rintro rfl
    exact ⟨rfl, rfl⟩
  · rintro rfl
    exact ⟨rfl, rfl⟩

/-- A damaged key picture of the last stream there can be, without a time of decoding. -/
def lastUnit : MediaUnit :=
  { stream := 2 ^ 64 - 1, data := [0, 0, 1, 0x65, 0x88], pts := 9, duration := 3, isCorrupt := true }

/-- Taken for audio it is no key picture, and it is decoded when it is shown. -/
theorem carried_of_lastUnit : ∃ p, ofUnit? 7 lastUnit .audio = some p ∧ p.id = 7 ∧
    p.intoBytes = [0, 0, 1, 0x65, 0x88] ∧ p.capacity = 105 ∧ p.dts = 9 ∧ p.streamId = -1 ∧
    p.flags = Flags.audio.union .corrupted ∧ p.frame = .unknown ∧ p.isValid = false := by
  obtain ⟨-, all⟩ := unit_carried_over 7 lastUnit .audio
  have made : ofUnit? 7 lastUnit .audio = some (carrier 7 lastUnit .audio) :=
    (ofUnit?_eq 7 lastUnit .audio).trans (if_neg (by decide))
  obtain ⟨⟨id, -⟩, ⟨-, bytes, room⟩, ⟨-, -, dts⟩, ⟨stream, -⟩, flags, -, -, audio, valid⟩ :=
    all _ made
  refine ⟨_, made, id, bytes, room, dts, ?_, flags.trans (by decide), (audio rfl).1, ?_⟩
  · rw [stream]
    decide +kernel
  · rw [Bool.eq_false_iff, ne_eq, valid]
    decide

end Packet

end PacketRelay
