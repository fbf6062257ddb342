import PacketRelay.Proofs.Packet.Description
import Mathlib.Data.Nat.Bitwise

/-!
# Classification bit by bit

The bytes behind a start code are made of bit fields: the low five bits of the header number the type of
the unit, and of a fragment the low five bits of the next byte number the type of what it is a part of,
while its top bit marks the first part. A payload can be classified by masking these fields and comparing
them one after the other. This is what comes out of the types of units as well.

## Main definitions

* `lowBits`, `topBit`: the fields
* `FrameType.ofBits`, `unitOffset`, `classifyBits`: classification by them

## Main results

* `FrameType.ofHeader_eq_ofBits`: the types of units lead to the same frame type
* `frame_and_length_eq`: a payload is classified as by its bits
* `classify_by_bits`: the same, with what it means for packets, and what it does not look at
-/

namespace PacketRelay.Nal

/-- The number in the low five bits of a byte. -/
def lowBits (b : UInt8) : Nat := (b &&& 0x1f).toNat

/-- Is the top bit of a byte set? -/
def topBit (b : UInt8) : Bool := b &&& 0x80 != 0

/-- The frame type by the bits of the header and of the byte after it. -/
def FrameType.ofBits (header second : UInt8) : FrameType :=
  let unit := lowBits header
  if unit = 7 then .sps
  else if unit = 8 then .pps
  else if unit = 5 ∨ (unit = 28 ∨ unit = 29) ∧ lowBits second = 5 ∧ topBit second then .iFrame
  else if unit = 1 then .pFrame
  else .unknown

/-- The number of bytes in front of the first unit. -/
def unitOffset (payload : List UInt8) : Nat :=
  if payload[2]? = some 1 then 3 else if payload[3]? = some 1 then 4 else 0

/-- The frame type of a payload and the number of bytes in front of its first unit, by its bits. A
missing second byte is read as zero. -/
def classifyBits (payload : List UInt8) : FrameType × Nat :=
  if payload.length < 2 then (.unknown, 0)
  else
    let offset := unitOffset payload
    let second := payload[offset + 1]?.getD 0
    (payload[offset]?.elim .unknown fun header => .ofBits header second, offset)

section Fields

variable {b : UInt8} {t : UnitType} {n : Nat}

theorem lowBits_eq (b : UInt8) : lowBits b = b.toNat % 32 := by
  rw [lowBits, UInt8.toNat_and]
  exact Nat.and_two_pow_sub_one_eq_mod b.toNat 5

theorem topBit_iff : topBit b = true ↔ 128 ≤ b.toNat := by
  have small := b.toNat_lt
  have masked : (b &&& 0x80).toNat = (b.toNat.testBit 7).toNat * 2 ^ 7 := by
    rw [UInt8.toNat_and]
    exact Nat.and_two_pow b.toNat 7
  have zero : b &&& 0x80 = 0 ↔ b.toNat.testBit 7 = false := by
    rw [← UInt8.toNat_inj, masked]
    cases b.toNat.testBit 7 <;> simp
  rw [topBit, bne_iff_ne, ne_eq, zero, Bool.not_eq_false, Nat.testBit_eq_decide_div_mod_eq,
    decide_eq_true_iff]
  omega

theorem UnitType.ofCode?_eq_some_iff : ofCode? n = some t ↔ t.code = n := by
  constructor
  · intro found
    unfold ofCode? at found
    split at found <;> first | cases found; rfl | simp at found
  · rintro rfl
    exact ofCode?_code t

/-- The type of a unit is the one whose number is in the low bits of its header. -/
theorem UnitType.ofHeader_eq_some_iff : ofHeader b = some t ↔ lowBits b = t.code := by
  rw [ofHeader, ofCode?_eq_some_iff, lowBits_eq, eq_comm]

theorem startsKeyframe_iff : startsKeyframe b = true ↔ lowBits b = 5 ∧ topBit b = true := by
  rw [startsKeyframe, Bool.and_eq_true, beq_iff_eq, UnitType.ofHeader_eq_some_iff,
    decide_eq_true_iff, topBit_iff]
  rfl

/-- **The types of units lead to the frame type that the bits lead to.** -/
theorem FrameType.ofHeader_eq_ofBits (header second : UInt8) :
    ofHeader header second = ofBits header second := by
  unfold ofHeader ofBits
  cases found : UnitType.ofHeader header with
  | none =>
    have other (t : UnitType) : lowBits header ≠ t.code := by
      intro same
      simp [UnitType.ofHeader_eq_some_iff.mpr same] at found
    have sps : lowBits header ≠ 7 := other .sps
    have pps : lowBits header ≠ 8 := other .pps
    have idr : lowBits header ≠ 5 := other .idr
    have slice : lowBits header ≠ 1 := other .slice
    have fragment : ¬ (lowBits header = 28 ∨ lowBits header = 29) :=
      not_or.mpr ⟨other .fuA, other .fuB⟩
    simp [sps, pps, idr, slice, fragment]
  | some t =>
    have number := UnitType.ofHeader_eq_some_iff.mp found
    cases t <;> simp [number, UnitType.code, UnitType.isFragment, ← startsKeyframe_iff]

end Fields

section Payloads

variable {d : List UInt8}

theorem StartCode.length_detect (d : List UInt8) : (detect d).length = unitOffset d := by
  unfold detect unitOffset
  split
  · rfl
  · split <;> rfl

/-- **A payload is classified as by its bits.** -/
theorem frame_and_length_eq (d : List UInt8) :
    ((classify d).frame, (classify d).startCode.length) = classifyBits d := by
  unfold classify classifyBits minLength
  split
  · rfl
  · dsimp only
    rw [StartCode.length_detect]
    cases d[unitOffset d]? with
    | none => simp only [StartCode.length_detect, Option.elim_none]
    | some header =>
      simp only [StartCode.length_detect, Option.elim_some, FrameType.ofHeader_eq_ofBits]

/-- The length of a start code tells which one it is. -/
theorem Classification.ext_length {c c' : Classification} (frame : c.frame = c'.frame)
    (length : c.startCode.length = c'.startCode.length) : c = c' := by
  obtain ⟨_, code⟩ := c
  obtain ⟨_, code'⟩ := c'
  obtain rfl : _ = _ := frame
  cases code <;> cases code' <;> first | rfl | simp [StartCode.length] at length

/-- The header is not looked at for a start code. -/
theorem unitOffset_set (d : List UInt8) (b : UInt8) :
    unitOffset (d.set (unitOffset d) b) = unitOffset d := by
  unfold unitOffset
  by_cases second : d[2]? = some 1
  · simp [second]
  · by_cases third : d[3]? = some 1 <;> simp [second, third]

/-- Of the header the low bits are looked at only. -/
theorem classifyBits_set {header b : UInt8} (found : d[unitOffset d]? = some header)
    (low : lowBits b = lowBits header) :
    classifyBits (d.set (unitOffset d) b) = classifyBits d := by
  have inside := (List.getElem?_eq_some_iff.mp found).1
  have same (second : UInt8) : FrameType.ofBits b second = .ofBits header second := by
    unfold FrameType.ofBits
    rw [low]
  unfold classifyBits
  dsimp only
  rw [List.length_set, unitOffset_set, List.getElem?_set_self inside,
    List.getElem?_set_ne (Nat.ne_add_one _), found, Option.elim_some, Option.elim_some, same]

end Payloads

/-- **Classification is what the bits say.** A payload is classified as by its bits, in frame type and
start code; a video packet is a key frame right after it has been stored exactly if its bits say so; and
the upper three bits of the header have no say in it. -/
theorem classify_by_bits :
    (∀ (d : List UInt8) (c : Classification),
      classify d = c ↔ (c.frame, c.startCode.length) = classifyBits d) ∧
    (∀ (p : Packet) (d : List UInt8), p.kind = .video →
      ((p.store d).isKeyframe = true ↔ (classifyBits d).1 = .iFrame)) ∧
    ∀ (d : List UInt8) (header b : UInt8), d[unitOffset d]? = some header →
      lowBits b = lowBits header → classify (d.set (unitOffset d) b) = classify d := by
  have told (d : List UInt8) (c : Classification) :
      classify d = c ↔ (c.frame, c.startCode.length) = classifyBits d := by
    rw [← frame_and_length_eq]
    constructor
    · rintro rfl
      rfl
    · intro same
      obtain ⟨frame, length⟩ := Prod.mk.inj same
      exact (Classification.ext_length frame length).symm
  refine ⟨told, ?_, ?_⟩
  · intro p d video
    have described : (p.store d).isKeyframe = (Packet.describe p.kind d).isKeyframe :=
      Packet.isKeyframe_reclassify
    rw [described, video, ← frame_and_length_eq]
    exact beq_iff_eq
  · intro d header b found low
    rw [told, frame_and_length_eq, classifyBits_set found low]

/-- The first part of a key picture that came in fragments. It stays one when the upper bits of its
header change, and a video packet that stores it is a key frame. -/
theorem bits_of_firstFragment :
    classify [0, 0, 1, 0x7c, 0x85] = ⟨.iFrame, .short⟩ ∧
    (Packet.video 1).kind = .video ∧ ((Packet.video 1).store [0, 0, 1, 0x7c, 0x85]).isKeyframe = true ∧
    [0, 0, 1, 0x7c, 0x85][unitOffset [0, 0, 1, 0x7c, 0x85]]? = some (0x7c : UInt8) ∧
    lowBits 0xfc = lowBits 0x7c ∧
    classify [0, 0, 1, 0xfc, 0x85] = classify [0, 0, 1, 0x7c, 0x85] := by
  obtain ⟨told, key, upper⟩ := classify_by_bits
  have bits : classifyBits [0, 0, 1, 0x7c, 0x85] = (.iFrame, 3) := by decide
  have shown : classify [0, 0, 1, 0x7c, 0x85] = ⟨.iFrame, .short⟩ := (told _ _).mpr bits.symm
  have stored := (key (.video 1) [0, 0, 1, 0x7c, 0x85] rfl).mpr (congrArg Prod.fst bits)
  exact ⟨shown, rfl, stored, by decide, by decide,
    upper [0, 0, 1, 0x7c, 0x85] 0x7c 0xfc (by decide) (by decide)⟩

end PacketRelay.Nal
