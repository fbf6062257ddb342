import PacketRelay.Nal
import Mathlib.Data.List.Basic

/-!
# The unit behind the start code

The start code of a payload says where its first NAL unit begins, and the first two bytes of that unit
say what the payload holds. Neither the framing nor what follows the unit has a say in it, as long as
the bytes that are looked at stay the same: these are bytes two and three for the start code, and the
two bytes behind it, of which the second one is byte five at most.

## Main definitions

* `FrameType.ofUnit`: what a NAL unit is, told by its first two bytes

## Main results

* `classify_of_le`: a payload holds what the unit behind its start code is
* `classify_append`: what comes behind byte five changes nothing
* `frame_told_by_unit`: framing and tail do not change the frame type
-/

namespace PacketRelay.Nal

/-- What a NAL unit is. A missing second byte is read as zero, and a unit without a byte is unknown. -/
def FrameType.ofUnit : List UInt8 → FrameType
  | [] => .unknown
  | header :: rest => .ofHeader header (rest.headD 0)

variable {d s n : List UInt8}

theorem StartCode.length_le_four (c : StartCode) : c.length ≤ 4 := by
  cases c <;> decide

/-- Of a unit two bytes are looked at. -/
theorem FrameType.ofUnit_append (two : 2 ≤ n.length) : ofUnit (n ++ s) = ofUnit n := by
  match n, two with
  | _ :: _ :: _, _ => rfl

/-- A start code is looked for in the first four bytes. -/
theorem StartCode.detect_append (four : 4 ≤ d.length) : detect (d ++ s) = detect d := by
  unfold detect
  rw [List.getElem?_append_left (by omega), List.getElem?_append_left (by omega)]

/-- **A payload that can be classified holds what the unit behind its start code is.** -/
theorem classify_of_le (long : minLength ≤ d.length) :
    classify d = ⟨.ofUnit (d.drop (StartCode.detect d).length), .detect d⟩ := by
  unfold classify
  rw [if_neg (Nat.not_lt.mpr long)]
  dsimp only
  split
  · next missing =>
    rw [List.drop_eq_nil_of_le (List.getElem?_eq_none_iff.mp missing)]
    rfl
  · next header found =>
    obtain ⟨inside, rfl⟩ := List.getElem?_eq_some_iff.mp found
    rw [List.drop_eq_getElem_cons inside, FrameType.ofUnit, List.headD_eq_head?_getD,
      List.head?_drop]

/-- **What comes behind byte five changes nothing.** The longest start code takes four bytes, and of the
unit behind it two are looked at. -/
theorem classify_append (six : 6 ≤ d.length) : classify (d ++ s) = classify d := by
  have code := (StartCode.detect d).length_le_four
  have two : 2 ≤ (d.drop (StartCode.detect d).length).length := by
    rw [List.length_drop]
    omega
  have long : minLength ≤ d.length := by
    unfold minLength
    omega
  have longer : minLength ≤ (d ++ s).length := by
    rw [List.length_append]
    omega
  rw [classify_of_le longer, classify_of_le long, StartCode.detect_append (by omega),
    List.drop_append_of_le_length (by omega), FrameType.ofUnit_append two]

/-- Five bytes are not enough: behind the longest start code the second byte of a fragment decides. -/
example : classify [0, 0, 0, 1, 0x7c] ≠ classify ([0, 0, 0, 1, 0x7c] ++ [0x85]) := by decide

/-- Supplemental information is not told from what is unknown, nor pictures that refer to later ones
from others. -/
theorem FrameType.ofHeader_ne (header second : UInt8) :
    ofHeader header second ≠ .sei ∧ ofHeader header second ≠ .bFrame := by
  unfold ofHeader
  split
  case h_5 => split <;> simp
  all_goals simp

theorem FrameType.ofUnit_ne (n : List UInt8) : ofUnit n ≠ .sei ∧ ofUnit n ≠ .bFrame := by
  cases n with
  | nil => simp [ofUnit]
  | cons header rest => exact ofHeader_ne header (rest.headD 0)

/-- **Framing and tail do not change the frame type.** A unit behind a short or a long start code makes
a payload of the frame type of the unit, and so does the unit by itself if it can be classified and
neither byte two nor byte three is taken for the end of a start code. What is appended to six bytes or
more changes nothing. Two of the frame types are never found. -/
theorem frame_told_by_unit :
    (∀ n : List UInt8, n ≠ [] →
      classify ([0, 0, 1] ++ n) = ⟨.ofUnit n, .short⟩ ∧
      classify ([0, 0, 0, 1] ++ n) = ⟨.ofUnit n, .long⟩ ∧
      (2 ≤ n.length → n[2]? ≠ some 1 → n[3]? ≠ some 1 → classify n = ⟨.ofUnit n, .absent⟩)) ∧
    (∀ d s : List UInt8, 6 ≤ d.length → classify (d ++ s) = classify d) ∧
    ∀ d : List UInt8, (classify d).frame ≠ .sei ∧ (classify d).frame ≠ .bFrame := by
  refine ⟨?_, fun d s => classify_append, ?_⟩
  · intro n some_
    have length := List.length_pos_iff.mpr some_
    refine ⟨classify_of_le ?_, classify_of_le ?_, ?_⟩
    · simp [minLength]
    · simp [minLength]
    · intro two second third
      have absent : StartCode.detect n = .absent := by
        unfold StartCode.detect
        rw [if_neg second, if_neg third]
      rw [classify_of_le two, absent]
      rfl
  · intro d
    by_cases long : minLength ≤ d.length
    · rw [classify_of_le long]
      exact FrameType.ofUnit_ne _
    · unfold classify
      rw [if_pos (Nat.not_le.mp long)]
      simp

/-- A slice of a key picture, by itself and behind both start codes, and with a tail that ends like a
start code. -/
theorem frame_of_keySlice :
    let n : List UInt8 := [0x65, 0x88, 0x84, 0x00]
    n ≠ [] ∧ 2 ≤ n.length ∧ n[2]? ≠ some 1 ∧ n[3]? ≠ some 1 ∧
      classify n = ⟨.iFrame, .absent⟩ ∧ classify ([0, 0, 1] ++ n) = ⟨.iFrame, .short⟩ ∧
      classify ([0, 0, 0, 1] ++ n) = ⟨.iFrame, .long⟩ ∧ 6 ≤ ([0, 0, 1] ++ n).length ∧
      classify ([0, 0, 1] ++ n ++ [0, 1]) = classify ([0, 0, 1] ++ n) := by
  intro n
  obtain ⟨framed, tail, -⟩ := frame_told_by_unit
  obtain ⟨short, long, bare⟩ := framed n (by decide)
  have two : 2 ≤ n.length := by decide
  have second : n[2]? ≠ some 1 := by decide
  have third : n[3]? ≠ some 1 := by decide
  have six : 6 ≤ ([0, 0, 1] ++ n).length := by decide
  exact ⟨by decide, two, second, third, bare two second third, short, long, six,
    tail ([0, 0, 1] ++ n) [0, 1] six⟩

end PacketRelay.Nal
