import PacketRelay.Proofs.Nal.Framing
import PacketRelay.Proofs.Packet.Description

/-!
# Payloads built up piece by piece

A payload can be stored at once, or a first piece of it can be stored and the others added. On the way
the packet is described by what is there so far, which may be cut anywhere: inside the start code, in
front of the header or behind it. Each description replaces the one before, and the flags with it, so
that in the end only the whole payload counts.

## Main definitions

* `Packet.Edit.isMark`: the edits that set or remove flags
* `Packet.Assembles`: the edits that build up a payload from pieces, with flags set and removed on the way
* `Packet.refill`: a packet with another payload, described anew

## Main results

* `Packet.Assembles.exists_refill`: a packet that is built up is the one that stores the whole payload
* `Packet.assembled_eq_stored`: the same for all that a packet says, and what does not change any more
-/

namespace PacketRelay.Packet

/-- Does an edit set or remove flags? -/
def Edit.isMark : Edit → Bool
  | .addFlag _ | .removeFlag _ => true
  | _ => false

/-- The edits build up a payload from the pieces: the first one is stored and the others are added, with
flags set and removed before each of them. -/
inductive Assembles : List Edit → List (List UInt8) → Prop
  -- The first piece
  | store (marks : List Edit) (only : ∀ e ∈ marks, e.isMark = true) (piece : List UInt8) :
      Assembles (marks ++ [.store piece]) [piece]
  -- One more piece
  | add {es : List Edit} {pieces : List (List UInt8)} (before : Assembles es pieces)
      (marks : List Edit) (only : ∀ e ∈ marks, e.isMark = true) (piece : List UInt8) :
      Assembles (es ++ marks ++ [.add piece]) (pieces ++ [piece])

variable {p : Packet} {es marks : List Edit} {pieces : List (List UInt8)} {d s : List UInt8}

/-- Setting and removing flags changes the flags and nothing else. -/
theorem exists_foldl_edit_marks (only : ∀ e ∈ marks, e.isMark = true) (p : Packet) :
    ∃ f, marks.foldl edit p = { p with flags := f } := by
  induction marks generalizing p with
  | nil => exact ⟨p.flags, rfl⟩
  | cons e marks ih =>
    obtain ⟨f, first⟩ : ∃ f, p.edit e = { p with flags := f } := by
      have mark := only e List.mem_cons_self
      cases e with
      | addFlag | removeFlag => exact ⟨_, rfl⟩
      | _ => cases mark
    obtain ⟨g, rest⟩ := ih (fun x inside => only x (List.mem_cons_of_mem e inside)) (p.edit e)
    exact ⟨g, by rw [List.foldl_cons, rest, first]⟩

/-- A packet with another payload, described anew. -/
def refill (p : Packet) (b : Buffer) : Packet := { p with payload := b }.reclassify

section Refill

variable {b : Buffer}

theorem refill_frame : p.refill b = { p with
    payload := b
    flags := (p.refill b).flags
    frame := (p.refill b).frame
    startCode := (p.refill b).startCode } := rfl

theorem description_refill : (p.refill b).description = describe p.kind b.bytes := rfl

theorem flags_refill : (p.refill b).flags = derivedFlags p.kind (describe p.kind b.bytes) := rfl

/-- The flags and the payload that a packet has had are forgotten when it stores a payload. -/
theorem store_eq_refill (f : Flags) (d : List UInt8) :
    ({ p with flags := f } : Packet).store d = p.refill (p.payload.clear.append d) := rfl

/-- The flags and the description that a packet has had are forgotten when it adds to its payload. -/
theorem add_refill (f : Flags) (d : List UInt8) :
    ({ p.refill b with flags := f } : Packet).add d = p.refill (b.append d) := rfl

end Refill

/-- **A packet that is built up has the whole payload**, and is described by it. Neither the flags set on
the way nor the descriptions of the pieces are left. -/
theorem Assembles.exists_refill (assembles : Assembles es pieces) (p : Packet) :
    ∃ b : Buffer, b.bytes = pieces.flatten ∧ es.foldl edit p = p.refill b := by
  induction assembles with
  | store marks only piece =>
    obtain ⟨f, marked⟩ := exists_foldl_edit_marks only p
    refine ⟨p.payload.clear.append piece, by simp, ?_⟩
    rw [List.foldl_append, marked]
    exact store_eq_refill f piece
  | add _ marks only piece ih =>
    obtain ⟨b, bytes, built⟩ := ih
    obtain ⟨f, marked⟩ := exists_foldl_edit_marks only (p.refill b)
    refine ⟨b.append piece, by simp [bytes], ?_⟩
    rw [List.foldl_append, List.foldl_append, built, marked]
    exact add_refill f piece

/-- What is added to six bytes or more is not looked at. -/
theorem describe_append {kind : MediaKind} (six : 6 ≤ d.length) :
    describe kind (d ++ s) = describe kind d := by
  cases kind with
  | audio => rfl
  | video => exact Nal.classify_append six

/-- **Building a payload piecewise is storing it whole.** Whatever a packet is, once its payload has been
built up from pieces it holds and says what it would after storing them in one, and its flags are the
same, whatever has been done to them on the way; all else is as before. From the sixth byte on its
description and its flags stay, whatever more is added. -/
theorem assembled_eq_stored (p : Packet) (assembles : Assembles es pieces) :
    let built := es.foldl edit p
    let whole := p.store pieces.flatten
    built.data = whole.data ∧ built.description = whole.description ∧ built.flags = whole.flags ∧
      built = { p with
        payload := built.payload
        flags := built.flags
        frame := built.frame
        startCode := built.startCode } ∧
      (6 ≤ built.size → ∀ later more, Assembles (es ++ later) (pieces ++ more) →
        ((es ++ later).foldl edit p).description = built.description ∧
        ((es ++ later).foldl edit p).flags = built.flags) := by
  dsimp only
  obtain ⟨b, bytes, built⟩ := assembles.exists_refill p
  have whole : p.store pieces.flatten = p.refill (p.payload.clear.append pieces.flatten) :=
    store_eq_refill p.flags pieces.flatten
  have same : (p.payload.clear.append pieces.flatten).bytes = b.bytes := by simp [bytes]
  rw [built, whole, description_refill, description_refill, flags_refill, flags_refill, same]
  refine ⟨same.symm, rfl, rfl, refill_frame, ?_⟩
  intro six later more assembles'
  obtain ⟨b', bytes', built'⟩ := assembles'.exists_refill p
  have long : 6 ≤ b.bytes.length := six
  have stays : describe p.kind b'.bytes = describe p.kind b.bytes := by
    rw [bytes', List.flatten_append, ← bytes, describe_append long]
  rw [built', description_refill, flags_refill, stays]
  exact ⟨rfl, rfl⟩

/-- A packet that is marked as damaged stores two zero bytes. To these are added no bytes, then the rest of
the start code and the header, and last the slice, with flags set and removed in between. -/
def cutEdits : List Edit :=
  [.addFlag .corrupted, .store [0, 0], .addFlag .keyFrame, .add [], .add [1, 0x65],
    .removeFlag .keyFrame, .addFlag .corrupted, .add [0x88, 0x84]]

theorem assembles_cutEdits : Assembles cutEdits [[0, 0], [], [1, 0x65], [0x88, 0x84]] := by
  have first : Assembles [.addFlag .corrupted, .store [0, 0]] [[0, 0]] :=
    .store [.addFlag .corrupted] (by decide) [0, 0]
  have second : Assembles [.addFlag .corrupted, .store [0, 0], .addFlag .keyFrame, .add []]
      [[0, 0], []] := .add first [.addFlag .keyFrame] (by decide) []
  have third := Assembles.add second [] (by decide) [1, 0x65]
  exact .add third [.removeFlag .keyFrame, .addFlag .corrupted] (by decide) [0x88, 0x84]

/-- A video packet that has carried something else is a key frame in the end, undamaged, and shown when it
was. One more piece leaves it so, and takes away the mark of damage that has been set before. -/
theorem key_of_cutEdits :
    let p := ((ofCapacity 1 .video 4).store [0, 0, 0, 1, 0x41]).setPts 7
    let built := cutEdits.foldl edit p
    let later := [Edit.addFlag .corrupted, .add [1]]
    Assembles cutEdits [[0, 0], [], [1, 0x65], [0x88, 0x84]] ∧
      built.data = [0, 0, 1, 0x65, 0x88, 0x84] ∧ built.description = ⟨.iFrame, .short⟩ ∧
      built.flags = Flags.video.union .keyFrame ∧ built.pts = 7 ∧ 6 ≤ built.size ∧
      Assembles (cutEdits ++ later) ([[0, 0], [], [1, 0x65], [0x88, 0x84]] ++ [[1]]) ∧
      ((cutEdits ++ later).foldl edit p).description = ⟨.iFrame, .short⟩ ∧
      ((cutEdits ++ later).foldl edit p).flags = Flags.video.union .keyFrame := by
  intro p built later
  obtain ⟨data, description, flags, frame, stays⟩ := assembled_eq_stored p assembles_cutEdits
  have six : 6 ≤ built.size := by
    show 6 ≤ built.data.length
    rw [data]
    decide
  have assembles : Assembles (cutEdits ++ later) ([[0, 0], [], [1, 0x65], [0x88, 0x84]] ++ [[1]]) :=
    .add assembles_cutEdits [.addFlag .corrupted] (by decide) [1]
  obtain ⟨description', flags'⟩ := stays six later [[1]] assembles
  have is : (p.store ([[0, 0], [], [1, 0x65], [0x88, 0x84]] : List (List UInt8)).flatten).description =
      ⟨.iFrame, .short⟩ ∧
      (p.store ([[0, 0], [], [1, 0x65], [0x88, 0x84]] : List (List UInt8)).flatten).flags =
        Flags.video.union .keyFrame := by decide
  exact ⟨assembles_cutEdits, data.trans (by decide), description.trans is.1, flags.trans is.2,
    congrArg pts frame, six, assembles, (description'.trans description).trans is.1,
    (flags'.trans flags).trans is.2⟩

end PacketRelay.Packet
