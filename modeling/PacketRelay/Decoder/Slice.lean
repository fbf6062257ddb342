import PacketRelay.Decoder

/-!
# A decoder that counts pictures

It lets out one empty picture for every packet whose frame type is a picture, of the size that its
stream declares.
-/

namespace PacketRelay

/-- The picture size of an open slice decoder; none while it is closed. -/
structure SliceDecoder where
  /-- Width and height, zero where the stream declares none -/
  size : Option (Nat × Nat) := none
deriving DecidableEq, Repr

namespace SliceDecoder

/-- The frame types that are pictures. -/
def isPicture : Nal.FrameType → Bool
  | .iFrame | .pFrame | .bFrame => true
  | _ => false

/-- The operations of a slice decoder. Nothing stays inside it, so a flush lets nothing out. -/
def decoder : Decoder SliceDecoder Frame where
  isOpen s := s.size.isSome
  prepare _ stream := { state := ⟨some (stream.width.getD 0, stream.height.getD 0)⟩ }
  decode s p :=
    match s.size with
    | none => { state := s, error := some .notOpen }
    | some (width, height) =>
      { state := s
        output := if isPicture p.frame then [⟨width, height, p.pts, p.isKeyframe, []⟩] else [] }
  flush s := { state := s }
  close _ := { state := {} }

end SliceDecoder

end PacketRelay
