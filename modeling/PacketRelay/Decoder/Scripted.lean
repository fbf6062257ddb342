import PacketRelay.Decoder

/-!
# A scripted decoder

It follows a script: it may refuse to open, and it fails on the packets the script names. Every
operation is let out as an event, and a key packet lets out a picture.
-/

namespace PacketRelay

/-- A scripted decoder. -/
structure ScriptedDecoder where
  /-- Why opening fails, if it does -/
  refusal : Option String := none
  /-- The numbers of the packets that fail -/
  bad : List Int := []
  /-- Width and height while it is open -/
  size : Option (Nat × Nat) := none
deriving DecidableEq, Repr

namespace ScriptedDecoder

/-- What a scripted decoder lets out. -/
inductive Event
  | opened
  | decoded (id : Int)
  | flushed
  | closed
  | shown (f : Frame)
deriving DecidableEq, Repr

/-- The picture that an open decoder shows for a packet. -/
def picture (size : Nat × Nat) (p : Packet) : Frame :=
  ⟨size.1, size.2, p.pts, true, []⟩

/-- The operations of a scripted decoder. A packet named by the script fails even while the decoder
is closed. -/
def decoder : Decoder ScriptedDecoder Event where
  isOpen s := s.size.isSome
  prepare s stream :=
    match s.refusal with
    | some reason => { state := s, output := [.opened], error := some (.codec reason) }
    | none =>
      { state := { s with size := some (stream.width.getD 0, stream.height.getD 0) }
        output := [.opened] }
  decode s p :=
    if s.bad.contains p.id then
      { state := s
        output := [.decoded p.id]
        error := some (.codec ("bad packet " ++ toString p.id)) }
    else
      match s.size with
      | none => { state := s, output := [.decoded p.id], error := some .notOpen }
      | some size =>
        { state := s
          output := .decoded p.id :: if p.isKeyframe then [.shown (picture size p)] else [] }
  flush s := { state := s, output := [.flushed] }
  close s := { state := { s with size := none }, output := [.closed] }

end ScriptedDecoder

end PacketRelay
