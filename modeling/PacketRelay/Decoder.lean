import PacketRelay.Packet
import PacketRelay.Fault

/-!
# Decoders and how they are driven

A decoder is opened for a stream, is given packets, and lets frames out while it works. It is driven
by a fixed protocol: video packets are decoded in order and no others, and at the end an open
decoder is flushed and closed, in this order and never again.

## Main definitions

* `Decoder`: what a decoder does, on a state of its own
* `Decoder.start`, `Decoder.handle`, `Decoder.finish`: the protocol
* `Response.result`: how an operation of a decoder ends for a caller
* `Frame`: a decoded picture
-/

namespace PacketRelay

/-- A decoded picture. -/
structure Frame where
  /-- Picture width -/
  width : Nat
  /-- Picture height -/
  height : Nat
  /-- When it is to be shown -/
  pts : Int
  /-- It is a key picture. -/
  isKey : Bool
  /-- The pixels -/
  pixels : List UInt8 := []
deriving DecidableEq, Repr

/-- What an operation of a decoder leaves behind: its new state, what it let out, and an error. -/
structure Response (δ ω : Type) where
  /-- The decoder afterwards -/
  state : δ
  /-- What it let out, oldest first -/
  output : List ω := []
  /-- Why it failed, if it did -/
  error : Option DecodeError := none

/-- How an operation ends for a caller of the library: the failure of a decoder is a fault. -/
def Response.result {δ ω : Type} (r : Response δ ω) : Except Fault Unit :=
  match r.error with
  | some e => .error (.decode e)
  | none => .ok ()

/-- The operations of a decoder with states in `δ` that lets out values of `ω`. -/
structure Decoder (δ ω : Type) where
  /-- Is the decoder open? -/
  isOpen : δ → Bool
  /-- Opens it for a stream. -/
  prepare : δ → Stream → Response δ ω
  /-- Decodes one packet. -/
  decode : δ → Packet → Response δ ω
  /-- Lets out what is still inside. -/
  flush : δ → Response δ ω
  /-- Closes it. -/
  close : δ → Response δ ω

namespace Decoder

variable {δ ω : Type}

/-- Opens a decoder: what it let out, and the decoder to drive if it opened. -/
def start (d : Decoder δ ω) (s : δ) (stream : Stream) : List ω × Except DecodeError δ :=
  let r := d.prepare s stream
  (r.output, match r.error with
    | some e => .error e
    | none => .ok r.state)

/-- Passes a packet on, if it is flagged as video. -/
def handle (d : Decoder δ ω) (s : δ) (p : Packet) : Response δ ω :=
  if p.isVideo then d.decode s p else { state := s }

/-- Ends the work of a decoder: flushed and closed if it is open. -/
def finish (d : Decoder δ ω) (s : δ) : Response δ ω :=
  if d.isOpen s then
    let flushed := d.flush s
    let closed := d.close flushed.state
    { closed with output := flushed.output ++ closed.output, error := none }
  else { state := s }

end Decoder

end PacketRelay
