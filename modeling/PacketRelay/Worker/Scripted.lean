import PacketRelay.Handler
import PacketRelay.Decoder.Scripted

/-!
# Scripted handlers

A scripted handler notes every packet it is given. By its script it waits for a permit on some
packets, panics on some and fails on others; what is left goes on to a decoder, if it has one. At
the end it notes that it is finished, and then it panics or finishes its decoder.

## Main definitions

* `Bench`: the world of scripted handlers
* `ScriptedHandler`: a script and a decoder
* `ScriptedHandler.handler`: the operations
-/

namespace PacketRelay

/-- What scripted handlers note. -/
inductive Remark
  -- A packet was given.
  | received (id : Int)
  -- The handler was finished.
  | finished
  -- A decoder let something out.
  | decoder (e : ScriptedDecoder.Event)
deriving DecidableEq, Repr

/-- The world of scripted handlers. -/
structure Bench where
  /-- Permits not yet taken -/
  permits : Nat := 0
  /-- The remarks, oldest first -/
  log : List Remark := []
deriving DecidableEq, Repr

def Bench.note (b : Bench) (r : Remark) : Bench :=
  { b with log := b.log ++ [r] }

def Bench.noteEvents (b : Bench) (es : List ScriptedDecoder.Event) : Bench :=
  { b with log := b.log ++ es.map .decoder }

/-- A scripted handler. -/
structure ScriptedHandler where
  /-- The packets that wait for a permit -/
  gated : List Int := []
  /-- The packets that it panics on -/
  panics : List Int := []
  /-- The packets that it refuses -/
  refused : List Int := []
  /-- It takes part in the end of the loop. -/
  finishes : Bool := true
  /-- It panics when it is finished. -/
  panicsAtEnd : Bool := false
  /-- Where packets go on to -/
  decoder : Option ScriptedDecoder := none
deriving DecidableEq, Repr

namespace ScriptedHandler

/-- Waits for a permit if the packet is gated, and takes it. -/
def pass (b : Bench) (h : ScriptedHandler) (p : Packet) : Option Bench :=
  if h.gated.contains p.id then
    if b.permits = 0 then none else some { b with permits := b.permits - 1 }
  else some b

/-- Passes a packet on to the decoder, if there is one. -/
def decode (b : Bench) (h : ScriptedHandler) (p : Packet) : Bench × ScriptedHandler × Verdict :=
  match h.decoder with
  | none => (b, h, .accepted)
  | some d =>
    let r := ScriptedDecoder.decoder.handle d p
    (b.noteEvents r.output, { h with decoder := some r.state },
      if r.error.isSome then .refused else .accepted)

/-- Goes on with a packet. -/
def conclude (b : Bench) (h : ScriptedHandler) (p : Packet) :
    Option (Bench × ScriptedHandler × Verdict) := do
  let b ← pass b h p
  some (if h.panics.contains p.id then (b, h, .panicked)
    else if h.refused.contains p.id then (b, h, .refused)
    else decode b h p)

/-- Finishes the decoder, if there is one. -/
def finishDecoder (b : Bench) (h : ScriptedHandler) : Bench × ScriptedHandler :=
  match h.decoder with
  | none => (b, h)
  | some d =>
    let r := ScriptedDecoder.decoder.finish d
    (b.noteEvents r.output, { h with decoder := some r.state })

def finish (b : Bench) (h : ScriptedHandler) : Bench × ScriptedHandler :=
  if h.finishes then
    let b := b.note .finished
    if h.panicsAtEnd then (b, h) else finishDecoder b h
  else (b, h)

def handler : Handler Bench ScriptedHandler where
  receive b h p := (b.note (.received p.id), h)
  conclude := conclude
  finish := finish

end ScriptedHandler

end PacketRelay
