import PacketRelay.Packet

/-!
# Packet handlers

A handler is given the packets of a subscriber one after the other, and is told at the end that no
more will come. Handling a packet may have to wait for something outside, and it may fail or panic.

Handlers work on two states: one of their own, which begins anew with every run, and a world that
outlives the runs and that others change as well.

## Main definitions

* `Verdict`: how the handling of a packet ends
* `Handler`: what a handler does
-/

namespace PacketRelay

/-- How the handling of a packet ends. -/
inductive Verdict
  -- The packet has been taken care of.
  | accepted
  -- An error, which concerns this packet only
  | refused
  -- A panic, which ends the run
  | panicked
deriving DecidableEq, Repr

/-- The operations of a handler with states in `η` that acts on a world in `ω`. -/
structure Handler (ω η : Type) where
  /-- Is given a packet: what it does before it may have to wait. -/
  receive : ω → η → Packet → ω × η
  /-- Goes on with the packet it was given; there is nothing to do while it waits. -/
  conclude : ω → η → Packet → Option (ω × η × Verdict)
  /-- Is told that no more packets will come; what it leaves behind, by returning or by a panic. -/
  finish : ω → η → ω × η

end PacketRelay
