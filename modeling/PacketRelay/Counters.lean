import PacketRelay.Fault

/-!
# Counters of a publisher

Counters are words of 64 bits that wrap around. A rate is computed over whole seconds.
-/

namespace PacketRelay

/-- The number of values of a counter, `2 ^ 64`. -/
def counterRange : Nat := 18446744073709551616

/-- What a publisher has counted. -/
structure Counters where
  /-- Units read from sources -/
  unitsRead : Nat := 0
  /-- Packets that reached a subscriber -/
  published : Nat := 0
  /-- Packets for which there was no subscriber -/
  discarded : Nat := 0
  /-- Published packets that start a key picture -/
  keyframes : Nat := 0
  /-- Payload bytes of published packets, each packet counted once -/
  bytes : Nat := 0
deriving DecidableEq, Repr

namespace Counters

def increase (counter amount : Nat) : Nat := (counter + amount) % counterRange

def countRead (c : Counters) : Counters :=
  { c with unitsRead := increase c.unitsRead 1 }

def countDiscarded (c : Counters) : Counters :=
  { c with discarded := increase c.discarded 1 }

/-- Counts a packet that reached a subscriber. -/
def countPublished (c : Counters) : Counters :=
  { c with published := increase c.published 1 }

/-- Counts the payload of a packet that reached a subscriber. -/
def countBytes (c : Counters) (size : Nat) : Counters :=
  { c with bytes := increase c.bytes size }

/-- Counts a packet that starts a key picture and reached a subscriber. -/
def countKeyframe (c : Counters) : Counters :=
  { c with keyframes := increase c.keyframes 1 }

end Counters

/-- Bits per second for a number of bytes in a number of milliseconds. Parts of a second do not
count, and without a whole second the rate is zero. -/
def bitRate (bytes millis : Nat) : Except Overflow Nat :=
  let seconds := millis / 1000
  if seconds = 0 then .ok 0
  else if counterRange ≤ bytes * 8 then .error .multiplication
  else .ok (bytes * 8 / seconds)

end PacketRelay
