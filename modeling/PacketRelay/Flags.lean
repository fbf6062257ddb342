/-!
# Packet flags

A set of flags is a bit set. The order of the flags in `Flags.named` is the order in which a set is
written.
-/

namespace PacketRelay

/-- A set of packet flags, one bit each. -/
structure Flags where
  /-- The bits of the set -/
  bits : UInt32
deriving DecidableEq, Repr, Inhabited

namespace Flags

def empty : Flags := ⟨0⟩

def video : Flags := ⟨1⟩

def audio : Flags := ⟨2⟩

def keyFrame : Flags := ⟨4⟩

/-- The packet was damaged on its way. -/
def corrupted : Flags := ⟨8⟩

def union (s t : Flags) : Flags := ⟨s.bits ||| t.bits⟩

/-- The flags of the first set that are not in the second. -/
def without (s t : Flags) : Flags := ⟨s.bits &&& ~~~t.bits⟩

/-- The set has every flag of the other one, and the other one has a flag at all. -/
def contains (s t : Flags) : Bool :=
  t.bits != 0 && s.bits &&& t.bits == t.bits

def isEmpty (s : Flags) : Bool := s.bits == 0

/-- The flags that follow the kind of a packet. -/
def kinds : Flags := video.union audio

def named : List (Flags × String) :=
  [(video, "VIDEO"), (audio, "AUDIO"), (keyFrame, "KEY_FRAME"), (corrupted, "CORRUPTED")]

/-- The written form of a set: the names of its flags between parentheses. -/
def text (s : Flags) : String :=
  let names := named.filter (fun f => s.contains f.1) |>.map Prod.snd
  "PacketFlags(" ++ " | ".intercalate names ++ ")"

/-- The set of the flags with the given names. -/
def ofNames (names : List String) : Flags :=
  named.foldl (fun s f => if names.contains f.2 then s.union f.1 else s) empty

end Flags

end PacketRelay
