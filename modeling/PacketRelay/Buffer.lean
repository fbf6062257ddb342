/-!
# Payload buffers

A buffer holds bytes and knows how many it can hold before it has to grow. Writing keeps the
capacity while the bytes fit; otherwise the capacity at least doubles, so that many small writes
cost few growths. A buffer never shrinks.
-/

namespace PacketRelay

/-- Bytes in a buffer that can hold `capacity` of them. -/
structure Buffer where
  /-- The bytes written so far -/
  bytes : List UInt8
  /-- The number of bytes that can be held without growing -/
  capacity : Nat
  /-- The bytes fit. -/
  fits : bytes.length ≤ capacity
deriving DecidableEq, Repr

namespace Buffer

/-- The least capacity of a buffer that had to grow. -/
def minGrowth : Nat := 8

/-- The capacity of a buffer of capacity `capacity` once it holds `needed` bytes. -/
def grownTo (capacity needed : Nat) : Nat :=
  if needed ≤ capacity then capacity else max (2 * capacity) (max needed minGrowth)

theorem le_grownTo (capacity needed : Nat) : needed ≤ grownTo capacity needed := by
  unfold grownTo
  split <;> omega

theorem capacity_le_grownTo (capacity needed : Nat) : capacity ≤ grownTo capacity needed := by
  unfold grownTo
  split <;> omega

theorem grownTo_of_le {capacity needed : Nat} (fits : needed ≤ capacity) :
    grownTo capacity needed = capacity := if_pos fits

/-- A buffer grows only for more bytes than it can hold, so that room for twice as many is enough. -/
theorem grownTo_le (capacity needed : Nat) :
    grownTo capacity needed ≤ max capacity (max minGrowth (2 * needed)) := by
  unfold grownTo
  split <;> omega

/-- An empty buffer of the given capacity. -/
def ofCapacity (capacity : Nat) : Buffer :=
  ⟨[], capacity, Nat.zero_le _⟩

def append (b : Buffer) (bytes : List UInt8) : Buffer :=
  ⟨b.bytes ++ bytes, grownTo b.capacity (b.bytes ++ bytes).length, le_grownTo _ _⟩

/-- Forgets the bytes and keeps the capacity. -/
def clear (b : Buffer) : Buffer :=
  ofCapacity b.capacity

/-- Overwrites the byte at a position; past the end nothing happens. -/
def set (b : Buffer) (i : Nat) (byte : UInt8) : Buffer :=
  ⟨b.bytes.set i byte, b.capacity, by simpa using b.fits⟩

/-- The number of bytes in the buffer. -/
def size (b : Buffer) : Nat := b.bytes.length

/-- A buffer of its own with the same bytes and the same capacity. -/
def copy (b : Buffer) : Buffer :=
  (ofCapacity b.capacity).append b.bytes

@[simp] theorem bytes_append (b : Buffer) (bytes : List UInt8) :
    (b.append bytes).bytes = b.bytes ++ bytes := rfl

@[simp] theorem bytes_clear (b : Buffer) : b.clear.bytes = [] := rfl

@[simp] theorem capacity_clear (b : Buffer) : b.clear.capacity = b.capacity := rfl

/-- A copy cannot be told from what it is a copy of. -/
@[simp] theorem copy_eq (b : Buffer) : b.copy = b := by
  obtain ⟨bytes, capacity, fits⟩ := b
  simp [copy, append, ofCapacity, grownTo, fits]

end Buffer

end PacketRelay
