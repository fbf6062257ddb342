import PacketRelay.Packet
import Mathlib.Data.List.Induction
import Mathlib.Tactic.Common

/-!
# Packets and their histories

Everything that can be done to a packet is an edit, and a packet goes with the history of its edits.
A packet made from a unit has a history of its own: it is stored, timed and marked before anybody sees
it. A copy has the history of what it is a copy of.

What a packet holds is told by its history alone, without the packet: by the bytes of the edits.

## Main definitions

* `Packet.Edit`, `Packet.edit`: the edits
* `Packet.Made`: the packets that can be made, each with its history
* `Packet.Edit.payload`, `Packet.payloadOf`: the payload that a history leaves

## Main results

* `ofUnit?_eq_foldl`: a packet made from a unit is an empty one with a history
* `Made.data`: a packet holds what its history leaves
-/

namespace PacketRelay.Packet

/-- What can be done to a packet. -/
inductive Edit
  | store (bytes : List UInt8)
  | add (bytes : List UInt8)
  | reclassify
  | clear
  | setStreamId (id : Int)
  | setGroupId (id : Int)
  | setPts (pts : Int)
  | setDts (dts : Int)
  | setDuration (duration : Int)
  | setMetadata (text : String)
  | addFlag (f : Flags)
  | removeFlag (f : Flags)
  -- Overwrites one byte.
  | poke (i : Nat) (byte : UInt8)
  -- Goes on with a copy.
  | copy
deriving DecidableEq

def edit (p : Packet) : Edit → Packet
  | .store bytes => p.store bytes
  | .add bytes => p.add bytes
  | .reclassify => p.reclassify
  | .clear => p.clear
  | .setStreamId id => { p with streamId := id }
  | .setGroupId id => { p with groupId := id }
  | .setPts pts => p.setPts pts
  | .setDts dts => { p with dts := dts }
  | .setDuration duration => { p with duration := duration }
  | .setMetadata text => { p with metadata := text }
  | .addFlag f => p.addFlag f
  | .removeFlag f => p.removeFlag f
  | .poke i byte => p.poke i byte
  | .copy => p.copy

/-- What is done to a packet that is made from a unit. -/
def unitEdits (unit : MediaUnit) : List Edit :=
  [.store unit.data, .setPts unit.pts, .setDts (unit.dts.getD unit.pts),
    .setDuration unit.duration, .setStreamId (signedIndex unit.stream)] ++
  (if unit.isKey then [.addFlag .keyFrame] else []) ++
  (if unit.isCorrupt then [.addFlag .corrupted] else [])

/-- The packets that can be made, each with its history. -/
inductive Made : List Edit → Packet → Prop
  -- An empty packet
  | empty (id : Int) (kind : MediaKind) (capacity : Nat) : Made [] (ofCapacity id kind capacity)
  -- A packet made from a unit
  | unit {id : Int} {unit : MediaUnit} {kind : MediaKind} {p : Packet}
      (given : ofUnit? id unit kind = some p) : Made (unitEdits unit) p
  -- One more edit
  | edit {es : List Edit} {p : Packet} (made : Made es p) (e : Edit) : Made (es ++ [e]) (p.edit e)

/-- The payload after an edit. -/
def Edit.payload (bytes : List UInt8) : Edit → List UInt8
  | .store new => new
  | .add more => bytes ++ more
  | .clear => []
  | .poke i byte => bytes.set i byte
  | _ => bytes

/-- The payload that a history leaves. -/
def payloadOf (es : List Edit) : List UInt8 :=
  es.foldl Edit.payload []

theorem payloadOf_snoc (es : List Edit) (e : Edit) :
    payloadOf (es ++ [e]) = e.payload (payloadOf es) := by
  simp only [payloadOf, List.foldl_append, List.foldl_cons, List.foldl_nil]

variable {p : Packet} {es : List Edit}

@[simp] theorem kind_edit (e : Edit) : (p.edit e).kind = p.kind := by
  cases e with
  | setPts pts =>
    simp only [edit, setPts]
    split <;> rfl
  | copy => exact congrArg kind p.copy_eq
  | _ => rfl

theorem data_edit (e : Edit) : (p.edit e).data = e.payload p.data := by
  cases e with
  | store bytes => exact data_store p bytes
  | add bytes => exact data_add p bytes
  | setPts pts =>
    simp only [edit, setPts]
    split <;> rfl
  | copy => exact congrArg data p.copy_eq
  | _ => rfl

/-- A packet made from a unit is an empty one to which its history has been done. -/
theorem ofUnit?_eq_foldl {id : Int} {unit : MediaUnit} {kind : MediaKind}
    (given : ofUnit? id unit kind = some p) :
    p = (unitEdits unit).foldl edit (ofCapacity id kind (unit.data.length + unitSlack)) := by
  unfold ofUnit? at given
  split at given
  · simp at given
  · obtain rfl := Option.some.inj given
    unfold unitEdits
    cases unit.isKey <;> cases unit.isCorrupt <;> rfl

/-- What holds of all empty packets and is kept by all edits holds of all packets. -/
theorem Made.induct {P : List Edit → Packet → Prop} (made : Made es p)
    (empty : ∀ id kind capacity, P [] (ofCapacity id kind capacity))
    (edit : ∀ es p e, P es p → P (es ++ [e]) (p.edit e)) : P es p := by
  have folded : ∀ (start : Packet) (es : List Edit), P [] start →
      P es (es.foldl Packet.edit start) := by
    intro start es first
    induction es using List.reverseRecOn with
    | nil => exact first
    | append_singleton es e ih =>
      rw [List.foldl_append]
      exact edit es _ e ih
  induction made with
  | empty id kind capacity => exact empty id kind capacity
  | unit given =>
    rw [ofUnit?_eq_foldl given]
    exact folded _ _ (empty _ _ _)
  | edit made e ih => exact edit _ _ e ih

/-- **A packet holds what its history leaves.** -/
theorem Made.data (made : Made es p) : p.data = payloadOf es := by
  refine made.induct (P := fun es p => p.data = payloadOf es) (fun _ _ _ => rfl) ?_
  intro es p e same
  rw [data_edit, payloadOf_snoc, same]

end PacketRelay.Packet
