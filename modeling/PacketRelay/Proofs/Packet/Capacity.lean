import PacketRelay.Proofs.Packet.Edit
import PacketRelay.Proofs.Packet.Unit
import Mathlib.Tactic.Common

/-!
# The capacity of packets

Storing a payload empties the buffer and writes to it, adding to a payload writes behind it; either way
the buffer is asked once for as many bytes as are there in the end. So the capacity that an edit leaves is
told by the capacity before and the payload behind. A buffer grows only for a payload that is longer than
its capacity, and then to twice the capacity or to what is needed: twice the largest payload so far is
enough for any number of growths.

A copy has a buffer of its own. Packets that stand side by side are edited one at a time, and a copy is put
behind the others; the history of a copy goes on from that of what it is a copy of.

## Main definitions

* `Packet.peak`: the largest size of a packet on its way through a history
* `Packet.Deed`, `Packet.perform`: what is done where packets stand side by side
* `Packet.Created`: a packet is made with a capacity

## Main results

* `Packet.capacity_edit`: the capacity behind an edit
* `Packet.capacity_foldl_le`: the capacity behind a history
* `Packet.getElem?_foldl_perform`: a packet is left alone by what is done to others
* `Packet.capacity_within_peak`: the capacity of packets side by side
-/

namespace PacketRelay

namespace Packet

variable {p q : Packet} {c : Nat} {e : Edit} {es : List Edit}

section Edits

theorem size_le_capacity (p : Packet) : p.size ≤ p.capacity := p.payload.fits

/-- **The capacity behind an edit** is that of a buffer grown to the payload behind it. -/
theorem capacity_edit (p : Packet) (e : Edit) :
    (p.edit e).capacity = Buffer.grownTo p.capacity (e.payload p.data).length := by
  have kept : Buffer.grownTo p.capacity p.data.length = p.capacity :=
    Buffer.grownTo_of_le p.size_le_capacity
  cases e with
  | store | add => rfl
  | clear => exact (Buffer.grownTo_of_le (Nat.zero_le _)).symm
  | poke i byte =>
    have same : (p.data.set i byte).length = p.data.length := List.length_set
    rw [Edit.payload, same]
    exact kept.symm
  | setPts pts =>
    simp only [edit, setPts]
    split <;> exact kept.symm
  | copy => exact (congrArg capacity p.copy_eq).trans kept.symm
  | _ => exact kept.symm

theorem capacity_le_edit (p : Packet) (e : Edit) : p.capacity ≤ (p.edit e).capacity :=
  capacity_edit p e ▸ Buffer.capacity_le_grownTo _ _

/-- An edit keeps the capacity if what it leaves fits. -/
theorem capacity_edit_of_fits (fits : (e.payload p.data).length ≤ p.capacity) :
    (p.edit e).capacity = p.capacity :=
  (capacity_edit p e).trans (Buffer.grownTo_of_le fits)

theorem capacity_edit_le (p : Packet) (e : Edit) :
    (p.edit e).capacity ≤ max p.capacity (max 8 (2 * (p.edit e).size)) := by
  have size : (p.edit e).size = (e.payload p.data).length := congrArg List.length (data_edit e)
  rw [capacity_edit, size]
  exact Buffer.grownTo_le _ _

end Edits

section Histories

/-- The largest size of a packet on its way through a history, from where it starts to where it ends. -/
def peak (p : Packet) : List Edit → Nat
  | [] => p.size
  | e :: es => max p.size (peak (p.edit e) es)

theorem size_le_peak (p : Packet) (es : List Edit) : p.size ≤ p.peak es := by
  cases es with
  | nil => exact Nat.le_refl _
  | cons e es => exact Nat.le_max_left _ _

theorem capacity_le_foldl (p : Packet) (es : List Edit) :
    p.capacity ≤ (es.foldl edit p).capacity := by
  induction es generalizing p with
  | nil => exact Nat.le_refl _
  | cons e es ih => exact Nat.le_trans (capacity_le_edit p e) (ih (p.edit e))

/-- **The capacity behind a history** is at most twice the largest size on the way, unless it has been so
large from the start. -/
theorem capacity_foldl_le (p : Packet) (es : List Edit) :
    (es.foldl edit p).capacity ≤ max p.capacity (max 8 (2 * p.peak es)) := by
  induction es generalizing p with
  | nil => exact Nat.le_max_left _ _
  | cons e es ih =>
    have first := capacity_edit_le p e
    have rest := ih (p.edit e)
    have size := size_le_peak (p.edit e) es
    rw [List.foldl_cons, peak]
    omega

end Histories

/-- What is done where packets stand side by side. -/
inductive Deed
  -- An edit of the packet in the given place
  | edit (i : Nat) (e : Edit)
  -- A copy of the packet in the given place is put behind all others.
  | clone (i : Nat)
deriving DecidableEq

/-- The place of the packet that is written to. -/
def Deed.target? : Deed → Option Nat
  | .edit i _ => some i
  | .clone _ => none

/-- What a deed does to things side by side, told by what an edit does to one of them. Where nothing stands
nothing is done. -/
def perform {α : Type} (change : α → Edit → α) (xs : List α) : Deed → List α
  | .edit i e => xs.modify i (change · e)
  | .clone i => xs ++ (xs[i]?.map (change · .copy)).toList

/-- One more edit in a history. -/
def extend (es : List Edit) (e : Edit) : List Edit := es ++ [e]

section Deeds

variable {α β : Type} {change : α → Edit → α} {xs : List α} {x : α} {i : Nat}
  {later : List Deed}

theorem getElem?_perform_clone_of_getElem? (there : xs[i]? = some x) :
    (perform change xs (.clone i))[xs.length]? = some (change x .copy) := by
  simp [perform, there]

/-- A deed comes to one edit at most for a thing. -/
theorem exists_edit_of_perform (there : xs[i]? = some x) (a : Deed) :
    (perform change xs a)[i]? = some x ∨
      a.target? = some i ∧ ∃ e, (perform change xs a)[i]? = some (change x e) := by
  cases a with
  | edit j e =>
    by_cases here : j = i
    · subst here
      exact .inr ⟨rfl, e, by simp [perform, there]⟩
    · exact .inl (by simp [perform, here, there])
  | clone j =>
    obtain ⟨inside, -⟩ := List.getElem?_eq_some_iff.mp there
    exact .inl ((List.getElem?_append_left inside).trans there)

/-- **What is done to others leaves a packet alone.** -/
theorem getElem?_foldl_perform (there : xs[i]? = some x) (elsewhere : ∀ a ∈ later, a.target? ≠ some i) :
    (later.foldl (perform change) xs)[i]? = some x := by
  induction later generalizing xs with
  | nil => exact there
  | cons a later ih =>
    rcases exists_edit_of_perform there a with same | ⟨here, -⟩
    · exact ih same fun b inside => elsewhere b (List.mem_cons_of_mem _ inside)
    · exact absurd here (elsewhere a List.mem_cons_self)

/-- Whatever is done, a thing goes through edits of its own. -/
theorem exists_foldl_perform (there : xs[i]? = some x) (later : List Deed) :
    ∃ es : List Edit, (later.foldl (perform change) xs)[i]? = some (es.foldl change x) := by
  induction later generalizing xs x with
  | nil => exact ⟨[], there⟩
  | cons a later ih =>
    rcases exists_edit_of_perform there a with same | ⟨-, e, changed⟩
    · exact ih same
    · obtain ⟨es, rest⟩ := ih changed
      exact ⟨e :: es, rest⟩

/-- A deed is the same for all things that are edited alike. -/
theorem map_perform {change' : β → Edit → β} {f : α → β}
    (alike : ∀ x e, f (change x e) = change' (f x) e) (xs : List α) (a : Deed) :
    (perform change xs a).map f = perform change' (xs.map f) a := by
  cases a with
  | edit i e =>
    apply List.ext_getElem?
    intro j
    cases there : xs[j]? <;> by_cases here : i = j <;> simp [perform, there, here, alike]
  | clone i => cases there : xs[i]? <;> simp [perform, there, alike]

theorem map_foldl_perform {change' : β → Edit → β} {f : α → β}
    (alike : ∀ x e, f (change x e) = change' (f x) e) (as : List Deed) (xs : List α) :
    (as.foldl (perform change) xs).map f = as.foldl (perform change') (xs.map f) := by
  induction as generalizing xs with
  | nil => rfl
  | cons a as ih => rw [List.foldl_cons, List.foldl_cons, ih, map_perform alike]

end Deeds

/-- The packet is made with the given capacity: it is empty, or it is made from a unit. -/
inductive Created (c : Nat) : Packet → Prop
  -- An empty packet
  | empty (id : Int) (kind : MediaKind) : Created c (ofCapacity id kind c)
  -- A packet made from a unit, with room to spare
  | unit {id : Int} {unit : MediaUnit} {kind : MediaKind} {p : Packet}
      (given : ofUnit? id unit kind = some p) (room : c = unit.data.length + unitSlack) : Created c p

theorem Created.capacity_eq (created : Created c p) : p.capacity = c := by
  cases created with
  | empty => rfl
  | unit given room =>
    obtain ⟨-, rfl⟩ := eq_carrier_of_ofUnit? given
    exact room.symm

/-- **Buffers grow, never shrink, and stay within twice what was needed.** A packet is made with a capacity,
and whatever is then done to it and to its copies: each of them is where its history has brought it, which
for a copy goes on from that of what it is a copy of. Its size is within its capacity, and its capacity is
within the greatest of what it was made with, eight, and twice its largest size so far. It never has less
capacity again, and no more after a payload that fits has been stored or added to it, or after it has been
emptied. A copy has the same payload and the same capacity, and from then on neither notices what is done
to the other. -/
theorem capacity_within_peak (created : Created c p) (as : List Deed) :
    let ps := as.foldl (perform edit) [p]
    let histories := as.foldl (perform extend) [[]]
    ps = histories.map (·.foldl edit p) ∧
    ∀ i es q, histories[i]? = some es → ps[i]? = some q →
      q.size ≤ q.capacity ∧ q.capacity ≤ max c (max 8 (2 * p.peak es)) ∧
      (∀ later : List Deed, ∃ q', (later.foldl (perform edit) ps)[i]? = some q' ∧ q.capacity ≤ q'.capacity) ∧
      (∀ bytes, bytes.length ≤ q.capacity → (q.store bytes).capacity = q.capacity) ∧
      (∀ bytes, q.size + bytes.length ≤ q.capacity → (q.add bytes).capacity = q.capacity) ∧
      q.clear.capacity = q.capacity ∧
      let cloned := perform edit ps (.clone i)
      ∃ copy, cloned[ps.length]? = some copy ∧
        copy.size = q.size ∧ copy.capacity = q.capacity ∧ copy.data = q.data ∧
        (∀ later : List Deed, (∀ a ∈ later, a.target? ≠ some i) →
          (later.foldl (perform edit) cloned)[i]? = some q) ∧
        (∀ later : List Deed, (∀ a ∈ later, a.target? ≠ some ps.length) →
          (later.foldl (perform edit) cloned)[ps.length]? = some copy) := by
  intro ps histories
  have tracked : histories.map (·.foldl edit p) = ps :=
    map_foldl_perform (fun es e => by simp [extend]) as [[]]
  refine ⟨tracked.symm, fun i es q told there => ?_⟩
  have brought : q = es.foldl edit p := by
    have same := there
    rw [← tracked, List.getElem?_map, told] at same
    exact (Option.some.inj same).symm
  have copied : (perform edit ps (.clone i))[ps.length]? = some q.copy :=
    getElem?_perform_clone_of_getElem? there
  refine ⟨q.size_le_capacity, ?_, fun later => ?_, fun bytes fits => ?_, fun bytes fits => ?_, ?_,
    q.copy, copied, congrArg size q.copy_eq, congrArg capacity q.copy_eq, congrArg data q.copy_eq,
    fun later elsewhere => ?_, fun later elsewhere => getElem?_foldl_perform copied elsewhere⟩
  · rw [brought, ← created.capacity_eq]
    exact capacity_foldl_le p es
  · obtain ⟨more, after⟩ := exists_foldl_perform there later
    exact ⟨_, after, capacity_le_foldl q more⟩
  · exact capacity_edit_of_fits (e := .store bytes) fits
  · refine capacity_edit_of_fits (e := .add bytes) ?_
    rw [Edit.payload, List.length_append]
    exact fits
  · exact capacity_edit_of_fits (e := .clear) (Nat.zero_le _)
  · have all : ∀ a ∈ Deed.clone i :: later, a.target? ≠ some i :=
      List.forall_mem_cons.mpr ⟨nofun, elsewhere⟩
    show ((Deed.clone i :: later).foldl (perform edit) ps)[i]? = some q
    exact getElem?_foldl_perform there all

/-- A packet grows twice, and is copied between the two times and once it has been emptied. The first copy
stores a payload that fits. -/
def growths : List Deed :=
  [.edit 0 (.store [0, 0, 1]), .edit 0 (.add [0x65, 0x88, 0x84]), .clone 0,
    .edit 0 (.add [1, 2, 3, 4]), .edit 1 (.store [0, 0]), .edit 0 .clear, .clone 0]

/-- The first copy has the capacity that the packet had then, and the second one that of ten bytes in its
history, although it is empty. It holds sixteen bytes as it is, and whatever is done to the other two does
not matter to it. -/
theorem capacities_of_growths :
    let p := ofCapacity 1 .video 4
    let ps := growths.foldl (perform edit) [p]
    Created 4 p ∧ ps.map size = [0, 2, 0] ∧ ps.map capacity = [16, 8, 16] ∧
    ∃ es q, (growths.foldl (perform extend) [[]])[2]? = some es ∧ ps[2]? = some q ∧
      p.peak es = 10 ∧ q.capacity ≤ max 4 (max 8 (2 * p.peak es)) ∧
      (q.store (List.replicate 16 0)).capacity = q.capacity ∧
      ∀ later : List Deed, (∀ a ∈ later, a.target? ≠ some 2) →
        (later.foldl (perform edit) (perform edit ps (.clone 2)))[2]? = some q := by
  intro p ps
  have created : Created 4 p := .empty 1 .video
  obtain ⟨-, grown⟩ := capacity_within_peak created growths
  obtain ⟨-, bound, -, fits, -, -, copy, -, -, -, -, alone, -⟩ := grown 2 _ _ rfl rfl
  exact ⟨created, by decide, by decide, _, _, rfl, rfl, by decide, bound, fits _ (by decide), alone⟩

end Packet

end PacketRelay
