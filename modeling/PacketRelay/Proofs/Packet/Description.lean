import PacketRelay.Proofs.Packet.Edit
import Mathlib.Data.List.DropRight

/-!
# The description of a packet

A packet is described anew whenever its payload is replaced or added to, and whenever that is asked
for; emptying it resets the description. Every other edit leaves the description as it is, also a byte
that is overwritten, so that the description is that of the payload as it was seen last. The flags of
a packet can be set by hand, but for those of the two kinds: the flag of its own kind comes back each
time the packet is described, and goes only when the packet is emptied.

So neither is told by the packet alone. Both are told by its history.

## Main definitions

* `Packet.description`: what a packet says of its payload
* `Packet.seen`, `Packet.sinceSeen`: the history up to the last time the payload was seen, and after it
* `Packet.Blank`: the packet has been emptied and not described since
* `Flags.media`: the flags that follow the kind of a packet

## Main results

* `Standing.edit`: an edit keeps what is said here
* `description_in_step`: the description and the flags of a packet
-/

namespace PacketRelay

namespace Flags

/-- The flags of a set that follow the kind of a packet. -/
def media (s : Flags) : Flags := ⟨s.bits &&& kinds.bits⟩

@[simp] theorem media_union_without (s f : Flags) : (s.union (f.without kinds)).media = s.media := by
  simp only [media, union, without, Flags.mk.injEq]
  apply UInt32.eq_of_toBitVec_eq
  ext i
  simp only [UInt32.toBitVec_and, UInt32.toBitVec_or, UInt32.toBitVec_not, BitVec.getElem_and,
    BitVec.getElem_or, BitVec.getElem_not]
  grind

@[simp] theorem media_without_without (s f : Flags) :
    (s.without (f.without kinds)).media = s.media := by
  simp only [media, without, Flags.mk.injEq]
  apply UInt32.eq_of_toBitVec_eq
  ext i
  simp only [UInt32.toBitVec_and, UInt32.toBitVec_not, BitVec.getElem_and, BitVec.getElem_not]
  grind

/-- Whether a set has the flag of a kind is told by its flags of the kinds. -/
theorem contains_flag (s : Flags) (k : MediaKind) : s.contains k.flag = s.media.contains k.flag := by
  have inside : kinds.bits &&& k.flag.bits = k.flag.bits := by cases k <;> decide
  simp only [contains, media, UInt32.and_assoc, inside]

end Flags

namespace Packet

/-- What a packet says of its payload. -/
def description (p : Packet) : Nal.Classification := ⟨p.frame, p.startCode⟩

/-- Does an edit describe the packet anew? -/
def Edit.redescribes : Edit → Bool
  | .store _ | .add _ | .reclassify => true
  | _ => false

/-- Does the description follow the payload in an edit? -/
def Edit.isSeen (e : Edit) : Bool := e.redescribes || e == .clear

def Edit.isPoke : Edit → Bool
  | .poke .. => true
  | _ => false

/-- The history up to the last edit in which the description has followed the payload; nothing, if
there was none. -/
def seen (es : List Edit) : List Edit := es.rdropWhile fun e => !e.isSeen

/-- The history after that edit. -/
def sinceSeen (es : List Edit) : List Edit := es.rtakeWhile fun e => !e.isSeen

/-- The packet has been emptied and not described since. -/
def Blank (es : List Edit) : Prop :=
  ∃ before after, es = before ++ .clear :: after ∧ ∀ e ∈ after, e.redescribes = false

variable {p : Packet} {es : List Edit} {e : Edit}

section Histories

theorem blank_snoc : Blank (es ++ [e]) ↔ e = .clear ∨ e.redescribes = false ∧ Blank es := by
  constructor
  · rintro ⟨before, after, split, quiet⟩
    rcases List.eq_nil_or_concat after with rfl | ⟨after, x, rfl⟩
    · obtain ⟨-, same⟩ := List.append_inj' split rfl
      exact .inl (List.head_eq_of_cons_eq same)
    · rw [List.concat_eq_append, ← List.cons_append, ← List.append_assoc] at split
      obtain ⟨rfl, same⟩ := List.append_inj' split rfl
      obtain rfl := List.head_eq_of_cons_eq same
      rw [List.concat_eq_append] at quiet
      exact .inr ⟨quiet e (by simp), before, after, rfl, fun x there => quiet x (by simp [there])⟩
  · rintro (rfl | ⟨other, before, after, rfl, quiet⟩)
    · exact ⟨es, [], rfl, by simp⟩
    · refine ⟨before, after ++ [e], by simp, fun x there => ?_⟩
      rcases List.mem_append.mp there with inside | last
      · exact quiet x inside
      · rw [List.mem_singleton.mp last]
        exact other

theorem not_blank_nil : ¬ Blank [] := by simp [Blank]

theorem seen_of_isSeen (here : e.isSeen = true) : seen (es ++ [e]) = es ++ [e] := by
  simp [seen, here]

theorem seen_of_not_isSeen (other : e.isSeen = false) : seen (es ++ [e]) = seen es := by
  simp [seen, other]

theorem sinceSeen_of_not_isSeen (other : e.isSeen = false) :
    sinceSeen (es ++ [e]) = sinceSeen es ++ [e] := by
  simp [sinceSeen, other]

/-- The payload stays as it was seen until a byte is overwritten. -/
theorem payloadOf_seen (untouched : ∀ e ∈ sinceSeen es, e.isPoke = false) :
    payloadOf (seen es) = payloadOf es := by
  induction es using List.reverseRecOn with
  | nil => rfl
  | append_singleton es e ih =>
    cases here : e.isSeen with
    | true => rw [seen_of_isSeen here]
    | false =>
      rw [sinceSeen_of_not_isSeen here] at untouched
      rw [seen_of_not_isSeen here, payloadOf_snoc,
        ih fun x there => untouched x (List.mem_append_left _ there)]
      have dry := untouched e (by simp)
      cases e <;> simp_all [Edit.isSeen, Edit.redescribes, Edit.isPoke, Edit.payload]

end Histories

section Edits

/-- A packet that is described anew has the description of its payload, and the flags that go with it.
-/
theorem eq_reclassify_of_redescribes (here : e.redescribes = true) :
    p.edit e = (p.edit e).reclassify := by
  cases e <;> first | rfl | simp [Edit.redescribes] at here

/-- Every other edit leaves the description, and the flags of the kinds, but for that which empties the
packet. -/
theorem edit_frame (other : e.redescribes = false) (full : e ≠ .clear) :
    (p.edit e).description = p.description ∧ (p.edit e).flags.media = p.flags.media := by
  cases e with
  | store | add | reclassify => simp [Edit.redescribes] at other
  | clear => exact absurd rfl full
  | setPts pts =>
    simp only [edit, setPts]
    split <;> exact ⟨rfl, rfl⟩
  | addFlag f => exact ⟨rfl, Flags.media_union_without p.flags f⟩
  | removeFlag f => exact ⟨rfl, Flags.media_without_without p.flags f⟩
  | copy => exact ⟨congrArg description p.copy_eq, congrArg (fun q => q.flags.media) p.copy_eq⟩
  | _ => exact ⟨rfl, rfl⟩

theorem media_derivedFlags (kind : MediaKind) (c : Nal.Classification) :
    (derivedFlags kind c).media = kind.flag := by
  unfold derivedFlags
  cases kind <;> cases c.isKeyframe <;> decide

theorem contains_derivedFlags (kind : MediaKind) (c : Nal.Classification) :
    (derivedFlags kind c).contains .keyFrame = c.isKeyframe := by
  unfold derivedFlags
  cases kind <;> cases c.isKeyframe <;> decide

/-- A packet that has just been described is flagged as a key picture if its payload starts one. -/
theorem isKeyframe_reclassify : p.reclassify.isKeyframe = (describe p.kind p.data).isKeyframe :=
  contains_derivedFlags p.kind (describe p.kind p.data)

/-- What a history says of the description and the flags of its packet. -/
structure Standing (es : List Edit) (p : Packet) : Prop where
  description : p.description = describe p.kind (payloadOf (seen es))
  blank : Blank es → p.flags.media = .empty
  flagged : ¬ Blank es → p.flags.media = p.kind.flag
  settled : ∀ before e, es = before ++ [e] → e.redescribes = true → p.reclassify = p

theorem describe_nil (kind : MediaKind) : describe kind [] = {} := by
  cases kind <;> rfl

theorem standing_ofCapacity (id : Int) (kind : MediaKind) (capacity : Nat) :
    Standing [] (ofCapacity id kind capacity) where
  description := (describe_nil kind).symm
  blank emptied := absurd emptied not_blank_nil
  flagged _ := by
    show kind.flag.media = kind.flag
    cases kind <;> decide
  settled before e split := by simp at split

/-- **An edit keeps what its history says.** -/
theorem Standing.edit (standing : Standing es p) (data : p.data = payloadOf es) (e : Edit) :
    Standing (es ++ [e]) (p.edit e) := by
  have payload : (p.edit e).data = payloadOf (es ++ [e]) := by
    rw [data_edit, payloadOf_snoc, data]
  have settled : ∀ before x, es ++ [e] = before ++ [x] → x.redescribes = true →
      (p.edit e).reclassify = p.edit e := by
    intro before x split here
    obtain rfl := List.head_eq_of_cons_eq (List.append_inj' split rfl).2
    exact (eq_reclassify_of_redescribes here).symm
  by_cases here : e.redescribes = true
  · have same := eq_reclassify_of_redescribes (p := p) here
    have full : ¬ Blank (es ++ [e]) := by
      rw [blank_snoc, here]
      rintro (rfl | ⟨other, -⟩)
      · simp [Edit.redescribes] at here
      · simp at other
    refine ⟨?_, fun emptied => absurd emptied full, fun _ => ?_, settled⟩
    · rw [seen_of_isSeen (by simp [Edit.isSeen, here]), ← payload, same]
      rfl
    · rw [same]
      exact media_derivedFlags _ _
  · rw [Bool.not_eq_true] at here
    by_cases emptied : e = .clear
    · subst emptied
      have blank : Blank (es ++ [.clear]) := blank_snoc.mpr (.inl rfl)
      have flags : (p.edit .clear).flags.media = .empty := show Flags.empty.media = .empty by decide
      refine ⟨?_, fun _ => flags, fun full => absurd blank full, settled⟩
      rw [seen_of_isSeen rfl, ← payload]
      exact (describe_nil p.kind).symm
    · obtain ⟨description, media⟩ := edit_frame (p := p) here emptied
      have blank : Blank (es ++ [e]) ↔ Blank es := by simp [blank_snoc, emptied, here]
      refine ⟨?_, ?_, ?_, settled⟩
      · rw [seen_of_not_isSeen (by simp [Edit.isSeen, here, emptied]), description, kind_edit]
        exact standing.description
      · rw [blank, media]
        exact standing.blank
      · rw [blank, media, kind_edit]
        exact standing.flagged

theorem Made.standing (made : Made es p) : Standing es p := by
  have both : p.data = payloadOf es ∧ Standing es p := by
    refine made.induct (P := fun es p => p.data = payloadOf es ∧ Standing es p) ?_ ?_
    · exact fun id kind capacity => ⟨rfl, standing_ofCapacity id kind capacity⟩
    · rintro es p e ⟨data, standing⟩
      exact ⟨by rw [data_edit, payloadOf_snoc, data], standing.edit data e⟩
  exact both.2

/-- The flag of a kind is that of the packet, unless the packet is blank. -/
theorem Standing.hasFlag_iff (standing : Standing es p) (k : MediaKind) :
    p.hasFlag k.flag = true ↔ k = p.kind ∧ ¬ Blank es := by
  rw [hasFlag, Flags.contains_flag]
  by_cases emptied : Blank es
  · rw [standing.blank emptied]
    cases k <;> simp [emptied] <;> decide
  · rw [standing.flagged emptied]
    cases k <;> cases p.kind <;> simp [emptied] <;> decide

/-- The flags of a packet that has just been described. -/
theorem flags_reclassify :
    p.reclassify.flags =
      if p.kind = .video ∧ (Nal.classify p.data).frame = .iFrame then p.kind.flag.union .keyFrame
      else p.kind.flag := by
  unfold reclassify describe derivedFlags Nal.Classification.isKeyframe
  cases p.kind <;> simp

end Edits

/-- **The description of a packet keeps in step with its payload.** Whatever has been done to a packet:
a video packet says of its payload what is said of the payload as it was when it was replaced, added
to, described or emptied last, and so of the payload that is there unless a byte has been overwritten
since; an audio packet says nothing. No packet has the flag of the other kind, and it has that of its
own unless it has been emptied and not described since. Right after it has been described its flags are
those of its kind and its payload alone, and describing it again changes nothing. -/
theorem description_in_step (made : Made es p) :
    p.data = payloadOf es ∧
    (p.kind = .video → p.description = Nal.classify (payloadOf (seen es)) ∧
      ((∀ e ∈ sinceSeen es, e.isPoke = false) → p.description = Nal.classify p.data)) ∧
    (p.kind = .audio → p.frame = .unknown ∧ p.startCode = .absent) ∧
    (∀ k : MediaKind, p.hasFlag k.flag = true ↔ k = p.kind ∧ ¬ Blank es) ∧
    ∀ before e, es = before ++ [e] → e.redescribes = true →
      p.flags = (if p.kind = .video ∧ (Nal.classify p.data).frame = .iFrame
        then p.kind.flag.union .keyFrame else p.kind.flag) ∧
      p.hasFlag .corrupted = false ∧
      (p.isKeyframe = true ↔ p.kind = .video ∧ (Nal.classify p.data).frame = .iFrame) ∧
      p.reclassify = p := by
  have standing := made.standing
  refine ⟨made.data, ?_, ?_, standing.hasFlag_iff, ?_⟩
  · intro video
    have shown := standing.description
    rw [video] at shown
    refine ⟨shown, fun untouched => ?_⟩
    rw [shown, made.data, ← payloadOf_seen untouched]
    rfl
  · intro audio
    have shown := standing.description
    rw [audio] at shown
    exact ⟨congrArg Nal.Classification.frame shown, congrArg Nal.Classification.startCode shown⟩
  · intro before e split here
    have settled := standing.settled before e split here
    have flags := (congrArg flags settled).symm.trans flags_reclassify
    refine ⟨flags, ?_, ?_, settled⟩
    · rw [hasFlag, flags]
      split <;> cases p.kind <;> decide
    · rw [isKeyframe, hasFlag, flags]
      split
      · next key => exact iff_of_true (by cases p.kind <;> decide) key
      · next plain => exact iff_of_false (by cases p.kind <;> decide) plain

/-- A damaged picture that its container takes for a key picture. -/
def damagedUnit : MediaUnit :=
  { stream := 0, data := [0, 0, 1, 0x41, 0x9a], isKey := true, isCorrupt := true }

/-- The packet of a unit keeps the description of what was stored while a byte is overwritten; it
follows, and the marks of the container are gone, once it is described again. -/
theorem stale_until_reclassified : ∃ es p, Made es p ∧
    p.data = [0, 0, 1, 0x65, 0x9a] ∧ p.description = Nal.classify [0, 0, 1, 0x41, 0x9a] ∧
    p.isKeyframe ∧ p.hasFlag .corrupted ∧ (Nal.classify p.data).frame = .iFrame ∧
    p.description.frame = .pFrame ∧ (p.isVideo = true ↔ ¬ Blank es) ∧
    p.reclassify.hasFlag .corrupted = false ∧ p.reclassify.reclassify = p.reclassify := by
  have given : (ofUnit? 7 damagedUnit .video).any fun q =>
      q.kind = .video ∧ (q.poke 3 0x65).data = [0, 0, 1, 0x65, 0x9a] ∧
        (q.poke 3 0x65).isKeyframe ∧ (q.poke 3 0x65).hasFlag .corrupted := by
    decide
  obtain ⟨q, same, facts⟩ := (Option.any_eq_true _ _).mp given
  obtain ⟨video, data, key, damaged⟩ := of_decide_eq_true facts
  have made := (Made.unit same).edit (.poke 3 0x65)
  obtain ⟨-, stale, -, flag, -⟩ := description_in_step made
  obtain ⟨-, -, -, -, fresh⟩ := description_in_step (made.edit .reclassify)
  obtain ⟨-, repaired, -, again⟩ := fresh _ _ rfl rfl
  have shown : (q.poke 3 0x65).description = Nal.classify [0, 0, 1, 0x41, 0x9a] := (stale video).1
  have own : (q.poke 3 0x65).isVideo = true ↔ _ := flag .video
  refine ⟨_, _, made, data, shown, key, damaged, ?_, ?_, own.trans ?_, repaired, again⟩
  · exact (congrArg (fun d => (Nal.classify d).frame) data).trans (by decide)
  · exact (congrArg Nal.Classification.frame shown).trans (by decide)
  · exact and_iff_right video.symm

end Packet

end PacketRelay
