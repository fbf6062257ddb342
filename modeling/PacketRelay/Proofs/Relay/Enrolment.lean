import PacketRelay.Proofs.Relay.Roster
import PacketRelay.Proofs.Relay.Restart
import PacketRelay.Proofs.Record
import Mathlib.Data.List.Induction
import Mathlib.Data.List.InsertIdx

/-!
# The registry as its record tells it

What is seen of the registry decides what is in it: a subscriber enters at the end, when a call has
found no entry of its identity, and an entry leaves when a call removes its identity or when a thread
finds it terminated. Every answer and every entry thrown out is true to the record before it, and
this alone keeps the identities apart and the entries in the order in which they have been added.

## Main definitions

* `registryOf`, `latest`: the registry, and all subscribers by their latest addition
* `Visit`: a thread holds the registry and has looked at some of the entries
* `Notice.Holds`, `Truthful`: what each notice says of the record before it
* `Roster.Keeps`: the roster is as the record tells it

## Main results

* `Truthful.nodup`, `Truthful.sublist_latest`: identities differ, in the order of the additions
* `Truthful.mem_of_stays`: who is neither removed nor terminated stays
* `Roster.Keeps.move`, `Relay.keeps_of_records`: the moves keep to the record
-/

namespace PacketRelay

namespace Notice

/-- The subscriber that a notice names. -/
def subscriber? : Notice → Option Nat
  | .began _ kind => kind.subscriber?
  | .asked _ s _ | .removed _ s _ | .cleared _ s | .settled _ s _ | .parted _ s _ | .terminated s =>
    some s
  | .took _ | .released _ => none

/-- The registry once one more thing has been seen. -/
def enter (id : Nat → Option String) (registry : List Nat) : Notice → List Nat
  | .removed _ s _ => registry.filter fun x => id x != id s
  | .cleared _ x => registry.filter (· != x)
  | .settled _ s true => registry ++ [s]
  | _ => registry

/-- All subscribers ever added, once one more thing has been seen. -/
def rank (order : List Nat) : Notice → List Nat
  | .settled _ s true => order.filter (· != s) ++ [s]
  | _ => order

/-- Has the registry been taken or given back? -/
def isDoor : Notice → Bool
  | .took _ | .removed .. | .settled .. | .parted .. | .released _ => true
  | _ => false

/-- A thread has taken the registry. -/
inductive Opens : Actor → Notice → Prop
  | took (a : Actor) : Opens a (.took a)
  | removed (n s : Nat) (found : Bool) : Opens (.call n) (.removed n s found)

/-- A thread has given the registry back, done with what it has taken it for. -/
inductive Closes : Actor → Notice → Prop
  | settled (n s : Nat) (added : Bool) : Closes (.call n) (.settled n s added)
  | parted (n s : Nat) (found : Bool) : Closes (.call n) (.parted n s found)
  | released (a : Actor) : Closes a (.released a)

end Notice

/-- The registry that a record tells. -/
def registryOf (id : Nat → Option String) (log : List Notice) : List Nat :=
  log.foldl (Notice.enter id) []

/-- All subscribers ever added, in the order of the latest addition of each. -/
def latest (log : List Notice) : List Nat := log.foldl Notice.rank []

/-- A thread has taken the registry and holds it since, and of these entries none was terminated when
it was taken. -/
def Visit (log : List Notice) (a : Actor) (entries : List Nat) : Prop :=
  ∃ before opening during, log = before ++ opening :: during ∧ Notice.Opens a opening ∧
    (∀ e ∈ during, e.isDoor = false) ∧ ∀ x ∈ entries, .terminated x ∉ before

/-- What a notice says of the record before it. Who gives the registry back has looked at all of it.
-/
def Notice.Holds (id : Nat → Option String) (past : List Notice) : Notice → Prop
  | .removed _ s found => found = true ↔ ∃ x ∈ registryOf id past, id x = id s
  | .cleared _ x => .terminated x ∈ past
  | .settled n s added => Visit past (.call n) (registryOf id past) ∧
      (added = true ↔ ∀ x ∈ registryOf id past, id x ≠ id s)
  | .parted n _ _ => Visit past (.call n) (registryOf id past)
  | .released a => Visit past a (registryOf id past)
  | _ => True

/-- All notices of a record hold. -/
def Truthful (id : Nat → Option String) (log : List Notice) : Prop :=
  ∀ past e later, log = past ++ e :: later → e.Holds id past

section Records

variable {id id' : Nat → Option String} {log past later : List Notice} {e : Notice} {x s : Nat}

@[simp] theorem registryOf_snoc :
    registryOf id (log ++ [e]) = e.enter id (registryOf id log) := List.foldl_concat ..

@[simp] theorem latest_snoc : latest (log ++ [e]) = e.rank (latest log) := List.foldl_concat ..

theorem truthful_nil : Truthful id [] := fun past e later split => by simp at split

theorem truthful_snoc : Truthful id (log ++ [e]) ↔ Truthful id log ∧ e.Holds id log := by
  constructor
  · intro truthful
    refine ⟨fun past f later split => ?_, truthful log e [] rfl⟩
    exact truthful past f (later ++ [e]) (by simp [split])
  · rintro ⟨before, last⟩ past f later split
    rcases List.eq_nil_or_concat later with rfl | ⟨later, y, rfl⟩
    · obtain ⟨rfl, same⟩ := List.append_inj' split rfl
      exact List.head_eq_of_cons_eq same ▸ last
    · rw [List.concat_eq_append, ← List.cons_append, ← List.append_assoc] at split
      exact before past f later (List.append_inj' split rfl).1

theorem Truthful.of_append (truthful : Truthful id (past ++ later)) : Truthful id past :=
  fun first e second split => truthful first e (second ++ later) (by simp [split])

/-- Only a subscriber that is added enters. -/
theorem mem_enter {registry : List Nat} (inside : x ∈ e.enter id registry) :
    x ∈ registry ∨ ∃ n, e = .settled n x true := by
  cases e with
  | removed n s found => exact .inl (List.mem_filter.mp inside).1
  | cleared a y => exact .inl (List.mem_filter.mp inside).1
  | settled n s added =>
    cases added with
    | false => exact .inl inside
    | true =>
      rcases List.mem_append.mp inside with before | new
      · exact .inl before
      · exact .inr ⟨n, by rw [List.mem_singleton.mp new]⟩
  | _ => exact .inl inside

/-- An entry leaves with its identity, or alone. -/
theorem exists_of_leaves {registry : List Nat} (before : x ∈ registry)
    (after : x ∉ e.enter id registry) :
    (∃ n s found, e = .removed n s found ∧ id x = id s) ∨ ∃ a, e = .cleared a x := by
  cases e with
  | removed n s found =>
    refine .inl ⟨n, s, found, rfl, ?_⟩
    by_contra other
    exact after (List.mem_filter.mpr ⟨before, by simpa using other⟩)
  | cleared a y =>
    obtain rfl : x = y := by
      by_contra other
      exact after (List.mem_filter.mpr ⟨before, by simpa using other⟩)
    exact .inr ⟨a, rfl⟩
  | settled n s added =>
    cases added with
    | false => exact absurd before after
    | true => exact absurd (List.mem_append_left _ before) after
  | _ => exact absurd before after

theorem exists_of_mem_registryOf (inside : x ∈ registryOf id log) :
    ∃ n, .settled n x true ∈ log := by
  induction log using List.reverseRecOn with
  | nil => simp [registryOf] at inside
  | append_singleton log e ih =>
    rw [registryOf_snoc] at inside
    rcases mem_enter inside with before | ⟨n, rfl⟩
    · obtain ⟨n, added⟩ := ih before
      exact ⟨n, List.mem_append_left _ added⟩
    · exact ⟨n, by simp⟩

/-- What a record tells of the registry depends on the identities of the subscribers that it names
only. -/
theorem registryOf_congr (agree : ∀ e ∈ log, ∀ s, e.subscriber? = some s → id s = id' s) :
    registryOf id log = registryOf id' log := by
  induction log using List.reverseRecOn with
  | nil => rfl
  | append_singleton log e ih =>
    have same := ih fun f inside => agree f (List.mem_append_left _ inside)
    rw [registryOf_snoc, registryOf_snoc, same]
    cases e with
    | removed n s found =>
      have own : id s = id' s := agree (.removed n s found) (by simp) s rfl
      refine List.filter_congr fun x inside => ?_
      obtain ⟨m, added⟩ := exists_of_mem_registryOf inside
      rw [own, agree _ (List.mem_append_left _ added) x rfl]
    | settled n s added => cases added <;> rfl
    | _ => rfl

theorem Truthful.congr (agree : ∀ e ∈ log, ∀ s, e.subscriber? = some s → id s = id' s)
    (truthful : Truthful id log) : Truthful id' log := by
  rintro past e later rfl
  have holds := truthful past e later rfl
  have earlier : ∀ f ∈ past, ∀ s, f.subscriber? = some s → id s = id' s :=
    fun f inside => agree f (List.mem_append_left _ inside)
  have same : ∀ s, e.subscriber? = some s → ∀ x ∈ registryOf id' past,
      (id x = id s ↔ id' x = id' s) := fun s named x inside => by
    obtain ⟨n, added⟩ := exists_of_mem_registryOf inside
    rw [earlier _ added x rfl, agree e (by simp) s named]
  cases e with
  | removed n s found =>
    rw [Notice.Holds, registryOf_congr earlier] at holds
    exact holds.trans (exists_congr fun x => and_congr_right (same s rfl x))
  | settled n s added =>
    rw [Notice.Holds, registryOf_congr earlier] at holds
    exact ⟨holds.1, holds.2.trans (forall₂_congr fun x inside => not_congr (same s rfl x inside))⟩
  | parted n s found =>
    rw [Notice.Holds, registryOf_congr earlier] at holds
    exact holds
  | released a =>
    rw [Notice.Holds, registryOf_congr earlier] at holds
    exact holds
  | _ => exact holds

/-- **The identities in the registry differ.** -/
theorem Truthful.nodup (truthful : Truthful id log) : ((registryOf id log).map id).Nodup := by
  induction log using List.reverseRecOn with
  | nil => exact List.nodup_nil
  | append_singleton log e ih =>
    obtain ⟨before, last⟩ := truthful_snoc.mp truthful
    have distinct := ih before
    rw [registryOf_snoc]
    cases e with
    | removed n s found => exact distinct.sublist (List.filter_sublist.map id)
    | cleared a x => exact distinct.sublist (List.filter_sublist.map id)
    | settled n s added =>
      cases added with
      | false => exact distinct
      | true =>
        have fresh := last.2.mp rfl
        show ((registryOf id log ++ [s]).map id).Nodup
        rw [List.map_append, List.map_singleton]
        refine List.nodup_append.mpr ⟨distinct, List.nodup_singleton _, ?_⟩
        rintro _ inside _ own rfl
        obtain ⟨x, there, same⟩ := List.mem_map.mp inside
        exact fresh x there (same.trans (List.mem_singleton.mp own))
    | _ => exact distinct

/-- Each identity stands in the registry once. -/
theorem Truthful.eq_of_same (truthful : Truthful id log) {y : Nat} (hx : x ∈ registryOf id log)
    (hy : y ∈ registryOf id log) (same : id x = id y) : x = y :=
  List.inj_on_of_nodup_map truthful.nodup hx hy same

/-- **The entries stand in the order of the latest addition of each.** -/
theorem Truthful.sublist_latest (truthful : Truthful id log) :
    (registryOf id log).Sublist (latest log) := by
  induction log using List.reverseRecOn with
  | nil => exact List.Sublist.refl _
  | append_singleton log e ih =>
    obtain ⟨before, last⟩ := truthful_snoc.mp truthful
    have ordered := ih before
    rw [registryOf_snoc, latest_snoc]
    cases e with
    | removed n s found => exact List.filter_sublist.trans ordered
    | cleared a x => exact List.filter_sublist.trans ordered
    | settled n s added =>
      cases added with
      | false => exact ordered
      | true =>
        -- The subscriber is not there yet, so that nothing is lost where it is taken from its old
        -- place.
        have absent : ∀ x ∈ registryOf id log, (x != s) = true := fun x inside => by
          have other := last.2.mp rfl x inside
          exact bne_iff_ne.mpr fun same => other (congrArg id same)
        have kept := ordered.filter (· != s)
        rw [List.filter_eq_self.mpr absent] at kept
        exact kept.append (List.Sublist.refl [s])
    | _ => exact ordered

/-- Who leaves has been removed by its identity, or was terminated. -/
theorem Truthful.leaves (truthful : Truthful id (past ++ e :: later)) (before : x ∈ registryOf id past)
    (after : x ∉ registryOf id (past ++ [e])) :
    (∃ n s found, e = .removed n s found ∧ id x = id s) ∨
      (∃ a, e = .cleared a x) ∧ .terminated x ∈ past := by
  rw [registryOf_snoc] at after
  refine (exists_of_leaves before after).imp (fun removed => removed) ?_
  rintro ⟨a, rfl⟩
  exact ⟨⟨a, rfl⟩, truthful past (.cleared a x) later rfl⟩

/-- **Who is neither removed nor terminated stays.** -/
theorem Truthful.mem_of_stays (truthful : Truthful id (past ++ later)) (inside : x ∈ registryOf id past)
    (live : .terminated x ∉ past ++ later)
    (kept : ∀ n s found, .removed n s found ∈ later → id s ≠ id x) :
    x ∈ registryOf id (past ++ later) := by
  induction later using List.reverseRecOn with
  | nil => simpa using inside
  | append_singleton later e ih =>
    rw [← List.append_assoc] at truthful live ⊢
    have before := ih truthful.of_append (fun there => live (List.mem_append_left _ there))
      (fun n s found there => kept n s found (List.mem_append_left _ there))
    by_contra after
    rcases truthful.leaves before after with ⟨n, s, found, rfl, same⟩ | ⟨-, terminated⟩
    · exact kept n s found (by simp) same.symm
    · exact live (List.mem_append_left _ terminated)

/-- Who is there later has been there, or has been added since. -/
theorem mem_of_mem_registryOf_append (inside : x ∈ registryOf id (past ++ later)) :
    x ∈ registryOf id past ∨ ∃ n, .settled n x true ∈ later := by
  induction later using List.reverseRecOn with
  | nil => exact .inl (by simpa using inside)
  | append_singleton later e ih =>
    rw [← List.append_assoc, registryOf_snoc] at inside
    rcases mem_enter inside with before | ⟨n, rfl⟩
    · exact (ih before).imp_right fun ⟨n, there⟩ => ⟨n, List.mem_append_left _ there⟩
    · exact .inr ⟨n, by simp⟩

theorem Visit.mono {a : Actor} {entries fewer : List Nat} (visit : Visit log a entries)
    (less : ∀ x ∈ fewer, x ∈ entries) : Visit log a fewer := by
  obtain ⟨before, opening, during, split, opens, closed, live⟩ := visit
  exact ⟨before, opening, during, split, opens, closed, fun x inside => live x (less x inside)⟩

theorem Visit.snoc {a : Actor} {entries : List Nat} (visit : Visit log a entries)
    (quiet : e.isDoor = false) : Visit (log ++ [e]) a entries := by
  obtain ⟨before, opening, during, rfl, opens, closed, live⟩ := visit
  refine ⟨before, opening, during ++ [e], by simp, opens, ?_, live⟩
  simpa [or_imp, forall_and] using ⟨closed, quiet⟩

theorem Visit.of_opens {a : Actor} (opens : e.Opens a) : Visit (log ++ [e]) a [] :=
  ⟨log, e, [], rfl, opens, by simp, by simp⟩

/-- One more entry has been looked at, and found live. -/
theorem Visit.concat {a : Actor} {entries : List Nat} (visit : Visit log a entries)
    (live : .terminated x ∉ log) : Visit log a (entries ++ [x]) := by
  obtain ⟨before, opening, during, rfl, opens, closed, others⟩ := visit
  refine ⟨before, opening, during, rfl, opens, closed, fun y inside => ?_⟩
  rcases List.mem_append.mp inside with earlier | new
  · exact others y earlier
  · rw [List.mem_singleton.mp new]
    exact fun there => live (List.mem_append_left _ there)

end Records

/-- The entries that a thread has looked at and has let stay. -/
def Errand.seen (registry : List Nat) : Errand → List Nat
  | .sweeping _ entry => registry.take entry
  | _ => registry

namespace Roster

/-- The roster is as the record tells it. -/
structure Keeps (t : Roster) (log : List Notice) : Prop where
  /-- Who is to be added or removed is there. -/
  errands : ∀ a x s, t.errand a = some x → x.subscriber? = some s → s < t.subscribers
  /-- Who is named is there. -/
  named : ∀ e ∈ log, ∀ s, e.subscriber? = some s → s < t.subscribers
  /-- One thread at most has the registry. -/
  holder : ∀ a x, t.errand a = some x → x.holds → t.holder = some a
  registry : t.registry = registryOf t.identity log
  marked : ∀ s < t.subscribers, (t.isTerminated s = true ↔ .terminated s ∈ log)
  visits : ∀ a x, t.errand a = some x → x.holds → Visit log a (x.seen t.registry)
  truthful : Truthful t.identity log

variable {t t' : Roster} {a b : Actor} {x : Option Errand} {y : Errand} {log : List Notice}
  {e : Option Notice}

theorem subscribers_move (move : Move e t t') : t.subscribers ≤ t'.subscribers := by
  cases move <;> simp

/-- A new subscriber is the only one whose identity is new. -/
theorem identity_move (move : Move e t t') {s : Nat} (there : s < t.subscribers) :
    t'.identity s = t.identity s := by
  cases move with
  | arrive name => exact Function.update_of_ne (Nat.ne_of_lt there) _ _
  | _ => rfl

/-- The entries are subscribers. -/
theorem Keeps.lt_of_mem (keeps : t.Keeps log) {s : Nat} (inside : s ∈ t.registry) :
    s < t.subscribers := by
  rw [keeps.registry] at inside
  obtain ⟨n, added⟩ := exists_of_mem_registryOf inside
  exact keeps.named _ added s rfl

/-- Who holds the registry is alone in that. -/
theorem Keeps.unique (keeps : t.Keeps log) {x y : Errand} (ha : t.errand a = some x) (hx : x.holds)
    (hb : t.errand b = some y) (hy : y.holds) : b = a :=
  Option.some.inj ((keeps.holder b y hb hy).symm.trans (keeps.holder a x ha hx))

theorem Keeps.not_holds (keeps : t.Keeps log) (free : t.holder = none) (ha : t.errand a = some y) :
    y.holds = false := by
  by_contra holds
  simp [keeps.holder a y ha (by simpa using holds)] at free

/-- Who is named by what a move shows is there. -/
theorem Keeps.named_notice (keeps : t.Keeps log) {f : Notice} (move : Move (some f) t t') {s : Nat}
    (named : f.subscriber? = some s) : s < t.subscribers := by
  cases move with
  | begin kind there => exact there s named
  | take | takeToServe | release => cases named
  | ask stop at_ | remove at_ free | settle at_ past | part at_ past =>
    cases named
    exact keeps.errands _ _ _ at_ rfl
  | clear at_ entered terminated =>
    cases named
    exact keeps.lt_of_mem (List.mem_of_getElem? entered)
  | terminate there =>
    cases named
    exact there

theorem Keeps.named_append (keeps : t.Keeps log) (move : Move e t t') :
    ∀ f ∈ log ++ e.toList, ∀ s, f.subscriber? = some s → s < t.subscribers := by
  intro f inside s named
  rcases List.mem_append.mp inside with earlier | last
  · exact keeps.named f earlier s named
  · obtain rfl : e = some f := by simpa using last
    exact keeps.named_notice move named

/-- Who holds the registry has held it before, if the thread that goes on does not hold it. -/
theorem errand_of_off (off : ∀ z, x = some z → z.holds = false)
    (hb : (t.setErrand a x).errand b = some y) (hy : y.holds) : t.errand b = some y := by
  rw [errand_setErrand] at hb
  split at hb
  · simp [off y hb] at hy
  · exact hb

/-- Once the registry has been free, only the thread that takes it holds it. -/
theorem Keeps.eq_of_free (keeps : t.Keeps log) (free : t.holder = none)
    (hb : (t.setErrand a x).errand b = some y) (hy : y.holds) : b = a ∧ x = some y := by
  rw [errand_setErrand] at hb
  split at hb
  · next same => exact ⟨same, hb⟩
  · simp [keeps.not_holds free hb] at hy

/-- While a thread goes on that holds the registry, no other one holds it. -/
theorem Keeps.eq_of_holds (keeps : t.Keeps log) {z : Errand} (at_ : t.errand a = some z)
    (holds : z.holds) (hb : (t.setErrand a x).errand b = some y) (hy : y.holds) :
    b = a ∧ x = some y := by
  rw [errand_setErrand] at hb
  split at hb
  · next same => exact ⟨same, hb⟩
  · next other => exact absurd (keeps.unique at_ holds hb hy) other

theorem not_holds_entry (kind : RelayCall) :
    ∀ z, (Relay.entry kind).errand = some z → z.holds = false := by
  cases kind <;> simp [Relay.entry, CallStage.errand, Fanout.errand, Fanout.isInside, Errand.holds]

theorem subscriber?_entry {kind : RelayCall} {s : Nat} (at_ : (Relay.entry kind).errand = some y)
    (named : y.subscriber? = some s) : kind.subscriber? = some s := by
  cases kind <;> cases at_ <;> exact named

theorem Keeps.errands_move (keeps : t.Keeps log) (move : Move e t t') :
    ∀ b y s, t'.errand b = some y → y.subscriber? = some s → s < t'.subscribers := by
  have goesOn : ∀ {a x}, (∀ y s, x = some y → y.subscriber? = some s → s < t.subscribers) →
      ∀ b y s, (t.setErrand a x).errand b = some y → y.subscriber? = some s →
        s < t.subscribers := by
    intro a x own b y s hb named
    rw [errand_setErrand] at hb
    split at hb
    · exact own y s hb named
    · exact keeps.errands b y s hb named
  cases move with
  | stay | clear | terminate => exact keeps.errands
  | arrive name => exact fun b y s hb named => Nat.lt_succ_of_lt (keeps.errands b y s hb named)
  | begin kind there => exact goesOn fun y s at_ named => there s (subscriber?_entry at_ named)
  | ask stop at_ =>
    refine goesOn fun y s same named => ?_
    cases stop <;> cases same <;> cases named
    exact keeps.errands _ _ _ at_ rfl
  | take at_ free | remove at_ free =>
    refine goesOn fun y s same named => ?_
    cases same
    exact keeps.errands _ _ s at_ named
  | @keep _ _ aim entry x at_ entered live =>
    refine goesOn fun y s same named => ?_
    cases same
    have still : (Errand.sweeping aim entry).subscriber? = some s := by
      cases aim <;> exact named
    exact keeps.errands _ _ s at_ still
  | takeToServe | settle | part | serve | release =>
    refine goesOn fun y s same named => ?_
    cases same <;> cases named

theorem Keeps.holder_move (keeps : t.Keeps log) (move : Move e t t') :
    ∀ b y, t'.errand b = some y → y.holds → t'.holder = some b := by
  intro b y hb hy
  cases move with
  | stay | clear | terminate | arrive => exact keeps.holder b y hb hy
  | begin kind there => exact keeps.holder b y (errand_of_off (not_holds_entry kind) hb hy) hy
  | ask stop at_ =>
    refine keeps.holder b y (errand_of_off ?_ hb hy) hy
    rintro z same
    cases stop <;> cases same <;> rfl
  | take at_ free | takeToServe off free | remove at_ free =>
    exact congrArg some (keeps.eq_of_free free hb hy).1.symm
  | keep at_ entered live | serve at_ past =>
    obtain ⟨rfl, -⟩ := keeps.eq_of_holds at_ rfl hb hy
    exact keeps.holder b _ at_ rfl
  | settle at_ past | part at_ past | release at_ =>
    obtain ⟨-, same⟩ := keeps.eq_of_holds at_ rfl hb hy
    cases same <;> cases hy

theorem Keeps.nodup (keeps : t.Keeps log) : t.registry.Nodup := by
  rw [keeps.registry]
  exact keeps.truthful.nodup.of_map

theorem Keeps.registry_move (keeps : t.Keeps log) (move : Move e t t') :
    t'.registry = registryOf t'.identity (log ++ e.toList) := by
  have before := keeps.registry
  cases move with
  | stay | keep | serve => simpa using before
  | begin | ask | take | takeToServe | part | release | terminate =>
    simpa [Notice.enter] using before
  | remove at_ free =>
    rw [Option.toList_some, registryOf_snoc]
    exact congrArg _ before
  | clear at_ entered terminated =>
    obtain ⟨inside, rfl⟩ := List.getElem?_eq_some_iff.mp entered
    rw [Option.toList_some, registryOf_snoc, ← before]
    exact (keeps.nodup.erase_getElem _ inside).symm.trans (keeps.nodup.erase_eq_filter _)
  | @settle _ n s entry at_ past =>
    rw [Option.toList_some, registryOf_snoc]
    dsimp only [setErrand]
    rw [← before]
    cases t.isRegistered s <;> rfl
  | arrive name =>
    rw [Option.toList_none, List.append_nil]
    refine before.trans (registryOf_congr fun f inside s named => ?_)
    exact (identity_move (.arrive name) (keeps.named f inside s named)).symm

theorem Keeps.marked_move (keeps : t.Keeps log) (move : Move e t t') :
    ∀ s < t'.subscribers, (t'.isTerminated s = true ↔ .terminated s ∈ log ++ e.toList) := by
  intro s there
  cases move with
  | terminate known =>
    rename_i m
    by_cases same : s = m
    · simp [same]
    · simp [same, keeps.marked s there]
  | arrive name =>
    by_cases same : s = t.subscribers
    · have unnamed : .terminated s ∉ log := fun inside =>
        absurd (keeps.named _ inside s rfl) (by simp [same])
      simpa [same] using same ▸ unnamed
    · have old : s < t.subscribers := by
        have : s < t.subscribers + 1 := there
        omega
      simp [same, keeps.marked s old]
  | _ => simpa using keeps.marked s there

theorem Keeps.visits_move (keeps : t.Keeps log) (move : Move e t t') :
    ∀ b y, t'.errand b = some y → y.holds → Visit (log ++ e.toList) b (y.seen t'.registry) := by
  intro b y hb hy
  cases move with
  -- Somebody goes on who does not hold the registry.
  | stay => simpa using keeps.visits b y hb hy
  | arrive name => simpa using keeps.visits b y hb hy
  | terminate known => exact (keeps.visits b y hb hy).snoc rfl
  | begin kind there =>
    exact (keeps.visits b y (errand_of_off (not_holds_entry kind) hb hy) hy).snoc rfl
  | ask stop at_ =>
    refine (keeps.visits b y (errand_of_off ?_ hb hy) hy).snoc rfl
    rintro z same
    cases stop <;> cases same <;> rfl
  -- The registry is taken, and nothing has been looked at yet.
  | take at_ free =>
    obtain ⟨rfl, same⟩ := keeps.eq_of_free free hb hy
    cases same
    exact .of_opens (.took _)
  | takeToServe off free =>
    obtain ⟨rfl, same⟩ := keeps.eq_of_free free hb hy
    cases same
    exact .of_opens (.took _)
  | remove at_ free =>
    obtain ⟨rfl, same⟩ := keeps.eq_of_free free hb hy
    cases same
    exact .of_opens (.removed ..)
  -- An entry that stays is live now, and has been so when the registry was taken.
  | keep at_ entered live =>
    obtain ⟨rfl, same⟩ := keeps.eq_of_holds at_ rfl hb hy
    cases same
    have there := keeps.lt_of_mem (List.mem_of_getElem? entered)
    have unmarked := (keeps.marked _ there).not.mp (by simp [live])
    have visit := (keeps.visits b _ at_ rfl).concat unmarked
    rw [Option.toList_none, List.append_nil]
    simpa [Errand.seen, List.take_add_one, entered] using visit
  -- An entry that is thrown out stands behind those looked at before.
  | clear at_ entered terminated =>
    obtain rfl := keeps.unique at_ rfl hb hy
    obtain rfl := Option.some.inj (hb.symm.trans at_)
    refine ((keeps.visits b _ at_ rfl).mono fun z inside => ?_).snoc rfl
    rwa [Errand.seen, List.take_eraseIdx_eq_take_of_le _ _ _ (Nat.le_refl _)] at inside
  | serve at_ past =>
    obtain ⟨rfl, same⟩ := keeps.eq_of_holds at_ rfl hb hy
    cases same
    have visit := keeps.visits b _ at_ rfl
    rw [Option.toList_none, List.append_nil]
    simpa [Errand.seen, List.take_of_length_le past] using visit
  -- The registry is given back.
  | settle at_ past | part at_ past | release at_ =>
    obtain ⟨-, same⟩ := keeps.eq_of_holds at_ rfl hb hy
    cases same <;> cases hy

theorem Keeps.isRegistered_iff (keeps : t.Keeps log) (s : Nat) :
    t.isRegistered s = true ↔ ∃ x ∈ registryOf t.identity log, t.identity x = t.identity s := by
  rw [← keeps.registry]
  simp [isRegistered]

/-- Who has looked at all entries has swept the registry. -/
theorem Keeps.visit_of_past (keeps : t.Keeps log) {aim : Aim} {entry : Nat}
    (at_ : t.errand a = some (.sweeping aim entry)) (past : t.registry.length ≤ entry) :
    Visit log a (registryOf t.identity log) := by
  have visit := keeps.visits a _ at_ rfl
  rwa [Errand.seen, List.take_of_length_le past, keeps.registry] at visit

/-- What a move shows holds. -/
theorem Keeps.holds_of_move (keeps : t.Keeps log) {f : Notice} (move : Move (some f) t t') :
    f.Holds t.identity log := by
  cases move with
  | begin | ask | take | takeToServe | terminate => trivial
  | remove at_ free => exact keeps.isRegistered_iff _
  | clear at_ entered terminated =>
    have there := keeps.lt_of_mem (List.mem_of_getElem? entered)
    exact (keeps.marked _ there).mp terminated
  | settle at_ past =>
    refine ⟨keeps.visit_of_past at_ past, ?_⟩
    rw [Bool.not_eq_true', ← Bool.not_eq_true, keeps.isRegistered_iff]
    simp
  | part at_ past => exact keeps.visit_of_past at_ past
  | release at_ =>
    have visit : Visit log _ t.registry := keeps.visits _ _ at_ rfl
    rw [keeps.registry] at visit
    exact visit

theorem Keeps.truthful_move (keeps : t.Keeps log) (move : Move e t t') :
    Truthful t'.identity (log ++ e.toList) := by
  have before : Truthful t.identity (log ++ e.toList) := by
    cases e with
    | none => simpa using keeps.truthful
    | some f => exact truthful_snoc.mpr ⟨keeps.truthful, keeps.holds_of_move move⟩
  exact before.congr fun f inside s named =>
    (identity_move move (keeps.named_append move f inside s named)).symm

/-- **The moves keep to the record.** -/
theorem Keeps.move (keeps : t.Keeps log) (move : Move e t t') : t'.Keeps (log ++ e.toList) where
  errands := keeps.errands_move move
  named f inside s same :=
    Nat.lt_of_lt_of_le (keeps.named_append move f inside s same) (subscribers_move move)
  holder := keeps.holder_move move
  registry := keeps.registry_move move
  marked := keeps.marked_move move
  visits := keeps.visits_move move
  truthful := keeps.truthful_move move

end Roster

namespace Relay

open Schedule (Records)

variable {settings : PublisherSettings} {log : List Notice} {r : Relay}

theorem errand_ofSettings (a : Actor) : (ofSettings settings).roster.errand a = none := by
  cases a with
  | call n => rfl
  | reader run =>
    show ((ofSettings settings).task.target? run).bind _ = none
    rw [target?_ofSettings]
    rfl

theorem keeps_ofSettings : (ofSettings settings).roster.Keeps [] where
  errands a x s at_ := by simp [errand_ofSettings] at at_
  named := by simp
  holder a x at_ := by simp [errand_ofSettings] at at_
  registry := rfl
  marked s there := by simp [roster, ofSettings] at there
  visits a x at_ := by simp [errand_ofSettings] at at_
  truthful := truthful_nil

/-- **The registry of a publisher is as the record tells it.** -/
theorem keeps_of_records (run : Records step Admitted notice (ofSettings settings) log r) :
    r.roster.Keeps log := by
  induction run with
  | refl => exact keeps_ofSettings
  | tail run admitted last ih =>
    exact ih.move (roster_step (keeper_of_reaches run.reaches).1 admitted last)

end Relay

end PacketRelay
