import ClockGating.Proofs.Naming
import ClockGating.Proofs.Validity
import Mathlib.Data.List.Perm.Basic

/-!
# Valid sets — which words are sets of peripherals

On a given part a group has some constants, one for each peripheral, and every other bit is nobody's.
This file says that the masks made from numbers are the sets of these constants, no more and no less:
a word that passes the check is a union of constants in exactly one way, and truncation goes to the
greatest set below a word. Everything rests on one fact about the tables: two peripherals may share a
bit, but never on the same part.

- `Mask.pairwise_disjoint_constants` — no constant is listed twice, or shares a bit with another one.
- `Mask.eq_filter_contains` — the constants of a union are told by the union.
- `Mask.unions_filter_contains` — a valid mask is the union of its constants.
- `Mask.isGreatestWithin_truncate` — truncation.

Main statement: `valid_masks_are_sets`.
-/

namespace ClockGating

namespace Mask

variable {d : Device} {g : Group}

/-! ## Constants -/

theorem pairwise_disjoint_constants (d : Device) (g : Group) :
    (constants d g).Pairwise fun a b => a &&& b = empty := by
  refine List.pairwise_filterMap.mpr ((Group.pairwise_before_members d g).imp ?_)
  intro p q before a ha b hb
  obtain ⟨i, hi, rfl⟩ := Option.map_eq_some_iff.mp ha
  obtain ⟨j, hj, rfl⟩ := Option.map_eq_some_iff.mp hb
  have lt : i < j := by simpa [Group.Before, hi, hj] using before
  have apart (k : Nat) : ¬ (k = i.val ∧ k = j.val) := by omega
  refine eq_of_same_bits fun k => ?_
  simpa using apart k

theorem nodup_constants (d : Device) (g : Group) : (constants d g).Nodup := by
  refine (pairwise_disjoint_constants d g).imp_of_mem ?_
  rintro a b ha _ disjoint rfl
  obtain ⟨_, _, i, _, rfl⟩ := mem_constants_iff.mp ha
  have bit := congrArg (fun m : Mask g => m.bits.getLsbD i) disjoint
  rw [bits_and, BitVec.getLsbD_and, bits_ofBit, Word.getLsbD_single] at bit
  simp at bit

theorem mem_constants_iff_named {c : Mask g} :
    c ∈ constants d g ↔ ∃ p : Peripheral, ofName? d g p.name = some c := by
  rw [constants, List.mem_filterMap]
  exact exists_congr fun p => (ofName?_eq_some_iff (Or.inl rfl)).symm

/-! ## Unions of constants -/

/-- Members of a union are within it. -/
theorem contains_of_mem {cs : List (Mask g)} {c : Mask g} (h : c ∈ cs) :
    (unions cs).contains c = true :=
  contains_iff.mpr fun _ hk => getLsbD_unions.mpr ⟨c, h, hk⟩

/-- A constant within a union of constants is one of them: its bit is that of some constant of the
union, and a constant has no other bit. -/
theorem mem_of_contains {cs : List (Mask g)} {c : Mask g} (sub : ∀ a ∈ cs, a ∈ constants d g)
    (hc : c ∈ constants d g) (h : (unions cs).contains c = true) : c ∈ cs := by
  obtain ⟨_, _, i, _, rfl⟩ := mem_constants_iff.mp hc
  rw [contains_ofBit] at h
  obtain ⟨a, ha, hi⟩ := getLsbD_unions.mp h
  obtain ⟨_, _, j, _, rfl⟩ := mem_constants_iff.mp (sub a ha)
  rw [bits_ofBit, Word.getLsbD_single, decide_eq_true_eq] at hi
  rw [Fin.ext hi]
  exact ha

/-- **Only one way.** The constants of a union are exactly those within it. -/
theorem eq_filter_contains {cs : List (Mask g)} (sub : cs.Sublist (constants d g)) :
    cs = (constants d g).filter (unions cs).contains := by
  have distinct := nodup_constants d g
  have same (c : Mask g) : c ∈ cs ↔ c ∈ (constants d g).filter (unions cs).contains := by
    rw [List.mem_filter]
    exact ⟨fun h => ⟨sub.subset h, contains_of_mem h⟩,
      fun ⟨hc, h⟩ => mem_of_contains (fun _ ha => sub.subset ha) hc h⟩
  have perm := (List.perm_ext_iff_of_nodup (distinct.sublist sub) (distinct.filter _)).mpr same
  exact (distinct.perm_iff_eq_of_sublist sub List.filter_sublist).mp perm

/-- **At least one way.** A valid mask is the union of the constants within it. -/
theorem unions_filter_contains {m : Mask g} (h : m.Valid d) :
    unions ((constants d g).filter m.contains) = m := by
  refine eq_of_same_bits fun k => ?_
  rw [getLsbD_unions]
  constructor
  · rintro ⟨c, hc, hk⟩
    exact contains_iff.mp (List.mem_filter.mp hc).2 k hk
  · intro hk
    obtain ⟨p, carried, i, hi, rfl⟩ := getLsbD_all.mp (valid_iff.mp h k hk)
    have constant := mem_constants_iff.mpr ⟨p, carried, i, hi, rfl⟩
    refine ⟨ofBit i, List.mem_filter.mpr ⟨constant, ?_⟩, by simp⟩
    rw [contains_ofBit]
    exact hk

theorem valid_of_mem_constants {c : Mask g} (h : c ∈ constants d g) : c.Valid d :=
  contains_of_mem h

theorem valid_unions_of_sublist {cs : List (Mask g)} (sub : cs.Sublist (constants d g)) :
    (unions cs).Valid d :=
  valid_unions fun _ hc => valid_of_mem_constants (sub.subset hc)

/-! ## Numbers -/

/-- The constants, each at most once and by ascending bit, whose union has the bits `n`. -/
def MakeUp (d : Device) (n : Word) (cs : List (Mask g)) : Prop :=
  cs.Sublist (constants d g) ∧ (unions cs).bits = n

theorem makeUp_iff {m : Mask g} (h : m.Valid d) {cs : List (Mask g)} :
    MakeUp d m.bits cs ↔ cs = (constants d g).filter m.contains := by
  constructor
  · rintro ⟨sub, bits⟩
    rw [← Mask.ext bits]
    exact eq_filter_contains sub
  · rintro rfl
    exact ⟨List.filter_sublist, congrArg Mask.bits (unions_filter_contains h)⟩

theorem isSome_ofBits?_iff {n : Word} :
    (ofBits? d n : Option (Mask g)).isSome = true ↔ ∃ cs : List (Mask g), MakeUp d n cs := by
  rw [Option.isSome_iff_exists]
  constructor
  · rintro ⟨m, hm⟩
    obtain ⟨rfl, valid⟩ := ofBits?_eq_some_iff.mp hm
    exact ⟨_, (makeUp_iff valid).mpr rfl⟩
  · rintro ⟨cs, sub, bits⟩
    exact ⟨unions cs, ofBits?_eq_some_iff.mpr ⟨bits, valid_unions_of_sublist sub⟩⟩

/-! ## Truncation -/

/-- The greatest mask within another one that is accepted on a part. -/
structure IsGreatestWithin (d : Device) (outer inner : Mask g) : Prop where
  accepted : ofBits? d inner.bits = some inner
  within : outer.contains inner = true
  greatest : ∀ m : Mask g, ofBits? d m.bits = some m → outer.contains m = true →
    inner.contains m = true

theorem isGreatestWithin_truncate (d : Device) (n : Word) :
    IsGreatestWithin d (⟨n⟩ : Mask g) (truncate d n) := by
  have bits (k : Nat) : (truncate d n : Mask g).bits.getLsbD k = true ↔
      n.getLsbD k = true ∧ (all d : Mask g).bits.getLsbD k = true := by
    rw [bits_truncate, BitVec.getLsbD_and, Bool.and_eq_true]
  constructor
  case accepted => exact ofBits?_eq_some_iff.mpr ⟨rfl, valid_truncate d n⟩
  case within => exact contains_iff.mpr fun k hk => ((bits k).mp hk).1
  case greatest =>
    intro m hm inside
    have valid := valid_iff.mp (ofBits?_eq_some_iff.mp hm).2
    exact contains_iff.mpr fun k hk => (bits k).mpr ⟨contains_iff.mp inside k hk, valid k hk⟩

theorem truncate_eq_self {m : Mask g} (h : m.Valid d) : truncate d m.bits = m := by
  have inside : m.bits &&& (all d : Mask g).bits = m.bits := by
    rw [BitVec.and_comm]
    exact beq_iff_eq.mp h
  exact Mask.ext inside

/-- Words that pass the check are those that truncation leaves as they are. -/
theorem ofBits?_eq_some_iff_truncate {n : Word} {m : Mask g} :
    ofBits? d n = some m ↔ truncate d n = m ∧ m.bits = n := by
  rw [ofBits?_eq_some_iff]
  constructor
  · rintro ⟨rfl, valid⟩
    exact ⟨truncate_eq_self valid, rfl⟩
  · rintro ⟨rfl, bits⟩
    exact ⟨bits, valid_truncate d n⟩

theorem truncate_or (d : Device) (n k : Word) :
    (truncate d (n ||| k) : Mask g) = truncate d n ||| truncate d k :=
  Mask.ext BitVec.and_or_distrib_right

theorem truncate_and (d : Device) (n k : Word) :
    (truncate d (n &&& k) : Mask g) = truncate d n &&& truncate d k := by
  refine eq_of_same_bits fun i => ?_
  simp only [bits_truncate, bits_and, BitVec.getLsbD_and, Bool.and_eq_true]
  exact and_and_right

end Mask

/-- What it means that the valid masks of a group on a part are the sets of its peripherals, for the
word `n`. -/
structure Mask.ValidMasksAreSets (d : Device) (g : Group) (n : Word) : Prop where
  /-- The constants are what the present names of peripherals stand for. -/
  named : ∀ c : Mask g, c ∈ constants d g ↔ ∃ p : Peripheral, ofName? d g p.name = some c
  disjoint : (constants d g).Pairwise fun a b => a &&& b = empty
  /-- An earlier name stands for what the present one stands for, where there is such a thing. -/
  aliases : ∀ entry ∈ g.aliases,
    (ofName? d g entry.1 : Option (Mask g)) = ofName? d g entry.2.name ∧
      ∀ c : Mask g, ofName? d g entry.1 = some c → c ∈ constants d g
  all : ofName? d g "ALL" = some (unions (constants d g))
  accepted : (ofBits? d n : Option (Mask g)).isSome = true ↔
    ∃ cs : List (Mask g), MakeUp d n cs
  unique : ∀ m : Mask g, ofBits? d n = some m → m.bits = n ∧
    ∀ cs, MakeUp d n cs ↔ cs = (constants d g).filter m.contains
  greatest : IsGreatestWithin d (⟨n⟩ : Mask g) (truncate d n)
  fixed : ∀ m : Mask g, ofBits? d n = some m ↔ truncate d n = m ∧ m.bits = n
  idempotent : (truncate d (truncate d n : Mask g).bits : Mask g) = truncate d n
  distributes : ∀ k, (truncate d (n ||| k) : Mask g) = truncate d n ||| truncate d k ∧
    (truncate d (n &&& k) : Mask g) = truncate d n &&& truncate d k

/-- **Valid masks are sets of peripherals.** On each part and in each group a word is accepted if it
is a union of constants, which it then is in one way only; and truncation goes to the greatest
accepted mask within a word. -/
theorem valid_masks_are_sets (d : Device) (g : Group) (n : Word) :
    Mask.ValidMasksAreSets d g n := by
  constructor
  case named => exact fun c => Mask.mem_constants_iff_named
  case disjoint => exact Mask.pairwise_disjoint_constants d g
  case aliases =>
    rintro ⟨s, p⟩ entry
    have same : (Mask.ofName? d g s : Option (Mask g)) = Mask.ofName? d g p.name :=
      Mask.ofName?_eq_of_names (Or.inr entry) (Or.inl rfl)
    exact ⟨same, fun c hc => Mask.mem_constants_iff_named.mpr ⟨p, same.symm.trans hc⟩⟩
  case all => rfl
  case accepted => exact Mask.isSome_ofBits?_iff
  case unique =>
    intro m hm
    obtain ⟨rfl, valid⟩ := Mask.ofBits?_eq_some_iff.mp hm
    exact ⟨rfl, fun cs => Mask.makeUp_iff valid⟩
  case greatest => exact Mask.isGreatestWithin_truncate d n
  case fixed => exact fun m => Mask.ofBits?_eq_some_iff_truncate
  case idempotent => exact Mask.truncate_eq_self (Mask.valid_truncate d n)
  case distributes => exact fun k => ⟨Mask.truncate_or d n k, Mask.truncate_and d n k⟩

/-- Two peripherals have bit 14. It is that of the one or the other, or nobody's. -/
example :
    Mask.ofBits? .u575 0x4000 = Mask.ofName? .u575 (.bus .ahb2Grp1) "USB_OTG_FS" ∧
      Mask.ofBits? .u5a9 0x4000 = Mask.ofName? .u5a9 (.bus .ahb2Grp1) "USB_OTG_HS" ∧
      (Mask.ofBits? .u535 0x4000 : Option (Mask (.bus .ahb2Grp1))) = none := by
  decide +kernel

end ClockGating
