import ClockGating.Proofs.Resolution

/-!
# Validity — masks that hold nothing but peripherals of the part

Masks are made from names, from numbers and from other masks. Every way of making one, except taking
a number as it is, gives a mask that is valid on the part.

- `valid_of_ofName?` — all named masks, the earlier names and the four general ones included.
- `MaskExpr.valid_of_eval` — all expressions, by induction.
-/

namespace ClockGating

namespace Mask

variable {d : Device} {g : Group} {a b : Mask g}

theorem valid_empty : (empty : Mask g).Valid d := by
  refine valid_iff.mpr fun k hk => ?_
  simp at hk

theorem valid_all : (all d : Mask g).Valid d :=
  valid_iff.mpr fun _ hk => hk

theorem Valid.union (ha : a.Valid d) (hb : b.Valid d) : (a.union b).Valid d := by
  refine valid_iff.mpr fun k hk => ?_
  rw [bits_union, BitVec.getLsbD_or, Bool.or_eq_true] at hk
  rcases hk with hk | hk
  · exact valid_iff.mp ha k hk
  · exact valid_iff.mp hb k hk

/-- An intersection is valid already if one of the masks is. -/
theorem Valid.and_left (ha : a.Valid d) : (a &&& b).Valid d := by
  refine valid_iff.mpr fun k hk => ?_
  rw [bits_and, BitVec.getLsbD_and, Bool.and_eq_true] at hk
  exact valid_iff.mp ha k hk.1

theorem valid_unions {masks : List (Mask g)} (h : ∀ m ∈ masks, m.Valid d) :
    (unions masks).Valid d := by
  induction masks with
  | nil => exact valid_empty
  | cons m masks ih =>
      obtain ⟨hm, hmasks⟩ := List.forall_mem_cons.mp h
      exact hm.union (ih hmasks)

theorem valid_ofBit {p : Peripheral} {i : Fin 32} (carried : d.carries p = true)
    (hi : g.bit? p = some i) : (ofBit i : Mask g).Valid d := by
  refine valid_iff.mpr fun k hk => ?_
  rw [bits_ofBit, Word.getLsbD_single, decide_eq_true_eq] at hk
  exact getLsbD_all.mpr ⟨p, carried, i, hi, hk⟩

theorem valid_ofPeripheral? {p : Peripheral} (hp : p ∈ g.members d)
    (h : ofPeripheral? p = some a) : a.Valid d := by
  obtain ⟨i, hi, rfl⟩ := Option.map_eq_some_iff.mp h
  exact valid_ofBit (Group.mem_members_iff.mp hp).2 hi

theorem valid_alwaysOn? (h : alwaysOn? d g = some a) : a.Valid d := by
  obtain ⟨s, _, rfl⟩ := Option.map_eq_some_iff.mp h
  refine valid_unions fun m hm => ?_
  obtain ⟨p, hp, hpm⟩ := List.mem_filterMap.mp hm
  exact valid_ofPeripheral? (List.mem_filter.mp hp).1 hpm

/-- **Names.** Whatever has a name is valid. -/
theorem valid_of_ofName? {s : String} (h : ofName? d g s = some a) : a.Valid d := by
  unfold ofName? at h
  split at h
  · exact Option.some.inj h ▸ valid_empty
  · exact Option.some.inj h ▸ valid_all
  · exact Option.some.inj h ▸ valid_empty
  · exact valid_alwaysOn? h
  · obtain ⟨p, hp, hpm⟩ := Option.bind_eq_some_iff.mp h
    exact valid_ofPeripheral? (List.mem_of_find?_eq_some hp) hpm

theorem Valid.combine (op : MaskOp) (ha : a.Valid d) (hb : b.Valid d) :
    (op.apply a b).Valid d := by
  cases op with
  | or => exact ha.union hb
  | orAssign => exact ha.union hb
  | union => exact ha.union hb
  | and => exact ha.and_left

end Mask

/-- **Expressions.** A mask that takes no number as it is holds nothing but peripherals of the
part. -/
theorem MaskExpr.valid_of_eval {d : Device} {g : Group} {e : MaskExpr} {m : Mask g}
    (checked : e.IsChecked) (h : e.eval d g = .ok (some m)) : m.Valid d := by
  induction e generalizing m with
  | name s => exact Mask.valid_of_ofName? (ofName?_of_eval h)
  | bits n => exact (Mask.ofBits?_eq_some_iff.mp (Except.ok.inj h)).2
  | truncate n =>
      cases h
      exact Mask.valid_truncate d n
  | raw n => exact checked.elim
  | combine op left right ihl ihr =>
      obtain ⟨x, y, hx, hy, rfl⟩ := operands_of_eval h
      exact (ihl checked.1 hx).combine op (ihr checked.2 hy)
  | malformed => cases h

end ClockGating
