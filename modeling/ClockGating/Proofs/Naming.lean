import ClockGating.Proofs.Resolution

/-!
# Naming — what is asked for by its own name is found

`Proofs/Resolution` says what a request can resolve to. This file goes the other way and says which
requests do resolve, if things are called by their own names. Masks, earlier names and the general
names of masks share one space of names, so it has to be seen that none of them hides a peripheral.

- `Group.Names.unique` — a name has one meaning.
- `Mask.ofName?_name` — the mask of one peripheral, in every group that has a bit for it.
- `Request.resolve_handle` — operations of a handle.
- `Request.resolve_gate`, `Request.resolve_autonomous` — operations on one peripheral by way of its
  groups.
-/

namespace ClockGating

/-! ## Names of peripherals and groups -/

theorem Peripheral.name_injective {p q : Peripheral} (h : p.name = q.name) : p = q := by
  have found : ofName? p.name = some q := by
    rw [h]
    exact ofName?_name q
  exact Option.some.inj ((ofName?_name p).symm.trans found)

theorem Peripheral.name_eq_of_ofName? {s : String} {p : Peripheral} (h : ofName? s = some p) :
    p.name = s := by
  have named := List.find?_some h
  exact beq_iff_eq.mp named

theorem Device.name_of_handleNamed? {d : Device} {s : String} {p : Peripheral}
    (h : d.handleNamed? s = some p) : p.name = s :=
  Peripheral.name_eq_of_ofName? (Option.filter_eq_some_iff.mp h).1

theorem Group.name_eq_of_ofName? {s : String} {g : Group} (h : ofName? s = some g) :
    g.name = s := by
  have named := List.find?_some h
  exact beq_iff_eq.mp named

/-- No earlier name is the present name of a peripheral, be it another one or the same. -/
theorem Group.name_notMem_aliases (g : Group) (p q : Peripheral) : (p.name, q) ∉ g.aliases := by
  have apart : ∀ g ∈ all, ∀ entry ∈ g.aliases, ∀ p ∈ Peripheral.all, entry.1 ≠ p.name := by
    decide +kernel
  intro h
  exact apart g (mem_all g) (p.name, q) h p (Peripheral.mem_all p) rfl

/-! ## Masks by name -/

/-- The peripheral goes by this name in the group, now or earlier. -/
def Group.Names (g : Group) (s : String) (p : Peripheral) : Prop := p.name = s ∨ (s, p) ∈ g.aliases

/-- A name has one meaning, whatever part it is used on. -/
theorem Group.Names.unique {g : Group} {s : String} {p q : Peripheral} (hp : g.Names s p)
    (hq : g.Names s q) : p = q := by
  have once : ∀ g ∈ all, ∀ x ∈ g.aliases, ∀ y ∈ g.aliases, x.1 = y.1 → x.2 = y.2 := by
    decide +kernel
  rcases hp with rfl | hp <;> rcases hq with hq | hq
  · exact Peripheral.name_injective hq.symm
  · exact absurd hq (g.name_notMem_aliases p q)
  · rw [← hq] at hp
    exact absurd hp (g.name_notMem_aliases q p)
  · exact once g (mem_all g) (s, p) hp (s, q) hq rfl

/-- Peripherals do not go by the names of masks that every group has. -/
theorem Group.Names.ne_general {g : Group} {s : String} {p : Peripheral} (h : g.Names s p) :
    s ≠ "NONE" ∧ s ≠ "ALL" ∧ s ≠ "DEFAULT" ∧ s ≠ "ALWAYS_ON" := by
  have now : ∀ p ∈ Peripheral.all,
      p.name ≠ "NONE" ∧ p.name ≠ "ALL" ∧ p.name ≠ "DEFAULT" ∧ p.name ≠ "ALWAYS_ON" := by
    decide +kernel
  have earlier : ∀ g ∈ all, ∀ x ∈ g.aliases,
      x.1 ≠ "NONE" ∧ x.1 ≠ "ALL" ∧ x.1 ≠ "DEFAULT" ∧ x.1 ≠ "ALWAYS_ON" := by
    decide +kernel
  rcases h with rfl | h
  · exact now p (Peripheral.mem_all p)
  · exact earlier g (mem_all g) (s, p) h

theorem Group.memberNamed?_eq_some_iff {d : Device} {g : Group} {s : String} {p : Peripheral} :
    g.memberNamed? d s = some p ↔ p ∈ g.members d ∧ g.Names s p := by
  have test (q : Peripheral) : (q.name == s || g.aliases.contains (s, q)) = true ↔ g.Names s q := by
    rw [Bool.or_eq_true, beq_iff_eq, List.contains_iff_mem, Names]
  constructor
  · intro h
    have named := List.find?_some h
    exact ⟨List.mem_of_find?_eq_some h, (test p).mp named⟩
  · rintro ⟨member, named⟩
    cases found : g.memberNamed? d s with
    | none => exact absurd ((test p).mpr named) (List.find?_eq_none.mp found p member)
    | some q =>
        have other := List.find?_some found
        rw [((test q).mp other).unique named]

/-- A name that is none of the four general ones is that of a member. -/
theorem Mask.ofName?_eq_memberNamed? {d : Device} {g : Group} {s : String}
    (h : s ≠ "NONE" ∧ s ≠ "ALL" ∧ s ≠ "DEFAULT" ∧ s ≠ "ALWAYS_ON") :
    ofName? d g s = (g.memberNamed? d s).bind ofPeripheral? := by
  obtain ⟨none, all, default, alwaysOn⟩ := h
  unfold ofName?
  split
  · exact absurd rfl none
  · exact absurd rfl all
  · exact absurd rfl default
  · exact absurd rfl alwaysOn
  · rfl

/-- A name of a peripheral, now or earlier, stands for the mask of that peripheral on the parts that
have it in the group, and for nothing on the others. -/
theorem Mask.ofName?_eq_some_iff {d : Device} {g : Group} {s : String} {p : Peripheral} {m : Mask g}
    (named : g.Names s p) :
    ofName? d g s = some m ↔ p ∈ g.members d ∧ ofPeripheral? p = some m := by
  rw [ofName?_eq_memberNamed? named.ne_general, Option.bind_eq_some_iff]
  constructor
  · rintro ⟨q, hq, hm⟩
    obtain ⟨member, named'⟩ := Group.memberNamed?_eq_some_iff.mp hq
    rw [named.unique named']
    exact ⟨member, hm⟩
  · rintro ⟨member, hm⟩
    exact ⟨p, Group.memberNamed?_eq_some_iff.mpr ⟨member, named⟩, hm⟩

/-- All names of a peripheral stand for one mask. -/
theorem Mask.ofName?_eq_of_names {d : Device} {g : Group} {s t : String} {p : Peripheral}
    (hs : g.Names s p) (ht : g.Names t p) : (ofName? d g s : Option (Mask g)) = ofName? d g t :=
  Option.ext fun _ => (ofName?_eq_some_iff hs).trans (ofName?_eq_some_iff ht).symm

/-- A peripheral's name stands for the mask of that peripheral, in every group that has a bit for
it. -/
theorem Mask.ofName?_name {d : Device} {g : Group} {p : Peripheral} {i : Fin 32}
    (carried : d.carries p = true) (hi : g.bit? p = some i) :
    ofName? d g p.name = some (ofBit i) := by
  refine (ofName?_eq_some_iff (Or.inl rfl)).mpr ⟨?_, congrArg (Option.map ofBit) hi⟩
  refine Group.mem_members_iff.mpr ⟨?_, carried⟩
  rw [hi]
  rfl

theorem MaskExpr.resolve_name {d : Device} {g : Group} {p : Peripheral} {i : Fin 32}
    (carried : d.carries p = true) (hi : g.bit? p = some i) :
    (name p.name).resolve d g = .ok (Mask.ofBit i) := by
  unfold resolve eval
  rw [Mask.ofName?_name carried hi]
  rfl

/-! ## Requests by name -/

namespace Request

variable {d : Device} {held : Ownership} {p : Peripheral}

/-- An operation on a group resolves if the group has it and its mask resolves. -/
theorem resolve_group {name : String} {g : Group} {op : GroupOp} {e : MaskExpr} {m : Mask g}
    {c : Call} (groups : held.hasGroups = true) (hg : Group.ofName? name = some g)
    (masked : ∀ op', op ≠ .bus op') (he : e.resolve d g = .ok m)
    (hc : callOn g m (some op) = .ok c) :
    (group (some op) (some name) (some e)).resolve d held = .ok (.call c) := by
  have call : resolveGroup d (some op) (some name) (some e) = .ok c := by
    unfold resolveGroup
    rw [show (some name).bind Group.ofName? = some g from hg]
    -- An operation that needs a mask is not looked up among the bus switches.
    have byMask : (e.resolve d g >>= fun m => callOn g m (some op)) = .ok c := by
      rw [he]
      exact hc
    cases op with
    | gate op' => exact byMask
    | autonomous op' => exact byMask
    | bus op' => exact absurd rfl (masked op')
  show (if held.hasGroups then Action.call <$> resolveGroup d (some op) (some name) (some e)
    else .error .groupsTraded) = _
  rw [if_pos groups, call]
  rfl

theorem resolve_handle {name : String} (peripherals : held.hasPeripherals = true)
    (hp : d.handleNamed? name = some p) (op : HandleOp) :
    (handle (some name) (some op)).resolve d held = .ok (.call (.handle p op)) := by
  have call : resolveHandle d (some name) (some op) = .ok (.handle p op) := by
    unfold resolveHandle
    rw [show (some name).bind d.handleNamed? = some p from hp]
    rfl
  show (if held.hasPeripherals then Action.call <$> resolveHandle d (some name) (some op)
    else .error .noHandles) = _
  rw [if_pos peripherals, call]
  rfl

theorem resolve_gate (groups : held.hasGroups = true) (carried : d.carries p = true)
    (op : GateOp) :
    (group (some (.gate op)) (some p.seat.group.name) (some (.name p.name))).resolve d held =
      .ok (.call (.gate p.seat.group op p.clockMask)) :=
  resolve_group groups (Group.ofName?_name (.bus p.seat.group)) nofun
    (MaskExpr.resolve_name carried (if_pos rfl)) rfl

theorem resolve_autonomous (groups : held.hasGroups = true) (carried : d.carries p = true)
    {i : Fin 32} (hi : p.autonomousBit? = some i) (op : SwitchOp) :
    (group (some (.autonomous op)) (some Group.smartRun.name) (some (.name p.name))).resolve d
      held = .ok (.call (.autonomous op (Mask.ofBit i))) :=
  resolve_group groups (Group.ofName?_name .smartRun) nofun (MaskExpr.resolve_name carried hi) rfl

end Request

end ClockGating
