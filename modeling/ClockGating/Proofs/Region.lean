import ClockGating.Proofs.Modification
import Mathlib.Data.Set.Basic

/-!
# Regions — which bits a call is about

Calls share registers, so what keeps them apart are single bits. A `Region` is a set of bits of
registers. Two register files agree on a region if they have the same bits there, and two calls are
independent if their regions are disjoint.

- `Call.region` — the bits that a call assigns or looks at.
- `Peripheral.region` — the bits of one peripheral, in all banks and in the autonomous mode word.
- `disjoint_region` — peripherals of one part have no bits in common.
-/

namespace ClockGating

/-- Some bits of some registers. -/
abbrev Region := Set (Register × Fin 32)

/-! ## Agreement -/

/-- Two words for the same register have the same bits where the region says. -/
def AgreeAt (S : Region) (r : Register) (v w : Word) : Prop :=
  ∀ i : Fin 32, (r, i) ∈ S → v.getLsbD i = w.getLsbD i

/-- Two register files have the same bits where the region says. -/
def AgreeOn (S : Region) (f g : RegisterFile) : Prop := ∀ r, AgreeAt S r (f r) (g r)

theorem AgreeAt.refl (S : Region) (r : Register) (w : Word) : AgreeAt S r w w :=
  fun _ _ => rfl

theorem AgreeAt.trans {S : Region} {r : Register} {u v w : Word} (h : AgreeAt S r u v)
    (h' : AgreeAt S r v w) : AgreeAt S r u w :=
  fun i hi => (h i hi).trans (h' i hi)

theorem AgreeAt.mono {S T : Region} (hsub : S ⊆ T) {r : Register} {v w : Word}
    (h : AgreeAt T r v w) : AgreeAt S r v w :=
  fun i hi => h i (hsub hi)

theorem AgreeOn.refl (S : Region) (f : RegisterFile) : AgreeOn S f f :=
  fun r => AgreeAt.refl S r (f r)

theorem AgreeOn.trans {S : Region} {f g k : RegisterFile} (h : AgreeOn S f g)
    (h' : AgreeOn S g k) : AgreeOn S f k :=
  fun r => (h r).trans (h' r)

theorem AgreeOn.mono {S T : Region} (hsub : S ⊆ T) {f g : RegisterFile} (h : AgreeOn T f g) :
    AgreeOn S f g :=
  fun r => (h r).mono hsub

/-- Writing words that agree keeps files in agreement. -/
theorem AgreeOn.set {S : Region} {f g : RegisterFile} (h : AgreeOn S f g) {r : Register}
    {v w : Word} (hvw : AgreeAt S r v w) : AgreeOn S (f.set r v) (g.set r w) := by
  intro s
  by_cases hs : s = r
  · subst hs
    rw [RegisterFile.set_self, RegisterFile.set_self]
    exact hvw
  · rw [RegisterFile.set_of_ne _ _ hs, RegisterFile.set_of_ne _ _ hs]
    exact h s

/-- Writing a word that agrees with the present one changes nothing that the region is about. -/
theorem AgreeOn.set_left {S : Region} {f : RegisterFile} {r : Register} {v : Word}
    (h : AgreeAt S r v (f r)) : AgreeOn S (f.set r v) f := by
  intro s
  by_cases hs : s = r
  · subst hs
    rw [RegisterFile.set_self]
    exact h
  · rw [RegisterFile.set_of_ne _ _ hs]
    exact AgreeAt.refl S s (f s)

/-- Files that agree everywhere are equal. -/
theorem eq_of_agree_everywhere {f g : RegisterFile}
    (h : ∀ r (i : Fin 32), (f r).getLsbD i = (g r).getLsbD i) : f = g := by
  funext r
  apply BitVec.eq_of_getLsbD_eq
  intro i hi
  exact h r ⟨i, hi⟩

/-! ## Words in agreement -/

/-- All bits of a mask belong to the region. -/
def MaskIn (S : Region) (r : Register) (mask : Word) : Prop :=
  ∀ i : Fin 32, mask.getLsbD i = true → (r, i) ∈ S

theorem maskIn_single {S : Region} {r : Register} {i : Fin 32} (h : (r, i) ∈ S) :
    MaskIn S r (Word.single i) := by
  intro k hk
  rw [Word.getLsbD_single, decide_eq_true_eq] at hk
  rw [Fin.ext hk]
  exact h

theorem covers_eq_of_agreeAt {S : Region} {r : Register} {mask v w : Word}
    (hmask : MaskIn S r mask) (h : AgreeAt S r v w) : Word.covers v mask = Word.covers w mask := by
  rw [Bool.eq_iff_iff, Word.covers_iff, Word.covers_iff]
  have same (k : Nat) (hk : mask.getLsbD k = true) : v.getLsbD k = w.getLsbD k := by
    have hlt := BitVec.lt_of_getLsbD hk
    exact h ⟨k, hlt⟩ (hmask ⟨k, hlt⟩ hk)
  constructor
  · intro hv k hk
    rw [← same k hk]
    exact hv k hk
  · intro hw k hk
    rw [same k hk]
    exact hw k hk

namespace Modification

theorem getLsbD_apply (m : Modification) (w : Word) (i : Fin 32) :
    (m.apply w).getLsbD i = if m.mask.getLsbD i then m.value else w.getLsbD i := by
  unfold apply
  cases m.value with
  | true =>
      rw [if_pos rfl, BitVec.getLsbD_or]
      cases m.mask.getLsbD i <;> simp
  | false =>
      rw [if_neg Bool.false_ne_true, BitVec.getLsbD_and, BitVec.getLsbD_not]
      cases m.mask.getLsbD i <;> simp

/-- The same modification of words in agreement gives words in agreement. -/
theorem agreeAt_apply {S : Region} (m : Modification) {r : Register} {v w : Word}
    (h : AgreeAt S r v w) : AgreeAt S r (m.apply v) (m.apply w) := by
  intro i hi
  rw [getLsbD_apply, getLsbD_apply, h i hi]

/-- A modification leaves the bits outside its mask alone. -/
theorem agreeAt_apply_self {S : Region} {m : Modification} (hmask : MaskIn S m.register m.mask)
    (w : Word) : AgreeAt Sᶜ m.register (m.apply w) w := by
  intro i hi
  rw [getLsbD_apply, if_neg]
  intro hbit
  exact hi (hmask i hbit)

end Modification

/-! ## The region of a call -/

theorem getLsbD_foldr_or {masks : List Word} {i : Fin 32} :
    (masks.foldr (· ||| ·) 0).getLsbD i = true ↔ ∃ mask ∈ masks, mask.getLsbD i = true := by
  induction masks with
  | nil => simp
  | cons mask masks ih =>
      rw [List.foldr_cons, BitVec.getLsbD_or, Bool.or_eq_true, ih]
      simp

namespace Call

/-- The bits that a call assigns or looks at. -/
def region (c : Call) : Region := { x | (c.touched x.1).getLsbD x.2 = true }

theorem mem_region_iff {c : Call} {r : Register} {i : Fin 32} :
    (r, i) ∈ c.region ↔
      (∃ a ∈ c.assignments, a.register = r ∧ a.mask.getLsbD i = true) ∨
        ∃ o ∈ c.observed, o.1 = r ∧ o.2.getLsbD i = true := by
  show (c.touched r).getLsbD i = true ↔ _
  unfold touched
  rw [getLsbD_foldr_or]
  constructor
  · rintro ⟨mask, hmem, hbit⟩
    rcases List.mem_append.mp hmem with hmem | hmem
    · obtain ⟨a, ha, hsome⟩ := List.mem_filterMap.mp hmem
      obtain ⟨hr, hmask⟩ := Option.ite_none_right_eq_some.mp hsome
      exact Or.inl ⟨a, ha, hr, Option.some.inj hmask ▸ hbit⟩
    · obtain ⟨o, ho, hsome⟩ := List.mem_filterMap.mp hmem
      obtain ⟨hr, hmask⟩ := Option.ite_none_right_eq_some.mp hsome
      exact Or.inr ⟨o, ho, hr, Option.some.inj hmask ▸ hbit⟩
  · rintro (⟨a, ha, hr, hbit⟩ | ⟨o, ho, hr, hbit⟩)
    · refine ⟨a.mask, List.mem_append_left _ (List.mem_filterMap.mpr ⟨a, ha, ?_⟩), hbit⟩
      rw [if_pos hr]
    · refine ⟨o.2, List.mem_append_right _ (List.mem_filterMap.mpr ⟨o, ho, ?_⟩), hbit⟩
      show (if o.1 = r then some o.2 else none) = some o.2
      rw [if_pos hr]

theorem region_subset {c : Call} {S : Region}
    (assigned : ∀ a ∈ c.assignments, MaskIn S a.register a.mask)
    (observed : ∀ o ∈ c.observed, MaskIn S o.1 o.2) : c.region ⊆ S := by
  rintro ⟨r, i⟩ hx
  rcases mem_region_iff.mp hx with ⟨a, ha, rfl, hbit⟩ | ⟨o, ho, rfl, hbit⟩
  · exact assigned a ha i hbit
  · exact observed o ho i hbit

theorem region_gate_subset {g : BusGroup} {op : GateOp} {m : Mask (.bus g)} {S : Region}
    (inside : ∀ b, MaskIn S (.gate b g) m.bits) : (gate g op m).region ⊆ S := by
  cases op with
  | isEnabledClock =>
      exact region_subset (List.forall_mem_nil _) (List.forall_mem_singleton.mpr (inside .clock))
  | isEnabledStopSleepClock =>
      exact region_subset (List.forall_mem_nil _)
        (List.forall_mem_singleton.mpr (inside .stopSleep))
  | _ => exact region_subset (List.forall_mem_singleton.mpr (inside _)) (List.forall_mem_nil _)

theorem region_autonomous_subset {op : SwitchOp} {m : Mask .smartRun} {S : Region}
    (inside : MaskIn S .autonomous m.bits) : (autonomous op m).region ⊆ S := by
  cases op with
  | isEnabled =>
      exact region_subset (List.forall_mem_nil _) (List.forall_mem_singleton.mpr inside)
  | _ => exact region_subset (List.forall_mem_singleton.mpr inside) (List.forall_mem_nil _)

theorem region_bus_subset {op : SwitchOp} {s : BusSwitch} {S : Region}
    (inside : MaskIn S (.config s.word) (Word.single s.bit)) : (bus op s).region ⊆ S := by
  cases op with
  | isEnabled =>
      exact region_subset (List.forall_mem_nil _) (List.forall_mem_singleton.mpr inside)
  | _ => exact region_subset (List.forall_mem_singleton.mpr inside) (List.forall_mem_nil _)

theorem maskIn_region_of_assigns {c : Call} {a : Assignment} (h : a ∈ c.assignments) :
    MaskIn c.region a.register a.mask :=
  fun _ hi => mem_region_iff.mpr (Or.inl ⟨a, h, rfl, hi⟩)

theorem maskIn_region_of_observes {c : Call} {r : Register} {mask : Word}
    (h : (r, mask) ∈ c.observed) : MaskIn c.region r mask :=
  fun _ hi => mem_region_iff.mpr (Or.inr ⟨(r, mask), h, rfl, hi⟩)

/-- Calls are independent exactly when their regions have nothing in common. -/
theorem disjoint_iff {c d : Call} : c.Disjoint d ↔ ∀ x, x ∈ c.region → x ∉ d.region := by
  constructor
  · intro h x hc hd
    have hbit := congrArg (fun w : Word => w.getLsbD x.2) (h x.1)
    simp only [BitVec.getLsbD_and] at hbit
    rw [show (c.touched x.1).getLsbD x.2 = true from hc,
      show (d.touched x.1).getLsbD x.2 = true from hd] at hbit
    simp at hbit
  · intro h r
    apply BitVec.eq_of_getLsbD_eq
    intro i hi
    rw [BitVec.getLsbD_and]
    cases hc : (c.touched r).getLsbD i with
    | false => simp
    | true =>
        have hd : (d.touched r).getLsbD i ≠ true := h (r, ⟨i, hi⟩) hc
        simp [Bool.eq_false_iff.mpr hd]

/-- What a call modifies it also assigns. -/
theorem exists_assignment_of_modification {c : Call} {m : Modification}
    (h : m ∈ c.modifications) :
    ∃ a ∈ c.assignments, a.register = m.register ∧ a.mask = m.mask := by
  have assigned : ∀ x ∈ c.modifications.map fun m => (m.register, m.mask),
      x ∈ c.assignments.map fun a => (a.register, a.mask) := by
    match c with
    | gate _ op _ => cases op <;> exact fun _ hx => hx
    | autonomous op _ => cases op <;> exact fun _ hx => hx
    | bus op _ => cases op <;> exact fun _ hx => hx
    | handle _ .enable => exact fun _ hx => hx
    | handle _ .disable => exact fun _ hx => hx
    | handle _ .isEnabled => exact fun _ hx => hx
    | handle _ .lowPower => exact fun _ hx => hx
    | handle _ .reset =>
        intro x hx
        rcases List.mem_cons.mp hx with rfl | hx
        · exact List.mem_cons_self
        · exact hx
    | handle p (.setLowPower mode) =>
        show ∀ x ∈ (mode.modifications p).map _, x ∈ (mode.assignments p).map _
        unfold LowPowerMode.modifications LowPowerMode.assignments
        cases p.autonomousBit? <;> cases mode <;> exact fun _ hx => hx
  obtain ⟨a, ha, heq⟩ := List.mem_map.mp (assigned _ (List.mem_map_of_mem h))
  exact ⟨a, ha, congrArg Prod.fst heq, congrArg Prod.snd heq⟩

end Call

/-! ## The region of a peripheral -/

namespace Peripheral

/-- The bits of a peripheral: one in each bank, and in the SmartRun domain one more. -/
def region (p : Peripheral) : Region :=
  { x | match x.1 with
    | .config _ => False
    | .gate _ g => g = p.seat.group ∧ x.2 = p.seat.bit
    | .autonomous => p.autonomousBit? = some x.2 }

/-- No two peripherals of a part share a bit. -/
theorem disjoint_region {d : Device} {p q : Peripheral} (hp : d.carries p = true)
    (hq : d.carries q = true) (hne : p ≠ q) : ∀ x, x ∈ p.region → x ∉ q.region := by
  rintro ⟨r, i⟩ hpx hqx
  apply hne
  cases r with
  | config w => exact absurd hpx id
  | gate b g =>
      obtain ⟨hpg, hpi⟩ := hpx
      obtain ⟨hqg, hqi⟩ := hqx
      have hpbit : (Group.bus g).bit? p = some i := by
        rw [Group.bit?, if_pos hpg.symm, ← hpi]
      have hqbit : (Group.bus g).bit? q = some i := by
        rw [Group.bit?, if_pos hqg.symm, ← hqi]
      exact Group.bit?_injective hp hq hpbit hqbit
  | autonomous =>
      have hpbit : Group.smartRun.bit? p = some i := hpx
      have hqbit : Group.smartRun.bit? q = some i := hqx
      exact Group.bit?_injective hp hq hpbit hqbit

/-- A handle works on the bits of its peripheral. -/
theorem region_handle_subset (p : Peripheral) (op : HandleOp) :
    (Call.handle p op).region ⊆ p.region := by
  have inGate (b : Bank) : MaskIn p.region (.gate b p.seat.group) (Word.single p.seat.bit) :=
    maskIn_single ⟨rfl, rfl⟩
  have inAutonomous {i : Fin 32} (h : p.autonomousBit? = some i) :
      MaskIn p.region .autonomous (Word.single i) := maskIn_single h
  cases op with
  | enable =>
      exact Call.region_subset (List.forall_mem_singleton.mpr (inGate .clock))
        (List.forall_mem_nil _)
  | disable =>
      exact Call.region_subset (List.forall_mem_singleton.mpr (inGate .clock))
        (List.forall_mem_nil _)
  | reset =>
      exact Call.region_subset (List.forall_mem_singleton.mpr (inGate .reset))
        (List.forall_mem_nil _)
  | isEnabled =>
      exact Call.region_subset (List.forall_mem_nil _)
        (List.forall_mem_singleton.mpr (inGate .clock))
  | setLowPower mode =>
      refine Call.region_subset ?_ (List.forall_mem_nil _)
      show ∀ a ∈ mode.assignments p, _
      unfold LowPowerMode.assignments
      cases h : p.autonomousBit? with
      | none => cases mode <;> exact List.forall_mem_singleton.mpr (inGate .stopSleep)
      | some i =>
          cases mode <;> exact List.forall_mem_cons.mpr
            ⟨inGate .stopSleep, List.forall_mem_singleton.mpr (inAutonomous h)⟩
  | lowPower =>
      refine Call.region_subset (List.forall_mem_nil _) ?_
      show ∀ o ∈ _ :: p.autonomousBit?.toList.map _, _
      cases h : p.autonomousBit? with
      | none => exact List.forall_mem_singleton.mpr (inGate .stopSleep)
      | some i =>
          exact List.forall_mem_cons.mpr
            ⟨inGate .stopSleep, List.forall_mem_singleton.mpr (inAutonomous h)⟩

end Peripheral

end ClockGating
