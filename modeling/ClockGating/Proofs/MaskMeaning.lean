import ClockGating.Mask.Expr
import ClockGating.Proofs.Control
import Mathlib.Order.Bounds.Basic

/-!
# What masks mean — the algebra of masks, seen through registers

Masks are combined and compared without any register. A program relies on the meaning that this has
for the operations: that a mask contains another one if its query is the stronger one, and that an
operation with a union of masks does what the operation does with the masks one after another, in
whatever way and order the union was put together.

- `PartialOrder (Mask g)` — masks ordered by `contains`, with `isLUB_or` and `isGLB_and`.
- `Mask.Bundle` — masks put together by unions, grouped in some way.
- `Call.run_map_file` — one operation for each mask of a list.
- `Mask.ToldBy`, `Mask.SpreadBy` — what queries can tell, and how other operations are spread over
  unions.

Main statement: `masks_mean_operations`.
-/

namespace ClockGating

/-- All forms of union are the same. -/
theorem MaskOp.apply_of_ne_and {g : Group} {op : MaskOp} (union : op ≠ .and) (a b : Mask g) :
    op.apply a b = a ||| b := by
  cases op with
  | and => exact absurd rfl union
  | or => rfl
  | orAssign => rfl
  | union => rfl

namespace Mask

variable {g : Group} {a b : Mask g}

/-! ## The order of masks -/

/-- Masks are ordered by inclusion. -/
instance : PartialOrder (Mask g) where
  le a b := b.contains a = true
  le_refl _ := contains_iff.mpr fun _ h => h
  le_trans _ _ _ hab hbc := contains_iff.mpr fun k hk =>
    contains_iff.mp hbc k (contains_iff.mp hab k hk)
  le_antisymm _ _ hab hba := eq_of_same_bits fun k => ⟨contains_iff.mp hab k, contains_iff.mp hba k⟩

theorem le_iff : a ≤ b ↔ ∀ k, a.bits.getLsbD k = true → b.bits.getLsbD k = true :=
  contains_iff

theorem isLUB_or (a b : Mask g) : IsLUB {a, b} (a ||| b) := by
  constructor
  · rintro m (rfl | rfl) <;> exact le_iff.mpr fun k hk => by simp [hk]
  · intro m bound
    refine le_iff.mpr fun k hk => ?_
    rw [bits_or, BitVec.getLsbD_or, Bool.or_eq_true] at hk
    rcases hk with hk | hk
    · exact le_iff.mp (bound (Set.mem_insert a _)) k hk
    · exact le_iff.mp (bound (Set.mem_insert_of_mem a rfl)) k hk

theorem isGLB_and (a b : Mask g) : IsGLB {a, b} (a &&& b) := by
  constructor
  · rintro m (rfl | rfl) <;> exact le_iff.mpr fun k hk => by simp_all
  · intro m bound
    refine le_iff.mpr fun k hk => ?_
    rw [bits_and, BitVec.getLsbD_and, Bool.and_eq_true]
    exact ⟨le_iff.mp (bound (Set.mem_insert a _)) k hk,
      le_iff.mp (bound (Set.mem_insert_of_mem a rfl)) k hk⟩

theorem beq_iff_contains : (a == b) = true ↔ a.contains b = true ∧ b.contains a = true := by
  rw [beq_iff_eq]
  exact le_antisymm_iff.trans and_comm

/-! ## Unions in any grouping -/

/-- Masks put together by unions of any form, two at a time. -/
inductive Bundle (g : Group) where
  | nothing
  | single (m : Mask g)
  | join (op : MaskOp) (union : op ≠ .and) (left right : Bundle g)

namespace Bundle

/-- The mask that comes out. -/
def whole : Bundle g → Mask g
  | nothing => .empty
  | single m => m
  | join op _ left right => op.apply left.whole right.whole

/-- The masks that went in, from left to right. -/
def parts : Bundle g → List (Mask g)
  | nothing => []
  | single m => [m]
  | join _ _ left right => left.parts ++ right.parts

theorem getLsbD_whole (u : Bundle g) {k : Nat} :
    u.whole.bits.getLsbD k = true ↔ ∃ m ∈ u.parts, m.bits.getLsbD k = true := by
  induction u with
  | nothing => simp [whole, parts]
  | single m => simp [whole, parts]
  | join op union left right ihl ihr =>
      rw [whole, MaskOp.apply_of_ne_and union, bits_or, BitVec.getLsbD_or, Bool.or_eq_true, ihl,
        ihr]
      simp only [parts, List.mem_append, or_and_right, exists_or]

/-- Neither grouping nor order nor repetition matters: a union is that of its parts. -/
theorem whole_eq_unions (u : Bundle g) {masks : List (Mask g)}
    (same : ∀ m, m ∈ masks ↔ m ∈ u.parts) : u.whole = unions masks := by
  refine eq_of_same_bits fun k => ?_
  rw [getLsbD_whole, getLsbD_unions]
  simp only [same]

example (a b : Mask g) :
    (join .or nofun (join .or nofun nothing (single a)) (single b)).whole =
      [a, b].foldl (· ||| ·) .empty := rfl

end Bundle

theorem covers_unions {w : Word} {masks : List (Mask g)} :
    Word.covers w (unions masks).bits = true ↔ ∀ m ∈ masks, Word.covers w m.bits = true := by
  simp only [Word.covers_iff, getLsbD_unions]
  constructor
  · intro h m hm k hk
    exact h k ⟨m, hm, hk⟩
  · rintro h k ⟨m, hm, hk⟩
    exact h m hm k hk

theorem unions_pair (a b : Mask g) : unions [a, b] = a ||| b :=
  Mask.ext (congrArg (a.bits ||| ·) BitVec.or_zero)

end Mask

/-! ## Operations with unions -/

/-- The query is answered with yes. -/
def Call.Holds (base : Word) (file : RegisterFile) (c : Call) : Prop :=
  (c.routine.run base file).result = .flag true

/-- Operations one after another come to one operation with the union of their masks, if all that
such an operation does is to update one register, and if updates with two words come to one with the
bits of both. -/
theorem Call.run_map_file {g : Group} {base : Word} {op : Mask g → Call} {r : Register}
    (update : Word → Word → Word)
    (single : ∀ m file, ((op m).routine.run base file).file =
      file.set r (update (file r) m.bits))
    (idle : ∀ w, update w 0 = w) (merge : ∀ w v v', update (update w v) v' = update w (v ||| v'))
    (masks : List (Mask g)) (file : RegisterFile) :
    ((program (masks.map op)).run base file).file =
      ((op (.unions masks)).routine.run base file).file := by
  rw [single]
  induction masks generalizing file with
  | nil => exact (RegisterFile.set_eq_self_iff.mpr (idle _)).symm
  | cons m masks ih =>
      rw [List.map_cons, run_program_cons]
      show ((program (masks.map op)).run base _).file = _
      rw [ih, single, RegisterFile.set_self, RegisterFile.set_set, merge]
      rfl

namespace Control

variable {g : Group} {base : Word} {c : Control g} {file : RegisterFile} {ask : Mask g → Call}

theorem holds_ask_iff (asks : c.ask? = some ask) {m : Mask g} :
    (ask m).Holds base file ↔ Word.covers (file c.register) m.bits = true := by
  rw [Call.Holds, run_ask base m file asks, Reply.flag.injEq]

theorem holds_ask_unions_iff (asks : c.ask? = some ask) {masks : List (Mask g)} :
    (ask (.unions masks)).Holds base file ↔ ∀ m ∈ masks, (ask m).Holds base file := by
  simp only [holds_ask_iff asks, Mask.covers_unions]

/-- A query is the stronger one if its mask contains the other. The converse shows in registers that
hold the mask and nothing else. -/
theorem contains_iff_holds (base : Word) (asks : c.ask? = some ask) {a b : Mask g} :
    a.contains b = true ↔ ∀ file, (ask a).Holds base file → (ask b).Holds base file := by
  simp only [holds_ask_iff asks, Word.covers_iff]
  constructor
  · intro h file ha k hk
    exact ha k (Mask.contains_iff.mp h k hk)
  · intro h
    exact Mask.contains_iff.mpr (h (.filled a.bits) fun _ hk => hk)

/-- Masks that no registers tell apart are the same. -/
theorem beq_iff_same_results (base : Word) (asks : c.ask? = some ask) {a b : Mask g} :
    (a == b) = true ↔ ∀ file,
      ((ask a).routine.run base file).result = ((ask b).routine.run base file).result := by
  constructor
  · intro h file
    rw [beq_iff_eq.mp h]
  · intro same
    refine Mask.beq_iff_contains.mpr ⟨?_, ?_⟩
    · exact (contains_iff_holds base asks).mpr fun file ha => (same file).symm.trans ha
    · exact (contains_iff_holds base asks).mpr fun file hb => (same file).trans hb

end Control

/-- What combining and comparing two masks comes to. -/
structure Mask.Related {g : Group} (a b : Mask g) : Prop where
  unions_agree : ∀ op : MaskOp, op ≠ .and → op.apply a b = a ||| b
  or_least : IsLUB {a, b} (a ||| b)
  and_greatest : IsGLB {a, b} (a &&& b)
  beq_iff : (a == b) = true ↔ a.contains b = true ∧ b.contains a = true

/-- A query tells from registers what is known of masks without them. -/
structure Mask.ToldBy {g : Group} (base : Word) (ask : Mask g → Call) : Prop where
  contains_iff : ∀ a b : Mask g, a.contains b = true ↔
    ∀ file, (ask a).Holds base file → (ask b).Holds base file
  beq_iff : ∀ a b : Mask g, (a == b) = true ↔ ∀ file,
    ((ask a).routine.run base file).result = ((ask b).routine.run base file).result
  or_iff : ∀ (a b : Mask g) file,
    (ask (a ||| b)).Holds base file ↔ (ask a).Holds base file ∧ (ask b).Holds base file
  /-- All parts are asked for, in any order and any number of times. -/
  whole_iff : ∀ (u : Bundle g) (masks : List (Mask g)), (∀ m, m ∈ masks ↔ m ∈ u.parts) → ∀ file,
    (ask u.whole).Holds base file ↔ ∀ m ∈ masks, (ask m).Holds base file

/-- An operation with a union leaves what the operation leaves if it is done with one mask after
another. -/
structure Mask.SpreadBy {g : Group} (base : Word) (op : Mask g → Call) : Prop where
  or_file : ∀ (a b : Mask g) file, ((op (a ||| b)).routine.run base file).file =
    ((Call.program [op a, op b]).run base file).file
  /-- All parts have their turn, in any order and any number of times. -/
  whole_file : ∀ (u : Bundle g) (masks : List (Mask g)), (∀ m, m ∈ masks ↔ m ∈ u.parts) → ∀ file,
    ((op u.whole).routine.run base file).file =
      ((Call.program (masks.map op)).run base file).file

theorem Control.toldBy {g : Group} {base : Word} {c : Control g} {ask : Mask g → Call}
    (asks : c.ask? = some ask) : Mask.ToldBy base ask where
  contains_iff _ _ := contains_iff_holds base asks
  beq_iff _ _ := beq_iff_same_results base asks
  or_iff a b file := by
    rw [← Mask.unions_pair, holds_ask_unions_iff asks]
    simp
  whole_iff u masks same file := by
    rw [u.whole_eq_unions same, holds_ask_unions_iff asks]

/-- Two masks are a list of masks, and all other unions are those of lists too. -/
theorem Mask.SpreadBy.of_unions {g : Group} {base : Word} {op : Mask g → Call}
    (spread : ∀ masks file, ((Call.program (masks.map op)).run base file).file =
      ((op (unions masks)).routine.run base file).file) : SpreadBy base op where
  or_file a b file := by
    rw [← unions_pair]
    exact (spread [a, b] file).symm
  whole_file u masks same file := by
    rw [u.whole_eq_unions same]
    exact (spread masks file).symm

/-- **Masks mean what their operations do.** A mask contains another one exactly if its query is the
stronger one, and two masks are equal exactly if no registers tell their queries apart. A query for
a union is the conjunction of the queries, and any other operation with a union does what it does
with the masks one by one. It does not matter how the masks are grouped, how they are ordered and
how often each of them occurs. -/
theorem masks_mean_operations (base : Word) (g : Group) :
    (∀ a b : Mask g, a.Related b) ∧
      ∀ c : Control g, (∀ ask, c.ask? = some ask → Mask.ToldBy base ask) ∧
        Mask.SpreadBy base c.set ∧ Mask.SpreadBy base c.clear := by
  constructor
  · exact fun a b => ⟨fun op union => MaskOp.apply_of_ne_and union a b, Mask.isLUB_or a b,
      Mask.isGLB_and a b, Mask.beq_iff_contains⟩
  · intro c
    refine ⟨fun ask asks => c.toldBy asks, ?_, ?_⟩
    · exact .of_unions <| Call.run_map_file (· ||| ·) (c.run_set_file base)
        (fun _ => BitVec.or_zero) BitVec.or_assoc
    · have merge (w v v' : Word) : w &&& ~~~v &&& ~~~v' = w &&& ~~~(v ||| v') := by
        rw [BitVec.and_assoc, ← BitVec.not_or]
      exact .of_unions <| Call.run_map_file (· &&& ~~~·) (c.run_clear_file base)
        (fun _ => Word.and_not_eq_self_iff.mpr BitVec.and_zero) merge

end ClockGating
