import ClockGating.Proofs.Control

/-!
# Undoing — what the opposite operation brings back

Setting bits and clearing them again is often taken for changing nothing. But an operation forgets,
for each bit of its mask, what that bit was, and the opposite operation gives all of them the same
value. So a pair of operations brings a word back for some contents only, and which these are
depends on the order of the two.

- `assignAll_sets_clears_eq_self_iff`, `assignAll_clears_sets_eq_self_iff` — the contents for which
  a pair changes nothing.
- `Control.UndoLaws`, `BusSwitch.UndoLaws` — the laws for masks and for bus switches, with what
  queries answer in between.

Main statement: `undo_laws_exact`.
-/

namespace ClockGating

/-! ## Setting and clearing the same bits -/

namespace RegisterFile

variable {file : RegisterFile} {r : Register} {mask : Word}

/-- Bits are set and cleared for nothing if they were clear. -/
theorem assignAll_sets_clears_eq_self_iff :
    file.assignAll [.sets r mask, .clears r mask] = file ↔ file r &&& mask = 0 := by
  show (file.assign (.sets r mask)).assign (.clears r mask) = file ↔ _
  rw [assign_sets, assign_clears, set_self, set_set, Word.or_and_not, set_eq_self_iff,
    Word.and_not_eq_self_iff]

/-- Bits are cleared and set for nothing if they were set. -/
theorem assignAll_clears_sets_eq_self_iff :
    file.assignAll [.clears r mask, .sets r mask] = file ↔ Word.covers (file r) mask = true := by
  show (file.assign (.clears r mask)).assign (.sets r mask) = file ↔ _
  rw [assign_clears, assign_sets, set_self, set_set, Word.and_not_or, set_eq_self_iff,
    Word.or_eq_self_iff]

end RegisterFile

/-! ## Masks -/

namespace Control

variable {g : Group} (base : Word) (c : Control g) (m : Mask g) (file : RegisterFile)

theorem run_set_clear_file : ((Call.program [c.set m, c.clear m]).run base file).file =
    file.assignAll [.sets c.register m.bits, .clears c.register m.bits] := by
  rw [Call.run_program_file]
  simp only [List.flatMap_cons, List.flatMap_nil, assignments_set, assignments_clear]
  rfl

theorem run_clear_set_file : ((Call.program [c.clear m, c.set m]).run base file).file =
    file.assignAll [.clears c.register m.bits, .sets c.register m.bits] := by
  rw [Call.run_program_file]
  simp only [List.flatMap_cons, List.flatMap_nil, assignments_set, assignments_clear]
  rfl

variable {c} {ask : Mask g → Call} (asks : c.ask? = some ask) (m' : Mask g)
include asks

theorem run_set_ask_result : ((Call.program [c.set m, ask m']).run base file).result =
    [.nothing, .flag (Word.covers (file c.register) (m'.bits &&& ~~~m.bits))] := by
  simp only [Call.run_program_cons, run_set_result, run_ask base m' _ asks, run_set_file,
    RegisterFile.set_self, Word.covers_or]
  rfl

theorem run_clear_ask_result : ((Call.program [c.clear m, ask m']).run base file).result =
    [.nothing, .flag ((m &&& m').isEmpty && Word.covers (file c.register) m'.bits)] := by
  simp only [Call.run_program_cons, run_clear_result, run_ask base m' _ asks, run_clear_file,
    RegisterFile.set_self, Word.covers_and_not]
  rfl

end Control

/-- What one operation of a pair leaves of the other, for a mask `m`, and what a query for `m'` is
answered after one of them. -/
structure Control.UndoLaws {g : Group} (base : Word) (file : RegisterFile) (c : Control g)
    (m m' : Mask g) : Prop where
  set_clear : ((Call.program [c.set m, c.clear m]).run base file).file = file ↔
    file c.register &&& m.bits = 0
  clear_set : ((Call.program [c.clear m, c.set m]).run base file).file = file ↔
    Word.covers (file c.register) m.bits = true
  /-- Only what is outside of the mask still matters. -/
  set_ask : ∀ ask, c.ask? = some ask → ((Call.program [c.set m, ask m']).run base file).result =
    [.nothing, .flag (Word.covers (file c.register) (m'.bits &&& ~~~m.bits))]
  clear_ask : ∀ ask, c.ask? = some ask → ((Call.program [c.clear m, ask m']).run base file).result =
    [.nothing, .flag ((m &&& m').isEmpty && Word.covers (file c.register) m'.bits)]
  clear_ask_within : ∀ ask, c.ask? = some ask → m.contains m' = true → m'.isEmpty = false →
    ((Call.program [c.clear m, ask m']).run base file).result = [.nothing, .flag false]
  clear_ask_empty : ∀ ask, c.ask? = some ask →
    ((Call.program [c.clear m, ask .empty]).run base file).result = [.nothing, .flag true]

/-- What is left of switching a bus on or off when it is switched the other way. -/
structure BusSwitch.UndoLaws (base : Word) (file : RegisterFile) (s : BusSwitch) : Prop where
  enable_disable : ((Call.program [.bus .enable s, .bus .disable s]).run base file).file = file ↔
    (file s.register).getLsbD s.bit = true
  disable_enable : ((Call.program [.bus .disable s, .bus .enable s]).run base file).file = file ↔
    (file s.register).getLsbD s.bit = false
  /-- A set bit means that the bus is gated. -/
  ask : ((Call.bus .isEnabled s).routine.run base file).result =
    .flag !(file s.register).getLsbD s.bit

theorem Control.undoLaws {g : Group} (base : Word) (file : RegisterFile) (c : Control g)
    (m m' : Mask g) : c.UndoLaws base file m m' := by
  constructor
  case set_clear =>
    rw [run_set_clear_file]
    exact RegisterFile.assignAll_sets_clears_eq_self_iff
  case clear_set =>
    rw [run_clear_set_file]
    exact RegisterFile.assignAll_clears_sets_eq_self_iff
  case set_ask => exact fun ask asks => run_set_ask_result base m file asks m'
  case clear_ask => exact fun ask asks => run_clear_ask_result base m file asks m'
  case clear_ask_within =>
    intro ask asks within nonempty
    -- All of the query is inside of the mask, and was cleared.
    have common : m &&& m' = m' := Mask.ext (beq_iff_eq.mp within)
    rw [run_clear_ask_result base m file asks m', common, nonempty, Bool.false_and]
  case clear_ask_empty =>
    intro ask asks
    have disjoint : m &&& Mask.empty = Mask.empty := Mask.ext BitVec.and_zero
    have covered : Word.covers (file c.register) 0 = true := Word.covers_iff.mpr (by simp)
    rw [run_clear_ask_result base m file asks, disjoint, Mask.bits_empty, covered]
    rfl

/-- Switching a bus is setting or clearing one bit, the other way round. -/
theorem BusSwitch.undoLaws (base : Word) (file : RegisterFile) (s : BusSwitch) :
    s.UndoLaws base file := by
  constructor
  case enable_disable =>
    rw [Call.run_program_file, ← Word.covers_single]
    exact RegisterFile.assignAll_clears_sets_eq_self_iff
  case disable_enable =>
    rw [Call.run_program_file, ← Word.and_single_eq_zero_iff]
    exact RegisterFile.assignAll_sets_clears_eq_self_iff
  case ask =>
    rw [Call.run_result]
    rfl

/-- **Exact conditions for undoing.** Clearing undoes setting exactly if none of the bits was set,
and setting undoes clearing exactly if all of them were. Switching a bus off undoes switching it on
exactly if it was off, and the other way round. A query after setting depends only on bits outside
of the mask; after clearing it holds exactly if it asks for none of the cleared bits and held
before. -/
theorem undo_laws_exact (base : Word) (file : RegisterFile) :
    (∀ (g : Group) (c : Control g) (m m' : Mask g), c.UndoLaws base file m m') ∧
      ∀ s : BusSwitch, s.UndoLaws base file :=
  ⟨fun _ c m m' => c.undoLaws base file m m', fun s => s.undoLaws base file⟩

end ClockGating
