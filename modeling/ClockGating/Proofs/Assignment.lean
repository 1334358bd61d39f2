import ClockGating.Footprint
import Mathlib.Data.List.Induction

/-!
# Assignments carried out

The bit level view of a register file. An `Assignment` says which bits take which values; carrying
it out on a register file is one masked write, and carrying out a list of them is the fold.

- `getLsbD_assign` — one assignment decides the bits that it names and no others.
- `getLsbD_assignAll` — after a list of assignments, a bit has the value that was assigned to it
  last, or the one it had before.
-/

namespace ClockGating

namespace RegisterFile

/-- The bits that the assignment names take their values; all others stay. -/
def assign (file : RegisterFile) (a : Assignment) : RegisterFile :=
  file.set a.register (file a.register &&& ~~~a.mask ||| a.value &&& a.mask)

/-- One assignment after another. -/
def assignAll (file : RegisterFile) (assignments : List Assignment) : RegisterFile :=
  assignments.foldl assign file

theorem assignAll_append (file : RegisterFile) (xs ys : List Assignment) :
    file.assignAll (xs ++ ys) = (file.assignAll xs).assignAll ys :=
  List.foldl_append

/-! ## The three kinds of assignments -/

theorem assign_sets (file : RegisterFile) (r : Register) (mask : Word) :
    file.assign (.sets r mask) = file.set r (file r ||| mask) := by
  unfold assign Assignment.sets
  congr 1
  apply BitVec.eq_of_getLsbD_eq
  intro i hi
  rw [BitVec.getLsbD_or, BitVec.getLsbD_or, BitVec.getLsbD_and, BitVec.getLsbD_and,
    BitVec.getLsbD_not]
  cases mask.getLsbD i <;> simp [hi]

theorem assign_clears (file : RegisterFile) (r : Register) (mask : Word) :
    file.assign (.clears r mask) = file.set r (file r &&& ~~~mask) := by
  show file.set r (file r &&& ~~~mask ||| 0#32 &&& mask) = _
  rw [BitVec.zero_and, BitVec.or_zero]

theorem assign_fills (file : RegisterFile) (r : Register) (w : Word) :
    file.assign (.fills r w) = file.set r w := by
  show file.set r (file r &&& ~~~BitVec.allOnes 32 ||| w &&& BitVec.allOnes 32) = _
  rw [BitVec.not_allOnes, BitVec.and_zero, BitVec.and_allOnes, BitVec.zero_or]

/-! ## The bit level view -/

theorem getLsbD_assign (file : RegisterFile) (a : Assignment) (r : Register) (i : Fin 32) :
    (file.assign a r).getLsbD i =
      if a.names r i then a.value.getLsbD i else (file r).getLsbD i := by
  unfold assign Assignment.names
  by_cases hr : a.register = r
  · subst hr
    rw [set_self, BitVec.getLsbD_or, BitVec.getLsbD_and, BitVec.getLsbD_and, BitVec.getLsbD_not]
    cases a.mask.getLsbD i <;> simp
  · have hne : r ≠ a.register := Ne.symm hr
    rw [set_of_ne _ _ hne]
    simp [hr]

/-- **Last assignment wins.** After a list of assignments a bit has the value that was assigned to
it last; a bit that none of them names has the value that it had before. -/
theorem getLsbD_assignAll (file : RegisterFile) (assignments : List Assignment) (r : Register)
    (i : Fin 32) :
    (file.assignAll assignments r).getLsbD i =
      (lastAssigned assignments r i).getD ((file r).getLsbD i) := by
  induction assignments using List.reverseRecOn with
  | nil => rfl
  | append_singleton assignments a ih =>
      rw [assignAll_append]
      show ((file.assignAll assignments).assign a r).getLsbD i = _
      rw [getLsbD_assign, lastAssigned_snoc, ih]
      cases a.names r i <;> rfl

end RegisterFile

end ClockGating
