import ClockGating.Proofs.ModeChange

/-!
# Saved modes — reading a mode and setting it again

A driver that changes the low-power mode of its peripheral for a while reads the mode first and sets
it again afterwards. Two bits have four values and there are three modes, so for one combination of
the bits this cannot bring back what was there. It is the inconsistent one, which reads as `off`.

- `RegisterFile.assignAll_overwrite` — what is assigned to the same bits later makes earlier
  assignments vanish.
- `Peripheral.assignAll_modeIn_eq_self_iff` — setting the mode that the registers hold changes
  nothing exactly if the bits are consistent.

Main statement: `saved_mode_restored`.
-/

namespace ClockGating

/-! ## Overwriting -/

/-- Assignments leave no trace behind others that name all their bits again. -/
theorem RegisterFile.assignAll_overwrite {earlier later : List Assignment}
    (covered : ∀ a ∈ earlier, ∀ r i, a.names r i = true → ∃ b ∈ later, b.names r i = true)
    (file : RegisterFile) : (file.assignAll earlier).assignAll later = file.assignAll later := by
  refine eq_of_agree_everywhere fun r i => ?_
  rw [getLsbD_assignAll, getLsbD_assignAll, getLsbD_assignAll]
  cases hlater : lastAssigned later r i with
  | some v => rfl
  | none =>
      have unnamed := lastAssigned_eq_none_iff.mp hlater
      have none : lastAssigned earlier r i = none := by
        refine lastAssigned_eq_none_iff.mpr fun a ha => ?_
        by_contra named
        obtain ⟨b, hb, names⟩ := covered a ha r i (Bool.eq_true_of_not_eq_false named)
        rw [unnamed b hb] at names
        cases names
      rw [none]
      rfl

namespace Peripheral

/-- Setting a mode names the bits of the mode, whichever mode it is. -/
theorem exists_names_iff {p : Peripheral} {mode : LowPowerMode} {r : Register} {i : Fin 32} :
    (∃ a ∈ mode.assignments p, a.names r i = true) ↔ (r, i) ∈ p.modeBits := by
  have single {s : Register} {k : Fin 32} {value : Word} :
      (⟨s, Word.single k, value⟩ : Assignment).names r i = true ↔ (r, i) = (s, k) := by
    rw [Assignment.names_iff, Word.getLsbD_single, decide_eq_true_eq, Prod.mk.injEq, Fin.ext_iff,
      eq_comm]
  show _ ↔ (r, i) = (.gate .stopSleep p.seat.group, p.seat.bit) ∨ _
  unfold LowPowerMode.assignments
  cases p.autonomousBit? with
  | none => cases mode <;> simp [Assignment.sets, Assignment.clears, single]
  | some k => cases mode <;> simp [Assignment.sets, Assignment.clears, single]

/-- A mode that is set leaves no trace behind another one. -/
theorem assignAll_mode_overwrite (p : Peripheral) (earlier later : LowPowerMode)
    (file : RegisterFile) :
    (file.assignAll (earlier.assignments p)).assignAll (later.assignments p) =
      file.assignAll (later.assignments p) := by
  refine RegisterFile.assignAll_overwrite (fun a ha r i named => ?_) file
  exact exists_names_iff.mpr (exists_names_iff.mp ⟨a, ha, named⟩)

theorem run_setLowPower_file (base : Word) (p : Peripheral) (mode : LowPowerMode)
    (file : RegisterFile) :
    ((p.setLowPower mode).run base file).file = file.assignAll (mode.assignments p) := by
  have silent : ((p.setLowPower mode).silent.run base file).file =
      ((p.setLowPower mode).run base file).file := by
    rw [Routine.run_silent]
  exact silent.symm.trans (Call.run_file base (.handle p (.setLowPower mode)) file)

/-! ## Saving and restoring -/

/-- Read the mode of a peripheral, and set the mode that was read. -/
def saveAndRestore (p : Peripheral) : Routine Unit := do
  let mode ← p.lowPower
  p.setLowPower mode

variable {p : Peripheral} {f g : RegisterFile}

theorem run_saveAndRestore_file (base : Word) (p : Peripheral) (file : RegisterFile) :
    (p.saveAndRestore.run base file).file = file.assignAll ((p.modeIn file).assignments p) := by
  obtain ⟨result, kept⟩ := p.run_lowPower base file
  show ((p.lowPower.bind p.setLowPower).run base file).file = _
  rw [Routine.run_bind_file, result, kept, run_setLowPower_file]

/-- A register file is made up of the bits of a mode and all others. -/
theorem eq_of_mode_bits (keeps : p.keepsClock f = p.keepsClock g)
    (requests : p.requestsClock f = p.requestsClock g) (others : AgreeOn p.modeBitsᶜ f g) :
    f = g := by
  refine eq_of_agree_everywhere fun r i => ?_
  by_cases h : (r, i) ∈ p.modeBits
  · rcases h with h | ⟨k, hk, h⟩
    · cases h
      exact keeps
    · cases h
      unfold requestsClock at requests
      rw [hk] at requests
      exact requests
  · exact others r i h

theorem agreeOn_assignAll_mode (p : Peripheral) (mode : LowPowerMode) (file : RegisterFile) :
    AgreeOn p.modeBitsᶜ (file.assignAll (mode.assignments p)) file := by
  refine RegisterFile.agreeOn_assignAll (fun a ha i hi => ?_) file
  exact not_not_intro (exists_names_iff.mp ⟨a, ha, Assignment.names_iff.mpr ⟨rfl, hi⟩⟩)

theorem isSome_of_requestsClock (h : p.requestsClock f = true) :
    p.autonomousBit?.isSome = true := by
  obtain ⟨i, hi, _⟩ := (Option.any_eq_true _ _).mp h
  rw [hi]
  rfl

/-- **Encoding what was decoded** changes nothing exactly if the two bits were those of a mode. -/
theorem assignAll_modeIn_eq_self_iff {file : RegisterFile} :
    file.assignAll ((p.modeIn file).assignments p) = file ↔ p.ConsistentIn file := by
  constructor
  · intro unchanged
    rw [← unchanged]
    exact p.consistentIn_assignAll _ file
  · intro consistent
    refine eq_of_mode_bits ?_ ?_ (p.agreeOn_assignAll_mode _ file)
    · rw [keepsClock_assignAll, modeIn_eq_ofBits]
      cases p.keepsClock file <;> cases p.requestsClock file <;> rfl
    · rw [requestsClock_assignAll, modeIn_eq_ofBits]
      cases requests : p.requestsClock file with
      | true =>
          rw [isSome_of_requestsClock requests, consistent requests]
          rfl
      | false => cases p.keepsClock file <;> exact Bool.and_false _

/-- If the clock is not kept, a request for it is dropped, and nothing else is changed. -/
theorem assignAll_modeIn_of_stopped {file : RegisterFile} {i : Fin 32}
    (hi : p.autonomousBit? = some i) (stopped : p.keepsClock file = false) :
    file.assignAll ((p.modeIn file).assignments p) =
      file.set .autonomous (file .autonomous &&& ~~~Word.single i) := by
  have off : p.modeIn file = .off := by
    rw [modeIn_eq_ofBits, stopped]
    rfl
  have both : file.assignAll (LowPowerMode.off.assignments p) =
      (file.assign (.clears (.gate .stopSleep p.seat.group) (Word.single p.seat.bit))).assign
        (.clears .autonomous (Word.single i)) := by
    unfold LowPowerMode.assignments
    rw [hi]
    rfl
  have idle : file.assign (.clears (.gate .stopSleep p.seat.group) (Word.single p.seat.bit)) =
      file := by
    have same := Word.and_not_eq_self_iff.mpr (Word.and_single_eq_zero_iff.mpr stopped)
    rw [RegisterFile.assign_clears, same, RegisterFile.set_eq_self]
  rw [off, both, idle, RegisterFile.assign_clears]

end Peripheral

/-- What becomes of the registers when a mode is saved and restored, and when modes are set in
turn. -/
structure Peripheral.ModeRestored (base : Word) (p : Peripheral) (file : RegisterFile) : Prop where
  unchanged : (p.saveAndRestore.run base file).file = file ↔ p.ConsistentIn file
  /-- Where a clock is not kept, the bit that may request it is cleared, if it was set. -/
  dropped : ∀ i, p.autonomousBit? = some i →
    (file (.gate .stopSleep p.seat.group)).getLsbD p.seat.bit = false →
      (p.saveAndRestore.run base file).file =
        file.set .autonomous (file .autonomous &&& ~~~Word.single i)
  again : let once := (p.saveAndRestore.run base file).file
    (p.saveAndRestore.run base once).file = once
  overwritten : ∀ earlier later, let between := ((p.setLowPower earlier).run base file).file
    ((p.setLowPower later).run base between).file = ((p.setLowPower later).run base file).file

/-- **Saved modes are restored.** Setting the mode that was read changes no register, unless the
bits of the mode were inconsistent. Then the request is dropped, and all other bits stay. It happens
once, because no mode that is set leaves such bits behind; and of several modes that are set the last
one alone decides what the registers hold. -/
theorem saved_mode_restored (base : Word) (p : Peripheral) (file : RegisterFile) :
    p.ModeRestored base file := by
  constructor
  case unchanged =>
    rw [Peripheral.run_saveAndRestore_file]
    exact Peripheral.assignAll_modeIn_eq_self_iff
  case dropped =>
    intro i hi stopped
    rw [Peripheral.run_saveAndRestore_file]
    exact Peripheral.assignAll_modeIn_of_stopped hi stopped
  case again =>
    have consistent : p.ConsistentIn (p.saveAndRestore.run base file).file := by
      rw [Peripheral.run_saveAndRestore_file]
      exact p.consistentIn_assignAll _ file
    intro once
    rw [Peripheral.run_saveAndRestore_file]
    exact Peripheral.assignAll_modeIn_eq_self_iff.mpr consistent
  case overwritten =>
    intro earlier later between
    have set : between = file.assignAll (earlier.assignments p) :=
      p.run_setLowPower_file base earlier file
    rw [Peripheral.run_setLowPower_file, Peripheral.run_setLowPower_file, set]
    exact p.assignAll_mode_overwrite earlier later file

end ClockGating
