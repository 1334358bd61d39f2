import ClockGating.Proofs.LastWriter

/-!
# Controls — the sets that masks are added to and taken from

Most operations of a group come in pairs: one sets the bits of a mask in some word, the other clears
them again. For most of these words there is also a query that asks if all bits of a mask are set.
Such a word is a set of peripherals, and a `Control` is one of these sets, with its operations.

- `Control.run_set_file`, `Control.run_clear_file` — what the two operations make of the word.
- `Control.run_ask` — what the query answers.

A bus switch is a control of one bit with the opposite polarity, so it is not among them.
-/

namespace ClockGating

/-- What masks of a group control: which of its peripherals have a clock, are in reset, or keep
their clocks in Sleep and Stop modes, and in the SmartRun domain which may request a clock. -/
inductive Control : Group → Type where
  | gate (bank : Bank) (group : BusGroup) : Control (.bus group)
  | autonomous : Control .smartRun

namespace Control

variable {g : Group}

def register : Control g → Register
  | gate b g => .gate b g
  | autonomous => .autonomous

/-- The operation that sets the bits of a mask. -/
def set : Control g → Mask g → Call
  | gate .clock g => .gate g .enableClock
  | gate .reset g => .gate g .forceReset
  | gate .stopSleep g => .gate g .enableStopSleepClock
  | autonomous => .autonomous .enable

/-- The operation that clears the bits of a mask. -/
def clear : Control g → Mask g → Call
  | gate .clock g => .gate g .disableClock
  | gate .reset g => .gate g .releaseReset
  | gate .stopSleep g => .gate g .disableStopSleepClock
  | autonomous => .autonomous .disable

/-- The query that asks if all bits of a mask are set. There is none for resets. -/
def ask? : Control g → Option (Mask g → Call)
  | gate .clock g => some (.gate g .isEnabledClock)
  | gate .reset _ => none
  | gate .stopSleep g => some (.gate g .isEnabledStopSleepClock)
  | autonomous => some (.autonomous .isEnabled)

/-! ## What the operations do -/

theorem assignments_set (c : Control g) (m : Mask g) :
    (c.set m).assignments = [.sets c.register m.bits] := by
  cases c with
  | gate b g => cases b <;> rfl
  | autonomous => rfl

theorem assignments_clear (c : Control g) (m : Mask g) :
    (c.clear m).assignments = [.clears c.register m.bits] := by
  cases c with
  | gate b g => cases b <;> rfl
  | autonomous => rfl

variable (base : Word) (c : Control g) (m : Mask g) (file : RegisterFile)

theorem run_set_file : ((c.set m).routine.run base file).file =
    file.set c.register (file c.register ||| m.bits) := by
  rw [Call.run_file, assignments_set]
  exact RegisterFile.assign_sets file c.register m.bits

theorem run_clear_file : ((c.clear m).routine.run base file).file =
    file.set c.register (file c.register &&& ~~~m.bits) := by
  rw [Call.run_file, assignments_clear]
  exact RegisterFile.assign_clears file c.register m.bits

theorem run_set_result : ((c.set m).routine.run base file).result = .nothing := by
  cases c with
  | gate b g => cases b <;> rfl
  | autonomous => rfl

theorem run_clear_result : ((c.clear m).routine.run base file).result = .nothing := by
  cases c with
  | gate b g => cases b <;> rfl
  | autonomous => rfl

variable {c} in
theorem run_ask {ask : Mask g → Call} (asks : c.ask? = some ask) :
    ((ask m).routine.run base file).result = .flag (Word.covers (file c.register) m.bits) := by
  cases c with
  | gate b g =>
      cases b with
      | clock => cases asks; rfl
      | reset => cases asks
      | stopSleep => cases asks; rfl
  | autonomous => cases asks; rfl

end Control

end ClockGating
