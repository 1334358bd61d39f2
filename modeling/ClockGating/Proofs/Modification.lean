import ClockGating.Proofs.Assignment

/-!
# Modifications — what calls that change something are made of

A call either asks or changes. A call that changes something is always of one shape: a list of
`Modification`s, each of them a read, a write of the same register and possibly a second read,
inside a critical section if a handle is used and followed by a record if a bus is switched.

- `routine_of_mutating` — every such call is of that shape, with `Call.modifications` as its list.
- `asks_of_isQuery` — all other calls only compare masks with words that they read.
- `run_file` — a call leaves the registers that its assignments describe. The footprint of a call
  was written down without its routine; this is where the two meet.
-/

namespace ClockGating

/-- One read-modify-write of a register: all bits of the mask take one value. A modification that
settles reads the register once more. -/
structure Modification where
  register : Register
  mask : Word
  value : Bool
  settles : Bool
deriving DecidableEq

namespace Modification

/-- The contents of the register after the modification. -/
def apply (m : Modification) (w : Word) : Word :=
  if m.value then w ||| m.mask else w &&& ~~~m.mask

def routine (m : Modification) : Routine Unit :=
  .read m.register fun v => .write m.register (m.apply v) <|
    if m.settles then m.register.settle else .done ()

/-- What the modification is for. -/
def assignment (m : Modification) : Assignment :=
  if m.value then .sets m.register m.mask else .clears m.register m.mask

/-- One modification after another. -/
def sequence : List Modification → Routine Unit
  | [] => .done ()
  | m :: rest => m.routine.bind fun _ => sequence rest

/-! ## Runs -/

theorem assign_assignment (file : RegisterFile) (m : Modification) :
    file.assign m.assignment = file.set m.register (m.apply (file m.register)) := by
  unfold assignment apply
  cases m.value with
  | true => exact RegisterFile.assign_sets file m.register m.mask
  | false => exact RegisterFile.assign_clears file m.register m.mask

theorem run_routine_file (base : Word) (m : Modification) (file : RegisterFile) :
    (m.routine.run base file).file = file.assign m.assignment := by
  rw [assign_assignment]
  unfold routine
  cases m.settles <;> rfl

theorem run_sequence_file (base : Word) (ms : List Modification) (file : RegisterFile) :
    ((sequence ms).run base file).file = file.assignAll (ms.map assignment) := by
  induction ms generalizing file with
  | nil => rfl
  | cons m ms ih =>
      show ((m.routine.bind fun _ => sequence ms).run base file).file = _
      rw [Routine.run_bind_file, ih, run_routine_file]
      rfl

end Modification

/-- A routine that answers nothing runs like the routine itself. -/
theorem Routine.run_silent (base : Word) (x : Routine Unit) (file : RegisterFile) :
    x.silent.run base file = ⟨.nothing, (x.run base file).file, (x.run base file).events⟩ := by
  show (x.bind fun _ => Routine.done Reply.nothing).run base file = _
  rw [Routine.run_bind]
  show (⟨_, _, _ ++ []⟩ : Routine.Execution Reply) = _
  rw [List.append_nil]
  rfl

/-! ## The modifications of calls -/

/-- Setting a bank's bits settles unless the bank holds resets; clearing them never does. -/
def GateOp.modifications (op : GateOp) (g : BusGroup) (mask : Word) : List Modification :=
  match op with
  | enableClock => [⟨.gate .clock g, mask, true, true⟩]
  | disableClock => [⟨.gate .clock g, mask, false, false⟩]
  | forceReset => [⟨.gate .reset g, mask, true, false⟩]
  | releaseReset => [⟨.gate .reset g, mask, false, false⟩]
  | enableStopSleepClock => [⟨.gate .stopSleep g, mask, true, true⟩]
  | disableStopSleepClock => [⟨.gate .stopSleep g, mask, false, false⟩]
  | isEnabledClock | isEnabledStopSleepClock => []

def SwitchOp.autonomousModifications (op : SwitchOp) (mask : Word) : List Modification :=
  match op with
  | enable => [⟨.autonomous, mask, true, true⟩]
  | disable => [⟨.autonomous, mask, false, false⟩]
  | isEnabled => []

/-- The polarity of a bus switch is inverted, and so is the value that settles. -/
def SwitchOp.busModifications (op : SwitchOp) (s : BusSwitch) : List Modification :=
  match op with
  | enable => [⟨s.register, s.mask, false, true⟩]
  | disable => [⟨s.register, s.mask, true, false⟩]
  | isEnabled => []

def LowPowerMode.modifications (mode : LowPowerMode) (p : Peripheral) : List Modification :=
  ⟨.gate .stopSleep p.seat.group, Word.single p.seat.bit, mode ≠ .off, mode ≠ .off⟩ ::
    p.autonomousBit?.toList.map fun i =>
      ⟨.autonomous, Word.single i, mode = .autonomous, mode = .autonomous⟩

/-- Setting a mode is one critical section, whatever the mode and wherever its bits are. -/
theorem Peripheral.setLowPower_eq (p : Peripheral) (mode : LowPowerMode) :
    p.setLowPower mode = Routine.critical (Modification.sequence (mode.modifications p)) := by
  unfold setLowPower setStopSleep setAutonomous LowPowerMode.modifications
  cases p.autonomousBit? <;> cases mode <;> rfl

def HandleOp.modifications (op : HandleOp) (p : Peripheral) : List Modification :=
  let mask := Word.single p.seat.bit
  match op with
  | enable => [⟨.gate .clock p.seat.group, mask, true, true⟩]
  | disable => [⟨.gate .clock p.seat.group, mask, false, false⟩]
  | reset => [⟨.gate .reset p.seat.group, mask, true, false⟩,
      ⟨.gate .reset p.seat.group, mask, false, false⟩]
  | setLowPower mode => mode.modifications p
  | isEnabled | lowPower => []

namespace Call

/-- What a call modifies, in order. -/
def modifications : Call → List Modification
  | gate g op m => op.modifications g m.bits
  | autonomous op m => op.autonomousModifications m.bits
  | bus op s => op.busModifications s
  | handle p op => op.modifications p

/-- Handles work inside critical sections. -/
def enclose {α : Type} : Call → Routine α → Routine α
  | handle _ _, body => Routine.critical body
  | gate _ _ _, body | autonomous _ _, body | bus _ _, body => body

/-- Bus switches leave a record. -/
def record : Call → Routine Unit
  | bus .enable s => Routine.logRecord .trace (s.group.name ++ ": bus clock enabled")
  | bus .disable s => Routine.logRecord .trace (s.group.name ++ ": bus clock disabled")
  | _ => .done ()

/-- **One shape.** A call that is not a query is the sequence of its modifications and its
record. -/
theorem routine_of_mutating {c : Call} (h : c.isQuery = false) :
    c.routine =
      (c.enclose ((Modification.sequence c.modifications).bind fun _ => c.record)).silent := by
  match c, h with
  | gate _ .enableClock _, _ => rfl
  | gate _ .disableClock _, _ => rfl
  | gate _ .forceReset _, _ => rfl
  | gate _ .releaseReset _, _ => rfl
  | gate _ .enableStopSleepClock _, _ => rfl
  | gate _ .disableStopSleepClock _, _ => rfl
  | autonomous .enable _, _ => rfl
  | autonomous .disable _, _ => rfl
  | bus .enable _, _ => rfl
  | bus .disable _, _ => rfl
  | handle _ .enable, _ => rfl
  | handle _ .disable, _ => rfl
  | handle _ .reset, _ => rfl
  | handle p (.setLowPower mode), _ =>
    show (p.setLowPower mode).silent = (Routine.critical
      ((Modification.sequence (mode.modifications p)).bind .done)).silent
    rw [p.setLowPower_eq, Routine.bind_done]

end Call

/-! ## Queries -/

/-- The routine only asks: it reads registers, and all that it learns from a word is whether the bits
of a mask are set. The list says which masks these may be. -/
inductive Routine.Asks {α : Type} (observed : List (Register × Word)) : Routine α → Prop where
  | done (a : α) : Asks observed (.done a)
  | look {r : Register} {mask : Word} (h : (r, mask) ∈ observed) {x : Bool → Routine α}
      (next : ∀ b, Asks observed (x b)) :
      Asks observed (.read r fun v => x (Word.covers v mask))

theorem Routine.Asks.bind {α β : Type} {observed : List (Register × Word)} {x : Routine α}
    {f : α → Routine β} (h : x.Asks observed) (hf : ∀ a, (f a).Asks observed) :
    (x.bind f).Asks observed := by
  induction h with
  | done a => exact hf a
  | @look r mask hmem x _ ih =>
      have bound : Asks observed (.read r fun v => (fun b => (x b).bind f) (Word.covers v mask)) :=
        .look hmem ih
      exact bound

theorem Register.asks_testBits {observed : List (Register × Word)} {r : Register} {mask : Word}
    (h : (r, mask) ∈ observed) : (r.testBits mask).Asks observed := by
  have asked : Routine.Asks observed (.read r fun v => (fun b => .done b) (Word.covers v mask)) :=
    .look h fun b => .done b
  exact asked

theorem Peripheral.asks_lowPower {observed : List (Register × Word)} (p : Peripheral)
    (stopSleep : (.gate .stopSleep p.seat.group, Word.single p.seat.bit) ∈ observed)
    (autonomous : ∀ i, p.autonomousBit? = some i → (.autonomous, Word.single i) ∈ observed) :
    p.lowPower.Asks observed := by
  unfold lowPower
  refine (Register.asks_testBits stopSleep).bind fun kept => ?_
  cases kept with
  | false => exact .done _
  | true =>
    cases hp : p.autonomousBit? with
    | none => exact .done _
    | some i => exact (Register.asks_testBits (autonomous i hp)).bind fun _ => .done _

namespace Call

theorem mem_observed_lowPower {p : Peripheral} {i : Fin 32} (h : p.autonomousBit? = some i) :
    (Register.autonomous, Word.single i) ∈ (handle p .lowPower).observed := by
  show _ ∈ _ :: p.autonomousBit?.toList.map _
  rw [h]
  exact List.mem_cons_of_mem _ List.mem_cons_self

/-- A query asks for what it observes. -/
theorem asks_of_isQuery {c : Call} (h : c.isQuery = true) : c.routine.Asks c.observed := by
  match c, h with
  | gate g .isEnabledClock m, _ =>
    exact (Register.asks_testBits List.mem_cons_self).bind fun _ => .done _
  | gate g .isEnabledStopSleepClock m, _ =>
    exact (Register.asks_testBits List.mem_cons_self).bind fun _ => .done _
  | autonomous .isEnabled m, _ =>
    exact (Register.asks_testBits List.mem_cons_self).bind fun _ => .done _
  | bus .isEnabled s, _ =>
    have stopped : s.isEnabledClock.Asks (bus .isEnabled s).observed :=
      (Register.asks_testBits List.mem_cons_self).bind fun _ => .done _
    exact stopped.bind fun _ => .done _
  | handle p .isEnabled, _ =>
    exact (Register.asks_testBits List.mem_cons_self).bind fun _ => .done _
  | handle p .lowPower, _ =>
    have asked := p.asks_lowPower List.mem_cons_self fun _ => mem_observed_lowPower
    exact asked.bind fun _ => .done _

/-! ## What a call leaves behind -/

theorem assignments_of_isQuery {c : Call} (h : c.isQuery = true) : c.assignments = [] := by
  match c, h with
  | gate _ .isEnabledClock _, _ => rfl
  | gate _ .isEnabledStopSleepClock _, _ => rfl
  | autonomous .isEnabled _, _ => rfl
  | bus .isEnabled _, _ => rfl
  | handle _ .isEnabled, _ => rfl
  | handle _ .lowPower, _ => rfl

/-- Only a reset modifies more than it assigns: what it sets first it clears again. -/
theorem assignAll_modifications (c : Call) (file : RegisterFile) :
    file.assignAll (c.modifications.map Modification.assignment) =
      file.assignAll c.assignments := by
  match c with
  | gate _ op _ => cases op <;> rfl
  | autonomous op _ => cases op <;> rfl
  | bus op _ => cases op <;> rfl
  | handle p .enable => rfl
  | handle p .disable => rfl
  | handle p .isEnabled => rfl
  | handle p .lowPower => rfl
  | handle p (.setLowPower mode) =>
    show file.assignAll ((mode.modifications p).map Modification.assignment) =
      file.assignAll (mode.assignments p)
    unfold LowPowerMode.modifications LowPowerMode.assignments
    cases p.autonomousBit? <;> cases mode <;> rfl
  | handle p .reset =>
    let r := Register.gate .reset p.seat.group
    let mask := Word.single p.seat.bit
    show (file.assign (.sets r mask)).assign (.clears r mask) = file.assign (.clears r mask)
    rw [RegisterFile.assign_sets, RegisterFile.assign_clears, RegisterFile.assign_clears,
      RegisterFile.set_self, RegisterFile.set_set, Word.or_and_not]

theorem run_enclose_file {α : Type} (base : Word) (c : Call) (x : Routine α)
    (file : RegisterFile) : ((c.enclose x).run base file).file = (x.run base file).file := by
  cases c with
  | handle p op =>
      show ((Routine.critical x).run base file).file = _
      rw [Routine.run_critical]
  | gate g op m => rfl
  | autonomous op m => rfl
  | bus op s => rfl

theorem run_record_file (base : Word) (c : Call) (file : RegisterFile) :
    (c.record.run base file).file = file := by
  unfold record
  split <;> rfl

/-- **A call does what its footprint says.** -/
theorem run_file (base : Word) (c : Call) (file : RegisterFile) :
    (c.routine.run base file).file = file.assignAll c.assignments := by
  cases h : c.isQuery with
  | true =>
      rw [run_file_of_isQuery h, assignments_of_isQuery h]
      rfl
  | false =>
      rw [routine_of_mutating h, Routine.run_silent]
      show ((c.enclose _).run base file).file = _
      rw [run_enclose_file, Routine.run_bind_file, run_record_file, Modification.run_sequence_file,
        assignAll_modifications]

theorem run_program_file (base : Word) (cs : List Call) (file : RegisterFile) :
    ((program cs).run base file).file = file.assignAll (cs.flatMap assignments) := by
  induction cs generalizing file with
  | nil => rfl
  | cons c cs ih =>
      rw [run_program_cons, List.flatMap_cons, RegisterFile.assignAll_append, ← run_file base]
      exact ih _

end Call

end ClockGating
