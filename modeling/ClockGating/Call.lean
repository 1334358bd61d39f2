import ClockGating.Handle

/-!
# Calls — the operations as data

Everything a program can do to the block, once masks have been evaluated and names resolved, is one
`Call`. A call is data, so that programs can be lists of calls: they can be compared, reordered and
divided among several owners. `Call.routine` says what a call does, and its `Reply` what it answers.
-/

namespace ClockGating

/-! ## Operations -/

/-- What can be done to peripherals of a bus group. -/
inductive GateOp where
  | enableClock
  | disableClock
  | isEnabledClock
  | forceReset
  | releaseReset
  | enableStopSleepClock
  | disableStopSleepClock
  | isEnabledStopSleepClock
deriving DecidableEq

/-- What can be done to a clock that is only switched: that of a bus, and that which the SmartRun
domain requests. -/
inductive SwitchOp where
  | enable
  | disable
  | isEnabled
deriving DecidableEq

/-- What can be done with the handle of a peripheral. -/
inductive HandleOp where
  | enable
  | disable
  | reset
  | isEnabled
  | setLowPower (mode : LowPowerMode)
  | lowPower
deriving DecidableEq

/-- An operation with all that it is applied to. -/
inductive Call where
  | gate (group : BusGroup) (op : GateOp) (mask : Mask (.bus group))
  | autonomous (op : SwitchOp) (mask : Mask .smartRun)
  | bus (op : SwitchOp) (switch : BusSwitch)
  | handle (peripheral : Peripheral) (op : HandleOp)
deriving DecidableEq

/-! ## Replies -/

inductive Reply where
  | nothing
  | flag (value : Bool)
  | mode (value : LowPowerMode)
deriving DecidableEq

def Routine.silent (x : Routine Unit) : Routine Reply := do
  x
  return .nothing

def Routine.flagged (x : Routine Bool) : Routine Reply := do
  return .flag (← x)

/-! ## Routines -/

def GateOp.routine (op : GateOp) (g : BusGroup) (m : Mask (.bus g)) : Routine Reply :=
  match op with
  | enableClock => (g.enableClock m).silent
  | disableClock => (g.disableClock m).silent
  | isEnabledClock => (g.isEnabledClock m).flagged
  | forceReset => (g.forceReset m).silent
  | releaseReset => (g.releaseReset m).silent
  | enableStopSleepClock => (g.enableStopSleepClock m).silent
  | disableStopSleepClock => (g.disableStopSleepClock m).silent
  | isEnabledStopSleepClock => (g.isEnabledStopSleepClock m).flagged

def SwitchOp.autonomousRoutine (op : SwitchOp) (m : Mask .smartRun) : Routine Reply :=
  match op with
  | enable => (SmartRun.enableAutonomousClock m).silent
  | disable => (SmartRun.disableAutonomousClock m).silent
  | isEnabled => (SmartRun.isEnabledAutonomousClock m).flagged

def SwitchOp.busRoutine (op : SwitchOp) (s : BusSwitch) : Routine Reply :=
  match op with
  | enable => s.enableClock.silent
  | disable => s.disableClock.silent
  | isEnabled => s.isEnabledClock.flagged

def HandleOp.routine (op : HandleOp) (p : Peripheral) : Routine Reply :=
  match op with
  | enable => p.enable.silent
  | disable => p.disable.silent
  | reset => p.reset.silent
  | isEnabled => p.isEnabled.flagged
  | setLowPower mode => (p.setLowPower mode).silent
  | lowPower => do return .mode (← p.lowPower)

namespace Call

def routine : Call → Routine Reply
  | gate g op m => op.routine g m
  | autonomous op m => op.autonomousRoutine m
  | bus op s => op.busRoutine s
  | handle p op => op.routine p

/-- Calls one after another, with all their replies. -/
def program : List Call → Routine (List Reply)
  | [] => return []
  | c :: cs => do
    let reply ← c.routine
    let replies ← program cs
    return reply :: replies

/-- A program runs its first call, and the others on the registers that this has left. -/
theorem run_program_cons (base : Word) (c : Call) (cs : List Call) (file : RegisterFile) :
    (program (c :: cs)).run base file =
      let first := c.routine.run base file
      let rest := (program cs).run base first.file
      ⟨first.result :: rest.result, rest.file, first.events ++ rest.events⟩ := by
  show (c.routine.bind fun reply => (program cs).bind fun replies =>
    .done (reply :: replies)).run base file = _
  simp [Routine.run_bind, Routine.run]

/-- The call asks and changes nothing. -/
def isQuery : Call → Bool
  | gate _ .isEnabledClock _ | gate _ .isEnabledStopSleepClock _ => true
  | autonomous .isEnabled _ | bus .isEnabled _ => true
  | handle _ .isEnabled | handle _ .lowPower => true
  | _ => false

theorem run_file_of_isQuery {c : Call} (h : c.isQuery = true) (base : Word) (file : RegisterFile) :
    (c.routine.run base file).file = file := by
  match c, h with
  | gate _ .isEnabledClock _, _ => rfl
  | gate _ .isEnabledStopSleepClock _, _ => rfl
  | autonomous .isEnabled _, _ => rfl
  | bus .isEnabled _, _ => rfl
  | handle _ .isEnabled, _ => rfl
  | handle p .lowPower, _ =>
    have kept := (p.run_lowPower base file).2
    simpa [routine, HandleOp.routine, Routine.run_bind, Routine.run] using kept

end Call

end ClockGating
