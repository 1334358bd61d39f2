import ClockGating.Mask
import ClockGating.Routine

/-!
# Gating — the operations on groups and busses

Each operation on a group takes a mask of that group and acts on one register, so no operation
touches another group's peripherals. Two rules decide which primitive an operation is made from.

* Whatever starts a clock waits until the clock runs, because the caller may go on to use the
  peripheral at once. Whatever stops a clock, and either side of a reset, does not wait.
* A bus switch has inverted polarity: its bit is set to stop the bus and cleared to start it.

None of these operations is atomic. Between the read and the write of a modification something else
may write the same register, and its update is then lost.
-/

namespace ClockGating

/-! ## Bus groups -/

namespace BusGroup

def enableClock (g : BusGroup) (m : Mask (.bus g)) : Routine Unit :=
  (Register.gate .clock g).setAndSettle m.bits

def disableClock (g : BusGroup) (m : Mask (.bus g)) : Routine Unit :=
  (Register.gate .clock g).clearBits m.bits

def isEnabledClock (g : BusGroup) (m : Mask (.bus g)) : Routine Bool :=
  (Register.gate .clock g).testBits m.bits

def forceReset (g : BusGroup) (m : Mask (.bus g)) : Routine Unit :=
  (Register.gate .reset g).setBits m.bits

def releaseReset (g : BusGroup) (m : Mask (.bus g)) : Routine Unit :=
  (Register.gate .reset g).clearBits m.bits

def enableStopSleepClock (g : BusGroup) (m : Mask (.bus g)) : Routine Unit :=
  (Register.gate .stopSleep g).setAndSettle m.bits

def disableStopSleepClock (g : BusGroup) (m : Mask (.bus g)) : Routine Unit :=
  (Register.gate .stopSleep g).clearBits m.bits

def isEnabledStopSleepClock (g : BusGroup) (m : Mask (.bus g)) : Routine Bool :=
  (Register.gate .stopSleep g).testBits m.bits

end BusGroup

/-! ## The SmartRun domain -/

namespace SmartRun

/-- Let the selected peripherals request their clocks in Stop modes. -/
def enableAutonomousClock (m : Mask .smartRun) : Routine Unit :=
  Register.autonomous.setAndSettle m.bits

def disableAutonomousClock (m : Mask .smartRun) : Routine Unit :=
  Register.autonomous.clearBits m.bits

def isEnabledAutonomousClock (m : Mask .smartRun) : Routine Bool :=
  Register.autonomous.testBits m.bits

end SmartRun

/-! ## Bus switches -/

namespace BusSwitch

def word : BusSwitch → ConfigWord
  | ahb1 | ahb2Grp1 | ahb2Grp2 | apb1 | apb2 => .cfgr2
  | ahb3 | apb3 => .cfgr3

/-- The bit of a bus switch in its word. The polarity is inverted: a set bit stops the bus. -/
def bit : BusSwitch → Fin 32
  | ahb1 => 16
  | ahb2Grp1 => 17
  | ahb2Grp2 => 18
  | apb1 => 19
  | apb2 => 20
  | apb3 => 16
  | ahb3 => 17

/-- No two switches share a bit of one word. -/
theorem bit_injective {s t : BusSwitch} (hword : s.word = t.word) (hbit : s.bit = t.bit) :
    s = t := by
  cases s <;> cases t <;> simp_all [word, bit]

def register (s : BusSwitch) : Register := .config s.word

/-- The set bit that stops the bus. -/
def mask (s : BusSwitch) : Word := Word.single s.bit

def enableClock (s : BusSwitch) : Routine Unit := do
  s.register.clearAndSettle s.mask
  Routine.logRecord .trace (s.group.name ++ ": bus clock enabled")

/-- Stop the bus, and with it every peripheral on it but those that stay clocked. -/
def disableClock (s : BusSwitch) : Routine Unit := do
  s.register.setBits s.mask
  Routine.logRecord .trace (s.group.name ++ ": bus clock disabled")

def isEnabledClock (s : BusSwitch) : Routine Bool := do
  let stopped ← s.register.testBits s.mask
  return !stopped

end BusSwitch

end ClockGating
