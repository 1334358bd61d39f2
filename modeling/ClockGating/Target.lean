import ClockGating.Device
import ClockGating.Routine

/-!
# Targets — what a program is built for

The block appears twice in the address space: once for programs of the secure world and once for the
others. A program is built for a part and for one of the two, and this decides the address of every
register that it accesses. Nothing else about a routine depends on it.
-/

namespace ClockGating

/-- What a program is built for: a part, and the secure or the non-secure alias of its registers. -/
structure Target where
  device : Device
  secure : Bool
deriving DecidableEq

def secureBase : Word := 0x56020c00

def nonsecureBase : Word := 0x46020c00

/-- Where the gating block begins for a target. -/
def Target.base (t : Target) : Word := if t.secure then secureBase else nonsecureBase

/-- Take possession of the block. This only leaves a record. -/
def Target.constrain (t : Target) : Routine Unit :=
  Routine.logRecord .debug
    ("RCC constrained at 0x" ++ Word.hex t.base ++ " (" ++ t.device.partNumber ++ ")")

end ClockGating
