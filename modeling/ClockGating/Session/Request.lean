import ClockGating.Call
import ClockGating.Mask.Expr

/-!
# Requests — steps as they are asked for

A program that has constrained the block holds the nine group handles. It may trade them for
peripheral handles, or make peripheral handles and keep the group handles beside them. An
`Ownership` says which handles are held.

A `Request` is a step as it is asked for, with names and mask expressions that may mean nothing. It
is resolved by `Request.resolve`, which looks at the part and at the ownership but never at a
register: the outcome is an `Action`, which cannot fail any more, or a `Refusal`. The checks are
made in a fixed order, because a request with several faults is refused for the first of them.
-/

namespace ClockGating

/-! ## Ownership -/

/-- Which handles a program holds. -/
inductive Ownership where
  | groups
  /-- The group handles, and peripheral handles beside them. -/
  | both
  /-- Peripheral handles, for which the group handles were given up. -/
  | peripherals
deriving DecidableEq

namespace Ownership

def hasGroups : Ownership → Bool
  | groups | both => true
  | peripherals => false

def hasPeripherals : Ownership → Bool
  | groups => false
  | both | peripherals => true

end Ownership

/-! ## Requests -/

/-- An operation that is asked for by group. -/
inductive GroupOp where
  | gate (op : GateOp)
  | autonomous (op : SwitchOp)
  | bus (op : SwitchOp)
deriving DecidableEq

/-- A step as it is asked for. What is left out or cannot be read is `none`; a name that is left out
names nothing, just as a name that nobody knows. -/
inductive Request where
  /-- Something other than the program writes a register. -/
  | poke (register : Option String) (value : Option Word)
  | constrain
  /-- Trade the group handles for peripheral handles. -/
  | trade
  /-- Make peripheral handles and keep the group handles. -/
  | share
  | handle (peripheral : Option String) (op : Option HandleOp)
  /-- Use the handle of a group. An operation that does not exist is `none`, and a step that says
  nothing at all is a use of no group for no operation. -/
  | group (op : Option GroupOp) (group : Option String) (mask : Option MaskExpr)
deriving DecidableEq

/-- A step that can be carried out. -/
inductive Action where
  | poke (register : Register) (value : Word)
  | constrain
  | trade
  | share
  | call (c : Call)
deriving DecidableEq

namespace Request

/-- The call of a group operation on a mask of that group. A bus group has no autonomous mode, and
the SmartRun domain has nothing else. Bus clocks are not switched by mask. -/
def callOn : (g : Group) → Mask g → Option GroupOp → Except Refusal Call
  | .bus g, m, some (.gate op) => .ok (.gate g op m)
  | .smartRun, m, some (.autonomous op) => .ok (.autonomous op m)
  | _, _, _ => .error .unsupported

/-- Resolve an operation on a group. A bus clock is switched without a mask, where the group has a
bus switch; for everything else the mask comes before the operation. -/
def resolveGroup (d : Device) (op : Option GroupOp) (groupName : Option String)
    (mask : Option MaskExpr) : Except Refusal Call := do
  let g ← required (groupName.bind Group.ofName?) .unknownGroup
  match op, g.switch? with
  | some (.bus op), some s => return .bus op s
  | _, _ =>
    let e ← required mask .malformed
    let m ← e.resolve d g
    callOn g m op

def resolveHandle (d : Device) (peripheral : Option String) (op : Option HandleOp) :
    Except Refusal Call := do
  let p ← required (peripheral.bind d.handleNamed?) .unknownHandle
  let op ← required op .malformed
  return .handle p op

/-- The action that a request asks for, or the reason why there is none. Whether the needed handles
are held is looked at first. -/
def resolve (d : Device) (held : Ownership) : Request → Except Refusal Action
  | poke register value => do
    let r ← required (register.bind Register.ofName?) .unknownRegister
    let v ← required value .malformed
    return .poke r v
  | constrain => .ok .constrain
  | trade => if held.hasGroups then .ok .trade else .error .groupsTraded
  | share => if held.hasGroups then .ok .share else .error .groupsTraded
  | handle peripheral op =>
    if held.hasPeripherals then .call <$> resolveHandle d peripheral op else .error .noHandles
  | group op groupName mask =>
    if held.hasGroups then .call <$> resolveGroup d op groupName mask else .error .groupsTraded

end Request

end ClockGating
