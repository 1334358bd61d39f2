/-!
# Refusals — why a request is not carried out

No operation on registers can fail, so everything here is about requests: names that mean nothing on
the part, masks that are no set of its peripherals, operations that a group does not have, and
handles that are not at hand. One cause is one constructor; which of two causes is reported is
decided where a request is resolved.
-/

namespace ClockGating

/-- The reason why a request is refused. -/
inductive Refusal where
  /-- Something is missing, or is not of the kind that belongs there. -/
  | malformed
  | unknownGroup
  /-- The group has no mask of this name on this part. -/
  | unknownPeripheral
  | unknownRegister
  /-- A number selects more than the peripherals of the group on this part. -/
  | invalidBits
  | unsupported
  | groupsTraded
  /-- Peripheral handles have not been made. -/
  | noHandles
  | unknownHandle
deriving DecidableEq

/-- What has to be there for a request to be carried out. If it is missing, that is the cause. -/
def required {α : Type} (x : Option α) (cause : Refusal) : Except Refusal α :=
  match x with
  | some a => .ok a
  | none => .error cause

end ClockGating
