import ClockGating.Mask
import ClockGating.Refusal

/-!
# Mask expressions — masks as they are asked for

A request names masks by expressions: a name, a number that has to be a valid mask, a number cut
down to one, a number taken as it is, or a combination of other expressions. What an expression
means depends on the group and the part.

Evaluation has three outcomes. An expression with a fault is refused. One without a fault may still
have no mask, if a number in it is not valid. Otherwise it has a mask. A fault anywhere outweighs a
number that is not valid, and of two faults the leftmost is reported.
-/

namespace ClockGating

/-! ## Expressions -/

inductive MaskOp where
  /-- The union, as an operator. -/
  | or
  /-- The union, adding the second mask to the first. -/
  | orAssign
  /-- The union, as a function. -/
  | union
  | and
deriving DecidableEq

/-- A mask as it is asked for. -/
inductive MaskExpr where
  | name (s : String)
  /-- The mask with these bits, which have to be valid. -/
  | bits (n : Word)
  /-- The mask with the valid ones of these bits. -/
  | truncate (n : Word)
  /-- The mask with exactly these bits, valid or not. -/
  | raw (n : Word)
  | combine (op : MaskOp) (left right : MaskExpr)
  /-- What does not say which mask is meant. -/
  | malformed
deriving DecidableEq

/-- Any number of masks combined from left to right. One mask is itself, and none is malformed. -/
def MaskExpr.combineAll (op : MaskOp) : List MaskExpr → MaskExpr
  | [] => malformed
  | e :: es => es.foldl (combine op) e

/-! ## Evaluation -/

def MaskOp.apply {g : Group} : MaskOp → Mask g → Mask g → Mask g
  | or, a, b => a ||| b
  | orAssign, a, b => a ||| b
  | union, a, b => a.union b
  | and, a, b => a &&& b

namespace MaskExpr

/-- The mask of an expression, for a group on a part. -/
def eval (d : Device) (g : Group) : MaskExpr → Except Refusal (Option (Mask g))
  | name s => some <$> required (Mask.ofName? d g s) .unknownPeripheral
  | bits n => .ok (Mask.ofBits? d n)
  | truncate n => .ok (some (Mask.truncate d n))
  | raw n => .ok (some ⟨n⟩)
  | combine op left right => do
    let a ← left.eval d g
    let b ← right.eval d g
    return a.bind fun x => b.map fun y => op.apply x y
  | malformed => .error .malformed

/-- The mask of an expression that has to have one. -/
def resolve (d : Device) (g : Group) (e : MaskExpr) : Except Refusal (Mask g) := do
  let m ← e.eval d g
  required m .invalidBits

/-- The expression takes no number as it is, so all its bits are vouched for by the part. -/
def IsChecked : MaskExpr → Prop
  | raw _ => False
  | combine _ left right => left.IsChecked ∧ right.IsChecked
  | name _ | bits _ | truncate _ | malformed => True

end MaskExpr

end ClockGating
