import ClockGating.Mask.Expr

/-!
# Mask tables — many masks side by side

Masks are best understood next to each other. A table evaluates several expressions for one group on
one part and relates every mask to every other. An expression without a mask keeps its row and its
column, which stay blank.
-/

namespace ClockGating

/-- What an expression comes to: a refusal, no mask, or a mask. -/
abbrev MaskResult (g : Group) := Except Refusal (Option (Mask g))

namespace MaskResult

variable {g : Group}

def mask? : MaskResult g → Option (Mask g)
  | .ok m => m
  | .error _ => none

/-- One entry for each pair of results, row by row: whether their masks are related, or `none` if
either has no mask. -/
def relate (related : Mask g → Mask g → Bool) (results : List (MaskResult g)) :
    List (List (Option Bool)) :=
  results.map fun a => results.map fun b =>
    a.mask?.bind fun x => b.mask?.map fun y => related x y

end MaskResult

def MaskExpr.evalAll (d : Device) (g : Group) (exprs : List MaskExpr) : List (MaskResult g) :=
  exprs.map fun e => e.eval d g

end ClockGating
