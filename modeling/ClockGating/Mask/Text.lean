import ClockGating.Mask

/-!
# The written form of masks

A mask is written as the name of its kind and, in parentheses, its items joined by ` | `: the
current name of every selected peripheral that the part has, by ascending bit, and then, if any bits
are left over, all of these as one hexadecimal number. Earlier names are never written.
-/

namespace ClockGating.Mask

variable {g : Group}

/-- The peripherals of the part that a mask selects, by ascending bit. -/
def selected (d : Device) (m : Mask g) : List Peripheral :=
  (g.members d).filter fun p => (g.bit? p).any fun i => m.bits.getLsbD i

/-- The bits of a mask that belong to no peripheral of the part. -/
def unknown (d : Device) (m : Mask g) : Word := m.bits &&& ~~~(all d : Mask g).bits

def items (d : Device) (m : Mask g) : List String :=
  (selected d m).map Peripheral.name ++
    if unknown d m = 0 then [] else ["0x" ++ Word.hex (unknown d m)]

/-- The written form of a mask on a part. -/
def text (d : Device) (m : Mask g) : String :=
  g.maskName ++ "(" ++ String.intercalate " | " (items d m) ++ ")"

end ClockGating.Mask
