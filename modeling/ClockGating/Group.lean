/-!
# Groups — the segments of the bus matrix

Peripherals are gated in groups. Each of the eight `BusGroup`s is one segment of an AHB or APB bus
with a clock enable, a reset and a Sleep/Stop word of its own. The SmartRun domain is a ninth
`Group`: it has no clock words, only the word that lets a peripheral request its clock while the
part is stopped.

Seven of the bus groups can also be gated as a whole (`BusSwitch`). APB1 is one bus in two groups:
its switch belongs to the first group and stops the peripherals of both.
-/

namespace ClockGating

/-! ## Bus groups -/

/-- A segment of the bus matrix, gated by one family of words. -/
inductive BusGroup where
  | ahb1
  | ahb2Grp1
  | ahb2Grp2
  | ahb3
  | apb1Grp1
  | apb1Grp2
  | apb2
  | apb3
deriving DecidableEq

namespace BusGroup

def all : List BusGroup := [ahb1, ahb2Grp1, ahb2Grp2, ahb3, apb1Grp1, apb1Grp2, apb2, apb3]

theorem mem_all (g : BusGroup) : g ∈ all := by
  cases g <;> decide

/-- The name of a bus group, also in log records. -/
def name : BusGroup → String
  | ahb1 => "AHB1"
  | ahb2Grp1 => "AHB2GRP1"
  | ahb2Grp2 => "AHB2GRP2"
  | ahb3 => "AHB3"
  | apb1Grp1 => "APB1GRP1"
  | apb1Grp2 => "APB1GRP2"
  | apb2 => "APB2"
  | apb3 => "APB3"

def busName : BusGroup → String
  | ahb1 => "AHB1"
  | ahb2Grp1 | ahb2Grp2 => "AHB2"
  | ahb3 => "AHB3"
  | apb1Grp1 | apb1Grp2 => "APB1"
  | apb2 => "APB2"
  | apb3 => "APB3"

/-- The digit that tells the two groups of a divided bus apart in register names. -/
def half : BusGroup → String
  | ahb2Grp1 | apb1Grp1 => "1"
  | ahb2Grp2 | apb1Grp2 => "2"
  | ahb1 | ahb3 | apb2 | apb3 => ""

end BusGroup

/-! ## Groups -/

/-- A set of peripherals that are gated together: a bus group, or the SmartRun domain. -/
inductive Group where
  | bus (g : BusGroup)
  | smartRun
deriving DecidableEq

namespace Group

def all : List Group := BusGroup.all.map bus ++ [smartRun]

theorem mem_all (g : Group) : g ∈ all := by
  cases g with
  | smartRun => decide
  | bus g => exact List.mem_append_left _ (List.mem_map_of_mem (BusGroup.mem_all g))

/-- The name of a group. The SmartRun domain goes by the name of its only register. -/
def name : Group → String
  | bus g => g.name
  | smartRun => "SRDAMR"

/-- The name under which masks of a group are written. -/
def maskName : Group → String
  | bus .ahb1 => "Ahb1Periphs"
  | bus .ahb2Grp1 => "Ahb2Grp1Periphs"
  | bus .ahb2Grp2 => "Ahb2Grp2Periphs"
  | bus .ahb3 => "Ahb3Periphs"
  | bus .apb1Grp1 => "Apb1Grp1Periphs"
  | bus .apb1Grp2 => "Apb1Grp2Periphs"
  | bus .apb2 => "Apb2Periphs"
  | bus .apb3 => "Apb3Periphs"
  | smartRun => "SrdAmrPeriphs"

def ofName? (s : String) : Option Group := all.find? fun g => g.name == s

theorem ofName?_name (g : Group) : ofName? g.name = some g := by
  have found : ∀ g ∈ all, ofName? g.name = some g := by decide +kernel
  exact found g (mem_all g)

end Group

/-! ## Bus switches -/

/-- A bus clock that can be stopped as a whole. -/
inductive BusSwitch where
  | ahb1
  | ahb2Grp1
  | ahb2Grp2
  | ahb3
  | apb1
  | apb2
  | apb3
deriving DecidableEq

namespace BusSwitch

/-- The group through which a bus is switched. -/
def group : BusSwitch → BusGroup
  | ahb1 => .ahb1
  | ahb2Grp1 => .ahb2Grp1
  | ahb2Grp2 => .ahb2Grp2
  | ahb3 => .ahb3
  | apb1 => .apb1Grp1
  | apb2 => .apb2
  | apb3 => .apb3

end BusSwitch

namespace Group

/-- The bus switch that belongs to a group. The second group of APB1 and the SmartRun domain have
none. -/
def switch? : Group → Option BusSwitch
  | bus .ahb1 => some .ahb1
  | bus .ahb2Grp1 => some .ahb2Grp1
  | bus .ahb2Grp2 => some .ahb2Grp2
  | bus .ahb3 => some .ahb3
  | bus .apb1Grp1 => some .apb1
  | bus .apb1Grp2 => none
  | bus .apb2 => some .apb2
  | bus .apb3 => some .apb3
  | smartRun => none

/-- A group has a bus switch exactly when the switch names it as its group. -/
theorem switch?_eq_some_iff {g : Group} {s : BusSwitch} :
    g.switch? = some s ↔ g = bus s.group := by
  cases g with
  | smartRun => simp [switch?]
  | bus g => cases g <;> cases s <;> simp [switch?, BusSwitch.group]

end Group

theorem BusSwitch.group_injective {s s' : BusSwitch} (h : s.group = s'.group) : s = s' := by
  have switch := Group.switch?_eq_some_iff.mpr (congrArg Group.bus h)
  exact Option.some.inj ((Group.switch?_eq_some_iff.mpr rfl).symm.trans switch)

end ClockGating
