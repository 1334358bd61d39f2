import ClockGating.Group
import ClockGating.Word

/-!
# Registers — the words of the gating block and their contents

The block holds three banks of words (clock enable, reset, Sleep/Stop clock), each with one word per
bus group and in the same order, two configuration words with the bus switches, and the autonomous
mode word of the SmartRun domain: 27 in all. A `Register` is named by what it is for, so "the reset
word of AHB3" and "the clock word of AHB3" are different registers by construction.

- `Register.address` — where a register stands in the address space, for a given base of the block;
  `Register.address_injective` says that no two registers share an address.
- `RegisterFile` — the contents of all registers, with one lemma for reading after writing.
-/

namespace ClockGating

/-! ## The register map -/

/-- What the bits of a bank's words control. -/
inductive Bank where
  /-- A set bit gives a peripheral its clock. -/
  | clock
  /-- A set bit holds a peripheral in reset. -/
  | reset
  /-- A set bit keeps the clock of a peripheral running in Sleep and Stop modes. -/
  | stopSleep
deriving DecidableEq

/-- The configuration words that hold bus switches. -/
inductive ConfigWord where
  | cfgr2
  | cfgr3
deriving DecidableEq

/-- A register of the gating block. -/
inductive Register where
  | config (word : ConfigWord)
  | gate (bank : Bank) (group : BusGroup)
  | autonomous
deriving DecidableEq

def Bank.all : List Bank := [reset, clock, stopSleep]

/-- The part of a register name that stands for its bank. -/
def Bank.name : Bank → String
  | clock => "ENR"
  | reset => "RSTR"
  | stopSleep => "SMENR"

def Bank.offset : Bank → Word
  | reset => 0x60
  | clock => 0x88
  | stopSleep => 0xb0

/-- Where the word of a group stands in each bank. One word after that of AHB3 is left out. -/
def BusGroup.offset : BusGroup → Word
  | ahb1 => 0x00
  | ahb2Grp1 => 0x04
  | ahb2Grp2 => 0x08
  | ahb3 => 0x0c
  | apb1Grp1 => 0x14
  | apb1Grp2 => 0x18
  | apb2 => 0x1c
  | apb3 => 0x20

namespace Register

/-- All registers, in the order of their offsets. -/
def all : List Register :=
  [config .cfgr2, config .cfgr3] ++ (Bank.all.flatMap fun b => BusGroup.all.map (gate b)) ++
    [autonomous]

theorem mem_all (r : Register) : r ∈ all := by
  cases r with
  | config w => cases w <;> decide
  | gate b g => cases b <;> cases g <;> decide
  | autonomous => decide

/-- The name of a register: for a bank, the bus, the bank and the half of the bus. -/
def name : Register → String
  | config .cfgr2 => "CFGR2"
  | config .cfgr3 => "CFGR3"
  | gate b g => g.busName ++ b.name ++ g.half
  | autonomous => "SRDAMR"

def ofName? (s : String) : Option Register := all.find? fun r => r.name == s

theorem ofName?_name (r : Register) : ofName? r.name = some r := by
  have found : ∀ r ∈ all, ofName? r.name = some r := by decide +kernel
  exact found r (mem_all r)

def offset : Register → Word
  | config .cfgr2 => 0x20
  | config .cfgr3 => 0x24
  | gate b g => b.offset + g.offset
  | autonomous => 0xd8

/-- The absolute address of a register, for a block that begins at `base`. -/
def address (base : Word) (r : Register) : Word := base + r.offset

theorem offset_injective {r s : Register} (h : r.offset = s.offset) : r = s := by
  have distinct : ∀ r ∈ all, ∀ s ∈ all, r.offset = s.offset → r = s := by decide +kernel
  exact distinct r (mem_all r) s (mem_all s) h

/-- **No aliasing.** No two registers share an address, wherever the block begins. -/
theorem address_injective {base : Word} {r s : Register} (h : r.address base = s.address base) :
    r = s :=
  offset_injective (BitVec.add_right_inj base |>.mp h)

/-- The register at an absolute address, if the address is that of a register. -/
def atAddress? (base addr : Word) : Option Register := all.find? fun r => r.address base == addr

theorem eq_address_of_atAddress? {base addr : Word} {r : Register}
    (h : atAddress? base addr = some r) : addr = r.address base := by
  have found := List.find?_some h
  exact (beq_iff_eq.mp found).symm

theorem atAddress?_address (base : Word) (r : Register) :
    atAddress? base (r.address base) = some r := by
  cases h : atAddress? base (r.address base) with
  | none =>
    have hr := List.find?_eq_none.mp h r (mem_all r)
    simp at hr
  | some s => exact congrArg some (address_injective (eq_address_of_atAddress? h).symm)

end Register

/-! ## Register files -/

abbrev RegisterFile := Register → Word

namespace RegisterFile

def filled (w : Word) : RegisterFile := fun _ => w

/-- The file after `r` has been given the contents `w`. -/
def set (file : RegisterFile) (r : Register) (w : Word) : RegisterFile :=
  fun s => if s = r then w else file s

/-- A register holds what was last written to it, and keeps it while others are written. -/
theorem set_apply (file : RegisterFile) (r s : Register) (w : Word) :
    file.set r w s = if s = r then w else file s := rfl

@[simp] theorem set_self (file : RegisterFile) (r : Register) (w : Word) :
    file.set r w r = w := by
  simp [set_apply]

@[simp] theorem set_of_ne (file : RegisterFile) {r s : Register} (w : Word) (h : s ≠ r) :
    file.set r w s = file s := by
  simp [set_apply, h]

@[simp] theorem set_eq_self (file : RegisterFile) (r : Register) : file.set r (file r) = file := by
  funext s
  by_cases h : s = r
  · rw [h, set_self]
  · rw [set_of_ne _ _ h]

theorem set_eq_self_iff {file : RegisterFile} {r : Register} {w : Word} :
    file.set r w = file ↔ w = file r := by
  constructor
  · intro h
    rw [← h, set_self]
  · rintro rfl
    exact set_eq_self file r

/-- Of two writes to one register the later one stays. -/
@[simp] theorem set_set (file : RegisterFile) (r : Register) (v w : Word) :
    (file.set r v).set r w = file.set r w := by
  funext s
  by_cases h : s = r
  · rw [h, set_self, set_self]
  · rw [set_of_ne _ _ h, set_of_ne _ _ h, set_of_ne _ _ h]

/-- The registers whose contents differ from `w`, in the order of the register map. -/
def changedFrom (file : RegisterFile) (w : Word) : List (Register × Word) :=
  (Register.all.map fun r => (r, file r)).filter fun (_, v) => v != w

theorem mem_changedFrom {file : RegisterFile} {w v : Word} {r : Register} :
    (r, v) ∈ file.changedFrom w ↔ file r = v ∧ v ≠ w := by
  rw [changedFrom, List.mem_filter, List.mem_map, bne_iff_ne]
  constructor
  · rintro ⟨⟨s, _, hs⟩, hv⟩
    cases hs
    exact ⟨rfl, hv⟩
  · rintro ⟨rfl, hv⟩
    exact ⟨⟨r, Register.mem_all r, rfl⟩, hv⟩

end RegisterFile

end ClockGating
