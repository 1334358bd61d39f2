import ClockGating.Session

/-!
# Footprints — what an action assigns, bit by bit

A routine says in which order registers are accessed. A footprint forgets the order and the accesses
and says what the action is for: which bits of which registers take which values, and which bits it
looks at. The footprint of an action is written down here from its meaning and not computed from its
routine, so the two can be compared.

The abstract side of that comparison is a store of single bits. A list of assignments determines it
by a simple rule, `lastAssigned`: a bit has the value that was assigned to it last.
-/

namespace ClockGating

/-! ## Assignments -/

/-- The bits of `mask` in one register take the values that they have in `value`. -/
structure Assignment where
  register : Register
  mask : Word
  value : Word
deriving DecidableEq

namespace Assignment

def sets (r : Register) (mask : Word) : Assignment := ⟨r, mask, mask⟩

def clears (r : Register) (mask : Word) : Assignment := ⟨r, mask, 0⟩

def fills (r : Register) (value : Word) : Assignment := ⟨r, BitVec.allOnes 32, value⟩

/-- The assignment is about this bit of this register. -/
def names (a : Assignment) (r : Register) (i : Fin 32) : Bool :=
  a.register == r && a.mask.getLsbD i

theorem names_iff {a : Assignment} {r : Register} {i : Fin 32} :
    a.names r i = true ↔ a.register = r ∧ a.mask.getLsbD i = true := by
  rw [names, Bool.and_eq_true, beq_iff_eq]

end Assignment

/-- The value that is assigned to a bit last, if any is. -/
def lastAssigned (assignments : List Assignment) (r : Register) (i : Fin 32) : Option Bool :=
  (assignments.reverse.find? fun a => a.names r i).map fun a => a.value.getLsbD i

@[simp] theorem lastAssigned_nil (r : Register) (i : Fin 32) : lastAssigned [] r i = none := rfl

/-- One more assignment decides the bits that it names and leaves all others to the earlier ones. -/
theorem lastAssigned_snoc (assignments : List Assignment) (a : Assignment) (r : Register)
    (i : Fin 32) :
    lastAssigned (assignments ++ [a]) r i =
      if a.names r i then some (a.value.getLsbD i) else lastAssigned assignments r i := by
  cases h : a.names r i <;> simp [lastAssigned, h]

/-- A bit to which nothing is assigned is one that nobody names. -/
theorem lastAssigned_eq_none_iff {assignments : List Assignment} {r : Register} {i : Fin 32} :
    lastAssigned assignments r i = none ↔ ∀ a ∈ assignments, a.names r i = false := by
  simp only [lastAssigned, Option.map_eq_none_iff, List.find?_eq_none, List.mem_reverse,
    Bool.not_eq_true]

/-! ## What calls assign -/

def GateOp.assignments (op : GateOp) (g : BusGroup) (mask : Word) : List Assignment :=
  match op with
  | enableClock => [.sets (.gate .clock g) mask]
  | disableClock => [.clears (.gate .clock g) mask]
  | forceReset => [.sets (.gate .reset g) mask]
  | releaseReset => [.clears (.gate .reset g) mask]
  | enableStopSleepClock => [.sets (.gate .stopSleep g) mask]
  | disableStopSleepClock => [.clears (.gate .stopSleep g) mask]
  | isEnabledClock | isEnabledStopSleepClock => []

def SwitchOp.autonomousAssignments (op : SwitchOp) (mask : Word) : List Assignment :=
  match op with
  | enable => [.sets .autonomous mask]
  | disable => [.clears .autonomous mask]
  | isEnabled => []

def SwitchOp.busAssignments (op : SwitchOp) (s : BusSwitch) : List Assignment :=
  match op with
  | enable => [.clears (.config s.word) (Word.single s.bit)]
  | disable => [.sets (.config s.word) (Word.single s.bit)]
  | isEnabled => []

/-- What setting a low-power mode assigns: one bit, and one more in the SmartRun domain. -/
def LowPowerMode.assignments (mode : LowPowerMode) (p : Peripheral) : List Assignment :=
  let kept := Word.single p.seat.bit
  let stopSleep : Assignment :=
    if mode = .off then .clears (.gate .stopSleep p.seat.group) kept
    else .sets (.gate .stopSleep p.seat.group) kept
  match p.autonomousBit? with
  | none => [stopSleep]
  | some i =>
    [stopSleep,
      if mode = .autonomous then .sets .autonomous (Word.single i)
      else .clears .autonomous (Word.single i)]

/-- What an operation of a peripheral handle assigns. A reset is over when it returns. -/
def HandleOp.assignments (op : HandleOp) (p : Peripheral) : List Assignment :=
  let mask := Word.single p.seat.bit
  match op with
  | enable => [.sets (.gate .clock p.seat.group) mask]
  | disable => [.clears (.gate .clock p.seat.group) mask]
  | reset => [.clears (.gate .reset p.seat.group) mask]
  | setLowPower mode => mode.assignments p
  | isEnabled | lowPower => []

def Call.assignments : Call → List Assignment
  | gate g op m => op.assignments g m.bits
  | autonomous op m => op.autonomousAssignments m.bits
  | bus op s => op.busAssignments s
  | handle p op => op.assignments p

/-- What an action assigns. A change of ownership assigns nothing. -/
def Action.assignments : Action → List Assignment
  | poke r v => [.fills r v]
  | constrain | trade | share => []
  | call c => c.assignments

/-! ## What calls look at -/

/-- The bits whose values decide the reply of a call. -/
def Call.observed : Call → List (Register × Word)
  | gate g .isEnabledClock m => [(.gate .clock g, m.bits)]
  | gate g .isEnabledStopSleepClock m => [(.gate .stopSleep g, m.bits)]
  | autonomous .isEnabled m => [(.autonomous, m.bits)]
  | bus .isEnabled s => [(.config s.word, Word.single s.bit)]
  | handle p .isEnabled => [(.gate .clock p.seat.group, Word.single p.seat.bit)]
  | handle p .lowPower =>
    (.gate .stopSleep p.seat.group, Word.single p.seat.bit) ::
      p.autonomousBit?.toList.map fun i => (.autonomous, Word.single i)
  | _ => []

/-- The bits of a register that a call assigns or looks at. -/
def Call.touched (c : Call) (r : Register) : Word :=
  let assigned := c.assignments.filterMap fun a => if a.register = r then some a.mask else none
  let observed := c.observed.filterMap fun (s, mask) => if s = r then some mask else none
  (assigned ++ observed).foldr (· ||| ·) 0

/-- No bit of any register is touched by both calls. -/
def Call.Disjoint (c d : Call) : Prop := ∀ r, c.touched r &&& d.touched r = 0

end ClockGating
