import ClockGating.Gating

/-!
# Handles — the clock of a single peripheral

A driver that owns one peripheral works on that peripheral's bits alone. Handles of different
peripherals share registers, so every operation that changes one is a critical section; the queries
are plain reads. `HandleRow.table` lists the handles of the family; by `Device.handles_eq`, a part
has one for each of its peripherals except the memories.

A handle also has a low-power mode, spread over two registers: the Sleep/Stop bit of the peripheral
and, in the SmartRun domain, its autonomous mode bit. `Peripheral.modeIn` is the mode that a
register file stands for, and `run_lowPower` says that this is what a query answers.
-/

namespace ClockGating

/-! ## Low-power modes -/

/-- What becomes of a peripheral's clock when the part goes to sleep. -/
inductive LowPowerMode where
  /-- There is no clock in Sleep and Stop modes. -/
  | off
  /-- The clock keeps running in Sleep and Stop modes. -/
  | enabled
  /-- As `enabled`, and the peripheral may also request its clock in Stop modes. A peripheral
  outside the SmartRun domain cannot; for it this is the same as `enabled`. -/
  | autonomous
deriving DecidableEq

/-- A peripheral keeps its clock unless it is told otherwise. -/
instance : Inhabited LowPowerMode := ⟨.enabled⟩

def LowPowerMode.name : LowPowerMode → String
  | off => "Off"
  | enabled => "Enabled"
  | autonomous => "Autonomous"

/-! ## Operations -/

namespace Peripheral

def clockMask (p : Peripheral) : Mask (.bus p.seat.group) := Mask.ofBit p.seat.bit

def enable (p : Peripheral) : Routine Unit :=
  Routine.critical (p.seat.group.enableClock p.clockMask)

def disable (p : Peripheral) : Routine Unit :=
  Routine.critical (p.seat.group.disableClock p.clockMask)

/-- Put the peripheral into reset and take it out again. -/
def reset (p : Peripheral) : Routine Unit :=
  Routine.critical do
    p.seat.group.forceReset p.clockMask
    p.seat.group.releaseReset p.clockMask

def isEnabled (p : Peripheral) : Routine Bool := p.seat.group.isEnabledClock p.clockMask

def setStopSleep (p : Peripheral) (mode : LowPowerMode) : Routine Unit :=
  if mode = .off then
    p.seat.group.disableStopSleepClock p.clockMask
  else
    p.seat.group.enableStopSleepClock p.clockMask

/-- Set the autonomous mode bit as a mode asks, if the peripheral has one. -/
def setAutonomous (p : Peripheral) (mode : LowPowerMode) : Routine Unit :=
  match p.autonomousBit? with
  | none => pure ()
  | some i =>
    if mode = .autonomous then
      SmartRun.enableAutonomousClock (Mask.ofBit i)
    else
      SmartRun.disableAutonomousClock (Mask.ofBit i)

def setLowPower (p : Peripheral) (mode : LowPowerMode) : Routine Unit :=
  Routine.critical do
    p.setStopSleep mode
    p.setAutonomous mode

/-- The low-power mode. The autonomous mode bit is consulted only if the clock is kept at all. -/
def lowPower (p : Peripheral) : Routine LowPowerMode := do
  let kept ← p.seat.group.isEnabledStopSleepClock p.clockMask
  if !kept then
    return .off
  match p.autonomousBit? with
  | none => return .enabled
  | some i =>
    let requests ← SmartRun.isEnabledAutonomousClock (Mask.ofBit i)
    return if requests then .autonomous else .enabled

end Peripheral

/-! ## The table of handles -/

/-- A row of the table: the peripheral that a handle is for, the group that it works through,
whether it works through the autonomous mode word as well, and the optional hardware without which
a part has no such handle. -/
structure HandleRow where
  group : BusGroup
  peripheral : Peripheral
  auto : Bool
  needs : Option Capability

namespace HandleRow

def always (p : Peripheral) (g : BusGroup) : HandleRow := ⟨g, p, false, none⟩

def autonomous (p : Peripheral) (g : BusGroup) : HandleRow := ⟨g, p, true, none⟩

def onlyWith (c : Capability) (p : Peripheral) (g : BusGroup) : HandleRow := ⟨g, p, false, some c⟩

def inGroup (g : BusGroup) (rows : List (BusGroup → HandleRow)) : List HandleRow := rows.map (· g)

/-- All handles of the family. The running program may live in any of the memories, so there is no
row for one: see `map_peripheral_table`. -/
def table : List HandleRow :=
  inGroup .ahb1
    [always .gpdma1, always .cordic, always .fmac, always .mdf1, always .crc,
      onlyWith .jpeg .jpeg, always .tsc, always .ramcfg, onlyWith .dma2d .dma2d,
      onlyWith .gfxmmu .gfxmmu, onlyWith .gpu2d .gpu2d, onlyWith .dcache2 .dcache2, always .gtzc1,
      always .dcache1] ++
  inGroup .ahb2Grp1
    [always .gpioa, always .gpiob, always .gpioc, always .gpiod, always .gpioe,
      onlyWith .gpioFG .gpiof, onlyWith .gpioFG .gpiog, always .gpioh, onlyWith .gpioI .gpioi,
      onlyWith .gpioJ .gpioj, always .adc12, always .dcmiPssi, onlyWith .usbOtgFs .usbOtgFs,
      onlyWith .usbOtgHs .usbOtgHs, onlyWith .usbOtgHs .usbOtgHsPhy, onlyWith .crypto .aes,
      always .hash, always .rng, onlyWith .crypto .pka, onlyWith .crypto .saes,
      onlyWith .octospi2 .octospim, onlyWith .otfdec .otfdec1, onlyWith .otfdec .otfdec2,
      always .sdmmc1, onlyWith .sdmmc2 .sdmmc2] ++
  inGroup .ahb2Grp2
    [onlyWith .fmc .fmc, always .octospi1, onlyWith .octospi2 .octospi2, onlyWith .hspi .hspi1] ++
  inGroup .ahb3
    [autonomous .lpgpio1, always .pwr, autonomous .adc4, autonomous .dac1, autonomous .lpdma1,
      autonomous .adf1, always .gtzc2] ++
  inGroup .apb1Grp1
    [always .tim2, always .tim3, always .tim4, always .tim5, always .tim6, always .tim7,
      always .wwdg, always .spi2, always .usart2, always .usart3, always .uart4, always .uart5,
      always .i2c1, always .i2c2, always .crs] ++
  inGroup .apb1Grp2
    [always .i2c4, always .lptim2, onlyWith .i2c56 .i2c5, onlyWith .i2c56 .i2c6, always .fdcan1,
      always .ucpd1] ++
  inGroup .apb2
    [always .tim1, always .spi1, always .tim8, always .usart1, always .tim15, always .tim16,
      always .tim17, always .sai1, onlyWith .sai2 .sai2, onlyWith .usbFs .usb,
      onlyWith .gfxtim .gfxtim, onlyWith .ltdc .ltdc, onlyWith .dsi .dsi] ++
  inGroup .apb3
    [always .syscfg, autonomous .spi3, autonomous .lpuart1, autonomous .i2c3, autonomous .lptim1,
      autonomous .lptim3, autonomous .lptim4, autonomous .opamp, autonomous .comp, autonomous .vref,
      autonomous .rtcapb]

/-- **One seat a handle.** The rows say of group, autonomous mode bit and presence what the table of
the peripherals says, so a handle works on the seat of its peripheral. -/
theorem table_agrees : ∀ row ∈ table, row.group = row.peripheral.seat.group ∧
    row.auto = row.peripheral.autonomousBit?.isSome ∧ row.needs = row.peripheral.needs := by
  decide +kernel

/-- **No handle for a memory**, and one for everything else. -/
theorem map_peripheral_table :
    table.map peripheral = Peripheral.all.filter fun p => !p.isMemory := by
  decide +kernel

end HandleRow

namespace Device

/-- The peripherals of a part that have a handle. -/
def handles (d : Device) : List Peripheral :=
  (HandleRow.table.filter fun row => d.fulfils row.needs).map HandleRow.peripheral

/-- A driver can own the peripheral on the part. -/
def drivable (d : Device) (p : Peripheral) : Bool := d.handles.contains p

/-- The handles of a part are for all that the part has, except the memories. -/
theorem handles_eq (d : Device) :
    d.handles = (Peripheral.all.filter fun p => !p.isMemory).filter d.carries := by
  have needed : ∀ row ∈ HandleRow.table, d.fulfils row.needs = d.carries row.peripheral := by
    intro row hrow
    obtain ⟨_, _, needs⟩ := HandleRow.table_agrees row hrow
    rw [needs, carries]
  rw [handles, List.filter_congr needed, ← HandleRow.map_peripheral_table, List.filter_map]
  rfl

theorem mem_handles_iff {d : Device} {p : Peripheral} : p ∈ d.handles ↔ d.drivable p = true :=
  List.contains_iff_mem.symm

theorem drivable_iff {d : Device} {p : Peripheral} :
    d.drivable p = true ↔ d.carries p = true ∧ p.isMemory = false := by
  rw [← mem_handles_iff, handles_eq, List.mem_filter, List.mem_filter, Bool.not_eq_true']
  constructor
  · rintro ⟨⟨_, noMemory⟩, carried⟩
    exact ⟨carried, noMemory⟩
  · rintro ⟨carried, noMemory⟩
    exact ⟨⟨p.mem_all, noMemory⟩, carried⟩

/-- The names of a part's handles in alphabetical order. -/
def handleNames (d : Device) : List String :=
  (d.handles.map Peripheral.name).mergeSort fun a b => decide (a ≤ b)

def handleNamed? (d : Device) (s : String) : Option Peripheral :=
  (Peripheral.ofName? s).filter d.drivable

end Device

namespace Peripheral

/-! ## The mode that registers stand for -/

/-- The low-power mode of a peripheral in a register file, read off its two bits. -/
def modeIn (file : RegisterFile) (p : Peripheral) : LowPowerMode :=
  if (file (.gate .stopSleep p.seat.group)).getLsbD p.seat.bit then
    if p.autonomousBit?.any fun i => (file .autonomous).getLsbD i then .autonomous else .enabled
  else
    .off

/-- **The query reads the mode.** A run answers with the mode that the registers stand for and
changes none of them. -/
theorem run_lowPower (base : Word) (p : Peripheral) (file : RegisterFile) :
    (p.lowPower.run base file).result = p.modeIn file ∧ (p.lowPower.run base file).file = file := by
  unfold lowPower modeIn
  simp only [BusGroup.isEnabledStopSleepClock, SmartRun.isEnabledAutonomousClock, clockMask,
    Mask.bits_ofBit, Routine.bind_eq, Routine.run_bind, Register.run_testBits, Word.covers_single]
  cases (file (.gate .stopSleep p.seat.group)).getLsbD p.seat.bit with
  | false => exact ⟨rfl, rfl⟩
  | true =>
    cases p.autonomousBit? with
    | none => exact ⟨rfl, rfl⟩
    | some i =>
      simp only [Bool.not_true, Bool.false_eq_true, if_false, if_true, Routine.run_bind,
        Register.run_testBits, Word.covers_single]
      exact ⟨rfl, rfl⟩

end Peripheral

end ClockGating
