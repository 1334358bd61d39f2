import ClockGating.Device
import ClockGating.Group
import ClockGating.Word

/-!
# Peripherals — what is gated, where, and on which parts

Every gated peripheral has one `Seat`: a bus group and a bit, the same bit in the clock enable, the
reset and the Sleep/Stop word of that group. A peripheral of the SmartRun domain has a second bit,
in general a different one, in the autonomous mode word. This file is the table of both, with

- `Device.carries` — which parts have a peripheral;
- `Peripheral.isMemory` — the memories, which keep their clock while their bus is switched off;
- `Group.members` — the peripherals of a group on a part, by ascending bit;
- `Group.bit?_injective` — on any one part, no two peripherals of a group share a bit.
-/

namespace ClockGating

/-! ## The peripherals -/

/-- A peripheral whose clock is gated. -/
inductive Peripheral where
  -- AHB1
  | gpdma1 | cordic | fmac | mdf1 | flash | crc | jpeg | tsc | ramcfg | dma2d | gfxmmu | gpu2d
  | dcache2 | gtzc1 | bkpsram | dcache1 | sram1
  -- AHB2, first half
  | gpioa | gpiob | gpioc | gpiod | gpioe | gpiof | gpiog | gpioh | gpioi | gpioj | adc12
  | dcmiPssi | usbOtgFs | usbOtgHs | usbOtgHsPhy | aes | hash | rng | pka | saes | octospim
  | otfdec1 | otfdec2 | sdmmc1 | sdmmc2 | sram2 | sram3
  -- AHB2, second half
  | fmc | octospi1 | octospi2 | hspi1 | sram6 | sram5
  -- AHB3
  | lpgpio1 | pwr | adc4 | dac1 | lpdma1 | adf1 | gtzc2 | sram4
  -- APB1, first half
  | tim2 | tim3 | tim4 | tim5 | tim6 | tim7 | wwdg | spi2 | usart2 | usart3 | uart4 | uart5
  | i2c1 | i2c2 | crs
  -- APB1, second half
  | i2c4 | lptim2 | i2c5 | i2c6 | fdcan1 | ucpd1
  -- APB2
  | tim1 | spi1 | tim8 | usart1 | tim15 | tim16 | tim17 | sai1 | sai2 | usb | gfxtim | ltdc | dsi
  -- APB3
  | syscfg | spi3 | lpuart1 | i2c3 | lptim1 | lptim3 | lptim4 | opamp | comp | vref | rtcapb
deriving DecidableEq

namespace Peripheral

/-- All peripherals, group by group and by ascending bit within a group. -/
def all : List Peripheral :=
  [gpdma1, cordic, fmac, mdf1, flash, crc, jpeg, tsc, ramcfg, dma2d, gfxmmu, gpu2d, dcache2,
    gtzc1, bkpsram, dcache1, sram1, gpioa, gpiob, gpioc, gpiod, gpioe, gpiof, gpiog, gpioh,
    gpioi, gpioj, adc12, dcmiPssi, usbOtgFs, usbOtgHs, usbOtgHsPhy, aes, hash, rng, pka, saes,
    octospim, otfdec1, otfdec2, sdmmc1, sdmmc2, sram2, sram3, fmc, octospi1, octospi2, hspi1,
    sram6, sram5, lpgpio1, pwr, adc4, dac1, lpdma1, adf1, gtzc2, sram4, tim2, tim3, tim4, tim5,
    tim6, tim7, wwdg, spi2, usart2, usart3, uart4, uart5, i2c1, i2c2, crs, i2c4, lptim2, i2c5,
    i2c6, fdcan1, ucpd1, tim1, spi1, tim8, usart1, tim15, tim16, tim17, sai1, sai2, usb, gfxtim,
    ltdc, dsi, syscfg, spi3, lpuart1, i2c3, lptim1, lptim3, lptim4, opamp, comp, vref, rtcapb]

theorem mem_all (p : Peripheral) : p ∈ all := by
  cases p <;> decide

def name : Peripheral → String
  | gpdma1 => "GPDMA1"
  | cordic => "CORDIC"
  | fmac => "FMAC"
  | mdf1 => "MDF1"
  | flash => "FLASH"
  | crc => "CRC"
  | jpeg => "JPEG"
  | tsc => "TSC"
  | ramcfg => "RAMCFG"
  | dma2d => "DMA2D"
  | gfxmmu => "GFXMMU"
  | gpu2d => "GPU2D"
  | dcache2 => "DCACHE2"
  | gtzc1 => "GTZC1"
  | bkpsram => "BKPSRAM"
  | dcache1 => "DCACHE1"
  | sram1 => "SRAM1"
  | gpioa => "GPIOA"
  | gpiob => "GPIOB"
  | gpioc => "GPIOC"
  | gpiod => "GPIOD"
  | gpioe => "GPIOE"
  | gpiof => "GPIOF"
  | gpiog => "GPIOG"
  | gpioh => "GPIOH"
  | gpioi => "GPIOI"
  | gpioj => "GPIOJ"
  | adc12 => "ADC12"
  | dcmiPssi => "DCMI_PSSI"
  | usbOtgFs => "USB_OTG_FS"
  | usbOtgHs => "USB_OTG_HS"
  | usbOtgHsPhy => "USB_OTG_HS_PHY"
  | aes => "AES"
  | hash => "HASH"
  | rng => "RNG"
  | pka => "PKA"
  | saes => "SAES"
  | octospim => "OCTOSPIM"
  | otfdec1 => "OTFDEC1"
  | otfdec2 => "OTFDEC2"
  | sdmmc1 => "SDMMC1"
  | sdmmc2 => "SDMMC2"
  | sram2 => "SRAM2"
  | sram3 => "SRAM3"
  | fmc => "FMC"
  | octospi1 => "OCTOSPI1"
  | octospi2 => "OCTOSPI2"
  | hspi1 => "HSPI1"
  | sram6 => "SRAM6"
  | sram5 => "SRAM5"
  | lpgpio1 => "LPGPIO1"
  | pwr => "PWR"
  | adc4 => "ADC4"
  | dac1 => "DAC1"
  | lpdma1 => "LPDMA1"
  | adf1 => "ADF1"
  | gtzc2 => "GTZC2"
  | sram4 => "SRAM4"
  | tim2 => "TIM2"
  | tim3 => "TIM3"
  | tim4 => "TIM4"
  | tim5 => "TIM5"
  | tim6 => "TIM6"
  | tim7 => "TIM7"
  | wwdg => "WWDG"
  | spi2 => "SPI2"
  | usart2 => "USART2"
  | usart3 => "USART3"
  | uart4 => "UART4"
  | uart5 => "UART5"
  | i2c1 => "I2C1"
  | i2c2 => "I2C2"
  | crs => "CRS"
  | i2c4 => "I2C4"
  | lptim2 => "LPTIM2"
  | i2c5 => "I2C5"
  | i2c6 => "I2C6"
  | fdcan1 => "FDCAN1"
  | ucpd1 => "UCPD1"
  | tim1 => "TIM1"
  | spi1 => "SPI1"
  | tim8 => "TIM8"
  | usart1 => "USART1"
  | tim15 => "TIM15"
  | tim16 => "TIM16"
  | tim17 => "TIM17"
  | sai1 => "SAI1"
  | sai2 => "SAI2"
  | usb => "USB"
  | gfxtim => "GFXTIM"
  | ltdc => "LTDC"
  | dsi => "DSI"
  | syscfg => "SYSCFG"
  | spi3 => "SPI3"
  | lpuart1 => "LPUART1"
  | i2c3 => "I2C3"
  | lptim1 => "LPTIM1"
  | lptim3 => "LPTIM3"
  | lptim4 => "LPTIM4"
  | opamp => "OPAMP"
  | comp => "COMP"
  | vref => "VREF"
  | rtcapb => "RTCAPB"

def ofName? (s : String) : Option Peripheral := all.find? fun p => p.name == s

theorem ofName?_name (p : Peripheral) : ofName? p.name = some p := by
  have found : ∀ p ∈ all, ofName? p.name = some p := by decide +kernel
  exact found p (mem_all p)

end Peripheral

/-! ## Seats -/

/-- Where a peripheral is gated: a bus group, and a bit in each word of that group. -/
structure Seat where
  group : BusGroup
  bit : Fin 32
deriving DecidableEq

namespace Peripheral

/-- The seat of each peripheral. The two flavours of USB OTG have the same seat, and no part has
both. -/
def seat : Peripheral → Seat
  | gpdma1 => ⟨.ahb1, 0⟩
  | cordic => ⟨.ahb1, 1⟩
  | fmac => ⟨.ahb1, 2⟩
  | mdf1 => ⟨.ahb1, 3⟩
  | flash => ⟨.ahb1, 8⟩
  | crc => ⟨.ahb1, 12⟩
  | jpeg => ⟨.ahb1, 15⟩
  | tsc => ⟨.ahb1, 16⟩
  | ramcfg => ⟨.ahb1, 17⟩
  | dma2d => ⟨.ahb1, 18⟩
  | gfxmmu => ⟨.ahb1, 19⟩
  | gpu2d => ⟨.ahb1, 20⟩
  | dcache2 => ⟨.ahb1, 21⟩
  | gtzc1 => ⟨.ahb1, 24⟩
  | bkpsram => ⟨.ahb1, 28⟩
  | dcache1 => ⟨.ahb1, 30⟩
  | sram1 => ⟨.ahb1, 31⟩
  | gpioa => ⟨.ahb2Grp1, 0⟩
  | gpiob => ⟨.ahb2Grp1, 1⟩
  | gpioc => ⟨.ahb2Grp1, 2⟩
  | gpiod => ⟨.ahb2Grp1, 3⟩
  | gpioe => ⟨.ahb2Grp1, 4⟩
  | gpiof => ⟨.ahb2Grp1, 5⟩
  | gpiog => ⟨.ahb2Grp1, 6⟩
  | gpioh => ⟨.ahb2Grp1, 7⟩
  | gpioi => ⟨.ahb2Grp1, 8⟩
  | gpioj => ⟨.ahb2Grp1, 9⟩
  | adc12 => ⟨.ahb2Grp1, 10⟩
  | dcmiPssi => ⟨.ahb2Grp1, 12⟩
  | usbOtgFs => ⟨.ahb2Grp1, 14⟩
  | usbOtgHs => ⟨.ahb2Grp1, 14⟩
  | usbOtgHsPhy => ⟨.ahb2Grp1, 15⟩
  | aes => ⟨.ahb2Grp1, 16⟩
  | hash => ⟨.ahb2Grp1, 17⟩
  | rng => ⟨.ahb2Grp1, 18⟩
  | pka => ⟨.ahb2Grp1, 19⟩
  | saes => ⟨.ahb2Grp1, 20⟩
  | octospim => ⟨.ahb2Grp1, 21⟩
  | otfdec1 => ⟨.ahb2Grp1, 23⟩
  | otfdec2 => ⟨.ahb2Grp1, 24⟩
  | sdmmc1 => ⟨.ahb2Grp1, 27⟩
  | sdmmc2 => ⟨.ahb2Grp1, 28⟩
  | sram2 => ⟨.ahb2Grp1, 30⟩
  | sram3 => ⟨.ahb2Grp1, 31⟩
  | fmc => ⟨.ahb2Grp2, 0⟩
  | octospi1 => ⟨.ahb2Grp2, 4⟩
  | octospi2 => ⟨.ahb2Grp2, 8⟩
  | hspi1 => ⟨.ahb2Grp2, 12⟩
  | sram6 => ⟨.ahb2Grp2, 30⟩
  | sram5 => ⟨.ahb2Grp2, 31⟩
  | lpgpio1 => ⟨.ahb3, 0⟩
  | pwr => ⟨.ahb3, 2⟩
  | adc4 => ⟨.ahb3, 5⟩
  | dac1 => ⟨.ahb3, 6⟩
  | lpdma1 => ⟨.ahb3, 9⟩
  | adf1 => ⟨.ahb3, 10⟩
  | gtzc2 => ⟨.ahb3, 12⟩
  | sram4 => ⟨.ahb3, 31⟩
  | tim2 => ⟨.apb1Grp1, 0⟩
  | tim3 => ⟨.apb1Grp1, 1⟩
  | tim4 => ⟨.apb1Grp1, 2⟩
  | tim5 => ⟨.apb1Grp1, 3⟩
  | tim6 => ⟨.apb1Grp1, 4⟩
  | tim7 => ⟨.apb1Grp1, 5⟩
  | wwdg => ⟨.apb1Grp1, 11⟩
  | spi2 => ⟨.apb1Grp1, 14⟩
  | usart2 => ⟨.apb1Grp1, 17⟩
  | usart3 => ⟨.apb1Grp1, 18⟩
  | uart4 => ⟨.apb1Grp1, 19⟩
  | uart5 => ⟨.apb1Grp1, 20⟩
  | i2c1 => ⟨.apb1Grp1, 21⟩
  | i2c2 => ⟨.apb1Grp1, 22⟩
  | crs => ⟨.apb1Grp1, 24⟩
  | i2c4 => ⟨.apb1Grp2, 1⟩
  | lptim2 => ⟨.apb1Grp2, 5⟩
  | i2c5 => ⟨.apb1Grp2, 6⟩
  | i2c6 => ⟨.apb1Grp2, 7⟩
  | fdcan1 => ⟨.apb1Grp2, 9⟩
  | ucpd1 => ⟨.apb1Grp2, 23⟩
  | tim1 => ⟨.apb2, 11⟩
  | spi1 => ⟨.apb2, 12⟩
  | tim8 => ⟨.apb2, 13⟩
  | usart1 => ⟨.apb2, 14⟩
  | tim15 => ⟨.apb2, 16⟩
  | tim16 => ⟨.apb2, 17⟩
  | tim17 => ⟨.apb2, 18⟩
  | sai1 => ⟨.apb2, 21⟩
  | sai2 => ⟨.apb2, 22⟩
  | usb => ⟨.apb2, 24⟩
  | gfxtim => ⟨.apb2, 25⟩
  | ltdc => ⟨.apb2, 26⟩
  | dsi => ⟨.apb2, 27⟩
  | syscfg => ⟨.apb3, 1⟩
  | spi3 => ⟨.apb3, 5⟩
  | lpuart1 => ⟨.apb3, 6⟩
  | i2c3 => ⟨.apb3, 7⟩
  | lptim1 => ⟨.apb3, 11⟩
  | lptim3 => ⟨.apb3, 12⟩
  | lptim4 => ⟨.apb3, 13⟩
  | opamp => ⟨.apb3, 14⟩
  | comp => ⟨.apb3, 15⟩
  | vref => ⟨.apb3, 20⟩
  | rtcapb => ⟨.apb3, 21⟩

/-- The bit of a SmartRun domain peripheral in the autonomous mode word. -/
def autonomousBit? : Peripheral → Option (Fin 32)
  | spi3 => some 5
  | lpuart1 => some 6
  | i2c3 => some 7
  | lptim1 => some 11
  | lptim3 => some 12
  | lptim4 => some 13
  | opamp => some 14
  | comp => some 15
  | vref => some 20
  | rtcapb => some 21
  | adc4 => some 25
  | lpgpio1 => some 26
  | dac1 => some 27
  | lpdma1 => some 28
  | adf1 => some 29
  | sram4 => some 31
  | _ => none

/-- The peripherals of the SmartRun domain, by ascending bit in the autonomous mode word. -/
def smartRun : List Peripheral :=
  [spi3, lpuart1, i2c3, lptim1, lptim3, lptim4, opamp, comp, vref, rtcapb, adc4, lpgpio1, dac1,
    lpdma1, adf1, sram4]

theorem mem_smartRun_iff {p : Peripheral} : p ∈ smartRun ↔ p.autonomousBit?.isSome = true := by
  cases p <;> decide

/-! ## Presence and role -/

/-- The optional hardware that a peripheral is a part of; `none` for one that all parts have. -/
def needs : Peripheral → Option Capability
  | jpeg => some .jpeg
  | dma2d => some .dma2d
  | gfxmmu => some .gfxmmu
  | gpu2d => some .gpu2d
  | dcache2 => some .dcache2
  | gpiof => some .gpioFG
  | gpiog => some .gpioFG
  | gpioi => some .gpioI
  | gpioj => some .gpioJ
  | usbOtgFs => some .usbOtgFs
  | usbOtgHs => some .usbOtgHs
  | usbOtgHsPhy => some .usbOtgHs
  | aes => some .crypto
  | pka => some .crypto
  | saes => some .crypto
  | octospim => some .octospi2
  | otfdec1 => some .otfdec
  | otfdec2 => some .otfdec
  | sdmmc2 => some .sdmmc2
  | sram3 => some .sram3
  | fmc => some .fmc
  | octospi2 => some .octospi2
  | hspi1 => some .hspi
  | sram6 => some .sram6
  | sram5 => some .sram5
  | i2c5 => some .i2c56
  | i2c6 => some .i2c56
  | sai2 => some .sai2
  | usb => some .usbFs
  | gfxtim => some .gfxtim
  | ltdc => some .ltdc
  | dsi => some .dsi
  | _ => none

/-- The memories. The running program may live in any of them. -/
def isMemory : Peripheral → Bool
  | flash | bkpsram | sram1 | sram2 | sram3 | sram4 | sram5 | sram6 => true
  | _ => false

/-- What keeps its clock while its bus is switched off: the memories, the data cache in front of
them, and the power controller. -/
def staysClocked (p : Peripheral) : Bool := p.isMemory || p == dcache1 || p == pwr

end Peripheral

def Device.carries (d : Device) (p : Peripheral) : Bool := d.fulfils p.needs

/-! ## Members of a group -/

namespace Group

/-- The bit by which a group knows a peripheral. -/
def bit? : Group → Peripheral → Option (Fin 32)
  | bus g, p => if p.seat.group = g then some p.seat.bit else none
  | smartRun, p => p.autonomousBit?

/-- The peripherals of a group on any part, by ascending bit. -/
def roster : Group → List Peripheral
  | bus g => Peripheral.all.filter fun p => p.seat.group == g
  | smartRun => Peripheral.smartRun

def members (d : Device) (g : Group) : List Peripheral := g.roster.filter d.carries

/-- The roster of a group is exactly what the group has a bit for. -/
theorem mem_roster_iff {g : Group} {p : Peripheral} :
    p ∈ g.roster ↔ (g.bit? p).isSome = true := by
  cases g with
  | smartRun => exact Peripheral.mem_smartRun_iff
  | bus g =>
    simp only [roster, bit?, List.mem_filter, Peripheral.mem_all, true_and, beq_iff_eq]
    split <;> simp_all

/-- The members of a group on a part are what the group has a bit for and the part has. -/
theorem mem_members_iff {d : Device} {g : Group} {p : Peripheral} :
    p ∈ g.members d ↔ (g.bit? p).isSome = true ∧ d.carries p = true := by
  rw [members, List.mem_filter, mem_roster_iff]

/-- Both peripherals have a bit in the group, and the first one's bit is lower. -/
def Before (g : Group) (p q : Peripheral) : Prop :=
  match g.bit? p, g.bit? q with
  | some i, some j => i < j
  | _, _ => False

instance (g : Group) (p q : Peripheral) : Decidable (g.Before p q) := by
  unfold Before
  split <;> infer_instance

/-- **Ascending bits.** The members of a group on a part are listed by ascending bit. -/
theorem pairwise_before_members (d : Device) (g : Group) : (g.members d).Pairwise g.Before := by
  have ascending : ∀ d ∈ Device.all, ∀ g ∈ Group.all, (g.members d).Pairwise g.Before := by
    decide +kernel
  exact ascending d (Device.mem_all d) g (mem_all g)

/-- Any two entries of a pairwise related list are the same or related one way round. -/
theorem eq_or_related {α : Type} {R : α → α → Prop} {l : List α} (h : l.Pairwise R) {a b : α}
    (ha : a ∈ l) (hb : b ∈ l) : a = b ∨ R a b ∨ R b a := by
  induction h with
  | nil => exact absurd ha List.not_mem_nil
  | cons first _ ih =>
    rcases List.mem_cons.mp ha with rfl | ha' <;> rcases List.mem_cons.mp hb with rfl | hb'
    · exact Or.inl rfl
    · exact Or.inr (Or.inl (first _ hb'))
    · exact Or.inr (Or.inr (first _ ha'))
    · exact ih ha' hb'

/-- **One peripheral a bit.** On any one part, no two peripherals of a group share a bit. -/
theorem bit?_injective {d : Device} {g : Group} {p q : Peripheral} {i : Fin 32}
    (hp : d.carries p = true) (hq : d.carries q = true)
    (hpi : g.bit? p = some i) (hqi : g.bit? q = some i) : p = q := by
  have mem {r : Peripheral} (hr : d.carries r = true) (hri : g.bit? r = some i) :
      r ∈ g.members d := mem_members_iff.mpr ⟨by rw [hri]; rfl, hr⟩
  have unordered : ¬ g.Before p q ∧ ¬ g.Before q p := by
    simp [Before, hpi, hqi]
  rcases eq_or_related (pairwise_before_members d g) (mem hp hpi) (mem hq hqi) with h | h | h
  · exact h
  · exact absurd h unordered.1
  · exact absurd h unordered.2

end Group

end ClockGating
