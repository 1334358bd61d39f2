/-!
# Devices — the eight parts and what each of them has

The parts of the STM32U5 family share one clock gating block and differ in the peripherals behind
it. A `Capability` names one optional piece of hardware; `Device.capabilities` says which parts have
it. Everything that depends on the part goes through `Device.has`.

The last section gives the written profile of a part: its number and one flag per capability.
-/

namespace ClockGating

/-! ## Capabilities -/

/-- Hardware that only some parts of the family have. -/
inductive Capability where
  /-- The USB full speed device on APB2. -/
  | usbFs
  /-- USB OTG full speed on AHB2. -/
  | usbOtgFs
  /-- USB OTG high speed on AHB2, with its PHY. -/
  | usbOtgHs
  /-- AES, SAES and PKA. -/
  | crypto
  /-- Both on-the-fly decryption units. -/
  | otfdec
  | gpioFG
  | gpioI
  | gpioJ
  /-- The flexible memory controller. -/
  | fmc
  /-- OCTOSPI2 and the OCTOSPI I/O manager. -/
  | octospi2
  | sdmmc2
  | hspi
  | i2c56
  | sram3
  | sram5
  | sram6
  /-- The Chrom-ART accelerator. -/
  | dma2d
  | sai2
  | jpeg
  | gfxmmu
  /-- The Neo-Chrom graphic processor. -/
  | gpu2d
  | ltdc
  | dsi
  | dcache2
  | gfxtim
deriving DecidableEq

namespace Capability

/-- All capabilities, in the order in which a profile lists them. -/
def all : List Capability :=
  [usbFs, usbOtgFs, usbOtgHs, crypto, otfdec, gpioFG, gpioI, gpioJ, fmc, octospi2, sdmmc2, hspi,
    i2c56, sram3, sram5, sram6, dma2d, sai2, jpeg, gfxmmu, gpu2d, ltdc, dsi, dcache2, gfxtim]

def name : Capability → String
  | usbFs => "usb_fs"
  | usbOtgFs => "usb_otg_fs"
  | usbOtgHs => "usb_otg_hs"
  | crypto => "crypto"
  | otfdec => "otfdec"
  | gpioFG => "gpio_fg"
  | gpioI => "gpioi"
  | gpioJ => "gpioj"
  | fmc => "fmc"
  | octospi2 => "octospi2"
  | sdmmc2 => "sdmmc2"
  | hspi => "hspi"
  | i2c56 => "i2c56"
  | sram3 => "sram3"
  | sram5 => "sram5"
  | sram6 => "sram6"
  | dma2d => "dma2d"
  | sai2 => "sai2"
  | jpeg => "jpeg"
  | gfxmmu => "gfxmmu"
  | gpu2d => "gpu2d"
  | ltdc => "ltdc"
  | dsi => "dsi"
  | dcache2 => "dcache2"
  | gfxtim => "gfxtim"

/-- What every part from the U575 upwards has. -/
def midRange : List Capability := [dma2d, sai2, gpioFG, gpioI, fmc, octospi2, sdmmc2, sram3]

/-- What the large parts, from the U595 upwards, add to the mid-range ones. -/
def large : List Capability :=
  midRange ++ [usbOtgHs, gpioJ, hspi, i2c56, sram5, sram6, jpeg, dcache2, gfxtim]

/-- What the parts with a display controller add. -/
def display : List Capability := [gfxmmu, gpu2d, ltdc, dsi]

/-- What the parts with hardware encryption and memory decryption add. -/
def encryption : List Capability := [crypto, otfdec]

end Capability

/-! ## Devices -/

/-- A part of the STM32U5 family. -/
inductive Device where
  | u535
  | u545
  | u575
  | u585
  | u595
  | u599
  | u5a5
  | u5a9
deriving DecidableEq

namespace Device

def all : List Device := [u535, u545, u575, u585, u595, u599, u5a5, u5a9]

theorem mem_all (d : Device) : d ∈ all := by
  cases d <;> decide

open Capability in
/-- The optional hardware of a part. The two flavours of USB OTG share one enable bit, so no part
has both. -/
def capabilities : Device → List Capability
  | u535 => [usbFs]
  | u545 => [usbFs, crypto]
  | u575 => usbOtgFs :: midRange
  | u585 => usbOtgFs :: midRange ++ encryption
  | u595 => large
  | u599 => large ++ display
  | u5a5 => large ++ encryption
  | u5a9 => large ++ display ++ encryption

def has (d : Device) (c : Capability) : Bool := d.capabilities.contains c

/-- The part has the optional hardware, if any is asked for. -/
def fulfils (d : Device) : Option Capability → Bool
  | none => true
  | some c => d.has c

/-- The name under which a part is asked for. -/
def name : Device → String
  | u535 => "stm32u535"
  | u545 => "stm32u545"
  | u575 => "stm32u575"
  | u585 => "stm32u585"
  | u595 => "stm32u595"
  | u599 => "stm32u599"
  | u5a5 => "stm32u5a5"
  | u5a9 => "stm32u5a9"

/-- The part number as it is printed on the part. -/
def partNumber : Device → String
  | u535 => "STM32U535"
  | u545 => "STM32U545"
  | u575 => "STM32U575"
  | u585 => "STM32U585"
  | u595 => "STM32U595"
  | u599 => "STM32U599"
  | u5a5 => "STM32U5A5"
  | u5a9 => "STM32U5A9"

def ofName? (s : String) : Option Device := all.find? fun d => d.name == s

theorem ofName?_name (d : Device) : ofName? d.name = some d := by
  cases d <;> decide +kernel

/-! ## Profiles -/

def flags (d : Device) : List (String × Bool) := Capability.all.map fun c => (c.name, d.has c)

/-- The written profile of a part: the part number in quotes, then every flag. -/
def profileText (d : Device) : String :=
  let fields := ("name: \"" ++ d.partNumber ++ "\"") ::
    d.flags.map fun (field, value) => field ++ ": " ++ if value then "true" else "false"
  "Capabilities \x7b " ++ String.intercalate ", " fields ++ " \x7d"

end Device

end ClockGating
