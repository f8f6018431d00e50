import DataLogger.Ads868x.Device
import Mathlib.Data.List.Rotate

/-!
# The ADS8688 of the can-gw firmware

The firmware drives the converter with raw 32-bit SPI words: the upper half is a command or
a register write, the lower half of the answer is the conversion selected by the frame
before.  After AUTO_RST the device steps through its enabled channels by itself, one for
each NO_OP.
-/

namespace DataLogger.CanGwApp

open DataLogger.Foundation
open DataLogger.Zephyr
open DataLogger.Ads868x

/-! ## The device in auto-scan mode -/

/-- The device with its AUTO_SEQ_EN register: one bit for each scanned channel. -/
structure AutoScan extends Device where
  enabled : Byte
  deriving DecidableEq

/-- The lowest enabled channel, or `c` if there is none. -/
def firstEnabled (enabled : Byte) (c : Fin 8) : Fin 8 :=
  ((List.finRange 8).find? fun k : Fin 8 => enabled.getLsbD k.val).getD c

/-- The enabled channel after `c`, in cyclic order. -/
def nextEnabled (enabled : Byte) (c : Fin 8) : Fin 8 :=
  (((List.finRange 8).rotate (c.val + 1)).find? fun k : Fin 8 => enabled.getLsbD k.val).getD c

def AutoScan.writeRegister (addr : Nat) (val : Byte) (d : AutoScan) : AutoScan :=
  if addr = 0x01 then { d with enabled := val }
  else if 0x05 ≤ addr then { d with range := d.range.setIfInBounds (addr - 0x05) val }
  else d

/-- What the upper half of a word makes the device do.  Bit 8 marks a register write, with
the address above it and the value below. -/
def AutoScan.accept (cmd : BitVec 16) (d : AutoScan) : AutoScan :=
  if cmd = 0x8500#16 then { d with range := Vector.replicate 8 0#8, enabled := 0xFF#8 }
  else if cmd = 0xA000#16 then { d with selected := firstEnabled d.enabled d.selected }
  else if cmd = 0x0000#16 then { d with selected := nextEnabled d.enabled d.selected }
  else if cmd.getLsbD 8 then d.writeRegister (cmd >>> 9).toNat (cmd.setWidth 8)
  else d

/-- The firmware's end of the bus: the device, and the number of words sent so far. -/
structure Gw where
  device : AutoScan
  frames : Nat
  deriving DecidableEq

/-! ## One word on the bus -/

/-- `spi_transceive_dt` / `spi_write_dt` for one 32-bit word. -/
def spiTransceive (E : Bench) (tx : BitVec 32) (w : Gw) : Int × BitVec 32 × Gw :=
  let device := w.device.accept ((tx >>> 16).setWidth 16)
  let rx := E.head w.frames ++ w.device.result E w.frames
  match E.outcome w.frames with
  | .ok => (0, rx, { device := device, frames := w.frames + 1 })
  | .error e reached =>
      (e.code, 0#32, { device := if reached then device else w.device, frames := w.frames + 1 })

/-- `ads8688_cmd`: the return code and, if it is 0, what is stored through `out`. -/
def ads8688Cmd (E : Bench) (cmd : BitVec 16) (w : Gw) : Int × BitVec 16 × Gw :=
  let tx := cmd.setWidth 32 <<< 16
  let (ret, rx, w) := spiTransceive E tx w
  (ret, (rx &&& 0xFFFF#32).setWidth 16, w)

def ads8688ProgWrite (E : Bench) (addr val : Byte) (w : Gw) : Int × Gw :=
  let tx := ((addr.setWidth 32 <<< 1 ||| 1#32) <<< 24) ||| (val.setWidth 32 <<< 16)
  let (ret, _, w) := spiTransceive E tx w
  (ret, w)

/-- The register of channel `ch`, as the firmware computes its address. -/
def rangeAddr (ch : Fin 8) : Byte := 0x05#8 + BitVec.ofNat 8 ch

/-- The world after a word that may or may not have arrived. -/
def Gw.after (E : Bench) (act : AutoScan → AutoScan) (w : Gw) : Gw where
  device := if (E.outcome w.frames).arrived then act w.device else w.device
  frames := w.frames + 1

variable {E : Bench} {w : Gw}

@[simp] theorem after_frames (act : AutoScan → AutoScan) :
    (w.after E act).frames = w.frames + 1 := rfl

theorem spiTransceive_code (tx : BitVec 32) :
    (spiTransceive E tx w).1 = (E.outcome w.frames).code := by
  rw [spiTransceive]
  cases E.outcome w.frames <;> rfl

theorem spiTransceive_world (tx : BitVec 32) :
    (spiTransceive E tx w).2.2 = w.after E (AutoScan.accept ((tx >>> 16).setWidth 16)) := by
  rw [spiTransceive, Gw.after]
  cases E.outcome w.frames <;> rfl

@[simp] theorem cmd_code (cmd : BitVec 16) :
    (ads8688Cmd E cmd w).1 = (E.outcome w.frames).code :=
  spiTransceive_code _

@[simp] theorem cmd_world (cmd : BitVec 16) :
    (ads8688Cmd E cmd w).2.2 = w.after E (AutoScan.accept cmd) := by
  have hupper : ((cmd.setWidth 32 <<< 16) >>> 16).setWidth 16 = cmd := by
    apply BitVec.eq_of_getLsbD_eq
    intro i hi
    have hsum : 16 + i < 32 := by omega
    simp [hi, hsum]
  rw [ads8688Cmd]
  exact (spiTransceive_world _).trans (by rw [hupper])

theorem cmd_out (cmd : BitVec 16) (hok : E.outcome w.frames = .ok) :
    (ads8688Cmd E cmd w).2.1 = w.device.result E w.frames := by
  rw [ads8688Cmd, spiTransceive, hok]
  apply BitVec.eq_of_getLsbD_eq
  intro i hi
  have hmask : (0xFFFF#32).getLsbD i = true := by
    have hall : ∀ k : Fin 16, (0xFFFF#32).getLsbD k = true := by decide
    exact hall ⟨i, hi⟩
  simp only [BitVec.getLsbD_setWidth, BitVec.getLsbD_and, BitVec.getLsbD_append, hi, hmask,
    decide_true, Bool.true_and, Bool.and_true, if_true]

/-! ## What the words do -/

theorem firstEnabled_all (c : Fin 8) : (firstEnabled 0xFF#8 c : Nat) = 0 := by
  have hall : ∀ c : Fin 8, (firstEnabled 0xFF#8 c : Nat) = 0 := by decide
  exact hall c

theorem nextEnabled_all (c : Fin 8) : (nextEnabled 0xFF#8 c : Nat) = (c + 1) % 8 := by
  have hall : ∀ c : Fin 8, (nextEnabled 0xFF#8 c : Nat) = (c + 1) % 8 := by decide
  exact hall c

theorem accept_autoRst (d : AutoScan) :
    d.accept 0xA000#16 = { d with selected := firstEnabled d.enabled d.selected } := rfl

theorem accept_noOp (d : AutoScan) :
    d.accept 0x0000#16 = { d with selected := nextEnabled d.enabled d.selected } := rfl

/-- The upper half of the word for a register write. -/
def progWriteCmd (addr val : Byte) : BitVec 16 :=
  ((((addr.setWidth 32 <<< 1 ||| 1#32) <<< 24) ||| (val.setWidth 32 <<< 16)) >>> 16).setWidth 16

@[simp] theorem progWrite_world (addr val : Byte) :
    (ads8688ProgWrite E addr val w).2 = w.after E (AutoScan.accept (progWriteCmd addr val)) :=
  spiTransceive_world _

theorem accept_writeRange (d : AutoScan) (ch : Fin 8) :
    d.accept (progWriteCmd (rangeAddr ch) 0x06#8) =
      { d with range := d.range.setIfInBounds ch 0x06#8 } := by
  have hcmd : ∀ c : Fin 8, progWriteCmd (rangeAddr c) 0x06#8 ≠ 0x8500#16 ∧
      progWriteCmd (rangeAddr c) 0x06#8 ≠ 0xA000#16 ∧
      progWriteCmd (rangeAddr c) 0x06#8 ≠ 0x0000#16 ∧
      (progWriteCmd (rangeAddr c) 0x06#8).getLsbD 8 = true ∧
      (progWriteCmd (rangeAddr c) 0x06#8 >>> 9).toNat = c + 5 ∧
      (progWriteCmd (rangeAddr c) 0x06#8).setWidth 8 = 0x06#8 := by decide
  obtain ⟨hrst, hautoRst, hnoOp, hwrite, haddr, hval⟩ := hcmd ch
  rw [AutoScan.accept, if_neg hrst, if_neg hautoRst, if_neg hnoOp, if_pos hwrite, haddr, hval,
    AutoScan.writeRegister, if_neg (by omega), if_pos (by omega), Nat.add_sub_cancel]

theorem accept_enableAll (d : AutoScan) :
    d.accept (progWriteCmd 0x01#8 0xFF#8) = { d with enabled := 0xFF#8 } := rfl

end DataLogger.CanGwApp
