import DataLogger.Foundation.Bytes
import DataLogger.Zephyr.Can

/-!
# The ADS8684 / ADS8688 and its SPI bus

A 32-clock frame carries a 16-bit command to the device and, in its second half, the
conversion of the channel that the previous frame selected.  What the inputs are, what the
device shifts out in the first half and how each SPI call ends is given by the frame's
number.
-/

namespace DataLogger.Ads868x

open DataLogger.Foundation
open DataLogger.Zephyr

/-! ## Commands and ranges -/

def ads868xCmdNoOp : BitVec 16 := 0x0000#16
def ads868xCmdRst : BitVec 16 := 0x8500#16
def ads868xCmdManCh (ch : Nat) : BitVec 16 := 0xC000#16 ||| (BitVec.ofNat 16 ch <<< 10)

def ads868xRangeUnipolar : Byte := 0x04#8

/-- Bit 2 of a range register value means unipolar. -/
def unipolar (range : Byte) : Bool := range &&& ads868xRangeUnipolar != 0#8

/-! ## Conversion -/

/-- The count of an input of `level` LSBs, clipped to the span of the range. -/
def clip (range : Byte) (level : Int) : Int :=
  if unipolar range then max 0 (min level 65535) else max (-32768) (min level 32767)

/-- The conversion result: straight binary on a unipolar range, offset binary on a bipolar
one. -/
def convert (range : Byte) (level : Int) : BitVec 16 :=
  if unipolar range then BitVec.ofInt 16 (clip range level)
  else BitVec.ofInt 16 (clip range level + 0x8000)

theorem clip_unipolar {range : Byte} (hrange : unipolar range = true) (level : Int) :
    0 ≤ clip range level ∧ clip range level < 65536 := by
  rw [clip, if_pos hrange]
  omega

theorem clip_bipolar {range : Byte} (hrange : unipolar range = false) (level : Int) :
    -32768 ≤ clip range level ∧ clip range level < 32768 := by
  rw [clip, if_neg (by simp [hrange])]
  omega

/-! ## The device -/

/-- The channel selected for the next frame and the range register of each channel. -/
structure Device where
  selected : Fin 8
  range : Vector Byte 8
  deriving DecidableEq, Repr

def Device.accept (cmd : BitVec 16) (d : Device) : Device :=
  if cmd &&& 0xE3FF#16 = 0xC000#16 then
    { d with selected := Fin.ofNat 8 ((cmd >>> 10) &&& 7#16).toNat }
  else if cmd = ads868xCmdRst then { d with range := Vector.replicate 8 0#8 }
  else d

/-- How an SPI call ends.  One that returns an error may have reached the device. -/
inductive SpiOutcome where
  | ok
  | error (e : Errno) (reached : Bool)
  deriving DecidableEq

/-- The return code of the call. -/
def SpiOutcome.code : SpiOutcome → Int
  | .ok => 0
  | .error e _ => e.code

/-- Whether the device has taken the frame. -/
def SpiOutcome.arrived : SpiOutcome → Bool
  | .ok => true
  | .error _ reached => reached

@[simp] theorem SpiOutcome.code_eq_zero {o : SpiOutcome} : o.code = 0 ↔ o = .ok := by
  cases o with
  | ok => simp [code]
  | error e reached => simp [code, e.code_ne_zero]

/-- The world around the device, by the number of the frame: the level in LSBs of each
input in each range, the first half of what is shifted out, and the outcome of the call. -/
structure Bench where
  level : Nat → Fin 8 → Byte → Int
  head : Nat → BitVec 16
  outcome : Nat → SpiOutcome

def Device.result (E : Bench) (n : Nat) (d : Device) : BitVec 16 :=
  convert (d.range.get d.selected) (E.level n d.selected (d.range.get d.selected))

/-- Frame `n`: what the device shifts out for the bytes it gets. -/
def Device.frame (E : Bench) (n : Nat) (tx : List Byte) (d : Device) : List Byte × Device :=
  (be16Bytes (E.head n) ++ be16Bytes (d.result E n), d.accept (be16 (tx.take 2)))

theorem registers_get_set {n : Nat} (registers : Vector Byte n) (i j : Fin n) (val : Byte) :
    (registers.setIfInBounds i val).get j = if i = j then val else registers.get j := by
  calc (registers.setIfInBounds i val).get j
      = (registers.setIfInBounds i val)[j.val] := rfl
    _ = if i.val = j.val then val else registers[j.val] := Vector.getElem_setIfInBounds j.isLt
    _ = if i = j then val else registers.get j := if_congr Fin.ext_iff.symm rfl rfl

@[simp] theorem accept_noOp (d : Device) : d.accept ads868xCmdNoOp = d := rfl

@[simp] theorem accept_manCh (d : Device) (ch : Fin 8) :
    d.accept (ads868xCmdManCh ch) = { d with selected := ch } := by
  have hman : ∀ c : Fin 8, ads868xCmdManCh c &&& 0xE3FF#16 = 0xC000#16 := by decide
  have hsel : ∀ c : Fin 8,
      Fin.ofNat 8 ((ads868xCmdManCh c >>> 10) &&& 7#16).toNat = c := by decide
  rw [Device.accept, if_pos (hman ch), hsel ch]

theorem range_accept_manCh (d : Device) (ch : Nat) :
    (d.accept (ads868xCmdManCh ch)).range = d.range := by
  have hne : ads868xCmdManCh ch ≠ ads868xCmdRst := by
    intro h
    have hbit := congrArg (fun x : BitVec 16 => x.getLsbD 14) h
    simp [ads868xCmdManCh, ads868xCmdRst] at hbit
  rw [Device.accept, if_neg hne]
  split <;> rfl

end DataLogger.Ads868x
