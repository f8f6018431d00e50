import DataLogger.Ads868x.Device
import DataLogger.Foundation.BitSet

/-!
# One frame of the ADS868x driver

The driver's data, `ads868x_transceive`, `ads868x_command` and `ads868x_to_sample`.
Stores into the caller's buffer are recorded with their 16-bit index.
-/

namespace DataLogger.Ads868x

open DataLogger.Foundation
open DataLogger.Zephyr

/-- `struct ads868x_data`, without its kernel objects: the buffer pointers as 16-bit
indices, the range cache, and the stores made through `buffer` so far. -/
structure AdcData where
  buffer : Nat
  repeatBuffer : Nat
  range : Vector Byte 8
  stores : List (Nat × BitVec 16)
  deriving DecidableEq

/-- Driver and device, and the number of frames the driver has begun. -/
structure Ads where
  device : Device
  frames : Nat
  data : AdcData
  deriving DecidableEq

/-- `ads868x_transceive` for the four bytes of a 32-clock frame. -/
def ads868xTransceive (E : Bench) (tx : List Byte) (w : Ads) : Int × List Byte × Ads :=
  let (rx, device) := w.device.frame E w.frames tx
  match E.outcome w.frames with
  | .ok => (0, rx, { w with device := device, frames := w.frames + 1 })
  | .error e reached =>
      (e.code, [], { w with device := if reached then device else w.device,
                            frames := w.frames + 1 })

/-- `ads868x_command`: the return code and, if it is 0, the result. -/
def ads868xCommand (E : Bench) (cmd : BitVec 16) (w : Ads) : Int × BitVec 16 × Ads :=
  let tx := be16Bytes cmd ++ [0#8, 0#8]
  let (ret, rx, w) := ads868xTransceive E tx w
  (ret, be16 (rx.drop 2), w)

def ads868xToSample (data : AdcData) (channel : Nat) (raw : BitVec 16) : BitVec 16 :=
  if data.range[channel]?.getD 0#8 &&& ads868xRangeUnipolar = 0#8 then raw ^^^ 0x8000#16
  else raw

/-- `*data->buffer++ = x`. -/
def Ads.store (x : BitVec 16) (w : Ads) : Ads :=
  { w with data := { w.data with
      buffer := w.data.buffer + 1
      stores := w.data.stores ++ [(w.data.buffer, x)] } }

/-! ## Frames -/

theorem command_ok {E : Bench} {w : Ads} (cmd : BitVec 16) (hok : E.outcome w.frames = .ok) :
    ads868xCommand E cmd w =
      (0, w.device.result E w.frames,
        { w with device := w.device.accept cmd, frames := w.frames + 1 }) := by
  simp [ads868xCommand, ads868xTransceive, Device.frame, hok]

theorem command_eq_zero {E : Bench} {w : Ads} (cmd : BitVec 16) :
    (ads868xCommand E cmd w).1 = 0 ↔ E.outcome w.frames = .ok := by
  rw [ads868xCommand, ads868xTransceive]
  cases E.outcome w.frames with
  | ok => simp
  | error e reached => simp [e.code_ne_zero]

theorem command_code (E : Bench) (cmd : BitVec 16) (w : Ads) :
    (ads868xCommand E cmd w).1 = (E.outcome w.frames).code := by
  rw [ads868xCommand, ads868xTransceive]
  cases E.outcome w.frames <;> rfl

theorem command_frames (E : Bench) (cmd : BitVec 16) (w : Ads) :
    (ads868xCommand E cmd w).2.2.frames = w.frames + 1 := by
  rw [ads868xCommand, ads868xTransceive]
  cases E.outcome w.frames <;> rfl

theorem command_data (E : Bench) (cmd : BitVec 16) (w : Ads) :
    (ads868xCommand E cmd w).2.2.data = w.data := by
  rw [ads868xCommand, ads868xTransceive]
  cases E.outcome w.frames <;> rfl

theorem command_device (E : Bench) (cmd : BitVec 16) (w : Ads) :
    (ads868xCommand E cmd w).2.2.device = w.device ∨
      (ads868xCommand E cmd w).2.2.device = w.device.accept cmd := by
  rw [ads868xCommand, ads868xTransceive]
  cases E.outcome w.frames with
  | ok =>
      right
      simp [Device.frame]
  | error e reached =>
      cases reached with
      | false => exact Or.inl rfl
      | true =>
          right
          simp [Device.frame]

/-! ## Samples -/

theorem xor_msb_of_clear {x : BitVec 16} (hbit : x.getLsbD 15 = false) :
    x ^^^ 0x8000#16 = x + 0x8000#16 := by
  have hmsb : (0x8000#16 : BitVec 16) = BitVec.twoPow 16 15 := by decide
  have hdisj : x &&& 0x8000#16 = 0#16 := by
    rw [hmsb, BitVec.and_twoPow, hbit]
    rfl
  rw [BitVec.add_eq_or_of_and_eq_zero x _ hdisj]
  apply BitVec.eq_of_getLsbD_eq
  intro i _
  rw [BitVec.getLsbD_xor, BitVec.getLsbD_or, hmsb, BitVec.getLsbD_twoPow]
  by_cases hi : 15 = i
  · rw [← hi, hbit]
    rfl
  · simp [hi]

theorem xor_msb (x : BitVec 16) : x ^^^ 0x8000#16 = x + 0x8000#16 := by
  cases hbit : x.getLsbD 15 with
  | false => exact xor_msb_of_clear hbit
  | true =>
      -- with the top bit flipped away the first case applies; two halves cancel
      have hclear : (x ^^^ 0x8000#16).getLsbD 15 = false := by
        rw [BitVec.getLsbD_xor, hbit]
        rfl
      have hback : x = (x ^^^ 0x8000#16) + 0x8000#16 := by
        rw [← xor_msb_of_clear hclear, BitVec.xor_assoc, BitVec.xor_self, BitVec.xor_zero]
      calc x ^^^ 0x8000#16
          = (x ^^^ 0x8000#16) + (0x8000#16 + 0x8000#16) := (BitVec.add_zero _).symm
        _ = (x ^^^ 0x8000#16) + 0x8000#16 + 0x8000#16 := (BitVec.add_assoc _ _ _).symm
        _ = x + 0x8000#16 := by rw [← hback]

/-- Offset binary becomes two's complement, straight binary stays. -/
theorem toSample_convert {data : AdcData} {channel : Nat} {range : Byte}
    (hrange : data.range[channel]?.getD 0#8 = range) (level : Int) :
    ads868xToSample data channel (convert range level) =
      BitVec.ofInt 16 (clip range level) := by
  unfold ads868xToSample convert
  rw [hrange]
  cases hpolar : unipolar range with
  | true =>
      have hbit : range &&& ads868xRangeUnipolar ≠ 0#8 := by simpa [unipolar] using hpolar
      rw [if_neg hbit, if_pos rfl]
  | false =>
      have hbit : range &&& ads868xRangeUnipolar = 0#8 := by simpa [unipolar] using hpolar
      have hhalves : BitVec.ofInt 16 0x8000 + 0x8000#16 = 0#16 := by decide
      rw [if_pos hbit, if_neg (by decide), xor_msb, BitVec.ofInt_add, BitVec.add_assoc, hhalves,
        BitVec.add_zero]

/-- A sample as its reader takes it: unsigned on a unipolar range, signed on a bipolar
one. -/
def sampleValue (range : Byte) (x : BitVec 16) : Int :=
  if unipolar range then x.toNat else x.toInt

theorem sampleValue_ofInt_clip (range : Byte) (level : Int) :
    sampleValue range (BitVec.ofInt 16 (clip range level)) = clip range level := by
  unfold sampleValue
  cases hpolar : unipolar range with
  | true =>
      obtain ⟨hlow, hhigh⟩ := clip_unipolar hpolar level
      rw [if_pos rfl, BitVec.toNat_ofInt]
      omega
  | false =>
      obtain ⟨hlow, hhigh⟩ := clip_bipolar hpolar level
      exact BitVec.toInt_ofInt_eq_self (by decide) (by omega) (by omega)

end DataLogger.Ads868x
