import DataLogger.CanGw.Wire
import Mathlib.Logic.Equiv.Basic

/-!
# The CAN wire codec

The two translations between `struct can_frame` and `struct rpmsg_can_wire`: into a
frame in the receive callback, out of a frame in the transmit task.  Identifiers are
compared bit by bit; the masks are first turned into statements about positions.
-/

namespace DataLogger.CanGw

open DataLogger.Foundation
open DataLogger.Zephyr

/-! ## The two translations -/

/-- `MIN(dlc, CAN_MAX_DLC)`. -/
def clampDlc (dlc : Byte) : Byte := if dlc < canMaxDlc then dlc else canMaxDlc

/-- `memcpy(dst, src, n)` on the 8-byte data arrays. -/
def copyData (dst src : Vector Byte 8) (n : Nat) : Vector Byte 8 :=
  Vector.ofFn fun i => if i < n then src.get i else dst.get i

def zeroData : Vector Byte 8 := Vector.replicate 8 0#8

/-- The frame that `rpmsg_recv_can_callback` builds from a 16-byte message. -/
def frameOfWire (w : RpmsgCanWire) : CanFrame :=
  let frame : CanFrame := ⟨0#32, 0#8, 0#8, zeroData⟩
  let frame :=
    if w.id &&& linuxCanEffFlag != 0#32 then
      { frame with id := w.id &&& linuxCanEffMask, flags := frame.flags ||| canFrameIde }
    else { frame with id := w.id &&& linuxCanSffMask }
  let frame :=
    if w.id &&& linuxCanRtrFlag != 0#32 then
      { frame with flags := frame.flags ||| canFrameRtr }
    else frame
  let frame := { frame with dlc := clampDlc w.dlc }
  { frame with data := copyData frame.data w.data (canDlcToBytes frame.dlc) }

/-- The 16-byte message that `can_gw_tx_task` builds from a received frame. -/
def wireOfFrame (frame : CanFrame) : RpmsgCanWire :=
  let w : RpmsgCanWire := ⟨0#32, 0#8, Vector.replicate 3 0#8, zeroData⟩
  let w := { w with id := frame.id }
  let w :=
    if frame.flags &&& canFrameIde != 0#8 then
      { w with id := (frame.id &&& linuxCanEffMask) ||| linuxCanEffFlag }
    else { w with id := frame.id &&& linuxCanSffMask }
  let w :=
    if frame.flags &&& canFrameRtr != 0#8 then { w with id := w.id ||| linuxCanRtrFlag }
    else w
  let w := { w with dlc := clampDlc frame.dlc }
  { w with data := copyData w.data frame.data (canDlcToBytes w.dlc) }

/-! ## Canonical messages -/

/-- A message without stray bits: bit 29 clear, bits 11 to 28 only behind bit 31, at
most 8 data bytes, nothing behind them and no padding. -/
structure RpmsgCanWire.Canonical (w : RpmsgCanWire) : Prop where
  err : w.id.getLsbD 29 = false
  std : w.id.getLsbD 31 = false → ∀ i < 29, 11 ≤ i → w.id.getLsbD i = false
  dlc : w.dlc.toNat ≤ 8
  pad : w.pad = Vector.replicate 3 0#8
  tail : ZeroTail w.dlc w.data

/-! ## Masks as positions -/

theorem getLsbD_linuxCanEffMask (i : Nat) :
    linuxCanEffMask.getLsbD i = decide (i < 29) := by
  have hmask : linuxCanEffMask = (BitVec.allOnes 29).setWidth 32 := by decide
  rw [hmask, BitVec.getLsbD_setWidth, BitVec.getLsbD_allOnes, Bool.eq_iff_iff]
  simp only [Bool.and_eq_true, decide_eq_true_eq]
  omega

theorem getLsbD_linuxCanSffMask (i : Nat) :
    linuxCanSffMask.getLsbD i = decide (i < 11) := by
  have hmask : linuxCanSffMask = (BitVec.allOnes 11).setWidth 32 := by decide
  rw [hmask, BitVec.getLsbD_setWidth, BitVec.getLsbD_allOnes, Bool.eq_iff_iff]
  simp only [Bool.and_eq_true, decide_eq_true_eq]
  omega

def idMask (ide : Bool) : BitVec 32 := if ide then linuxCanEffMask else linuxCanSffMask

theorem getLsbD_idMask (ide : Bool) (i : Nat) :
    (idMask ide).getLsbD i = decide (i < idWidth ide) := by
  cases ide
  · exact getLsbD_linuxCanSffMask i
  · exact getLsbD_linuxCanEffMask i

theorem idWidth_le (ide : Bool) : idWidth ide ≤ 29 := by
  cases ide <;> decide

theorem linuxCanEffFlag_eq : linuxCanEffFlag = BitVec.twoPow 32 31 := by decide

theorem linuxCanRtrFlag_eq : linuxCanRtrFlag = BitVec.twoPow 32 30 := by decide

theorem and_twoPow_bne_zero {w : Nat} (x : BitVec w) {k : Nat} (hk : k < w) :
    (x &&& BitVec.twoPow w k != 0#w) = x.getLsbD k := by
  have hne : BitVec.twoPow w k ≠ 0#w := by
    intro h
    have hbit := congrArg (fun y : BitVec w => y.getLsbD k) h
    simp [hk] at hbit
  rw [BitVec.and_twoPow]
  cases x.getLsbD k <;> simp [hne]

theorem and_linuxCanEffFlag (x : BitVec 32) :
    (x &&& linuxCanEffFlag != 0#32) = x.getLsbD 31 := by
  rw [linuxCanEffFlag_eq, and_twoPow_bne_zero x (by decide)]

theorem and_linuxCanRtrFlag (x : BitVec 32) :
    (x &&& linuxCanRtrFlag != 0#32) = x.getLsbD 30 := by
  rw [linuxCanRtrFlag_eq, and_twoPow_bne_zero x (by decide)]

/-! ## What each translation writes -/

def wireId (id : BitVec 32) (ide rtr : Bool) : BitVec 32 :=
  (id &&& idMask ide) ||| (if ide then linuxCanEffFlag else 0#32) |||
    (if rtr then linuxCanRtrFlag else 0#32)

def frameFlags (ide rtr : Bool) : Byte :=
  (if ide then canFrameIde else 0#8) ||| (if rtr then canFrameRtr else 0#8)

theorem wireOfFrame_eq (f : CanFrame) :
    wireOfFrame f =
      ⟨wireId f.id f.ide f.rtr, clampDlc f.dlc, Vector.replicate 3 0#8,
        copyData zeroData f.data (canDlcToBytes (clampDlc f.dlc))⟩ := by
  unfold wireOfFrame wireId idMask CanFrame.ide CanFrame.rtr
  cases f.flags &&& canFrameIde != 0#8 <;> cases f.flags &&& canFrameRtr != 0#8 <;> simp

theorem frameOfWire_eq (w : RpmsgCanWire) :
    frameOfWire w =
      ⟨w.id &&& idMask (w.id.getLsbD 31), clampDlc w.dlc,
        frameFlags (w.id.getLsbD 31) (w.id.getLsbD 30),
        copyData zeroData w.data (canDlcToBytes (clampDlc w.dlc))⟩ := by
  unfold frameOfWire frameFlags idMask
  simp only [and_linuxCanEffFlag, and_linuxCanRtrFlag]
  cases w.id.getLsbD 31 <;> cases w.id.getLsbD 30 <;> simp

theorem getLsbD_wireId (id : BitVec 32) (ide rtr : Bool) (i : Nat) :
    (wireId id ide rtr).getLsbD i =
      ((id.getLsbD i && decide (i < idWidth ide)) || (ide && decide (i = 31)) ||
        (rtr && decide (i = 30))) := by
  unfold wireId
  rw [BitVec.getLsbD_or, BitVec.getLsbD_or, BitVec.getLsbD_and, getLsbD_idMask,
    linuxCanEffFlag_eq, linuxCanRtrFlag_eq]
  cases ide <;> cases rtr <;> simp [BitVec.getLsbD_twoPow, eq_comm]

@[simp] theorem ide_frameFlags (ide rtr : Bool) :
    (frameFlags ide rtr &&& canFrameIde != 0#8) = ide := by
  cases ide <;> cases rtr <;> rfl

@[simp] theorem rtr_frameFlags (ide rtr : Bool) :
    (frameFlags ide rtr &&& canFrameRtr != 0#8) = rtr := by
  cases ide <;> cases rtr <;> rfl

theorem frameFlags_classic (ide rtr : Bool) :
    frameFlags ide rtr &&& ~~~(canFrameIde ||| canFrameRtr) = 0#8 := by
  cases ide <;> cases rtr <;> rfl

theorem eq_frameFlags {flags : Byte}
    (hflags : flags &&& ~~~(canFrameIde ||| canFrameRtr) = 0#8) :
    flags = frameFlags (flags &&& canFrameIde != 0#8) (flags &&& canFrameRtr != 0#8) := by
  have hall : ∀ b : Byte, b &&& ~~~(canFrameIde ||| canFrameRtr) = 0#8 →
      b = frameFlags (b &&& canFrameIde != 0#8) (b &&& canFrameRtr != 0#8) := by decide
  exact hall flags hflags

/-! ## Length and data -/

theorem clampDlc_le (dlc : Byte) : (clampDlc dlc).toNat ≤ 8 := by
  unfold clampDlc
  split
  · rename_i hlt
    have h : dlc.toNat < 8 := hlt
    omega
  · exact Nat.le_refl 8

theorem clampDlc_of_le {dlc : Byte} (hdlc : dlc.toNat ≤ 8) : clampDlc dlc = dlc := by
  unfold clampDlc
  split
  · rfl
  · rename_i hge
    have h : ¬ dlc.toNat < 8 := hge
    apply BitVec.eq_of_toNat_eq
    have hmax : canMaxDlc.toNat = 8 := rfl
    omega

theorem canDlcToBytes_clampDlc (dlc : Byte) :
    canDlcToBytes (clampDlc dlc) = (clampDlc dlc).toNat :=
  canDlcToBytes_of_le (clampDlc_le dlc)

theorem get_copyData (dst src : Vector Byte 8) (n : Nat) (i : Fin 8) :
    (copyData dst src n).get i = if i < n then src.get i else dst.get i :=
  Vector.getElem_ofFn i.isLt

theorem get_zeroData (i : Fin 8) : zeroData.get i = 0#8 :=
  Vector.getElem_replicate i.isLt

theorem zeroTail_copyData (src : Vector Byte 8) (dlc : Byte) :
    ZeroTail (clampDlc dlc)
      (copyData zeroData src (canDlcToBytes (clampDlc dlc))) := by
  intro i hi
  rw [canDlcToBytes_clampDlc, get_copyData, if_neg (by omega), get_zeroData]

theorem copyData_of_zeroTail {dlc : Byte} {data : Vector Byte 8} (hdlc : dlc.toNat ≤ 8)
    (htail : ZeroTail dlc data) :
    copyData zeroData data (canDlcToBytes dlc) = data := by
  apply Vector.ext
  intro i hi
  have hcopy := get_copyData zeroData data (canDlcToBytes dlc) ⟨i, hi⟩
  have hzero := get_zeroData ⟨i, hi⟩
  rw [canDlcToBytes_of_le hdlc] at hcopy ⊢
  by_cases hlt : i < dlc.toNat
  · rw [if_pos hlt] at hcopy
    exact hcopy
  · have hz : data.get ⟨i, hi⟩ = 0#8 := htail ⟨i, hi⟩ (by simpa using hlt)
    rw [if_neg hlt, hzero, ← hz] at hcopy
    exact hcopy

/-! ## The codec laws -/

theorem wellFormed_frameOfWire (w : RpmsgCanWire) : (frameOfWire w).WellFormed := by
  rw [frameOfWire_eq]
  refine ⟨frameFlags_classic _ _, ?_, clampDlc_le _, zeroTail_copyData _ _⟩
  intro i _ hi
  rw [CanFrame.ide, ide_frameFlags] at hi
  rw [BitVec.getLsbD_and, getLsbD_idMask, decide_eq_false (by omega), Bool.and_false]

theorem getLsbD_wireOfFrame_eff (f : CanFrame) : (wireOfFrame f).id.getLsbD 31 = f.ide := by
  have hwidth := idWidth_le f.ide
  rw [wireOfFrame_eq, getLsbD_wireId, decide_eq_false (by omega)]
  simp

theorem getLsbD_wireOfFrame_rtr (f : CanFrame) : (wireOfFrame f).id.getLsbD 30 = f.rtr := by
  have hwidth := idWidth_le f.ide
  rw [wireOfFrame_eq, getLsbD_wireId, decide_eq_false (by omega)]
  simp

theorem canonical_wireOfFrame (f : CanFrame) : (wireOfFrame f).Canonical := by
  have hwidth := idWidth_le f.ide
  have hid : (wireOfFrame f).id = wireId f.id f.ide f.rtr := by rw [wireOfFrame_eq]
  refine ⟨?_, ?_, ?_, ?_, ?_⟩
  · rw [hid, getLsbD_wireId, decide_eq_false (by omega)]
    simp
  · intro hstd i hi hle
    rw [getLsbD_wireOfFrame_eff] at hstd
    have hlt : ¬ i < idWidth f.ide := by
      rw [hstd]
      simpa [idWidth] using hle
    rw [hid, getLsbD_wireId, decide_eq_false hlt, hstd, decide_eq_false (by omega : ¬ i = 30)]
    simp
  · rw [wireOfFrame_eq]
    exact clampDlc_le _
  · rw [wireOfFrame_eq]
  · rw [wireOfFrame_eq]
    exact zeroTail_copyData _ _

theorem ide_frameOfWire (w : RpmsgCanWire) : (frameOfWire w).ide = w.id.getLsbD 31 := by
  rw [frameOfWire_eq]
  exact ide_frameFlags _ _

theorem rtr_frameOfWire (w : RpmsgCanWire) : (frameOfWire w).rtr = w.id.getLsbD 30 := by
  rw [frameOfWire_eq]
  exact rtr_frameFlags _ _

theorem frameOfWire_wireOfFrame {f : CanFrame} (hf : f.WellFormed) :
    frameOfWire (wireOfFrame f) = f := by
  obtain ⟨hflags, hid, hdlc, htail⟩ := hf
  have hwidth := idWidth_le f.ide
  have hidBack : (wireOfFrame f).id &&& idMask f.ide = f.id := by
    apply BitVec.eq_of_getLsbD_eq
    intro i hi
    rw [BitVec.getLsbD_and, getLsbD_idMask, wireOfFrame_eq, getLsbD_wireId]
    by_cases hlt : i < idWidth f.ide
    · rw [decide_eq_true hlt, decide_eq_false (by omega : ¬ i = 31),
        decide_eq_false (by omega : ¬ i = 30)]
      simp
    · rw [decide_eq_false hlt, hid i hi (by omega), Bool.and_false]
  have hflagsBack : frameFlags f.ide f.rtr = f.flags := (eq_frameFlags hflags).symm
  rw [frameOfWire_eq, getLsbD_wireOfFrame_eff, getLsbD_wireOfFrame_rtr, hidBack, hflagsBack,
    wireOfFrame_eq]
  simp only [clampDlc_of_le hdlc, copyData_of_zeroTail hdlc htail]

theorem wireOfFrame_frameOfWire {w : RpmsgCanWire} (hw : w.Canonical) :
    wireOfFrame (frameOfWire w) = w := by
  obtain ⟨herr, hstd, hdlc, hpad, htail⟩ := hw
  have hidBack :
      wireId (w.id &&& idMask (w.id.getLsbD 31)) (w.id.getLsbD 31) (w.id.getLsbD 30) =
        w.id := by
    apply BitVec.eq_of_getLsbD_eq
    intro i hi
    rw [getLsbD_wireId, BitVec.getLsbD_and, getLsbD_idMask]
    -- below the width the bit is kept, bits 30 and 31 are the flags, the rest is clear
    by_cases hlt : i < idWidth (w.id.getLsbD 31)
    · have hwidth := idWidth_le (w.id.getLsbD 31)
      rw [decide_eq_true hlt, decide_eq_false (by omega : ¬ i = 31),
        decide_eq_false (by omega : ¬ i = 30)]
      simp
    · rw [decide_eq_false hlt, Bool.and_false, Bool.false_or]
      by_cases h31 : i = 31
      · subst h31
        simp
      by_cases h30 : i = 30
      · subst h30
        simp
      have hclear : w.id.getLsbD i = false := by
        by_cases h29 : i = 29
        · rw [h29, herr]
        · cases heff : w.id.getLsbD 31 with
          | false =>
              rw [heff] at hlt
              exact hstd heff i (by omega) (by simpa [idWidth] using hlt)
          | true =>
              rw [heff] at hlt
              have h29le : 29 ≤ i := by simpa [idWidth] using hlt
              omega
      rw [hclear, decide_eq_false h31, decide_eq_false h30]
      simp
  rw [wireOfFrame_eq, ide_frameOfWire, rtr_frameOfWire, frameOfWire_eq]
  simp only [hidBack, clampDlc_of_le hdlc, copyData_of_zeroTail hdlc htail, ← hpad]

/-- Between well-formed frames and canonical messages the codec is a bijection. -/
def codecEquiv : { f : CanFrame // f.WellFormed } ≃ { w : RpmsgCanWire // w.Canonical } where
  toFun f := ⟨wireOfFrame f.1, canonical_wireOfFrame f.1⟩
  invFun w := ⟨frameOfWire w.1, wellFormed_frameOfWire w.1⟩
  left_inv f := Subtype.ext (frameOfWire_wireOfFrame f.2)
  right_inv w := Subtype.ext (wireOfFrame_frameOfWire w.2)

theorem copied_le (dlc : Byte) : canDlcToBytes (clampDlc dlc) ≤ 8 := by
  rw [canDlcToBytes_clampDlc]
  exact clampDlc_le dlc

/-- **The codec is an inverse pair.**  On well-formed frames and canonical messages the
translations invert each other; on arbitrary 16-byte messages decoding normalises, so
that encoding and decoding once more changes nothing, and no copy leaves the arrays. -/
theorem codec_inverse :
    (∀ f : CanFrame, f.WellFormed →
      (wireOfFrame f).Canonical ∧ frameOfWire (wireOfFrame f) = f) ∧
    (∀ w : RpmsgCanWire, w.Canonical →
      (frameOfWire w).WellFormed ∧ wireOfFrame (frameOfWire w) = w) ∧
    (∀ w : RpmsgCanWire,
      (frameOfWire w).WellFormed ∧ (wireOfFrame (frameOfWire w)).Canonical ∧
      frameOfWire (wireOfFrame (frameOfWire w)) = frameOfWire w ∧
      canDlcToBytes (frameOfWire w).dlc ≤ canMaxDlen ∧
      canDlcToBytes (wireOfFrame (frameOfWire w)).dlc ≤ canMaxDlen) := by
  refine ⟨fun f hf => ⟨canonical_wireOfFrame f, frameOfWire_wireOfFrame hf⟩,
    fun w hw => ⟨wellFormed_frameOfWire w, wireOfFrame_frameOfWire hw⟩, fun w => ?_⟩
  have hwf := wellFormed_frameOfWire w
  refine ⟨hwf, canonical_wireOfFrame _, frameOfWire_wireOfFrame hwf, ?_, ?_⟩
  · rw [frameOfWire_eq]
    exact copied_le w.dlc
  · rw [wireOfFrame_eq]
    exact copied_le _

theorem codec_inverse_extended :
    frameOfWire (wireOfFrame ⟨0x18FF50E5#32, 2#8, canFrameIde,
        #v[0xAB#8, 0xCD#8, 0#8, 0#8, 0#8, 0#8, 0#8, 0#8]⟩) =
      ⟨0x18FF50E5#32, 2#8, canFrameIde,
        #v[0xAB#8, 0xCD#8, 0#8, 0#8, 0#8, 0#8, 0#8, 0#8]⟩ :=
  (codec_inverse.1 _ ⟨by decide, by decide, by decide, by decide⟩).2

end DataLogger.CanGw
