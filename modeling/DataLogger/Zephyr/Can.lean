import DataLogger.Foundation.Bytes

/-!
# The CAN driver as the gateway sees it

Frames, receive filters and the controller behind `can_start`, `can_stop`,
`can_set_bitrate`, `can_set_mode` and `can_send`.  The driver is not part of the
repository: what a call may answer is an argument (`Reply`), and the definitions
below only fix what the answer means for the controller.
-/

namespace DataLogger.Zephyr

open DataLogger.Foundation

/-! ## Frames -/

def canFrameIde : Byte := 0x01#8
def canFrameRtr : Byte := 0x02#8

/-- `CAN_MAX_DLC` and `CAN_MAX_DLEN` of a classic controller. -/
def canMaxDlc : Byte := 8#8
abbrev canMaxDlen : Nat := 8

structure CanFrame where
  id : BitVec 32
  dlc : Byte
  flags : Byte
  data : Vector Byte canMaxDlen
  deriving DecidableEq, Repr

/-- `can_dlc_to_bytes`, with the CAN FD codes above 8. -/
def canDlcToBytes (dlc : Byte) : Nat :=
  [0, 1, 2, 3, 4, 5, 6, 7, 8, 12, 16, 20, 24, 32, 48, 64].getD (min dlc.toNat 15) 0

theorem canDlcToBytes_of_le {dlc : Byte} (hdlc : dlc.toNat ≤ 8) :
    canDlcToBytes dlc = dlc.toNat := by
  unfold canDlcToBytes
  rw [Nat.min_eq_left (by omega)]
  generalize dlc.toNat = n at hdlc ⊢
  have htable : ∀ k ≤ 8,
      [0, 1, 2, 3, 4, 5, 6, 7, 8, 12, 16, 20, 24, 32, 48, 64].getD k 0 = k := by decide
  exact htable n hdlc

def CanFrame.ide (f : CanFrame) : Bool := f.flags &&& canFrameIde != 0#8

def CanFrame.rtr (f : CanFrame) : Bool := f.flags &&& canFrameRtr != 0#8

def idWidth (ide : Bool) : Nat := if ide then 29 else 11

def FitsBits (x : BitVec 32) (n : Nat) : Prop := ∀ i < 32, n ≤ i → x.getLsbD i = false

def ZeroTail (dlc : Byte) (data : Vector Byte 8) : Prop :=
  ∀ i : Fin 8, dlc.toNat ≤ i → data.get i = 0#8

instance (x : BitVec 32) (n : Nat) : Decidable (FitsBits x n) :=
  inferInstanceAs (Decidable (∀ i < 32, n ≤ i → x.getLsbD i = false))

instance (dlc : Byte) (data : Vector Byte 8) : Decidable (ZeroTail dlc data) :=
  inferInstanceAs (Decidable (∀ i : Fin 8, dlc.toNat ≤ i → data.get i = 0#8))

/-- A classic frame: no flag but `IDE` and `RTR`, an identifier of the width that
`IDE` announces, at most 8 data bytes, nothing behind them. -/
structure CanFrame.WellFormed (f : CanFrame) : Prop where
  flags : f.flags &&& ~~~(canFrameIde ||| canFrameRtr) = 0#8
  id : FitsBits f.id (idWidth f.ide)
  dlc : f.dlc.toNat ≤ 8
  tail : ZeroTail f.dlc f.data

/-! ## Receive filters -/

def canFilterIde : Byte := 0x01#8

structure CanFilter where
  id : BitVec 32
  mask : BitVec 32
  flags : Byte
  deriving DecidableEq, Repr

/-- An installed filter passes the frames of its own identifier kind whose
identifier agrees with the filter's under the mask. -/
def CanFilter.passes (flt : CanFilter) (f : CanFrame) : Bool :=
  ((flt.flags &&& canFilterIde != 0#8) == f.ide) && ((f.id ^^^ flt.id) &&& flt.mask == 0#32)

/-! ## Driver answers -/

/-- A negative return code. -/
structure Errno where
  code : Int
  neg : code < 0
  deriving DecidableEq, Repr

theorem Errno.code_ne_zero (e : Errno) : e.code ≠ 0 := by
  have h := e.neg
  omega

def eIo : Errno := ⟨-5, by decide⟩
def eNoMem : Errno := ⟨-12, by decide⟩
def eBusy : Errno := ⟨-16, by decide⟩
def eNoDev : Errno := ⟨-19, by decide⟩
def eRange : Errno := ⟨-34, by decide⟩
def eNetDown : Errno := ⟨-115, by decide⟩
def eTimedOut : Errno := ⟨-116, by decide⟩
def eAlready : Errno := ⟨-120, by decide⟩
def eNotSup : Errno := ⟨-134, by decide⟩

/-- What the driver answers to a call that is legal in the controller's state:
success, or a negative code and no effect. -/
inductive Reply where
  | ok
  | fail (e : Errno)
  deriving DecidableEq, Repr

/-- A driver call on `s`: the return code and the state afterwards.  In a state it is not
legal in it answers `refusal` and does nothing. -/
def driverCall {σ : Type*} (legal : Bool) (refusal : Errno) (r : Reply) (effect s : σ) :
    Int × σ :=
  if legal then
    match r with
    | .ok => (0, effect)
    | .fail e => (e.code, s)
  else (refusal.code, s)

section DriverCall

variable {σ : Type*} {legal : Bool} {refusal : Errno} {r : Reply} {effect s : σ}

theorem driverCall_fst_eq_zero :
    (driverCall legal refusal r effect s).1 = 0 ↔ legal = true ∧ r = .ok := by
  cases legal <;> cases r <;> simp [driverCall, Errno.code_ne_zero]

theorem driverCall_snd :
    (driverCall legal refusal r effect s).2 =
      if legal = true ∧ r = .ok then effect else s := by
  cases legal <;> cases r <;> simp [driverCall]

theorem driverCall_keeps {α : Type*} (get : σ → α) (heffect : get effect = get s) :
    get (driverCall legal refusal r effect s).2 = get s := by
  rw [driverCall_snd]
  split
  · exact heffect
  · rfl

end DriverCall

/-! ## The controller -/

abbrev CanMode := BitVec 32

def canModeNormal : CanMode := 0#32
def canModeLoopback : CanMode := 0x01#32
def canModeListenonly : CanMode := 0x02#32

structure CanController where
  started : Bool
  bitrate : BitVec 32
  mode : CanMode
  deriving DecidableEq, Repr

namespace CanController

/-- After boot: stopped, with the device-tree bitrate, in normal mode. -/
def atBoot (dtBitrate : BitVec 32) : CanController := ⟨false, dtBitrate, canModeNormal⟩

/-- `can_start`; below it `can_stop`, `can_set_bitrate` and `can_set_mode`. -/
def start (r : Reply) (c : CanController) : Int × CanController :=
  driverCall (!c.started) eAlready r { c with started := true } c

def stop (r : Reply) (c : CanController) : Int × CanController :=
  driverCall c.started eAlready r { c with started := false } c

def setBitrate (r : Reply) (bitrate : BitVec 32) (c : CanController) : Int × CanController :=
  driverCall (!c.started) eBusy r { c with bitrate := bitrate } c

def setMode (r : Reply) (mode : CanMode) (c : CanController) : Int × CanController :=
  driverCall (!c.started) eBusy r { c with mode := mode } c

variable {c : CanController}

@[simp] theorem start_started (hc : c.started = true) (r : Reply) :
    c.start r = (eAlready.code, c) := by
  simp [start, driverCall, hc]

@[simp] theorem start_ok (hc : c.started = false) :
    c.start .ok = (0, { c with started := true }) := by
  simp [start, driverCall, hc]

@[simp] theorem start_fail (hc : c.started = false) (e : Errno) :
    c.start (.fail e) = (e.code, c) := by
  simp [start, driverCall, hc]

@[simp] theorem stop_ok (hc : c.started = true) :
    c.stop .ok = (0, { c with started := false }) := by
  simp [stop, driverCall, hc]

@[simp] theorem stop_fail (hc : c.started = true) (e : Errno) :
    c.stop (.fail e) = (e.code, c) := by
  simp [stop, driverCall, hc]

@[simp] theorem setBitrate_started (hc : c.started = true) (r : Reply) (b : BitVec 32) :
    c.setBitrate r b = (eBusy.code, c) := by
  simp [setBitrate, driverCall, hc]

@[simp] theorem setMode_started (hc : c.started = true) (r : Reply) (md : CanMode) :
    c.setMode r md = (eBusy.code, c) := by
  simp [setMode, driverCall, hc]

end CanController

end DataLogger.Zephyr
