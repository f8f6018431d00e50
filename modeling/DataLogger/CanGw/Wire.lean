import DataLogger.Zephyr.Can
import Mathlib.Data.List.GetD

/-!
# The rpmsg-can wire format

Messages between the gateway and Linux are told apart by their length: 16 bytes for
a CAN frame, 8 bytes for a control message.  Both are packed little-endian structs.
-/

namespace DataLogger.CanGw

open DataLogger.Foundation
open DataLogger.Zephyr

/-! ## CAN frames on the wire -/

structure RpmsgCanWire where
  id : BitVec 32
  dlc : Byte
  pad : Vector Byte 3
  data : Vector Byte 8
  deriving DecidableEq, Repr

def linuxCanEffFlag : BitVec 32 := 0x80000000#32
def linuxCanRtrFlag : BitVec 32 := 0x40000000#32
def linuxCanEffMask : BitVec 32 := 0x1FFFFFFF#32
def linuxCanSffMask : BitVec 32 := 0x000007FF#32

def sizeofWire : Nat := 16

namespace RpmsgCanWire

/-- `memcpy(&w, data, sizeof(w))` on a little-endian core. -/
def ofBytes (bytes : List Byte) : RpmsgCanWire where
  id := le32 (bytes.take 4)
  dlc := bytes.getD 4 0
  pad := Vector.ofFn fun i => bytes.getD (5 + i) 0
  data := Vector.ofFn fun i => bytes.getD (8 + i) 0

/-- The bytes of the struct in memory order. -/
def toBytes (w : RpmsgCanWire) : List Byte :=
  le32Bytes w.id ++ w.dlc :: (w.pad.toList ++ w.data.toList)

@[simp] theorem length_toBytes (w : RpmsgCanWire) : w.toBytes.length = sizeofWire := by
  simp [toBytes, sizeofWire]

@[simp] theorem ofBytes_toBytes (w : RpmsgCanWire) : ofBytes w.toBytes = w := by
  obtain ⟨id, dlc, pad, data⟩ := w
  rw [ofBytes, toBytes, RpmsgCanWire.mk.injEq]
  refine ⟨?_, ?_, ?_, ?_⟩
  · rw [List.take_left' (length_le32Bytes id), le32_le32Bytes]
  · rw [List.getD_append_right _ _ _ _ (by simp)]
    simp
  · ext i hi
    rw [Vector.getElem_ofFn, List.getD_append_right _ _ _ _ (by simp; omega)]
    rw [length_le32Bytes, show 5 + i - 4 = i + 1 by omega, List.getD_cons_succ,
      List.getD_append _ _ _ _ (by simpa using hi), List.getD_eq_getElem _ _ (by simpa using hi)]
    simp
  · ext i hi
    rw [Vector.getElem_ofFn, List.getD_append_right _ _ _ _ (by simp; omega)]
    rw [length_le32Bytes, show 8 + i - 4 = (i + 3) + 1 by omega, List.getD_cons_succ,
      List.getD_append_right _ _ _ _ (by simp), Vector.length_toList, Nat.add_sub_cancel,
      List.getD_eq_getElem _ _ (by simpa using hi)]
    simp

end RpmsgCanWire

/-! ## Control messages -/

structure RpmsgCanCtrl where
  magic : Byte
  cmd : Byte
  flags : Byte
  rsvd : Byte
  arg : BitVec 32
  deriving DecidableEq, Repr

def sizeofCtrl : Nat := 8

def rpmsgCanCtrlMagic : Byte := 0xC7#8

inductive RpmsgCanCmd where
  | setBitrate
  | setMode
  | start
  | stop
  | evtState
  deriving DecidableEq, Repr

namespace RpmsgCanCmd

def code : RpmsgCanCmd → Byte
  | setBitrate => 1#8
  | setMode => 2#8
  | start => 3#8
  | stop => 4#8
  | evtState => 5#8

def ofCode (b : Byte) : Option RpmsgCanCmd :=
  if b = 1#8 then some setBitrate
  else if b = 2#8 then some setMode
  else if b = 3#8 then some start
  else if b = 4#8 then some stop
  else if b = 5#8 then some evtState
  else none

end RpmsgCanCmd

def rpmsgCanModeListenonly : Byte := 0x01#8
def rpmsgCanModeLoopback : Byte := 0x02#8

namespace RpmsgCanCtrl

/-- The struct behind the `data` pointer of an 8-byte message. -/
def ofBytes (bytes : List Byte) : RpmsgCanCtrl where
  magic := bytes.getD 0 0
  cmd := bytes.getD 1 0
  flags := bytes.getD 2 0
  rsvd := bytes.getD 3 0
  arg := le32 (bytes.drop 4)

def toBytes (c : RpmsgCanCtrl) : List Byte :=
  c.magic :: c.cmd :: c.flags :: c.rsvd :: le32Bytes c.arg

@[simp] theorem length_toBytes (c : RpmsgCanCtrl) : c.toBytes.length = sizeofCtrl := by
  simp [toBytes, sizeofCtrl]

@[simp] theorem ofBytes_toBytes (c : RpmsgCanCtrl) : ofBytes c.toBytes = c := by
  simp [ofBytes, toBytes]

/-- A control message as the Linux side builds it. -/
def request (cmd : RpmsgCanCmd) (flags : Byte) (arg : BitVec 32) : RpmsgCanCtrl :=
  ⟨rpmsgCanCtrlMagic, cmd.code, flags, 0#8, arg⟩

end RpmsgCanCtrl

/-- The controller mode that the flags of a SET_MODE message ask for. -/
def modeOfFlags (flags : Byte) : CanMode :=
  let mode := canModeNormal
  let mode :=
    if flags &&& rpmsgCanModeListenonly != 0#8 then mode ||| canModeListenonly else mode
  if flags &&& rpmsgCanModeLoopback != 0#8 then mode ||| canModeLoopback else mode

end DataLogger.CanGw
