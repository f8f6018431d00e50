import DataLogger.CanGw.Codec
import DataLogger.Foundation.Machine

/-!
# Messages from Linux

`rpmsg_recv_can_callback` and `rpmsg_can_handle_ctrl`, as functions on one node: the
gateway's static variables together with the controller they drive.  The driver's
answers arrive with the message, one for each driver call a message can cause.
-/

namespace DataLogger.CanGw

open DataLogger.Foundation
open DataLogger.Zephyr

/-- The variables of `can_gw.c` that the receive callback touches, the controller, and
the frames the controller has taken for transmission. -/
structure Node where
  canStarted : Bool
  peerAddr : BitVec 32
  statCanTx : BitVec 32
  statCanTxDrop : BitVec 32
  dev : CanController
  sent : List CanFrame
  deriving DecidableEq

/-- `peer_addr` before any message: `(uint32_t)-1`. -/
def peerUnknown : BitVec 32 := 0xFFFFFFFF#32

def Node.atBoot (dtBitrate : BitVec 32) : Node :=
  ⟨false, peerUnknown, 0#32, 0#32, CanController.atBoot dtBitrate, []⟩

/-- What the driver answers to each call, should it be made and be legal. -/
structure DriverReplies where
  start : Reply
  stop : Reply
  setBitrate : Reply
  setMode : Reply
  send : Reply
  deriving DecidableEq

def DriverReplies.allOk : DriverReplies := ⟨.ok, .ok, .ok, .ok, .ok⟩

/-! ## Control messages -/

/-- `if (can_started) { can_stop(can_dev); can_started = false; }` -/
def Node.stopIfStarted (r : DriverReplies) (n : Node) : Node :=
  if n.canStarted then { n with dev := (n.dev.stop r.stop).2, canStarted := false } else n

/-- `rpmsg_can_handle_ctrl`.  Only the return code of `can_start` is kept; the others
go to the console. -/
def rpmsgCanHandleCtrl (c : RpmsgCanCtrl) (r : DriverReplies) (n : Node) : Node :=
  match RpmsgCanCmd.ofCode c.cmd with
  | some .setBitrate =>
      let n := n.stopIfStarted r
      { n with dev := (n.dev.setBitrate r.setBitrate c.arg).2 }
  | some .setMode =>
      let mode := modeOfFlags c.flags
      let n := n.stopIfStarted r
      { n with dev := (n.dev.setMode r.setMode mode).2 }
  | some .start =>
      if !n.canStarted then
        let (ret, dev) := n.dev.start r.start
        { n with dev := dev, canStarted := ret == 0 }
      else n
  | some .stop => n.stopIfStarted r
  | some .evtState => n
  | none => n

/-! ## The receive callback -/

/-- One message in the vring, with the driver's answers while it is handled. -/
structure Delivery where
  data : List Byte
  src : BitVec 32
  replies : DriverReplies
  deriving DecidableEq

/-- `can_send` with no time to wait for a mailbox: a frame that the controller accepts
is on its way to the bus. -/
def Node.canSend (r : Reply) (frame : CanFrame) (n : Node) : Int × Node :=
  driverCall n.dev.started eNetDown r { n with sent := n.sent ++ [frame] } n

def Node.countSend (ret : Int) (n : Node) : Node :=
  if ret = 0 then { n with statCanTx := n.statCanTx + 1 }
  else { n with statCanTxDrop := n.statCanTxDrop + 1 }

/-- The callback up to its `can_send`: the node, and the frame to send if the message
is a data frame. -/
def recvBegin (d : Delivery) (n : Node) : Node × Option CanFrame :=
  let n := { n with peerAddr := d.src }
  if d.data.length = sizeofCtrl then
    let c := RpmsgCanCtrl.ofBytes d.data
    if c.magic = rpmsgCanCtrlMagic then (rpmsgCanHandleCtrl c d.replies n, none) else (n, none)
  else if d.data.length ≠ sizeofWire then (n, none)
  else (n, some (frameOfWire (RpmsgCanWire.ofBytes d.data)))

/-- `rpmsg_recv_can_callback`, once `can_send` has returned. -/
def rpmsgRecvCanCallback (n : Node) (d : Delivery) : Node :=
  match recvBegin d n with
  | (n, none) => n
  | (n, some frame) =>
      let (ret, n) := n.canSend d.replies.send frame
      n.countSend ret

def Delivery.ctrl? (d : Delivery) : Option RpmsgCanCtrl :=
  if d.data.length = sizeofCtrl ∧ (RpmsgCanCtrl.ofBytes d.data).magic = rpmsgCanCtrlMagic then
    some (RpmsgCanCtrl.ofBytes d.data)
  else none

def Delivery.frame? (d : Delivery) : Option CanFrame :=
  if d.data.length = sizeofWire then some (frameOfWire (RpmsgCanWire.ofBytes d.data)) else none

def recvMachine : Machine Node Delivery := .ofTotal rpmsgRecvCanCallback

structure CtrlCall where
  ctrl : RpmsgCanCtrl
  replies : DriverReplies
  deriving DecidableEq

def ctrlMachine : Machine Node CtrlCall := .ofTotal fun n c => rpmsgCanHandleCtrl c.ctrl c.replies n

/-! ## What each command does -/

variable {c : RpmsgCanCtrl} {r : DriverReplies} {n : Node}

theorem stopIfStarted_of_started (hn : n.canStarted = true) :
    n.stopIfStarted r = { n with dev := (n.dev.stop r.stop).2, canStarted := false } := by
  rw [Node.stopIfStarted, if_pos hn]

theorem stopIfStarted_of_not (hn : n.canStarted = false) : n.stopIfStarted r = n := by
  rw [Node.stopIfStarted, if_neg (by simp [hn])]

@[simp] theorem stopIfStarted_canStarted : (n.stopIfStarted r).canStarted = false := by
  cases hn : n.canStarted with
  | false => rw [stopIfStarted_of_not hn, hn]
  | true => rw [stopIfStarted_of_started hn]

theorem handleCtrl_setBitrate (hc : RpmsgCanCmd.ofCode c.cmd = some .setBitrate) :
    rpmsgCanHandleCtrl c r n =
      { n.stopIfStarted r with
        dev := ((n.stopIfStarted r).dev.setBitrate r.setBitrate c.arg).2 } := by
  rw [rpmsgCanHandleCtrl, hc]

theorem handleCtrl_setMode (hc : RpmsgCanCmd.ofCode c.cmd = some .setMode) :
    rpmsgCanHandleCtrl c r n =
      { n.stopIfStarted r with
        dev := ((n.stopIfStarted r).dev.setMode r.setMode (modeOfFlags c.flags)).2 } := by
  rw [rpmsgCanHandleCtrl, hc]

theorem handleCtrl_start (hc : RpmsgCanCmd.ofCode c.cmd = some .start)
    (hn : n.canStarted = false) :
    rpmsgCanHandleCtrl c r n =
      { n with dev := (n.dev.start r.start).2, canStarted := (n.dev.start r.start).1 == 0 } := by
  rw [rpmsgCanHandleCtrl, hc]
  simp [hn]

theorem handleCtrl_start_again (hc : RpmsgCanCmd.ofCode c.cmd = some .start)
    (hn : n.canStarted = true) : rpmsgCanHandleCtrl c r n = n := by
  rw [rpmsgCanHandleCtrl, hc]
  simp [hn]

theorem handleCtrl_stop (hc : RpmsgCanCmd.ofCode c.cmd = some .stop) :
    rpmsgCanHandleCtrl c r n = n.stopIfStarted r := by
  rw [rpmsgCanHandleCtrl, hc]

theorem handleCtrl_evtState (hc : RpmsgCanCmd.ofCode c.cmd = some .evtState) :
    rpmsgCanHandleCtrl c r n = n := by
  rw [rpmsgCanHandleCtrl, hc]

theorem handleCtrl_unknown (hc : RpmsgCanCmd.ofCode c.cmd = none) :
    rpmsgCanHandleCtrl c r n = n := by
  rw [rpmsgCanHandleCtrl, hc]

/-- The control messages that take the controller off the bus first. -/
def StopsFirst (c : RpmsgCanCtrl) : Prop :=
  RpmsgCanCmd.ofCode c.cmd = some .setBitrate ∨ RpmsgCanCmd.ofCode c.cmd = some .setMode ∨
    RpmsgCanCmd.ofCode c.cmd = some .stop

instance : DecidablePred StopsFirst := fun c =>
  inferInstanceAs (Decidable (RpmsgCanCmd.ofCode c.cmd = some .setBitrate ∨
    RpmsgCanCmd.ofCode c.cmd = some .setMode ∨ RpmsgCanCmd.ofCode c.cmd = some .stop))

theorem handleCtrl_cases (c : RpmsgCanCtrl) :
    StopsFirst c ∨ RpmsgCanCmd.ofCode c.cmd = some .start ∨
      ∀ r n, rpmsgCanHandleCtrl c r n = n := by
  cases hcmd : RpmsgCanCmd.ofCode c.cmd with
  | none => exact Or.inr (Or.inr fun _ _ => handleCtrl_unknown hcmd)
  | some cmd =>
      cases cmd with
      | setBitrate => exact Or.inl (Or.inl hcmd)
      | setMode => exact Or.inl (Or.inr (Or.inl hcmd))
      | stop => exact Or.inl (Or.inr (Or.inr hcmd))
      | start => exact Or.inr (Or.inl rfl)
      | evtState => exact Or.inr (Or.inr fun _ _ => handleCtrl_evtState hcmd)

theorem setBitrate_started_eq (dev : CanController) (a : Reply) (b : BitVec 32) :
    (dev.setBitrate a b).2.started = dev.started :=
  driverCall_keeps CanController.started rfl

theorem setMode_started_eq (dev : CanController) (a : Reply) (md : CanMode) :
    (dev.setMode a md).2.started = dev.started :=
  driverCall_keeps CanController.started rfl

theorem handleCtrl_stopsFirst (hc : StopsFirst c) :
    (rpmsgCanHandleCtrl c r n).canStarted = false ∧
      (rpmsgCanHandleCtrl c r n).dev.started = (n.stopIfStarted r).dev.started := by
  rcases hc with hc | hc | hc
  · rw [handleCtrl_setBitrate hc]
    exact ⟨stopIfStarted_canStarted, setBitrate_started_eq _ _ _⟩
  · rw [handleCtrl_setMode hc]
    exact ⟨stopIfStarted_canStarted, setMode_started_eq _ _ _⟩
  · rw [handleCtrl_stop hc]
    exact ⟨stopIfStarted_canStarted, rfl⟩

theorem handleCtrl_frame (c : RpmsgCanCtrl) (r : DriverReplies) (n : Node) :
    (rpmsgCanHandleCtrl c r n).peerAddr = n.peerAddr ∧
      (rpmsgCanHandleCtrl c r n).statCanTx = n.statCanTx ∧
      (rpmsgCanHandleCtrl c r n).statCanTxDrop = n.statCanTxDrop ∧
      (rpmsgCanHandleCtrl c r n).sent = n.sent := by
  unfold rpmsgCanHandleCtrl Node.stopIfStarted
  cases n.canStarted <;> cases RpmsgCanCmd.ofCode c.cmd with
  | none => simp
  | some cmd => cases cmd <;> simp

/-! ## What each kind of message does -/

theorem recvBegin_ctrl {d : Delivery} (hd : d.ctrl? = some c) :
    recvBegin d n = (rpmsgCanHandleCtrl c d.replies { n with peerAddr := d.src }, none) := by
  unfold Delivery.ctrl? at hd
  split at hd
  · rename_i hlen
    cases hd
    rw [recvBegin, if_pos hlen.1, if_pos hlen.2]
  · cases hd

theorem recvBegin_frame {d : Delivery} {frame : CanFrame} (hd : d.frame? = some frame) :
    recvBegin d n = ({ n with peerAddr := d.src }, some frame) := by
  unfold Delivery.frame? at hd
  split at hd
  · rename_i hlen
    cases hd
    rw [recvBegin, if_neg (by rw [hlen]; decide), if_neg (by rw [hlen]; decide)]
  · cases hd

theorem recvBegin_other {d : Delivery} (hctrl : d.ctrl? = none) (hframe : d.frame? = none) :
    recvBegin d n = ({ n with peerAddr := d.src }, none) := by
  unfold Delivery.ctrl? at hctrl
  unfold Delivery.frame? at hframe
  have hsize : d.data.length ≠ sizeofWire := by
    intro hlen
    rw [if_pos hlen] at hframe
    cases hframe
  rw [recvBegin]
  by_cases hlen : d.data.length = sizeofCtrl
  · have hmagic : (RpmsgCanCtrl.ofBytes d.data).magic ≠ rpmsgCanCtrlMagic := by
      intro hmagic
      rw [if_pos ⟨hlen, hmagic⟩] at hctrl
      cases hctrl
    rw [if_pos hlen, if_neg hmagic]
  · rw [if_neg hlen, if_pos hsize]

theorem callback_ctrl {d : Delivery} (hd : d.ctrl? = some c) :
    rpmsgRecvCanCallback n d = rpmsgCanHandleCtrl c d.replies { n with peerAddr := d.src } := by
  rw [rpmsgRecvCanCallback, recvBegin_ctrl hd]

theorem callback_frame {d : Delivery} {frame : CanFrame} (hd : d.frame? = some frame) :
    rpmsgRecvCanCallback n d =
      (({ n with peerAddr := d.src }.canSend d.replies.send frame).2.countSend
        ({ n with peerAddr := d.src }.canSend d.replies.send frame).1) := by
  rw [rpmsgRecvCanCallback, recvBegin_frame hd]

theorem callback_other {d : Delivery} (hctrl : d.ctrl? = none) (hframe : d.frame? = none) :
    rpmsgRecvCanCallback n d = { n with peerAddr := d.src } := by
  rw [rpmsgRecvCanCallback, recvBegin_other hctrl hframe]

theorem countSend_frame (ret : Int) (n : Node) :
    (n.countSend ret).canStarted = n.canStarted ∧ (n.countSend ret).dev = n.dev ∧
      (n.countSend ret).peerAddr = n.peerAddr ∧ (n.countSend ret).sent = n.sent := by
  unfold Node.countSend
  split
  · exact ⟨rfl, rfl, rfl, rfl⟩
  · exact ⟨rfl, rfl, rfl, rfl⟩

theorem canSend_countSend (a : Reply) (frame : CanFrame) (n : Node) (ret : Int) :
    ((n.canSend a frame).2.countSend ret).canStarted = n.canStarted ∧
      ((n.canSend a frame).2.countSend ret).dev = n.dev := by
  obtain ⟨hflag, hdev, -, -⟩ := countSend_frame ret (n.canSend a frame).2
  rw [hflag, hdev]
  exact ⟨driverCall_keeps Node.canStarted rfl, driverCall_keeps Node.dev rfl⟩

theorem canSend_fst_eq_zero {a : Reply} {frame : CanFrame} :
    (n.canSend a frame).1 = 0 ↔ n.dev.started = true ∧ a = .ok :=
  driverCall_fst_eq_zero

theorem canSend_taken (frame : CanFrame) (hn : n.dev.started = true) :
    n.canSend .ok frame = (0, { n with sent := n.sent ++ [frame] }) := by
  simp [Node.canSend, driverCall, hn]

theorem canSend_stopped (a : Reply) (frame : CanFrame) (hn : n.dev.started = false) :
    n.canSend a frame = (eNetDown.code, n) := by
  simp [Node.canSend, driverCall, hn]

end DataLogger.CanGw
