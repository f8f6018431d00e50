import DataLogger.CanGw.Mirror
import DataLogger.CanGw.RxPath

/-!
# From Linux to the bus

What becomes of the data messages: each is decoded once, and the controller takes it or it is
counted as dropped.  Over that, the link as Linux sees it, with nothing but up and down: the
node behaves like it as long as `can_stop` does what it is asked to.
-/

namespace DataLogger.CanGw

open DataLogger.Foundation
open DataLogger.Zephyr

/-! ## One message -/

/-- The frames that Linux asks to send, in order. -/
def dataFrames (ds : List Delivery) : List CanFrame := ds.filterMap Delivery.frame?

/-- The frame of a message that the controller takes. -/
def takenFrames (n : Node) (d : Delivery) : List CanFrame :=
  if n.dev.started = true ∧ d.replies.send = .ok then d.frame?.toList else []

/-- The frames of the messages `ds` that the controller takes, in order, with each message met
by the node as the ones before it have left it. -/
def framesTaken (n : Node) : List Delivery → List CanFrame
  | [] => []
  | d :: ds => takenFrames n d ++ framesTaken (rpmsgRecvCanCallback n d) ds

variable {n : Node} {d : Delivery} {ds : List Delivery}

theorem takenFrames_sublist (n : Node) (d : Delivery) :
    (takenFrames n d).Sublist d.frame?.toList := by
  unfold takenFrames
  split
  · exact List.Sublist.refl _
  · exact List.nil_sublist _

/-- What a message does to the frames sent and to the two counters. -/
structure Transmits (n : Node) (d : Delivery) (m : Node) : Prop where
  sent : m.sent = n.sent ++ takenFrames n d
  taken : m.statCanTx = n.statCanTx + BitVec.ofNat 32 (takenFrames n d).length
  dropped : m.statCanTxDrop =
    n.statCanTxDrop + BitVec.ofNat 32 (d.frame?.toList.length - (takenFrames n d).length)

theorem transmits_of_frame {frame : CanFrame} (hframe : d.frame? = some frame) :
    Transmits n d (rpmsgRecvCanCallback n d) := by
  rw [callback_frame hframe]
  by_cases htaken : n.dev.started = true ∧ d.replies.send = .ok
  · have htake : takenFrames n d = [frame] := by
      rw [takenFrames, if_pos htaken, hframe]
      rfl
    rw [htaken.2, canSend_taken (n := { n with peerAddr := d.src }) frame htaken.1]
    refine ⟨?_, ?_, ?_⟩
    · simp [Node.countSend, htake]
    · simp [Node.countSend, htake]
    · simp [Node.countSend, htake, hframe]
  · have htake : takenFrames n d = [] := by rw [takenFrames, if_neg htaken]
    have hret : ({ n with peerAddr := d.src }.canSend d.replies.send frame).1 ≠ 0 := by
      rw [ne_eq, canSend_fst_eq_zero]
      exact htaken
    have hsame : ({ n with peerAddr := d.src }.canSend d.replies.send frame).2 =
        { n with peerAddr := d.src } := by
      rw [Node.canSend, driverCall_snd, if_neg htaken]
    rw [Node.countSend, if_neg hret, hsame]
    refine ⟨?_, ?_, ?_⟩
    · simp [htake]
    · simp [htake]
    · simp [htake, hframe]

theorem transmits_callback (n : Node) (d : Delivery) :
    Transmits n d (rpmsgRecvCanCallback n d) := by
  cases hframe : d.frame? with
  | some frame => exact transmits_of_frame hframe
  | none =>
      have htake : takenFrames n d = [] := by
        rw [takenFrames, hframe]
        simp
      have hquiet : ∀ m : Node, m.sent = n.sent → m.statCanTx = n.statCanTx →
          m.statCanTxDrop = n.statCanTxDrop → Transmits n d m := by
        intro m hsent htaken hdropped
        exact ⟨by simp [hsent, htake], by simp [htaken, htake], by simp [hdropped, hframe]⟩
      cases hctrl : d.ctrl? with
      | none =>
          rw [callback_other hctrl hframe]
          exact hquiet _ rfl rfl rfl
      | some c =>
          obtain ⟨-, htaken, hdropped, hsent⟩ :=
            handleCtrl_frame c d.replies { n with peerAddr := d.src }
          rw [callback_ctrl hctrl]
          exact hquiet _ hsent htaken hdropped

/-! ## All messages -/

/-- The node against the messages it has got since boot. -/
structure Node.Accounted (n : Node) (ds : List Delivery) : Prop where
  sent : n.sent.Sublist (dataFrames ds)
  taken : n.statCanTx = BitVec.ofNat 32 n.sent.length
  dropped : n.statCanTxDrop = BitVec.ofNat 32 ((dataFrames ds).length - n.sent.length)
  peer : n.peerAddr = (ds.getLast?.map Delivery.src).getD peerUnknown

theorem dataFrames_concat (ds : List Delivery) (d : Delivery) :
    dataFrames (ds ++ [d]) = dataFrames ds ++ d.frame?.toList := by
  rw [dataFrames, dataFrames, List.filterMap_append]
  cases hframe : d.frame? with
  | none => simp [hframe]
  | some frame => simp [hframe]

theorem accounted_callback (hn : n.Accounted ds) :
    (rpmsgRecvCanCallback n d).Accounted (ds ++ [d]) := by
  obtain ⟨hsent, htaken, hdropped⟩ := transmits_callback n d
  have hle := hn.sent.length_le
  have hnew := (takenFrames_sublist n d).length_le
  refine ⟨?_, ?_, ?_, ?_⟩
  · rw [hsent, dataFrames_concat]
    exact hn.sent.append (takenFrames_sublist n d)
  · rw [htaken, hn.taken, hsent, List.length_append, BitVec.ofNat_add]
  · rw [hdropped, hn.dropped, hsent, dataFrames_concat, List.length_append, List.length_append,
      ← BitVec.ofNat_add]
    congr 1
    omega
  · simp [peerAddr_callback]

theorem accounted_recvAll (dtBitrate : BitVec 32) (ds : List Delivery) :
    (recvAll (.atBoot dtBitrate) ds).Accounted ds := by
  refine Machine.exec_history (m := recvMachine) (R := fun n ds => n.Accounted ds) ?_ ?_
    (exec_recvMachine _ ds)
  · exact ⟨List.Sublist.refl _, rfl, rfl, rfl⟩
  · intro n ds d m hn hstep
    cases hstep
    exact accounted_callback hn

/-- Nothing reaches the controller but the frames of these messages, each of them once. -/
theorem sent_recvAll (n : Node) (ds : List Delivery) :
    (recvAll n ds).sent = n.sent ++ framesTaken n ds := by
  induction ds generalizing n with
  | nil => exact (List.append_nil _).symm
  | cons d ds ih =>
      calc (recvAll n (d :: ds)).sent
          = (rpmsgRecvCanCallback n d).sent ++ framesTaken (rpmsgRecvCanCallback n d) ds := ih _
        _ = n.sent ++ framesTaken n (d :: ds) := by
          rw [(transmits_callback n d).sent, framesTaken, List.append_assoc]

theorem wellFormed_of_mem_dataFrames {frame : CanFrame} (hframe : frame ∈ dataFrames ds) :
    frame.WellFormed := by
  obtain ⟨d, -, hd⟩ := List.mem_filterMap.1 hframe
  obtain ⟨-, hnext⟩ := Option.ite_none_right_eq_some.1 hd
  cases hnext
  exact wellFormed_frameOfWire _

/-- **No data message is lost uncounted, duplicated or reordered.**  Whatever Linux sends
and the driver answers, the frames that the controller has got are those of exactly the data
messages that met a started controller and a driver that took them, in their order, every one
of them a frame that a classic controller can send; the two counters say how many messages
were taken and how many dropped, and the peer is whoever has written last. -/
theorem transmit_accounts (dtBitrate : BitVec 32) (ds : List Delivery) :
    (recvAll (.atBoot dtBitrate) ds).sent = framesTaken (.atBoot dtBitrate) ds ∧
      (recvAll (.atBoot dtBitrate) ds).sent.Sublist (dataFrames ds) ∧
      (∀ frame ∈ (recvAll (.atBoot dtBitrate) ds).sent, frame.WellFormed) ∧
      (recvAll (.atBoot dtBitrate) ds).statCanTx =
        BitVec.ofNat 32 (recvAll (.atBoot dtBitrate) ds).sent.length ∧
      (dataFrames ds).length ≡ (recvAll (.atBoot dtBitrate) ds).statCanTx.toNat +
        (recvAll (.atBoot dtBitrate) ds).statCanTxDrop.toNat [MOD 2 ^ 32] ∧
      (recvAll (.atBoot dtBitrate) ds).peerAddr =
        (ds.getLast?.map Delivery.src).getD peerUnknown := by
  obtain ⟨hsent, htaken, hdropped, hpeer⟩ := accounted_recvAll dtBitrate ds
  refine ⟨sent_recvAll _ ds, hsent, ?_, htaken, ?_, hpeer⟩
  · intro frame hframe
    exact wellFormed_of_mem_dataFrames (hsent.subset hframe)
  · have hle := hsent.length_le
    rw [htaken, hdropped, BitVec.toNat_ofNat, BitVec.toNat_ofNat]
    calc (dataFrames ds).length
        = (recvAll (.atBoot dtBitrate) ds).sent.length +
            ((dataFrames ds).length - (recvAll (.atBoot dtBitrate) ds).sent.length) := by omega
      _ ≡ _ [MOD 2 ^ 32] := (Nat.mod_modEq _ _).symm.add (Nat.mod_modEq _ _).symm

/-! ## The link as Linux sees it -/

/-- A link that is up or down, and the frames it has carried. -/
structure Link where
  up : Bool
  carried : List CanFrame
  deriving DecidableEq

/-- START brings the link up, if the driver agrees; STOP, SET_BITRATE and SET_MODE bring it
down.  It carries what it is given while it is up and the driver agrees. -/
def Link.step (l : Link) (d : Delivery) : Link where
  up :=
    match d.ctrl? with
    | none => l.up
    | some c =>
        if StopsFirst c then false
        else if RpmsgCanCmd.ofCode c.cmd = some .start then l.up || decide (d.replies.start = .ok)
        else l.up
  carried :=
    l.carried ++ if l.up = true ∧ d.replies.send = .ok then d.frame?.toList else []

def linkAfter (ds : List Delivery) : Link := ds.foldl Link.step ⟨false, []⟩

/-- The node does what the link does. -/
structure Node.Follows (n : Node) (l : Link) : Prop where
  flag : n.canStarted = l.up
  dev : n.dev.started = l.up
  sent : n.sent = l.carried

/-- One message for both. -/
def bothMachine : Machine (Node × Link) Delivery :=
  .ofTotal fun p d => (rpmsgRecvCanCallback p.1 d, p.2.step d)

def StopSucceedsFor (p : Node × Link) (d : Delivery) : Prop := DeliveryStopSucceeds p.1 d

variable {l : Link}

theorem Node.Follows.mirrors (hn : n.Follows l) : n.Mirrors := hn.flag.trans hn.dev.symm

theorem callback_flag (n : Node) (d : Delivery) :
    (rpmsgRecvCanCallback n d).canStarted =
      match d.ctrl? with
      | none => n.canStarted
      | some c => (rpmsgCanHandleCtrl c d.replies { n with peerAddr := d.src }).canStarted := by
  cases hctrl : d.ctrl? with
  | some c => rw [callback_ctrl hctrl]
  | none =>
      cases hframe : d.frame? with
      | none => rw [callback_other hctrl hframe]
      | some frame =>
          rw [callback_frame hframe]
          exact (canSend_countSend _ _ _ _).1

theorem handleCtrl_start_flag {c : RpmsgCanCtrl} {r : DriverReplies} (hn : n.Mirrors)
    (hcmd : RpmsgCanCmd.ofCode c.cmd = some .start) :
    (rpmsgCanHandleCtrl c r n).canStarted = (n.canStarted || decide (r.start = .ok)) := by
  cases hflag : n.canStarted with
  | true => rw [handleCtrl_start_again hcmd hflag, hflag, Bool.true_or]
  | false =>
      have hdev : n.dev.started = false := by rw [← hn, hflag]
      rw [handleCtrl_start hcmd hflag, Bool.false_or]
      cases hstart : r.start with
      | ok => simp [hdev]
      | fail e => simp [hdev, e.code_ne_zero]

theorem link_up_callback (hn : n.Follows l) :
    (rpmsgRecvCanCallback n d).canStarted = (l.step d).up := by
  rw [callback_flag, Link.step]
  cases hctrl : d.ctrl? with
  | none => exact hn.flag
  | some c =>
      simp only
      by_cases hstops : StopsFirst c
      · rw [if_pos hstops]
        exact (handleCtrl_stopsFirst hstops).1
      · rw [if_neg hstops]
        rcases handleCtrl_cases c with h | hcmd | hsame
        · exact absurd h hstops
        · rw [if_pos hcmd, ← hn.flag]
          exact handleCtrl_start_flag (n := { n with peerAddr := d.src }) hn.mirrors hcmd
        · have hcmd : RpmsgCanCmd.ofCode c.cmd ≠ some .start := by
            intro hcmd
            have h := hsame ⟨.ok, .ok, .ok, .ok, .ok⟩
              ⟨false, 0#32, 0#32, 0#32, ⟨false, 0#32, 0#32⟩, []⟩
            rw [handleCtrl_start hcmd rfl] at h
            cases congrArg Node.canStarted h
          rw [hsame, if_neg hcmd]
          exact hn.flag

theorem link_carried_callback (hn : n.Follows l) :
    (rpmsgRecvCanCallback n d).sent = (l.step d).carried := by
  rw [(transmits_callback n d).sent, takenFrames, hn.dev, hn.sent]
  rfl

theorem follows_callback_iff (hn : n.Follows l) :
    (rpmsgRecvCanCallback n d).Follows (l.step d) ↔ DeliveryStopSucceeds n d := by
  rw [← callback_mirrors_iff hn.mirrors]
  constructor
  · intro h
    exact h.mirrors
  · intro h
    have hflag := link_up_callback (d := d) hn
    exact ⟨hflag, h.symm.trans hflag, link_carried_callback hn⟩

theorem exec_bothMachine (n : Node) (l : Link) (ds : List Delivery) :
    bothMachine.exec (n, l) ds = some (recvAll n ds, ds.foldl Link.step l) := by
  have hfold : ∀ (n : Node) (l : Link),
      ds.foldl (fun p d => (rpmsgRecvCanCallback p.1 d, p.2.step d)) (n, l) =
        (recvAll n ds, ds.foldl Link.step l) := by
    induction ds with
    | nil => exact fun _ _ => rfl
    | cons d ds ih => exact fun n l => ih _ _
  rw [bothMachine, Machine.exec_ofTotal, hfold]

/-- **The node is a link exactly as long as every `can_stop` succeeds.**  At each moment of a
run the flag and the controller are up when the link is, and the frames on the bus are
those the link has carried, if and only if none of the `can_stop` calls fails. -/
theorem link_refined_iff (dtBitrate : BitVec 32) (ds : List Delivery) :
    (∀ pre, pre <+: ds → (recvAll (.atBoot dtBitrate) pre).Follows (linkAfter pre)) ↔
      recvMachine.Along DeliveryStopSucceeds (.atBoot dtBitrate) ds := by
  have hstart : (Node.atBoot dtBitrate).Follows ⟨false, []⟩ := ⟨rfl, rfl, rfl⟩
  have hboth : bothMachine.Throughout (fun p => p.1.Follows p.2) (.atBoot dtBitrate, ⟨false, []⟩)
      ds ↔ bothMachine.Along StopSucceedsFor (.atBoot dtBitrate, ⟨false, []⟩) ds := by
    apply Machine.throughout_iff_along (I := fun p => p.1.Follows p.2)
    · exact fun _ h => h
    · intro s d t hs hok hstep
      cases hstep
      exact (follows_callback_iff hs).2 hok
    · intro s d t hs hstep ht
      cases hstep
      exact (follows_callback_iff hs).1 ht
    · exact hstart
    · exact exec_bothMachine _ _ ds
  constructor
  · intro h pre d n hpre hexec
    have hthroughout : bothMachine.Throughout (fun p => p.1.Follows p.2)
        (.atBoot dtBitrate, ⟨false, []⟩) ds := by
      intro pre p hpre hexec
      rw [exec_bothMachine, Option.some.injEq] at hexec
      rw [← hexec]
      exact h pre hpre
    rw [exec_recvMachine, Option.some.injEq] at hexec
    rw [← hexec]
    exact hboth.1 hthroughout pre d _ hpre (exec_bothMachine _ _ pre)
  · intro h pre hpre
    have halong : bothMachine.Along StopSucceedsFor (.atBoot dtBitrate, ⟨false, []⟩) ds := by
      intro pre d p hpre hexec
      rw [exec_bothMachine, Option.some.injEq] at hexec
      rw [← hexec]
      exact h pre d _ hpre (exec_recvMachine _ pre)
    exact hboth.2 halong pre _ hpre (exec_bothMachine _ _ pre)

end DataLogger.CanGw
