import DataLogger.CanGw.Control

/-!
# The started flag and the controller

`can_started` is the gateway's only knowledge of the controller.  It follows the return
code of `can_start` but not that of `can_stop`, so one failed stop separates the two,
and nothing a later message does brings them together again.
-/

namespace DataLogger.CanGw

open DataLogger.Foundation
open DataLogger.Zephyr

/-- The flag tells the truth about the controller. -/
def Node.Mirrors (n : Node) : Prop := n.canStarted = n.dev.started

/-- The gateway believes the controller stopped while it is on the bus. -/
def Node.Lost (n : Node) : Prop := n.canStarted = false ∧ n.dev.started = true

instance : DecidablePred Node.Mirrors := fun n =>
  inferInstanceAs (Decidable (n.canStarted = n.dev.started))

/-- The `can_stop` that a control message causes, if it causes one, succeeds. -/
def StopSucceeds (n : Node) (c : CtrlCall) : Prop :=
  StopsFirst c.ctrl → n.canStarted = true → c.replies.stop = .ok

def DeliveryStopSucceeds (n : Node) (d : Delivery) : Prop :=
  ∀ c, d.ctrl? = some c → StopSucceeds n ⟨c, d.replies⟩

/-! ## One control message -/

variable {n : Node} {c : RpmsgCanCtrl} {r : DriverReplies}

theorem stopIfStarted_started (hn : n.Mirrors) :
    (n.stopIfStarted r).dev.started = (n.canStarted && decide (r.stop ≠ .ok)) := by
  unfold Node.Mirrors at hn
  cases hflag : n.canStarted with
  | false => rw [stopIfStarted_of_not hflag, ← hn, hflag, Bool.false_and]
  | true =>
      have hdev : n.dev.started = true := by rw [← hn, hflag]
      rw [stopIfStarted_of_started hflag]
      cases hstop : r.stop with
      | ok => simp [hdev]
      | fail e => simp [hdev]

theorem start_mirrors (dev : CanController) (a : Reply) (hdev : dev.started = false) :
    ((dev.start a).1 == 0) = (dev.start a).2.started := by
  cases a with
  | ok => simp [hdev]
  | fail e => simp [hdev, e.code_ne_zero]

theorem handleCtrl_mirrors_iff (hn : n.Mirrors) :
    (rpmsgCanHandleCtrl c r n).Mirrors ↔ StopSucceeds n ⟨c, r⟩ := by
  by_cases hstops : StopsFirst c
  · obtain ⟨hflag, hdev⟩ := handleCtrl_stopsFirst (r := r) (n := n) hstops
    rw [Node.Mirrors, hflag, hdev, stopIfStarted_started hn]
    unfold StopSucceeds
    cases n.canStarted <;> simp [hstops]
  · have hmirrors : (rpmsgCanHandleCtrl c r n).Mirrors := by
      rcases handleCtrl_cases c with h | hcmd | hsame
      · exact absurd h hstops
      · cases hflag : n.canStarted with
        | true => rwa [handleCtrl_start_again hcmd hflag]
        | false =>
            have hdev : n.dev.started = false := by rw [← hn, hflag]
            rw [handleCtrl_start hcmd hflag]
            exact start_mirrors n.dev r.start hdev
      · rwa [hsame]
    exact iff_of_true hmirrors fun h => absurd h hstops

theorem handleCtrl_lost (hn : n.Mirrors) (hfail : ¬ StopSucceeds n ⟨c, r⟩) :
    (rpmsgCanHandleCtrl c r n).Lost := by
  unfold StopSucceeds at hfail
  push Not at hfail
  obtain ⟨hstops, hflag, hstop⟩ := hfail
  obtain ⟨hflag', hdev⟩ := handleCtrl_stopsFirst (r := r) (n := n) hstops
  refine ⟨hflag', ?_⟩
  rw [hdev, stopIfStarted_started hn, hflag, Bool.true_and]
  exact decide_eq_true hstop

/-- A lost controller stays lost: no guard lets a `can_stop` through, and `can_start`
answers that it is started already. -/
theorem handleCtrl_of_lost (hn : n.Lost) : rpmsgCanHandleCtrl c r n = n := by
  obtain ⟨hflag, hdev⟩ := hn
  have hskip : n.stopIfStarted r = n := stopIfStarted_of_not hflag
  cases hcmd : RpmsgCanCmd.ofCode c.cmd with
  | none => exact handleCtrl_unknown hcmd
  | some cmd =>
      cases cmd with
      | setBitrate => rw [handleCtrl_setBitrate hcmd, hskip, CanController.setBitrate_started hdev]
      | setMode => rw [handleCtrl_setMode hcmd, hskip, CanController.setMode_started hdev]
      | stop => rw [handleCtrl_stop hcmd, hskip]
      | evtState => exact handleCtrl_evtState hcmd
      | start =>
          rw [handleCtrl_start hcmd hflag, CanController.start_started hdev]
          cases n
          simp_all [eAlready]

theorem lost_handleCtrl (hn : n.Lost) : (rpmsgCanHandleCtrl c r n).Lost := by
  rw [handleCtrl_of_lost hn]
  exact hn

/-! ## One message of any kind -/

theorem mirrors_peerAddr (src : BitVec 32) :
    { n with peerAddr := src }.Mirrors ↔ n.Mirrors := Iff.rfl

theorem callback_mirrors_iff {d : Delivery} (hn : n.Mirrors) :
    (rpmsgRecvCanCallback n d).Mirrors ↔ DeliveryStopSucceeds n d := by
  cases hctrl : d.ctrl? with
  | some c =>
      rw [callback_ctrl hctrl, handleCtrl_mirrors_iff ((mirrors_peerAddr d.src).2 hn)]
      constructor
      · intro h c' hc'
        rw [hctrl, Option.some.injEq] at hc'
        exact hc' ▸ h
      · intro h
        exact h c hctrl
  | none =>
      have hvacuous : DeliveryStopSucceeds n d := by
        intro c hc
        rw [hctrl] at hc
        cases hc
      refine iff_of_true ?_ hvacuous
      cases hframe : d.frame? with
      | none => rwa [callback_other hctrl hframe]
      | some frame =>
          rw [callback_frame hframe]
          obtain ⟨hflag, hdev⟩ := canSend_countSend d.replies.send frame
            { n with peerAddr := d.src }
            ({ n with peerAddr := d.src }.canSend d.replies.send frame).1
          rw [Node.Mirrors, hflag, hdev]
          exact hn

theorem mirrors_atBoot (dtBitrate : BitVec 32) : (Node.atBoot dtBitrate).Mirrors := rfl

/-! ## Off the bus -/

def Node.OffBus (n : Node) : Prop := n.canStarted = false ∧ n.dev.started = false

def Delivery.IsStart (d : Delivery) : Prop :=
  ∃ c, d.ctrl? = some c ∧ RpmsgCanCmd.ofCode c.cmd = some .start

def Delivery.IsStopping (d : Delivery) : Prop := ∃ c, d.ctrl? = some c ∧ StopsFirst c

theorem handleCtrl_offBus (hn : n.OffBus)
    (hstart : RpmsgCanCmd.ofCode c.cmd ≠ some .start) : (rpmsgCanHandleCtrl c r n).OffBus := by
  obtain ⟨hflag, hdev⟩ := hn
  have hskip : n.stopIfStarted r = n := stopIfStarted_of_not hflag
  rcases handleCtrl_cases c with hstops | hcmd | hsame
  · obtain ⟨hflag', hdev'⟩ := handleCtrl_stopsFirst (r := r) (n := n) hstops
    exact ⟨hflag', by rw [hdev', hskip, hdev]⟩
  · exact absurd hcmd hstart
  · rw [hsame]
    exact ⟨hflag, hdev⟩

theorem callback_offBus {d : Delivery} (hn : n.OffBus) (hd : ¬ d.IsStart) :
    (rpmsgRecvCanCallback n d).OffBus ∧ (rpmsgRecvCanCallback n d).sent = n.sent := by
  cases hctrl : d.ctrl? with
  | some c =>
      have hstart : RpmsgCanCmd.ofCode c.cmd ≠ some .start := fun h => hd ⟨c, hctrl, h⟩
      rw [callback_ctrl hctrl]
      refine ⟨handleCtrl_offBus hn hstart, ?_⟩
      exact (handleCtrl_frame c d.replies { n with peerAddr := d.src }).2.2.2
  | none =>
      cases hframe : d.frame? with
      | none =>
          rw [callback_other hctrl hframe]
          exact ⟨hn, rfl⟩
      | some frame =>
          have hsend := canSend_stopped (n := { n with peerAddr := d.src }) d.replies.send
            frame hn.2
          rw [callback_frame hframe, hsend]
          unfold Node.countSend
          rw [if_neg eNetDown.code_ne_zero]
          exact ⟨hn, rfl⟩

def recvAll (n : Node) (ds : List Delivery) : Node := ds.foldl rpmsgRecvCanCallback n

theorem recvAll_append (n : Node) (ds es : List Delivery) :
    recvAll n (ds ++ es) = recvAll (recvAll n ds) es := List.foldl_append

theorem exec_recvMachine (n : Node) (ds : List Delivery) :
    recvMachine.exec n ds = some (recvAll n ds) := Machine.exec_ofTotal _ n ds

theorem recvAll_offBus {ds : List Delivery} (hn : n.OffBus) (hds : ∀ d ∈ ds, ¬ d.IsStart) :
    (recvAll n ds).sent = n.sent := by
  induction ds generalizing n with
  | nil => rfl
  | cons d ds ih =>
      obtain ⟨hoff, hsent⟩ := callback_offBus hn (hds d (List.mem_cons_self ..))
      have hrest := ih hoff fun e he => hds e (List.mem_cons_of_mem _ he)
      rw [recvAll, List.foldl_cons, ← hsent]
      exact hrest

/-- From a handled STOP, SET_BITRATE or SET_MODE to the next START nothing is sent. -/
def QuietAfterStop (n : Node) (ds : List Delivery) : Prop :=
  ∀ pre d mid, pre ++ d :: mid <+: ds → d.IsStopping → (∀ e ∈ mid, ¬ e.IsStart) →
    (recvAll n (pre ++ d :: mid)).sent = (recvAll n pre).sent

theorem quietAfterStop_of_mirrors {ds : List Delivery}
    (h : recvMachine.Throughout Node.Mirrors n ds) : QuietAfterStop n ds := by
  intro pre d mid hpre hd hmid
  obtain ⟨c, hctrl, hstops⟩ := hd
  have hpre' : pre ++ [d] <+: ds :=
    List.IsPrefix.trans ⟨mid, by simp⟩ hpre
  have hmirrors : (recvAll n (pre ++ [d])).Mirrors :=
    h (pre ++ [d]) _ hpre' (exec_recvMachine n _)
  have hafter : recvAll n (pre ++ [d]) =
      rpmsgCanHandleCtrl c d.replies { recvAll n pre with peerAddr := d.src } := by
    rw [recvAll_append]
    exact callback_ctrl hctrl
  have hflag : (recvAll n (pre ++ [d])).canStarted = false := by
    rw [hafter]
    exact (handleCtrl_stopsFirst hstops).1
  have hsent : (recvAll n (pre ++ [d])).sent = (recvAll n pre).sent := by
    rw [hafter]
    exact (handleCtrl_frame c d.replies { recvAll n pre with peerAddr := d.src }).2.2.2
  have hoff : (recvAll n (pre ++ [d])).OffBus := ⟨hflag, by rw [← hmirrors, hflag]⟩
  calc (recvAll n (pre ++ d :: mid)).sent
      = (recvAll (recvAll n (pre ++ [d])) mid).sent := by
        rw [← recvAll_append, List.append_assoc, List.singleton_append]
    _ = (recvAll n (pre ++ [d])).sent := recvAll_offBus hoff hmid
    _ = (recvAll n pre).sent := hsent

/-- **The flag mirrors the controller exactly as long as every `can_stop` succeeds.**
After each message `can_started` tells whether the controller is started, and between a
stopping message and the next START no frame reaches the bus, if and only if none of the
`can_stop` calls that the messages cause fails. -/
theorem canStarted_mirrors_iff (dtBitrate : BitVec 32) (ds : List Delivery) :
    (recvMachine.Throughout Node.Mirrors (Node.atBoot dtBitrate) ds ∧
        QuietAfterStop (Node.atBoot dtBitrate) ds) ↔
      recvMachine.Along DeliveryStopSucceeds (Node.atBoot dtBitrate) ds := by
  have hiff : recvMachine.Throughout Node.Mirrors (Node.atBoot dtBitrate) ds ↔
      recvMachine.Along DeliveryStopSucceeds (Node.atBoot dtBitrate) ds := by
    apply Machine.throughout_iff_along (I := Node.Mirrors)
    · exact fun _ h => h
    · intro s d t hs hok hstep
      cases hstep
      exact (callback_mirrors_iff hs).2 hok
    · intro s d t hs hstep ht
      cases hstep
      exact (callback_mirrors_iff hs).1 ht
    · exact mirrors_atBoot dtBitrate
    · exact exec_recvMachine _ ds
  constructor
  · intro h
    exact hiff.1 h.1
  · intro h
    exact ⟨hiff.2 h, quietAfterStop_of_mirrors (hiff.2 h)⟩

/-- START, then a STOP whose `can_stop` fails with an SPI error: the flag says stopped, the
controller is on the bus. -/
theorem canStarted_not_mirrors :
    ¬ recvMachine.Throughout Node.Mirrors (Node.atBoot 500000#32)
      [⟨(RpmsgCanCtrl.request .start 0#8 0#32).toBytes, 1024#32, .allOk⟩,
        ⟨(RpmsgCanCtrl.request .stop 0#8 0#32).toBytes, 1024#32,
          { DriverReplies.allOk with stop := .fail eIo }⟩] := by
  intro h
  have hend := h.finish (exec_recvMachine _ _)
  exact absurd hend (by decide)

end DataLogger.CanGw
