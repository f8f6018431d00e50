import DataLogger.CanGw.Mirror

/-!
# Requested and programmed settings

Linux sends bitrate and mode ahead of START, each in a message of its own whose driver
call may be rejected; START is handled whatever became of them.  The history of requests
is carried along as ghost state, and the settings a started controller runs with are
compared with it.
-/

namespace DataLogger.CanGw

open DataLogger.Foundation
open DataLogger.Zephyr

/-- A node with the history of its SET messages: what the latest of each kind asked for,
and whether the driver rejected it. -/
structure Tracked where
  node : Node
  bitrate : BitVec 32
  mode : CanMode
  rejectedBitrate : Option (BitVec 32)
  rejectedMode : Option CanMode
  deriving DecidableEq

def Tracked.atBoot (dtBitrate : BitVec 32) : Tracked :=
  ⟨Node.atBoot dtBitrate, dtBitrate, canModeNormal, none, none⟩

/-- The node handles a control message; a SET message enters the history. -/
def Tracked.handle (t : Tracked) (c : CtrlCall) : Tracked :=
  let node := rpmsgCanHandleCtrl c.ctrl c.replies t.node
  let dev := (t.node.stopIfStarted c.replies).dev
  match RpmsgCanCmd.ofCode c.ctrl.cmd with
  | some .setBitrate =>
      { t with
        node := node
        bitrate := c.ctrl.arg
        rejectedBitrate :=
          if (dev.setBitrate c.replies.setBitrate c.ctrl.arg).1 = 0 then none
          else some c.ctrl.arg }
  | some .setMode =>
      { t with
        node := node
        mode := modeOfFlags c.ctrl.flags
        rejectedMode :=
          if (dev.setMode c.replies.setMode (modeOfFlags c.ctrl.flags)).1 = 0 then none
          else some (modeOfFlags c.ctrl.flags) }
  | _ => { t with node := node }

def trackedMachine : Machine Tracked CtrlCall := .ofTotal Tracked.handle

/-- On the bus only with the settings that Linux asked for last. -/
def Tracked.AsAsked (t : Tracked) : Prop :=
  t.node.dev.started = true → t.node.dev.bitrate = t.bitrate ∧ t.node.dev.mode = t.mode

/-- A SET message that finds the controller on the bus takes it off. -/
def TakesOff (n : Node) (r : DriverReplies) : Prop := n.canStarted = true ∧ r.stop = .ok

/-- The condition on one message.  A SET message that finds the controller on the bus
takes it off, or asks for what is programmed already.  A START that `can_start` accepts
finds no rejected setting outstanding, or one that is programmed all the same.  What is
programmed is read before the message, and only to make the condition exact: a request that
repeats it may be rejected without harm.  `AnswersStand` does without it. -/
def SettingsStand (t : Tracked) (c : CtrlCall) : Prop :=
  match RpmsgCanCmd.ofCode c.ctrl.cmd with
  | some .setBitrate =>
      t.node.dev.started = true →
        TakesOff t.node c.replies ∨ t.node.dev.bitrate = c.ctrl.arg
  | some .setMode =>
      t.node.dev.started = true →
        TakesOff t.node c.replies ∨ t.node.dev.mode = modeOfFlags c.ctrl.flags
  | some .start =>
      t.node.canStarted = false → t.node.dev.started = false → c.replies.start = .ok →
        (∀ b, t.rejectedBitrate = some b → t.node.dev.bitrate = b) ∧
          (∀ md, t.rejectedMode = some md → t.node.dev.mode = md)
  | _ => True

/-- The same, read off the answers of the driver alone: no `can_stop` that is called fails, and
no START is accepted over a rejected setting. -/
def AnswersStand (t : Tracked) (c : CtrlCall) : Prop :=
  StopSucceeds t.node c ∧
    (RpmsgCanCmd.ofCode c.ctrl.cmd = some .start → c.replies.start = .ok →
      t.rejectedBitrate = none ∧ t.rejectedMode = none)

/-- Forgetting the history gives the plain handler. -/
theorem handle_node (t : Tracked) (c : CtrlCall) :
    (t.handle c).node = rpmsgCanHandleCtrl c.ctrl c.replies t.node := by
  unfold Tracked.handle
  split <;> rfl

/-! ## History and controller -/

/-- A setting that was not rejected is programmed; a rejected one is the latest request. -/
def Consistent {α : Type} (asked : α) (rejected : Option α) (programmed : α) : Prop :=
  match rejected with
  | none => programmed = asked
  | some x => asked = x

theorem consistent_eq_iff {α : Type} {asked programmed : α} {rejected : Option α}
    (h : Consistent asked rejected programmed) :
    programmed = asked ↔ ∀ x, rejected = some x → programmed = x := by
  cases rejected with
  | none =>
      have hprog : programmed = asked := h
      simp [hprog]
  | some x =>
      have hasked : asked = x := h
      simp [hasked]

/-- The history describes the controller. -/
structure Tracked.Sound (t : Tracked) : Prop where
  bitrate : Consistent t.bitrate t.rejectedBitrate t.node.dev.bitrate
  mode : Consistent t.mode t.rejectedMode t.node.dev.mode

theorem stopIfStarted_dev (r : DriverReplies) (n : Node) :
    (n.stopIfStarted r).dev =
      { n.dev with
        started := n.dev.started && !(n.canStarted && decide (r.stop = .ok)) } := by
  obtain ⟨flag, peer, tx, drop, ⟨started, rate, mode⟩, sent⟩ := n
  unfold Node.stopIfStarted CanController.stop driverCall
  cases flag <;> cases started <;> cases r.stop <;> simp

theorem start_settings (dev : CanController) (a : Reply) :
    (dev.start a).2.bitrate = dev.bitrate ∧ (dev.start a).2.mode = dev.mode :=
  ⟨driverCall_keeps CanController.bitrate rfl, driverCall_keeps CanController.mode rfl⟩

/-- After a call that programs a setting the history of that setting is consistent again,
whether the call was rejected or not. -/
theorem driverCall_consistent {α : Type} (get : CanController → α) {legal : Bool}
    {refusal : Errno} {r : Reply} {effect dev : CanController} :
    Consistent (get effect)
      (if (driverCall legal refusal r effect dev).1 = 0 then none else some (get effect))
      (get (driverCall legal refusal r effect dev).2) := by
  rw [driverCall_snd]
  simp only [driverCall_fst_eq_zero]
  by_cases hok : legal = true ∧ r = .ok
  · rw [if_pos hok, if_pos hok]
    rfl
  · rw [if_neg hok, if_neg hok]
    rfl

theorem setBitrate_mode (dev : CanController) (a : Reply) (b : BitVec 32) :
    (dev.setBitrate a b).2.mode = dev.mode :=
  driverCall_keeps CanController.mode rfl

theorem setMode_bitrate (dev : CanController) (a : Reply) (md : CanMode) :
    (dev.setMode a md).2.bitrate = dev.bitrate :=
  driverCall_keeps CanController.bitrate rfl

variable {t : Tracked} {c : CtrlCall}

theorem handle_setBitrate (hc : RpmsgCanCmd.ofCode c.ctrl.cmd = some .setBitrate) :
    t.handle c =
      { t with
        node := rpmsgCanHandleCtrl c.ctrl c.replies t.node
        bitrate := c.ctrl.arg
        rejectedBitrate :=
          if ((t.node.stopIfStarted c.replies).dev.setBitrate c.replies.setBitrate
            c.ctrl.arg).1 = 0 then none
          else some c.ctrl.arg } := by
  rw [Tracked.handle, hc]

theorem handle_setMode (hc : RpmsgCanCmd.ofCode c.ctrl.cmd = some .setMode) :
    t.handle c =
      { t with
        node := rpmsgCanHandleCtrl c.ctrl c.replies t.node
        mode := modeOfFlags c.ctrl.flags
        rejectedMode :=
          if ((t.node.stopIfStarted c.replies).dev.setMode c.replies.setMode
            (modeOfFlags c.ctrl.flags)).1 = 0 then none
          else some (modeOfFlags c.ctrl.flags) } := by
  rw [Tracked.handle, hc]

theorem handle_other (hb : RpmsgCanCmd.ofCode c.ctrl.cmd ≠ some .setBitrate)
    (hm : RpmsgCanCmd.ofCode c.ctrl.cmd ≠ some .setMode) :
    t.handle c = { t with node := rpmsgCanHandleCtrl c.ctrl c.replies t.node } := by
  unfold Tracked.handle
  split
  · rename_i hcmd
    exact absurd hcmd hb
  · rename_i hcmd
    exact absurd hcmd hm
  · rfl

theorem handleCtrl_settings (hb : RpmsgCanCmd.ofCode c.ctrl.cmd ≠ some .setBitrate)
    (hm : RpmsgCanCmd.ofCode c.ctrl.cmd ≠ some .setMode) (n : Node) :
    (rpmsgCanHandleCtrl c.ctrl c.replies n).dev.bitrate = n.dev.bitrate ∧
      (rpmsgCanHandleCtrl c.ctrl c.replies n).dev.mode = n.dev.mode := by
  rcases handleCtrl_cases c.ctrl with (h | h | hstop) | hstart | hsame
  · exact absurd h hb
  · exact absurd h hm
  · rw [handleCtrl_stop hstop, stopIfStarted_dev]
    exact ⟨rfl, rfl⟩
  · cases hflag : n.canStarted with
    | true =>
        rw [handleCtrl_start_again hstart hflag]
        exact ⟨rfl, rfl⟩
    | false =>
        rw [handleCtrl_start hstart hflag]
        exact start_settings n.dev c.replies.start
  · rw [hsame]
    exact ⟨rfl, rfl⟩

theorem sound_handle (ht : t.Sound) (c : CtrlCall) : (t.handle c).Sound := by
  obtain ⟨hbitrate, hmode⟩ := ht
  by_cases hb : RpmsgCanCmd.ofCode c.ctrl.cmd = some .setBitrate
  · rw [handle_setBitrate hb, handleCtrl_setBitrate hb]
    refine ⟨driverCall_consistent CanController.bitrate, ?_⟩
    simp only [setBitrate_mode, stopIfStarted_dev]
    exact hmode
  by_cases hm : RpmsgCanCmd.ofCode c.ctrl.cmd = some .setMode
  · rw [handle_setMode hm, handleCtrl_setMode hm]
    refine ⟨?_, driverCall_consistent CanController.mode⟩
    simp only [setMode_bitrate, stopIfStarted_dev]
    exact hbitrate
  · obtain ⟨hdevBitrate, hdevMode⟩ := handleCtrl_settings hb hm t.node
    rw [handle_other hb hm]
    refine ⟨?_, ?_⟩
    · simpa only [hdevBitrate] using hbitrate
    · simpa only [hdevMode] using hmode

/-! ## One message -/

/-- Behind a SET message the controller is on the bus only if it was before and was not
taken off, and then no setting has changed. -/
theorem set_onBus_iff (hset : RpmsgCanCmd.ofCode c.ctrl.cmd = some .setBitrate ∨
      RpmsgCanCmd.ofCode c.ctrl.cmd = some .setMode) (n : Node) :
    ((rpmsgCanHandleCtrl c.ctrl c.replies n).dev.started = true ↔
      n.dev.started = true ∧ ¬ TakesOff n c.replies) ∧
    ((rpmsgCanHandleCtrl c.ctrl c.replies n).dev.started = true →
      (rpmsgCanHandleCtrl c.ctrl c.replies n).dev = n.dev) := by
  have hstops : StopsFirst c.ctrl := by
    rcases hset with h | h
    · exact Or.inl h
    · exact Or.inr (Or.inl h)
  have hiff : (rpmsgCanHandleCtrl c.ctrl c.replies n).dev.started = true ↔
      n.dev.started = true ∧ ¬ TakesOff n c.replies := by
    rw [(handleCtrl_stopsFirst hstops).2, stopIfStarted_dev, TakesOff]
    simp only [Bool.and_eq_true, Bool.not_eq_true', Bool.and_eq_false_iff, decide_eq_false_iff_not,
      Bool.not_eq_true, not_and_or]
  refine ⟨hiff, fun hon => ?_⟩
  obtain ⟨hdev, hstays⟩ := hiff.1 hon
  have hsame : (n.stopIfStarted c.replies).dev = n.dev := by
    have hflag : (n.canStarted && decide (c.replies.stop = .ok)) = false := by
      simpa [TakesOff] using hstays
    rw [stopIfStarted_dev, hflag, Bool.not_false, Bool.and_true]
  rcases hset with h | h
  · rw [handleCtrl_setBitrate h, hsame, CanController.setBitrate_started hdev]
  · rw [handleCtrl_setMode h, hsame, CanController.setMode_started hdev]

theorem asAsked_setBitrate (ht : t.AsAsked)
    (hc : RpmsgCanCmd.ofCode c.ctrl.cmd = some .setBitrate) :
    (t.handle c).AsAsked ↔ SettingsStand t c := by
  obtain ⟨honBus, hkept⟩ := set_onBus_iff (Or.inl hc) t.node
  rw [handle_setBitrate hc, SettingsStand, hc]
  constructor
  · intro h hdev
    by_cases hoff : TakesOff t.node c.replies
    · exact Or.inl hoff
    · have hon := honBus.2 ⟨hdev, hoff⟩
      exact Or.inr (hkept hon ▸ (h hon).1)
  · intro h hon
    obtain ⟨hdev, hstays⟩ := honBus.1 hon
    simp only [hkept hon]
    exact ⟨(h hdev).resolve_left hstays, (ht hdev).2⟩

theorem asAsked_setMode (ht : t.AsAsked)
    (hc : RpmsgCanCmd.ofCode c.ctrl.cmd = some .setMode) :
    (t.handle c).AsAsked ↔ SettingsStand t c := by
  obtain ⟨honBus, hkept⟩ := set_onBus_iff (Or.inr hc) t.node
  rw [handle_setMode hc, SettingsStand, hc]
  constructor
  · intro h hdev
    by_cases hoff : TakesOff t.node c.replies
    · exact Or.inl hoff
    · have hon := honBus.2 ⟨hdev, hoff⟩
      exact Or.inr (hkept hon ▸ (h hon).2)
  · intro h hon
    obtain ⟨hdev, hstays⟩ := honBus.1 hon
    simp only [hkept hon]
    exact ⟨(ht hdev).1, (h hdev).resolve_left hstays⟩

theorem asAsked_start (hs : t.Sound) (ht : t.AsAsked)
    (hc : RpmsgCanCmd.ofCode c.ctrl.cmd = some .start) :
    (t.handle c).AsAsked ↔ SettingsStand t c := by
  have hb : RpmsgCanCmd.ofCode c.ctrl.cmd ≠ some .setBitrate := by simp [hc]
  have hm : RpmsgCanCmd.ofCode c.ctrl.cmd ≠ some .setMode := by simp [hc]
  have hsettings := handleCtrl_settings hb hm t.node
  have hstand : SettingsStand t c ↔
      (t.node.canStarted = false → t.node.dev.started = false → c.replies.start = .ok →
        t.node.dev.bitrate = t.bitrate ∧ t.node.dev.mode = t.mode) := by
    rw [SettingsStand, hc, consistent_eq_iff hs.bitrate, consistent_eq_iff hs.mode]
  rw [hstand, handle_other hb hm, Tracked.AsAsked]
  simp only [hsettings.1, hsettings.2]
  cases hflag : t.node.canStarted with
  | true =>
      rw [handleCtrl_start_again hc hflag]
      exact iff_of_true ht (by simp)
  | false =>
      rw [handleCtrl_start hc hflag]
      cases hdev : t.node.dev.started with
      | true =>
          rw [CanController.start_started hdev]
          exact iff_of_true ht (by simp)
      | false =>
          cases c.replies.start with
          | ok => simp [hdev]
          | fail e => simp [hdev]

theorem asAsked_other (ht : t.AsAsked)
    (hb : RpmsgCanCmd.ofCode c.ctrl.cmd ≠ some .setBitrate)
    (hm : RpmsgCanCmd.ofCode c.ctrl.cmd ≠ some .setMode)
    (hs : RpmsgCanCmd.ofCode c.ctrl.cmd ≠ some .start) :
    (t.handle c).AsAsked ↔ SettingsStand t c := by
  have hsettings := handleCtrl_settings hb hm t.node
  have hstarted : (rpmsgCanHandleCtrl c.ctrl c.replies t.node).dev.started = true →
      t.node.dev.started = true := by
    rcases handleCtrl_cases c.ctrl with (h | h | hstop) | hstart | hsame
    · exact absurd h hb
    · exact absurd h hm
    · rw [handleCtrl_stop hstop, stopIfStarted_dev]
      intro h
      exact (Bool.and_eq_true_iff.1 h).1
    · exact absurd hstart hs
    · rw [hsame]
      exact id
  have hstand : SettingsStand t c := by
    unfold SettingsStand
    split <;> simp_all
  refine iff_of_true ?_ hstand
  rw [handle_other hb hm]
  intro hdev
  rw [hsettings.1, hsettings.2]
  exact ht (hstarted hdev)

theorem asAsked_handle_iff (hs : t.Sound) (ht : t.AsAsked) (c : CtrlCall) :
    (t.handle c).AsAsked ↔ SettingsStand t c := by
  by_cases hb : RpmsgCanCmd.ofCode c.ctrl.cmd = some .setBitrate
  · exact asAsked_setBitrate ht hb
  by_cases hm : RpmsgCanCmd.ofCode c.ctrl.cmd = some .setMode
  · exact asAsked_setMode ht hm
  by_cases hstart : RpmsgCanCmd.ofCode c.ctrl.cmd = some .start
  · exact asAsked_start hs ht hstart
  · exact asAsked_other ht hb hm hstart

theorem sound_atBoot (dtBitrate : BitVec 32) : (Tracked.atBoot dtBitrate).Sound := ⟨rfl, rfl⟩

theorem asAsked_atBoot (dtBitrate : BitVec 32) : (Tracked.atBoot dtBitrate).AsAsked := by
  intro h
  cases h

/-- **The controller runs as asked exactly while no START succeeds over a rejected
setting and no SET message leaves it on the bus.** -/
theorem onBus_asAsked_iff (dtBitrate : BitVec 32) (calls : List CtrlCall) :
    trackedMachine.Throughout Tracked.AsAsked (Tracked.atBoot dtBitrate) calls ↔
      trackedMachine.Along SettingsStand (Tracked.atBoot dtBitrate) calls := by
  apply Machine.throughout_iff_along (I := fun t => t.Sound ∧ t.AsAsked)
  · exact fun _ h => h.2
  · intro t c u ht hok hstep
    cases hstep
    exact ⟨sound_handle ht.1 c, (asAsked_handle_iff ht.1 ht.2 c).2 hok⟩
  · intro t c u ht hstep hu
    cases hstep
    exact (asAsked_handle_iff ht.1 ht.2 c).1 hu
  · exact ⟨sound_atBoot dtBitrate, asAsked_atBoot dtBitrate⟩
  · exact Machine.exec_ofTotal _ _ _

/-- While the flag mirrors the controller, a `can_stop` that succeeds takes it off the bus. -/
theorem AnswersStand.settingsStand (h : AnswersStand t c) (hmirrors : t.node.Mirrors) :
    SettingsStand t c := by
  have hoff : StopsFirst c.ctrl → t.node.dev.started = true → TakesOff t.node c.replies := by
    intro hstops hdev
    have hflag : t.node.canStarted = true := hmirrors.trans hdev
    exact ⟨hflag, h.1 hstops hflag⟩
  unfold SettingsStand
  split
  · rename_i hset
    exact fun hdev => .inl (hoff (.inl hset) hdev)
  · rename_i hset
    exact fun hdev => .inl (hoff (.inr (.inl hset)) hdev)
  · rename_i hstart
    intro _ _ hok
    obtain ⟨hbitrate, hmode⟩ := h.2 hstart hok
    simp [hbitrate, hmode]
  · trivial

/-- A driver that stops the controller whenever it is asked to, and no START over a rejected
setting, keep the controller as asked. -/
theorem onBus_asAsked (dtBitrate : BitVec 32) (calls : List CtrlCall)
    (hanswers : trackedMachine.Along AnswersStand (Tracked.atBoot dtBitrate) calls) :
    trackedMachine.Throughout Tracked.AsAsked (Tracked.atBoot dtBitrate) calls := by
  have hexec : trackedMachine.exec (Tracked.atBoot dtBitrate) calls =
      some (calls.foldl Tracked.handle (Tracked.atBoot dtBitrate)) := Machine.exec_ofTotal _ _ _
  have hall : trackedMachine.Throughout
      (fun t => t.node.Mirrors ∧ t.Sound ∧ t.AsAsked) (Tracked.atBoot dtBitrate) calls := by
    refine hanswers.throughout ?_ ?_ hexec
    · rintro t c u ⟨hmirrors, hs, ht⟩ hok hstep
      cases hstep
      refine ⟨?_, sound_handle hs c, (asAsked_handle_iff hs ht c).2 (hok.settingsStand hmirrors)⟩
      rw [handle_node]
      exact (handleCtrl_mirrors_iff hmirrors).2 hok.1
    · exact ⟨mirrors_atBoot dtBitrate, sound_atBoot dtBitrate, asAsked_atBoot dtBitrate⟩
  exact hall.mono fun _ h => h.2.2

/-- A rejected bitrate followed by START puts the controller on the bus with the bitrate
of the device tree. -/
theorem onBus_not_asAsked :
    ¬ trackedMachine.Throughout Tracked.AsAsked (Tracked.atBoot 500000#32)
      [⟨.request .setBitrate 0#8 1000000#32,
          { DriverReplies.allOk with setBitrate := .fail eRange }⟩,
        ⟨.request .start 0#8 0#32, .allOk⟩] := by
  intro h
  have hend := h.finish (Machine.exec_ofTotal _ _ _)
  exact absurd (hend rfl).1 (by decide)

end DataLogger.CanGw
