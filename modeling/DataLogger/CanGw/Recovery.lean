import DataLogger.CanGw.Mirror

/-!
# The link cycle

`ip link down; up` sends STOP, SET_BITRATE, SET_MODE and START.  From a node whose flag
tells the truth the cycle programs the controller whatever happened before; from a node
that has lost its controller it does nothing at all.
-/

namespace DataLogger.CanGw

open DataLogger.Foundation
open DataLogger.Zephyr

/-- The messages of `ip link down; up`, every legal driver call succeeding. -/
def linkCycle (bitrate : BitVec 32) (flags : Byte) : List CtrlCall :=
  [⟨.request .stop 0#8 0#32, .allOk⟩, ⟨.request .setBitrate 0#8 bitrate, .allOk⟩,
    ⟨.request .setMode flags 0#32, .allOk⟩, ⟨.request .start 0#8 0#32, .allOk⟩]

def handleAll (n : Node) (calls : List CtrlCall) : Node :=
  calls.foldl (fun n c => rpmsgCanHandleCtrl c.ctrl c.replies n) n

theorem exec_ctrlMachine (n : Node) (calls : List CtrlCall) :
    ctrlMachine.exec n calls = some (handleAll n calls) := Machine.exec_ofTotal _ n calls

/-- The cycle brings the controller up with the requested settings, and once more leaves
everything as it is. -/
def Recovers (n : Node) (bitrate : BitVec 32) (flags : Byte) : Prop :=
  (handleAll n (linkCycle bitrate flags)).dev = ⟨true, bitrate, modeOfFlags flags⟩ ∧
    (handleAll n (linkCycle bitrate flags)).canStarted = true ∧
    handleAll (handleAll n (linkCycle bitrate flags)) (linkCycle bitrate flags) =
      handleAll n (linkCycle bitrate flags)

variable {n : Node} {bitrate : BitVec 32} {flags : Byte}

theorem handleAll_linkCycle (hn : n.Mirrors) :
    handleAll n (linkCycle bitrate flags) =
      { n with canStarted := true, dev := ⟨true, bitrate, modeOfFlags flags⟩ } := by
  have hstop : rpmsgCanHandleCtrl (.request .stop 0#8 0#32) .allOk n =
      { n with canStarted := false, dev := { n.dev with started := false } } := by
    rw [handleCtrl_stop rfl]
    unfold Node.Mirrors at hn
    cases hflag : n.canStarted with
    | false =>
        rw [stopIfStarted_of_not hflag]
        obtain ⟨flag, peer, tx, drop, ⟨started, rate, mode⟩, sent⟩ := n
        simp_all
    | true =>
        have hdev : n.dev.started = true := by rw [← hn, hflag]
        rw [stopIfStarted_of_started hflag]
        simp [DriverReplies.allOk, hdev]
  simp only [handleAll, linkCycle, List.foldl_cons, List.foldl_nil, hstop]
  rfl

theorem recovers_of_mirrors (hn : n.Mirrors) : Recovers n bitrate flags := by
  refine ⟨?_, ?_, ?_⟩
  · rw [handleAll_linkCycle hn]
  · rw [handleAll_linkCycle hn]
  · rw [handleAll_linkCycle hn]
    exact handleAll_linkCycle rfl

theorem handleAll_of_lost (hn : n.Lost) (calls : List CtrlCall) : handleAll n calls = n := by
  induction calls with
  | nil => rfl
  | cons c calls ih =>
      rw [handleAll, List.foldl_cons, handleCtrl_of_lost hn]
      exact ih

theorem not_recovers_of_lost (hn : n.Lost) : ¬ Recovers n bitrate flags := by
  rintro ⟨-, hflag, -⟩
  rw [handleAll_of_lost hn, hn.1] at hflag
  cases hflag

theorem mirrors_or_lost (dtBitrate : BitVec 32) (calls : List CtrlCall) :
    (handleAll (Node.atBoot dtBitrate) calls).Mirrors ∨
      (handleAll (Node.atBoot dtBitrate) calls).Lost := by
  have hpres : ctrlMachine.Preserves fun n => n.Mirrors ∨ n.Lost := by
    intro n c t hn hstep
    cases hstep
    rcases hn with hn | hn
    · by_cases hok : StopSucceeds n c
      · exact Or.inl ((handleCtrl_mirrors_iff hn).2 hok)
      · exact Or.inr (handleCtrl_lost hn hok)
    · exact Or.inr (lost_handleCtrl hn)
  exact hpres.exec (Or.inl (mirrors_atBoot dtBitrate)) (exec_ctrlMachine _ calls)

theorem not_lost_of_mirrors (hn : n.Mirrors) : ¬ n.Lost := by
  rintro ⟨hflag, hdev⟩
  rw [Node.Mirrors, hflag, hdev] at hn
  cases hn

/-- **The link cycle recovers the gateway exactly when no `can_stop` has ever failed.**
After any control messages with any driver answers, whatever settings the cycle asks for,
it ends with the controller started with them if and only if every `can_stop` on the way
there succeeded. -/
theorem linkCycle_recovers_iff (dtBitrate : BitVec 32) (calls : List CtrlCall)
    (bitrate : BitVec 32) (flags : Byte) :
    Recovers (handleAll (Node.atBoot dtBitrate) calls) bitrate flags ↔
      ctrlMachine.Along StopSucceeds (Node.atBoot dtBitrate) calls := by
  have hfinish : (handleAll (Node.atBoot dtBitrate) calls).Mirrors ↔
      ctrlMachine.Along StopSucceeds (Node.atBoot dtBitrate) calls := by
    apply Machine.finish_iff_along (G := Node.Mirrors) (B := Node.Lost)
    · intro s c t hs hok hstep
      cases hstep
      exact (handleCtrl_mirrors_iff hs).2 hok
    · intro s c t hs hnot hstep
      cases hstep
      exact handleCtrl_lost hs hnot
    · intro s c t hs hstep
      cases hstep
      exact lost_handleCtrl hs
    · exact fun _ h => not_lost_of_mirrors h
    · exact mirrors_atBoot dtBitrate
    · exact exec_ctrlMachine _ calls
  rw [← hfinish]
  constructor
  · intro hrec
    rcases mirrors_or_lost dtBitrate calls with hmirrors | hlost
    · exact hmirrors
    · exact absurd hrec (not_recovers_of_lost hlost)
  · exact recovers_of_mirrors

/-- After START and a STOP whose `can_stop` fails, no link cycle brings the gateway back. -/
theorem linkCycle_not_recovers :
    ¬ Recovers
      (handleAll (Node.atBoot 500000#32)
        [⟨.request .start 0#8 0#32, .allOk⟩,
          ⟨.request .stop 0#8 0#32, { DriverReplies.allOk with stop := .fail eIo }⟩])
      250000#32 0#8 :=
  fun h => absurd h.2.1 (by decide)

end DataLogger.CanGw
