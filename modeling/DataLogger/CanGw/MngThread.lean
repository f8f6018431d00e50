import DataLogger.CanGw.Control

/-!
# The management thread and the bus

The callback runs on the thread that drains the vring, and its `can_send` has no
completion callback: once the frame is in a mailbox the call returns when the bus has
acknowledged it, or when the controller is stopped.  `K_NO_WAIT` bounds only the wait for
a mailbox, so a full set of mailboxes is one of the driver's refusals.
-/

namespace DataLogger.CanGw

open DataLogger.Foundation
open DataLogger.Zephyr

/-- Where the thread stands: in its polling loop, or in `can_send` with the frame in a
mailbox. -/
inductive MngPc where
  | polling
  | sending (frame : CanFrame)
  deriving DecidableEq

structure Mng where
  pending : List Delivery
  node : Node
  pc : MngPc
  deriving DecidableEq

/-- `take`: the thread hands the next message to the callback.  `acknowledged`: the bus
acknowledges the frame in the mailbox.  `stopped`: `can_send` gives up because the
controller is stopped. -/
inductive MngAction where
  | take
  | acknowledged
  | stopped
  deriving DecidableEq

/-- The callback up to its return or to its wait in `can_send`. -/
def Mng.takeMessage (d : Delivery) (ds : List Delivery) (n : Node) : Mng :=
  match recvBegin d n with
  | (n, none) => ⟨ds, n, .polling⟩
  | (n, some frame) =>
      let (ret, n) := n.canSend d.replies.send frame
      if ret = 0 then ⟨ds, n, .sending frame⟩ else ⟨ds, n.countSend ret, .polling⟩

def Mng.step (s : Mng) : MngAction → Option Mng
  | .take =>
      match s.pc, s.pending with
      | .polling, d :: ds => some (Mng.takeMessage d ds s.node)
      | _, _ => none
  | .acknowledged =>
      match s.pc with
      | .sending _ => some ⟨s.pending, s.node.countSend 0, .polling⟩
      | .polling => none
  | .stopped =>
      match s.pc with
      | .sending _ =>
          if s.node.dev.started then none
          else some ⟨s.pending, s.node.countSend eNetDown.code, .polling⟩
      | .polling => none

def mngMachine : Machine Mng MngAction := ⟨Mng.step⟩

def Mng.start (n : Node) (ds : List Delivery) : Mng := ⟨ds, n, .polling⟩

/-- Inside the callback, with nothing left that could happen but an acknowledgement. -/
def Mng.WaitsOnBus (s : Mng) : Prop :=
  s.pc ≠ .polling ∧ ∀ a t, mngMachine.step s a = some t → a = .acknowledged

/-- No run, whatever the bus does, brings the thread to wait for the bus. -/
def NeverWaitsOnBus (n : Node) (ds : List Delivery) : Prop :=
  ∀ s, mngMachine.Reaches (Mng.start n ds) s → ¬ s.WaitsOnBus

/-- From every state of every run the thread can finish the vring without the bus, and
then the node is what the messages one after the other make of it. -/
def AlwaysHandled (n : Node) (ds : List Delivery) : Prop :=
  ∀ s, mngMachine.Reaches (Mng.start n ds) s →
    mngMachine.exec s (List.replicate s.pending.length .take) =
      some ⟨[], ds.foldl rpmsgRecvCanCallback n, .polling⟩

/-- A message that carries a frame finds the controller stopped, or the driver refuses
the frame. -/
def NoFrameTaken (n : Node) (d : Delivery) : Prop :=
  d.frame? ≠ none → n.dev.started = false ∨ d.replies.send ≠ .ok

/-! ## One message -/

variable {n : Node} {d : Delivery} {ds : List Delivery} {s t : Mng}

theorem takeMessage_of_noFrameTaken (h : NoFrameTaken n d) :
    Mng.takeMessage d ds n = ⟨ds, rpmsgRecvCanCallback n d, .polling⟩ := by
  unfold Mng.takeMessage rpmsgRecvCanCallback
  cases hframe : d.frame? with
  | none =>
      cases hctrl : d.ctrl? with
      | none => rw [recvBegin_other hctrl hframe]
      | some c => rw [recvBegin_ctrl hctrl]
  | some frame =>
      have hret : ({ n with peerAddr := d.src }.canSend d.replies.send frame).1 ≠ 0 := by
        rw [ne_eq, canSend_fst_eq_zero]
        rintro ⟨hdev, hsend⟩
        rcases h (by simp [hframe]) with hstopped | hrefused
        · simp [hstopped] at hdev
        · exact hrefused hsend
      rw [recvBegin_frame hframe]
      simp only [hret, if_false]

theorem takeMessage_of_taken (h : ¬ NoFrameTaken n d) (ds : List Delivery) :
    ∃ frame, d.frame? = some frame ∧ n.dev.started = true ∧ d.replies.send = .ok ∧
      Mng.takeMessage d ds n =
        ⟨ds, { n with peerAddr := d.src, sent := n.sent ++ [frame] }, .sending frame⟩ := by
  unfold NoFrameTaken at h
  push Not at h
  obtain ⟨hframe, hdev, hsend⟩ := h
  obtain ⟨frame, hframe⟩ := Option.ne_none_iff_exists'.1 hframe
  have hstarted : n.dev.started = true := by simpa using hdev
  have hsent : { n with peerAddr := d.src }.canSend .ok frame =
      (0, { n with peerAddr := d.src, sent := n.sent ++ [frame] }) :=
    canSend_taken frame hstarted
  refine ⟨frame, hframe, hstarted, hsend, ?_⟩
  rw [Mng.takeMessage, recvBegin_frame hframe, hsend]
  simp only [hsent, if_true]

theorem takeMessage_waits (h : ¬ NoFrameTaken n d) :
    (Mng.takeMessage d ds n).WaitsOnBus := by
  obtain ⟨frame, -, hstarted, -, htaken⟩ := takeMessage_of_taken h ds
  rw [htaken]
  refine ⟨by simp, ?_⟩
  intro a u hstep
  cases a with
  | take => simp [mngMachine, Mng.step] at hstep
  | acknowledged => rfl
  | stopped => simp [mngMachine, Mng.step, hstarted] at hstep

theorem step_take (n : Node) (d : Delivery) (ds : List Delivery) :
    mngMachine.step (Mng.start n (d :: ds)) .take = some (Mng.takeMessage d ds n) := rfl

theorem polling_step {a : MngAction} (hstep : mngMachine.step (Mng.start n ds) a = some t) :
    a = .take ∧ ∃ d rest, ds = d :: rest ∧ t = Mng.takeMessage d rest n := by
  cases a with
  | take =>
      cases ds with
      | nil => cases hstep
      | cons d rest => exact ⟨rfl, d, rest, rfl, (Option.some.inj hstep).symm⟩
  | acknowledged => cases hstep
  | stopped => cases hstep

/-! ## Whole runs -/

/-- The thread polls, and the messages left make of the node what all messages make of
the first one. -/
def Undisturbed (final : Node) (s : Mng) : Prop :=
  ∃ n ds, s = Mng.start n ds ∧ recvMachine.Along NoFrameTaken n ds ∧
    ds.foldl rpmsgRecvCanCallback n = final

theorem preserves_undisturbed (final : Node) : mngMachine.Preserves (Undisturbed final) := by
  rintro s a t ⟨n, ds, rfl, halong, hfinal⟩ hstep
  obtain ⟨-, d, rest, rfl, rfl⟩ := polling_step hstep
  obtain ⟨hhead, htail⟩ := (Machine.along_cons rfl).1 halong
  exact ⟨rpmsgRecvCanCallback n d, rest, takeMessage_of_noFrameTaken hhead, htail, hfinal⟩

theorem not_waitsOnBus_start (n : Node) (ds : List Delivery) :
    ¬ (Mng.start n ds).WaitsOnBus :=
  fun h => h.1 rfl

theorem exec_takes (halong : recvMachine.Along NoFrameTaken n ds) :
    mngMachine.exec (Mng.start n ds) (List.replicate ds.length .take) =
      some (Mng.start (ds.foldl rpmsgRecvCanCallback n) []) := by
  induction ds generalizing n with
  | nil => rfl
  | cons d ds ih =>
      obtain ⟨hhead, htail⟩ := (Machine.along_cons rfl).1 halong
      rw [List.length_cons, List.replicate_succ, Machine.exec_cons_some (step_take n d ds),
        takeMessage_of_noFrameTaken hhead]
      exact ih htail

theorem undisturbed_of_reaches (halong : recvMachine.Along NoFrameTaken n ds)
    (hreach : mngMachine.Reaches (Mng.start n ds) s) :
    Undisturbed (ds.foldl rpmsgRecvCanCallback n) s :=
  (preserves_undisturbed _).reaches ⟨n, ds, rfl, halong, rfl⟩ hreach

theorem along_of_neverWaits (h : NeverWaitsOnBus n ds) :
    recvMachine.Along NoFrameTaken n ds := by
  induction ds generalizing n with
  | nil => exact Machine.along_nil
  | cons d ds ih =>
      have hfirst : mngMachine.Reaches (Mng.start n (d :: ds)) (Mng.takeMessage d ds n) :=
        Machine.Reaches.of_step (step_take n d ds)
      have hhead : NoFrameTaken n d := by
        by_contra hnot
        exact h _ hfirst (takeMessage_waits hnot)
      rw [takeMessage_of_noFrameTaken hhead] at hfirst
      refine (Machine.along_cons rfl).2 ⟨hhead, ih ?_⟩
      intro s hs
      exact h s (hfirst.trans hs)

/-- **The thread is independent of the bus exactly when no frame from Linux reaches a
started controller that takes it.**  Then every message behind any others is handled, and
the final node is the one of the messages in order; otherwise some run leaves the thread
waiting for an acknowledgement. -/
theorem mngThread_neverWaits_iff (dtBitrate : BitVec 32) (ds : List Delivery) :
    (NeverWaitsOnBus (Node.atBoot dtBitrate) ds ∧
        AlwaysHandled (Node.atBoot dtBitrate) ds) ↔
      recvMachine.Along NoFrameTaken (Node.atBoot dtBitrate) ds := by
  constructor
  · intro h
    exact along_of_neverWaits h.1
  · intro halong
    constructor
    · intro s hs
      obtain ⟨n, rest, rfl, -, -⟩ := undisturbed_of_reaches halong hs
      exact not_waitsOnBus_start n rest
    · intro s hs
      obtain ⟨n, rest, rfl, hrest, hfinal⟩ := undisturbed_of_reaches halong hs
      rw [← hfinal]
      exact exec_takes hrest

/-- START, a data frame that nobody acknowledges, and a STOP that is never read. -/
theorem mngThread_waits :
    ¬ (NeverWaitsOnBus (Node.atBoot 500000#32)
        [⟨(RpmsgCanCtrl.request .start 0#8 0#32).toBytes, 1024#32, .allOk⟩,
          ⟨(⟨0x123#32, 0#8, Vector.replicate 3 0#8, zeroData⟩ : RpmsgCanWire).toBytes,
            1024#32, .allOk⟩,
          ⟨(RpmsgCanCtrl.request .stop 0#8 0#32).toBytes, 1024#32, .allOk⟩] ∧
      AlwaysHandled (Node.atBoot 500000#32)
        [⟨(RpmsgCanCtrl.request .start 0#8 0#32).toBytes, 1024#32, .allOk⟩,
          ⟨(⟨0x123#32, 0#8, Vector.replicate 3 0#8, zeroData⟩ : RpmsgCanWire).toBytes,
            1024#32, .allOk⟩,
          ⟨(RpmsgCanCtrl.request .stop 0#8 0#32).toBytes, 1024#32, .allOk⟩]) := by
  intro h
  have halong := along_of_neverWaits h.1
  have hsecond := halong [_] _ _ (List.prefix_append _ [_]) rfl
  exact absurd (hsecond (by decide)) (by decide)

/-! ## With any bus -/

/-- An acknowledgement completes the callback in which the thread waits. -/
theorem step_acknowledged (h : ¬ NoFrameTaken n d) (ds : List Delivery) :
    mngMachine.step (Mng.takeMessage d ds n) .acknowledged =
      some (Mng.start (rpmsgRecvCanCallback n d) ds) := by
  obtain ⟨frame, hframe, hstarted, hsend, htaken⟩ := takeMessage_of_taken h ds
  have hsent : { n with peerAddr := d.src }.canSend .ok frame =
      (0, { n with peerAddr := d.src, sent := n.sent ++ [frame] }) :=
    canSend_taken frame hstarted
  rw [htaken, callback_frame hframe, hsend, hsent]
  rfl

/-- Where the thread can be behind the messages `done`: in front of the next one, or in
`can_send` with its frame. -/
inductive Mng.Behind (n : Node) (ds : List Delivery) (s : Mng) : Prop where
  | polling (done rest : List Delivery) (hds : ds = done ++ rest)
      (hs : s = Mng.start (done.foldl rpmsgRecvCanCallback n) rest)
  | sending (done : List Delivery) (d : Delivery) (rest : List Delivery)
      (hds : ds = done ++ d :: rest)
      (htaken : ¬ NoFrameTaken (done.foldl rpmsgRecvCanCallback n) d)
      (hs : s = Mng.takeMessage d rest (done.foldl rpmsgRecvCanCallback n))

theorem Mng.Behind.next {done rest : List Delivery} (hds : ds = done ++ d :: rest) :
    Mng.Behind n ds
      (Mng.start (rpmsgRecvCanCallback (done.foldl rpmsgRecvCanCallback n) d) rest) := by
  apply Mng.Behind.polling (done ++ [d]) rest
  · rw [hds, List.append_assoc, List.singleton_append]
  · rw [List.foldl_append, List.foldl_cons, List.foldl_nil]

theorem preserves_behind (n : Node) (ds : List Delivery) :
    mngMachine.Preserves (Mng.Behind n ds) := by
  intro s a t hs hstep
  cases hs with
  | polling done rest hds hs =>
      subst hs
      obtain ⟨-, d, rest, rfl, rfl⟩ := polling_step hstep
      by_cases htaken : NoFrameTaken (done.foldl rpmsgRecvCanCallback n) d
      · rw [takeMessage_of_noFrameTaken htaken]
        exact .next hds
      · exact .sending done d rest hds htaken rfl
  | sending done d rest hds htaken hs =>
      subst hs
      obtain rfl : a = .acknowledged := (takeMessage_waits htaken).2 a t hstep
      rw [step_acknowledged htaken] at hstep
      cases hstep
      exact .next hds

/-- A bus that acknowledges each frame lets the thread finish the vring. -/
theorem reaches_handled (n : Node) (ds : List Delivery) :
    mngMachine.Reaches (Mng.start n ds) (Mng.start (ds.foldl rpmsgRecvCanCallback n) []) := by
  induction ds generalizing n with
  | nil => exact Machine.Reaches.refl _ _
  | cons d ds ih =>
      have hfirst : mngMachine.Reaches (Mng.start n (d :: ds)) (Mng.takeMessage d ds n) :=
        Machine.Reaches.of_step (step_take n d ds)
      by_cases htaken : NoFrameTaken n d
      · rw [takeMessage_of_noFrameTaken htaken] at hfirst
        exact hfirst.trans (ih _)
      · have hsecond := Machine.Reaches.of_step (step_acknowledged htaken ds)
        exact hfirst.trans (hsecond.trans (ih _))

/-- **The bus decides when, never what.**  Whatever it does, the thread is in front of a message,
with the node that the callback makes of those before it in order, or it waits in `can_send`
for an acknowledgement and nothing else, and that completes the callback.  A run can
always be completed, and then the node is the one of all messages in order. -/
theorem mngThread_refines_callback (hreach : mngMachine.Reaches (Mng.start n ds) s) :
    ((s.pc = .polling ∧
        ∃ done, ds = done ++ s.pending ∧ s.node = done.foldl rpmsgRecvCanCallback n) ∨
      (s.WaitsOnBus ∧ ∃ done d frame, ds = done ++ d :: s.pending ∧
        d.frame? = some frame ∧ s.pc = .sending frame ∧
        mngMachine.step s .acknowledged =
          some (Mng.start ((done ++ [d]).foldl rpmsgRecvCanCallback n) s.pending))) ∧
    mngMachine.Reaches s (Mng.start (ds.foldl rpmsgRecvCanCallback n) []) := by
  have hbehind : Mng.Behind n ds s :=
    (preserves_behind n ds).reaches (.polling [] ds rfl rfl) hreach
  cases hbehind with
  | polling done rest hds hs =>
      subst hs
      refine ⟨.inl ⟨rfl, done, hds, rfl⟩, ?_⟩
      rw [hds, List.foldl_append]
      exact reaches_handled _ rest
  | sending done d rest hds htaken hs =>
      subst hs
      have hwaits : (Mng.takeMessage d rest (done.foldl rpmsgRecvCanCallback n)).WaitsOnBus :=
        takeMessage_waits htaken
      have hacknowledged := step_acknowledged htaken rest
      obtain ⟨frame, hframe, -, -, hmessage⟩ := takeMessage_of_taken htaken rest
      have hpending : (Mng.takeMessage d rest (done.foldl rpmsgRecvCanCallback n)).pending =
          rest := by rw [hmessage]
      refine ⟨.inr ⟨hwaits, done, d, frame, ?_, hframe, ?_, ?_⟩, ?_⟩
      · rw [hpending]
        exact hds
      · rw [hmessage]
      · rw [hpending, hacknowledged, List.foldl_append, List.foldl_cons, List.foldl_nil]
      · rw [hds, List.foldl_append, List.foldl_cons]
        exact (Machine.Reaches.of_step hacknowledged).trans (reaches_handled _ rest)

def startFrameStop : List Delivery :=
  [⟨(RpmsgCanCtrl.request .start 0#8 0#32).toBytes, 1024#32, .allOk⟩,
    ⟨(⟨0x123#32, 0#8, Vector.replicate 3 0#8, zeroData⟩ : RpmsgCanWire).toBytes,
      1024#32, .allOk⟩,
    ⟨(RpmsgCanCtrl.request .stop 0#8 0#32).toBytes, 1024#32, .allOk⟩]

/-- START and a data frame, on a bus that has not acknowledged it yet; a STOP is pending. -/
theorem mngThread_refines_callback_sending :
    ∃ s, mngMachine.exec (Mng.start (Node.atBoot 500000#32) startFrameStop) [.take, .take] =
        some s ∧
      s.pc ≠ .polling ∧ s.WaitsOnBus := by
  have hrun : (mngMachine.exec (Mng.start (Node.atBoot 500000#32) startFrameStop)
      [.take, .take]).map (fun s => decide (s.pc = .polling)) = some false := by
    decide +kernel
  obtain ⟨s, hexec, hs⟩ := Option.map_eq_some_iff.1 hrun
  have hpc : s.pc ≠ .polling := of_decide_eq_false hs
  rcases (mngThread_refines_callback ⟨_, hexec⟩).1 with ⟨hpolling, -⟩ | ⟨hwaits, -⟩
  · exact absurd hpolling hpc
  · exact ⟨s, hexec, hpc, hwaits⟩

end DataLogger.CanGw
