import DataLogger.CanGw.RxPath

/-!
# What reaches Linux

The whole way of a frame from the bus to Linux: the receive filters that `can_gw_start`
installs, `can_rx_cb`, the queue and the transmit task.  As long as rpmsg accepts what it
is given, the messages Linux has and those still to come form one stream, which only
arrivals extend, each at its end.
-/

namespace DataLogger.CanGw

open DataLogger.Foundation
open DataLogger.Zephyr
open DataLogger.OpenAmp

/-! ## Start-up -/

/-- What `can_gw_start` leaves registered with the driver: the filters behind `can_rx_cb`,
and whether `can_state_change_cb` is called. -/
structure CanHooks where
  rxFilters : List CanFilter
  stateChange : Bool
  deriving DecidableEq

def filterAll : CanFilter where
  flags := 0#8
  id := 0#32
  mask := 0#32

/-- `can_gw_start`.  The return code of `can_add_rx_filter` only goes to the console. -/
def canGwStart (ready : Bool) (addRxFilter : Reply) : CanHooks :=
  if !ready then ⟨[], false⟩
  else
    match addRxFilter with
    | .ok => ⟨[filterAll], true⟩
    | .fail _ => ⟨[], true⟩

/-- A frame arrives at the started controller: one call for each filter that passes it. -/
def CanHooks.arrive (h : CanHooks) (frame : CanFrame) : List RxAction :=
  (h.rxFilters.filter (·.passes frame)).map fun _ => .canRxCb frame

/-- The hooks of the results below: the device is ready and `can_add_rx_filter` has installed the
filter.  When it fails, `can_gw_start` goes on, and nothing reaches `can_rx_cb`.  No result
reads `stateChange`: a report may come at any moment in them. -/
def gateway : CanHooks := canGwStart true .ok

/-- Mask 0 compares no identifier bit, but the kind of the identifier is compared. -/
theorem filterAll_passes (frame : CanFrame) : filterAll.passes frame = !frame.ide := by
  have hmask : (frame.id ^^^ filterAll.id) &&& filterAll.mask = 0#32 := BitVec.and_zero
  have hflag : (filterAll.flags &&& canFilterIde != 0#8) = false := rfl
  rw [CanFilter.passes, hmask, hflag]
  cases frame.ide <;> rfl

theorem arrive_standard {frame : CanFrame} (hide : frame.ide = false) :
    gateway.arrive frame = [.canRxCb frame] := by
  simp [gateway, canGwStart, CanHooks.arrive, filterAll_passes, hide]

theorem arrive_extended {frame : CanFrame} (hide : frame.ide = true) :
    gateway.arrive frame = [] := by
  simp [gateway, canGwStart, CanHooks.arrive, filterAll_passes, hide]

/-! ## Runs with an accepting transport -/

def arrivals (as : List RxAction) : List CanFrame :=
  as.flatMap fun a => match a with
    | .canRxCb frame => [frame]
    | _ => []

/-- The steps with rpmsg accepting what it is given. -/
def RxAction.Accepts : RxAction → Prop
  | .send (.fail _) => False
  | _ => True

/-- Those of them that are no arrival. -/
def RxAction.Serves (a : RxAction) : Prop := a.Accepts ∧ arrivals [a] = []

instance : DecidablePred RxAction.Accepts := fun a => by
  unfold RxAction.Accepts
  split <;> infer_instance

instance : DecidablePred RxAction.Serves := fun a =>
  inferInstanceAs (Decidable (a.Accepts ∧ arrivals [a] = []))

def acceptingMachine : Machine RxPath RxAction := rxMachine.restrict RxAction.Accepts

def servingMachine : Machine RxPath RxAction := rxMachine.restrict RxAction.Serves

def RxPath.Idle (s : RxPath) : Prop := s.task = .waiting ∧ s.canRxQ.items = []

def wireData (frames : List CanFrame) : List (List Byte) :=
  frames.map fun f => (wireOfFrame f).toBytes

/-- The data messages Linux has, followed by those of the frames on their way. -/
def RxPath.stream (s : RxPath) : List (List Byte) :=
  s.accepted.map RpmsgMessage.data ++ wireData (s.task.unsent ++ s.canRxQ.items)

variable {s t u : RxPath}

theorem stream_of_idle (hs : s.Idle) : s.accepted.map RpmsgMessage.data = s.stream := by
  rw [RxPath.stream, hs.1, hs.2]
  simp [TxTask.unsent, wireData]

/-- `t` continues the stream of `s` with messages for some of `frames`, and still knows a
peer. -/
def Extends (frames : List CanFrame) (s t : RxPath) : Prop :=
  t.peerAddr ≠ peerUnknown ∧
    ∃ later, later.Sublist frames ∧ t.stream = s.stream ++ wireData later

theorem Extends.of_stream_eq (hpeer : t.peerAddr ≠ peerUnknown) (h : t.stream = s.stream)
    (frames : List CanFrame) : Extends frames s t :=
  ⟨hpeer, [], List.nil_sublist _, by simpa [wireData] using h⟩

theorem Extends.trans {xs ys : List CanFrame} (hst : Extends xs s t) (htu : Extends ys t u) :
    Extends (xs ++ ys) s u := by
  obtain ⟨-, first, hfirst, hs⟩ := hst
  obtain ⟨hpeer, second, hsecond, ht⟩ := htu
  refine ⟨hpeer, first ++ second, hfirst.append hsecond, ?_⟩
  rw [ht, hs, wireData, wireData, wireData, List.map_append, List.append_assoc]

/-- The task moves messages along the stream, and an arrival appends one or is dropped. -/
theorem extends_step {a : RxAction} (hpeer : s.peerAddr ≠ peerUnknown)
    (hstep : acceptingMachine.step s a = some t) : Extends (arrivals [a]) s t := by
  obtain ⟨haccepts, hstep⟩ := Machine.restrict_step.1 hstep
  cases RxPath.step_cases hstep with
  | refused => exact absurd haccepts id
  | discarded _ _ hunknown => exact absurd hunknown hpeer
  | queued frame q hq =>
      refine ⟨hpeer, [frame], List.Sublist.refl _, ?_⟩
      simp [RxPath.stream, wireData, hq]
  | dropped => exact .of_stream_eq hpeer rfl _
  | recv src hsrc => exact .of_stream_eq hsrc rfl _
  | dequeued frame q htask hq =>
      apply Extends.of_stream_eq
      · exact hpeer
      · simp [RxPath.stream, htask, hq, TxTask.unsent]
  | addressed frame htask _ =>
      apply Extends.of_stream_eq
      · exact hpeer
      · simp [RxPath.stream, htask, TxTask.unsent]
  | accepted frame peer htask =>
      apply Extends.of_stream_eq
      · exact hpeer
      · simp [RxPath.stream, htask, TxTask.unsent, wireData, dataMessage]
  | counted ret htask _ =>
      apply Extends.of_stream_eq
      · exact hpeer
      · simp [RxPath.stream, htask, TxTask.unsent]
  | countedDrop ret htask _ =>
      apply Extends.of_stream_eq
      · exact hpeer
      · simp [RxPath.stream, htask, TxTask.unsent]

theorem extends_exec {as : List RxAction} (hpeer : s.peerAddr ≠ peerUnknown)
    (hexec : acceptingMachine.exec s as = some t) : Extends (arrivals as) s t := by
  induction as generalizing s with
  | nil =>
      cases hexec
      exact .of_stream_eq hpeer rfl _
  | cons a as ih =>
      obtain ⟨v, hstep, hrest⟩ := Machine.exec_cons_eq_some.1 hexec
      have hfirst := extends_step hpeer hstep
      have hsplit : arrivals (a :: as) = arrivals [a] ++ arrivals as := by
        simp [arrivals]
      rw [hsplit]
      exact hfirst.trans (ih hfirst.1 hrest)

/-! ## Draining -/

/-- Serving steps lead from `s` to `t`, where the task waits for the next frame. -/
def Settles (s t : RxPath) : Prop :=
  servingMachine.Reaches s t ∧ t.task = .waiting ∧ t.canRxQ = s.canRxQ ∧
    t.peerAddr = s.peerAddr

theorem Settles.of_step {a : RxAction} (hstep : servingMachine.step s a = some t)
    (hq : t.canRxQ = s.canRxQ) (hpeer : t.peerAddr = s.peerAddr) (h : Settles t u) :
    Settles s u := by
  obtain ⟨hreach, htask, hq', hpeer'⟩ := h
  exact ⟨(Machine.Reaches.of_step hstep).trans hreach, htask, hq'.trans hq,
    hpeer'.trans hpeer⟩

theorem settles_returned {ret : Int} (htask : s.task = .returned ret) : ∃ t, Settles s t := by
  have hcount : ∃ t, rxMachine.step s .count = some t ∧ t.task = .waiting ∧
      t.canRxQ = s.canRxQ ∧ t.peerAddr = s.peerAddr := by
    by_cases hret : ret = 0 ∨ ret = sizeofWire
    · simp [rxMachine, RxPath.step, htask, hret]
    · simp [rxMachine, RxPath.step, htask, hret]
  obtain ⟨t, hstep, hwaiting, hq, hpeer⟩ := hcount
  have hserve : servingMachine.step s .count = some t :=
    Machine.restrict_step.2 ⟨⟨trivial, rfl⟩, hstep⟩
  exact ⟨t, Machine.Reaches.of_step hserve, hwaiting, hq, hpeer⟩

theorem settles_addressed {frame : CanFrame} {peer : BitVec 32}
    (htask : s.task = .addressed frame peer) : ∃ t, Settles s t := by
  have hstep : servingMachine.step s (.send .ok) =
      some { s with accepted := s.accepted ++ [dataMessage frame peer],
                    task := .returned (dataMessage frame peer).data.length } := by
    apply Machine.restrict_step.2
    refine ⟨⟨trivial, rfl⟩, ?_⟩
    simp [rxMachine, RxPath.step, htask, rpmsgTrysendto]
  obtain ⟨t, ht⟩ := settles_returned (s := { s with
    accepted := s.accepted ++ [dataMessage frame peer],
    task := .returned (dataMessage frame peer).data.length }) rfl
  exact ⟨t, Settles.of_step hstep rfl rfl ht⟩

theorem settles_holding {frame : CanFrame} (hpeer : s.peerAddr ≠ peerUnknown)
    (htask : s.task = .holding frame) : ∃ t, Settles s t := by
  have hstep : servingMachine.step s .readPeer =
      some { s with task := .addressed frame s.peerAddr } := by
    apply Machine.restrict_step.2
    refine ⟨⟨trivial, rfl⟩, ?_⟩
    simp [rxMachine, RxPath.step, htask, hpeer]
  obtain ⟨t, ht⟩ := settles_addressed
    (s := { s with task := .addressed frame s.peerAddr }) rfl
  exact ⟨t, Settles.of_step hstep rfl rfl ht⟩

theorem settles (hpeer : s.peerAddr ≠ peerUnknown) : ∃ t, Settles s t := by
  cases htask : s.task with
  | waiting => exact ⟨s, Machine.Reaches.refl _ s, htask, rfl, rfl⟩
  | holding frame => exact settles_holding hpeer htask
  | addressed frame peer => exact settles_addressed htask
  | returned ret => exact settles_returned htask

theorem exists_idle (frames : List CanFrame) (hpeer : s.peerAddr ≠ peerUnknown)
    (hq : s.canRxQ.items = frames) : ∃ t, servingMachine.Reaches s t ∧ t.Idle := by
  induction frames generalizing s with
  | nil =>
      obtain ⟨t, hreach, htask, hsame, -⟩ := settles hpeer
      exact ⟨t, hreach, htask, by rw [hsame, hq]⟩
  | cons frame rest ih =>
      obtain ⟨t, hreach, htask, hsame, hpeer'⟩ := settles hpeer
      obtain ⟨q, hget, hrest⟩ := BoundedQueue.exists_get (hsame ▸ hq)
      have hstep : servingMachine.step t .dequeue =
          some { t with canRxQ := q, task := .holding frame } := by
        apply Machine.restrict_step.2
        refine ⟨⟨trivial, rfl⟩, ?_⟩
        simp [rxMachine, RxPath.step, htask, hget]
      obtain ⟨u, hidle⟩ := ih (s := { t with canRxQ := q, task := .holding frame })
        (hpeer'.trans_ne hpeer) hrest
      exact ⟨u, (hreach.trans (Machine.Reaches.of_step hstep)).trans hidle.1, hidle.2⟩

/-! ## The whole way -/

/-- A classic data frame as a controller receives it; the bytes behind `dlc` may hold
anything. -/
structure DataFrame (frame : CanFrame) : Prop where
  rtr : frame.rtr = false
  id : FitsBits frame.id (idWidth frame.ide)
  dlc : frame.dlc.toNat ≤ 8

/-- The message says the same as the frame: format bit, request bit, identifier, length
and the bytes of that length. -/
structure Carries (w : RpmsgCanWire) (frame : CanFrame) : Prop where
  eff : w.id.getLsbD 31 = frame.ide
  rtr : w.id.getLsbD 30 = frame.rtr
  id : ∀ i < 29, w.id.getLsbD i = frame.id.getLsbD i
  dlc : w.dlc = frame.dlc
  data : ∀ i : Fin 8, i < frame.dlc.toNat → w.data.get i = frame.data.get i

theorem carries_wireOfFrame {frame : CanFrame} (hframe : DataFrame frame) :
    Carries (wireOfFrame frame) frame := by
  obtain ⟨-, hid, hdlc⟩ := hframe
  refine ⟨getLsbD_wireOfFrame_eff frame, getLsbD_wireOfFrame_rtr frame, ?_, ?_, ?_⟩
  · intro i hi
    rw [wireOfFrame_eq, getLsbD_wireId, decide_eq_false (by omega : ¬ i = 31),
      decide_eq_false (by omega : ¬ i = 30)]
    by_cases hlt : i < idWidth frame.ide
    · simp [hlt]
    · have hclear : frame.id.getLsbD i = false := hid i (by omega) (by omega)
      simp [hclear]
  · rw [wireOfFrame_eq]
    exact clampDlc_of_le hdlc
  · intro i hi
    rw [wireOfFrame_eq, get_copyData, clampDlc_of_le hdlc, canDlcToBytes_of_le hdlc,
      if_pos hi]

/-- A frame on the bus puts exactly `msg` into the stream.  In whatever state it arrives,
as long as a peer is known and the queue has room: wherever a run with rpmsg accepting
leads from there, the path can run empty, and when it is empty Linux has got what was on
its way before, then `msg`, then messages for frames that arrived later. -/
def Delivers (frame : CanFrame) (msg : List Byte) : Prop :=
  ∀ s : RxPath, s.peerAddr ≠ peerUnknown → s.canRxQ.items.length < 64 →
    ∃ t, rxMachine.exec s (gateway.arrive frame) = some t ∧
      ∀ as u, acceptingMachine.exec t as = some u →
        (∃ v, servingMachine.Reaches u v ∧ v.Idle) ∧
        (u.Idle → ∃ later, later.Sublist (arrivals as) ∧
          u.accepted.map RpmsgMessage.data = s.stream ++ msg :: wireData later)

/-- `can_rx_cb` gets the frame exactly once, and Linux one 16-byte message with it. -/
def Forwarded (frame : CanFrame) : Prop :=
  gateway.arrive frame = [.canRxCb frame] ∧
    ∃ w : RpmsgCanWire, Carries w frame ∧ Delivers frame w.toBytes

/-- Linux hands `w` to one gateway with a started controller that takes the frame; a second
gateway on the bus hands `w` to its Linux. -/
def Relayed (w : RpmsgCanWire) : Prop :=
  ∀ (n : Node) (src : BitVec 32) (r : DriverReplies), n.dev.started = true → r.send = .ok →
    ∃ frame, (rpmsgRecvCanCallback n ⟨w.toBytes, src, r⟩).sent = n.sent ++ [frame] ∧
      Delivers frame w.toBytes

theorem stream_canRxCb (frame : CanFrame) (hroom : s.canRxQ.items.length < 64) :
    (s.canRxCb frame).stream = s.stream ++ [(wireOfFrame frame).toBytes] ∧
      (s.canRxCb frame).peerAddr = s.peerAddr := by
  unfold RxPath.canRxCb RxPath.stream
  cases hput : s.canRxQ.put frame with
  | none =>
      have hfull := BoundedQueue.put_eq_none.1 hput
      omega
  | some q =>
      have hq := (BoundedQueue.put_eq_some.1 hput).2
      simp [hput, hq, wireData]

theorem delivers_standard {frame : CanFrame} (hide : frame.ide = false) :
    Delivers frame (wireOfFrame frame).toBytes := by
  intro s hpeer hroom
  obtain ⟨hstream, hpeer'⟩ := stream_canRxCb frame hroom
  refine ⟨s.canRxCb frame, ?_, ?_⟩
  · rw [arrive_standard hide, Machine.exec_singleton]
    rfl
  · intro as u hexec
    obtain ⟨hknown, later, hlater, hkept⟩ := extends_exec (hpeer'.trans_ne hpeer) hexec
    refine ⟨exists_idle _ hknown rfl, fun hidle => ⟨later, hlater, ?_⟩⟩
    rw [stream_of_idle hidle, hkept, hstream, List.append_assoc, List.singleton_append]

theorem not_delivers_extended {frame : CanFrame} (hide : frame.ide = true) (msg : List Byte) :
    ¬ Delivers frame msg := by
  intro h
  have hknown : (1024#32 : BitVec 32) ≠ peerUnknown := by decide
  obtain ⟨t, hexec, hall⟩ := h { RxPath.atBoot with peerAddr := 1024#32 } hknown (by decide)
  rw [arrive_extended hide, Machine.exec_nil, Option.some.injEq] at hexec
  subst hexec
  obtain ⟨later, -, hgot⟩ := (hall [] _ rfl).2 ⟨rfl, rfl⟩
  simp [RxPath.atBoot] at hgot

theorem forwarded_iff {frame : CanFrame} (hframe : DataFrame frame) :
    Forwarded frame ↔ frame.ide = false := by
  constructor
  · rintro ⟨-, w, -, hdelivers⟩
    by_contra hide
    rw [Bool.not_eq_false] at hide
    exact not_delivers_extended hide _ hdelivers
  · intro hide
    exact ⟨arrive_standard hide, wireOfFrame frame, carries_wireOfFrame hframe,
      delivers_standard hide⟩

theorem callback_sent {n : Node} {w : RpmsgCanWire} {src : BitVec 32} {r : DriverReplies}
    (hdev : n.dev.started = true) (hsend : r.send = .ok) :
    (rpmsgRecvCanCallback n ⟨w.toBytes, src, r⟩).sent = n.sent ++ [frameOfWire w] := by
  have hframe : (⟨w.toBytes, src, r⟩ : Delivery).frame? = some (frameOfWire w) := by
    simp [Delivery.frame?]
  have htaken : { n with peerAddr := src }.canSend .ok (frameOfWire w) =
      (0, { n with peerAddr := src, sent := n.sent ++ [frameOfWire w] }) :=
    canSend_taken (frameOfWire w) hdev
  rw [callback_frame hframe]
  simp only [hsend, htaken]
  exact (countSend_frame 0 _).2.2.2

theorem relayed_iff {w : RpmsgCanWire} (hw : w.Canonical) :
    Relayed w ↔ w.id.getLsbD 31 = false := by
  constructor
  · intro h
    obtain ⟨frame, hsent, hdelivers⟩ :=
      h { Node.atBoot 500000#32 with dev := ⟨true, 500000#32, canModeNormal⟩ } 1024#32
        .allOk rfl rfl
    rw [callback_sent rfl rfl, List.append_cancel_left_eq, List.cons.injEq] at hsent
    by_contra heff
    have hide : frame.ide = true := by
      rw [← hsent.1, ide_frameOfWire]
      simpa using heff
    exact not_delivers_extended hide _ hdelivers
  · intro heff n src r hdev hsend
    have hdelivers := delivers_standard ((ide_frameOfWire w).trans heff)
    rw [wireOfFrame_frameOfWire hw] at hdelivers
    exact ⟨frameOfWire w, callback_sent hdev hsend, hdelivers⟩

/-- **The gateway forwards exactly the standard frames.**  A data frame on the bus reaches
Linux, and a data message from Linux crosses the bus to a second gateway's Linux, if and
only if the identifier is a standard one. -/
theorem forwarding_iff_standard {frame : CanFrame} {w : RpmsgCanWire}
    (hframe : DataFrame frame) (hw : w.Canonical) :
    (Forwarded frame ↔ frame.ide = false) ∧ (Relayed w ↔ w.id.getLsbD 31 = false) :=
  ⟨forwarded_iff hframe, relayed_iff hw⟩

theorem forwarding_standard_0x123 :
    Forwarded ⟨0x123#32, 2#8, 0#8, #v[0xAB#8, 0xCD#8, 0#8, 0#8, 0#8, 0#8, 0#8, 0#8]⟩ ∧
    Relayed ⟨0x123#32, 2#8, Vector.replicate 3 0#8,
      #v[0xAB#8, 0xCD#8, 0#8, 0#8, 0#8, 0#8, 0#8, 0#8]⟩ := by
  have hframe : DataFrame
      ⟨0x123#32, 2#8, 0#8, #v[0xAB#8, 0xCD#8, 0#8, 0#8, 0#8, 0#8, 0#8, 0#8]⟩ :=
    ⟨by decide, by decide, by decide⟩
  have hw : RpmsgCanWire.Canonical ⟨0x123#32, 2#8, Vector.replicate 3 0#8,
      #v[0xAB#8, 0xCD#8, 0#8, 0#8, 0#8, 0#8, 0#8, 0#8]⟩ :=
    ⟨by decide, by decide, by decide, by decide, by decide⟩
  have h := forwarding_iff_standard hframe hw
  exact ⟨h.1.2 rfl, h.2.2 (by decide)⟩

/-- The extended data frame `0x18FF50E5` is on the bus and never reaches Linux. -/
theorem extended_not_forwarded :
    ¬ ((∀ frame : CanFrame, DataFrame frame → Forwarded frame) ∧
      ∀ w : RpmsgCanWire, w.Canonical → w.id.getLsbD 30 = false → Relayed w) := by
  rintro ⟨hall, -⟩
  have hframe : DataFrame ⟨0x18FF50E5#32, 0#8, canFrameIde, zeroData⟩ :=
    ⟨by decide, by decide, by decide⟩
  exact absurd ((forwarded_iff hframe).1 (hall _ hframe)) (by decide)

end DataLogger.CanGw
