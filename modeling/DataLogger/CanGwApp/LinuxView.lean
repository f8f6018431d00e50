import DataLogger.CanGwApp.Traffic

/-!
# What Linux can make of can-gw's messages

`can_gw_task` and `main` send on one endpoint.  The length of a message says whose it is, so
that Linux gets the frames of the two producers and the states of the controller apart; and
the states are current under the same conditions as those of a gateway on its own.
-/

namespace DataLogger.CanGwApp

open DataLogger.Foundation
open DataLogger.Zephyr
open DataLogger.OpenAmp
open DataLogger.CanGw
open DataLogger.Ads868x
open DataLogger.RpmsgPlatform

variable {cfg : Config} {region : RscTable} {s t : Firmware} {a : Action}
variable {v0 : Fin 8 → Reading} {world0 : Gw}

/-! ## The way of the states -/

theorem evtEnabled_not_recv {b : EvtAction} (h : s.evtEnabled b = true) (src : BitVec 32) :
    b ≠ .recv src := by
  rintro rfl
  cases h

theorem evtPath_of_step {b : EvtAction} {p : EvtPath} (henabled : s.evtEnabled b = true)
    (hp : s.evtPath.step b = some p) : (s.putEvtPath p).evtPath = p := by
  obtain ⟨hpeer, hgrows⟩ := evt_keeps hp (evtEnabled_not_recv henabled)
  have haccepted : (s.putEvtPath p).accepted .main = p.accepted := writtenBy_record rfl hgrows
  rw [Firmware.evtPath, haccepted,
    ← show p.peerAddr = (s.putEvtPath p).node.peerAddr from hpeer]
  rfl

theorem evtPath_putRxPath (p : RxPath) : (s.putRxPath p).evtPath = s.evtPath := by
  have haccepted : (s.putRxPath p).accepted .main = s.accepted .main :=
    writtenBy_record_other (by decide) _ _ _
  rw [Firmware.evtPath, haccepted]
  rfl

/-- The step that an action is on the way of the states. -/
def Action.evtStep : Action → Option EvtAction
  | .recvCan d => some (.recv d.src)
  | .evt b => some b
  | _ => none

theorem evtPath_moved {b : EvtAction} (hstep : (firmwareMachine cfg).step s a = some t)
    (hb : a.evtStep = some b) : evtMachine.step s.evtPath b = some t.evtPath := by
  cases Firmware.step_cases hstep with
  | recvCan d hdelivers hsrc =>
      cases hb
      exact if_neg hsrc
  | evt c p henabled hp =>
      cases hb
      rw [evtPath_of_step henabled hp]
      exact hp
  | start | rings | driverOk | mainHooked | mainReturned | mainLooping | core | mngGiven | gwTaken
  | gwCreated | gwEnded | recvCanEnd | rx | adcReady | adcGivesUp | adcSampled | adcQueued
  | adcLost | adcChecked | adcSkipped | adcSent | adcRefused | adcWoken => cases hb

theorem evtPath_kept (hs : s.Consistent) (hstep : (firmwareMachine cfg).step s a = some t)
    (hnone : a.evtStep = none) : t.evtPath = s.evtPath ∨ t.evtPath = .atBoot := by
  cases Firmware.step_cases hstep with
  | start kind => exact .inr rfl
  | recvCan d hdelivers hsrc => cases hnone
  | evt b p henabled hp => cases hnone
  | recvCanEnd d hd =>
      have hpeer : (rpmsgRecvCanCallback s.node d).peerAddr = s.node.peerAddr :=
        (peerAddr_callback s.node d).trans (hs.callback d hd).symm
      left
      simp [Firmware.evtPath, Firmware.putNode, Firmware.accepted, hpeer]
  | rx b p henabled hp =>
      have hsame : (s.putRxPath p).evtPath = s.evtPath := evtPath_putRxPath p
      exact .inl hsame
  | rings | driverOk | mainHooked | mainReturned | mainLooping | core | mngGiven | gwTaken
  | gwCreated | gwEnded | adcReady | adcGivesUp | adcSampled | adcQueued | adcLost | adcChecked
  | adcSkipped | adcSent | adcRefused | adcWoken => exact .inl rfl

/-- What holds of the path after the boot and behind each of its own steps holds of it in the
firmware. -/
theorem keeps_evtPath {P : EvtPath → Prop} (hboot : P .atBoot) (hs : s.Consistent)
    (hP : P s.evtPath) (hstep : (firmwareMachine cfg).step s a = some t)
    (hmoved : ∀ b, a.evtStep = some b → evtMachine.step s.evtPath b = some t.evtPath →
      P t.evtPath) : P t.evtPath := by
  cases hb : a.evtStep with
  | some b => exact hmoved b hb (evtPath_moved hstep hb)
  | none =>
      rcases evtPath_kept hs hstep hb with h | h
      · rw [h]
        exact hP
      · rw [h]
        exact hboot

theorem preserves_evtPath :
    (firmwareMachine cfg).Preserves fun s => s.Consistent ∧ s.evtPath.Sound := by
  rintro s a t ⟨hs, hsound⟩ hstep
  refine ⟨preserves_consistent hs hstep, ?_⟩
  exact keeps_evtPath EvtPath.sound_atBoot hs hsound hstep fun b _ h =>
    CanGw.preserves_sound hsound h

theorem inOrder_of_reaches
    (h : (firmwareMachine cfg).Reaches (.initial cfg region v0 world0) s) :
    s.evtPath.InOrder :=
  (preserves_evtPath.reaches ⟨consistent_boot cfg _ _ _, EvtPath.sound_atBoot⟩ h).2.inOrder

/-! ## Fresh states -/

/-- The action does not lose a state. -/
def Firmware.Covered (s : Firmware) (a : Action) : Prop :=
  match a.evtStep with
  | some b => s.evtPath.Covered b
  | none => True

instance (s : Firmware) (a : Action) : Decidable (s.Covered a) := by
  unfold Firmware.Covered
  split <;> infer_instance

structure Firmware.Current (s : Firmware) : Prop where
  consistent : s.Consistent
  path : s.evtPath.Current

theorem Firmware.Current.step (hs : s.Current) (hcovered : s.Covered a)
    (hstep : (firmwareMachine cfg).step s a = some t) : t.Current := by
  refine ⟨preserves_consistent hs.consistent hstep, ?_⟩
  apply keeps_evtPath EvtPath.current_atBoot hs.consistent hs.path hstep
  intro b hb hmoved
  rw [Firmware.Covered, hb] at hcovered
  exact hs.path.step hcovered hmoved

/-- **The control loop in `main` is current exactly as the gateway's control task is.**  Along every
run of the firmware, restarts included, the events that Linux gets keep the order of the
reports, and whenever all is quiet and a peer is known the last report is delivered, if and
only if no step of the run loses a state. -/
theorem canGw_events_current_iff {as : List Action}
    (hexec : (firmwareMachine cfg).exec (.initial cfg region v0 world0) as = some s) :
    (firmwareMachine cfg).Throughout (fun s => s.evtPath.InOrder ∧ s.evtPath.UpToDate)
        (.initial cfg region v0 world0) as ↔
      (firmwareMachine cfg).Along Firmware.Covered (.initial cfg region v0 world0) as := by
  apply Machine.throughout_iff_along (I := Firmware.Current)
  · intro s hs
    exact ⟨hs.path.1.inOrder, hs.path.2⟩
  · intro s a t hs hcovered hstep
    exact hs.step hcovered hstep
  · intro s a t hs hstep ht
    rw [Firmware.Covered]
    cases hb : a.evtStep with
    | some b =>
        exact (upToDate_iff_covered hs.path.1 hs.path.2 (evtPath_moved hstep hb)).1 ht.2
    | none => trivial
  · exact ⟨consistent_boot cfg _ _ _, EvtPath.current_atBoot⟩
  · exact hexec

/-- A bus-off that overtakes a frame in the hands of `can_gw_task`. -/
def overtaken : List Action :=
  [.recvCan ⟨[0x68#8, 0x69#8], 1024#32, .allOk⟩, .recvCanEnd, .rx .dequeue,
    .evt (.report .busOff), .evt .give, .evt .take, .evt .readState, .rx .readPeer,
    .evt .readPeer, .evt (.send .ok), .rx (.send .ok), .rx .count]

theorem canGw_events_current_busOff :
    (firmwareMachine configExample).Throughout (fun s => s.evtPath.InOrder ∧ s.evtPath.UpToDate)
      (.initial configExample regionZero readingsBoot gwBoot) (bringUp ++ overtaken) := by
  have hrun : ((firmwareMachine configExample).exec
      (.initial configExample regionZero readingsBoot gwBoot) (bringUp ++ overtaken)).isSome := by
    decide +kernel
  obtain ⟨s, hexec⟩ := Option.isSome_iff_exists.1 hrun
  exact (canGw_events_current_iff hexec).2 (by decide +kernel)

/-! ## Splitting the stream -/

/-- The messages on the endpoint, as Linux gets them. -/
def Firmware.inbox (s : Firmware) : List RpmsgMessage := s.wire.map Prod.snd

/-- The messages of the size of `struct rpmsg_can_wire`. -/
def Firmware.dataInbox (s : Firmware) : List RpmsgMessage :=
  s.inbox.filter fun m => m.data.length = sizeofWire

/-- The messages of the size of `struct rpmsg_can_ctrl`. -/
def Firmware.ctrlInbox (s : Firmware) : List RpmsgMessage :=
  s.inbox.filter fun m => m.data.length = sizeofCtrl

theorem length_of_gwTask
    (h : (firmwareMachine cfg).Reaches (.initial cfg region v0 world0) s) :
    ∀ m ∈ s.accepted .gwTask, m.data.length = sizeofWire := by
  obtain ⟨log, -, hdata⟩ := forwarded_of_reaches h
  exact length_of_map_data hdata fun e => RpmsgCanWire.length_toBytes _

theorem length_of_main
    (h : (firmwareMachine cfg).Reaches (.initial cfg region v0 world0) s) :
    ∀ m ∈ s.accepted .main, m.data.length = sizeofCtrl := by
  obtain ⟨sent, hdata, -⟩ := inOrder_of_reaches h
  exact length_of_map_data hdata fun st => RpmsgCanCtrl.length_toBytes _

theorem dataInbox_eq (h : (firmwareMachine cfg).Reaches (.initial cfg region v0 world0) s) :
    s.dataInbox = s.accepted .gwTask := by
  apply filter_eq_writtenBy
  intro v x hx
  cases v with
  | gwTask => simp [length_of_gwTask h x (mem_writtenBy.2 hx)]
  | main => simp [length_of_main h x (mem_writtenBy.2 hx), sizeofCtrl, sizeofWire]

theorem ctrlInbox_eq (h : (firmwareMachine cfg).Reaches (.initial cfg region v0 world0) s) :
    s.ctrlInbox = s.accepted .main := by
  apply filter_eq_writtenBy
  intro v x hx
  cases v with
  | gwTask => simp [length_of_gwTask h x (mem_writtenBy.2 hx), sizeofCtrl, sizeofWire]
  | main => simp [length_of_main h x (mem_writtenBy.2 hx)]

/-- **Linux can take can-gw's mixture apart.**  In every reachable state the 16-byte messages
decode to a selection of the frames that the two producers have put, in order and each with
its producer, the 8-byte ones to states in the order of their reports, and there are no
others. -/
theorem canGw_takes_apart
    (h : (firmwareMachine cfg).Reaches (.initial cfg region v0 world0) s) :
    (∃ log : List (Producer × CanFrame), log.Sublist s.puts ∧
      s.dataInbox.map RpmsgMessage.data = (log.map fun e => (wireOfFrame e.2).toBytes) ∧
      ((∀ e ∈ s.puts, e.2.WellFormed) →
        (s.dataInbox.map fun m => frameOfWire (RpmsgCanWire.ofBytes m.data)) =
          log.map Prod.snd)) ∧
    (∃ sent : List CanState, SampledInOrder s.ctl.reported sent ∧
      (s.ctrlInbox.map fun m => eventOf m.data) = sent.map CanState.event) ∧
    ∀ m ∈ s.inbox, m.data.length = sizeofWire ∨ m.data.length = sizeofCtrl := by
  refine ⟨?_, ?_, ?_⟩
  · obtain ⟨log, hsub, hdata⟩ := forwarded_of_reaches h
    rw [dataInbox_eq h]
    refine ⟨log, hsub, hdata, fun hputs => ?_⟩
    apply decode_frames
    · rw [hdata, List.map_map]
      rfl
    · intro f hf
      obtain ⟨e, he, rfl⟩ := List.mem_map.1 hf
      exact hputs e (hsub.subset he)
  · obtain ⟨sent, -, hevents, hsampled⟩ := inOrder_of_reaches h
    rw [ctrlInbox_eq h]
    exact ⟨sent, hsampled, hevents⟩
  · intro m hm
    obtain ⟨⟨v, x⟩, he, rfl⟩ := List.mem_map.1 hm
    cases v with
    | gwTask => exact .inl (length_of_gwTask h x (mem_writtenBy.2 he))
    | main => exact .inr (length_of_main h x (mem_writtenBy.2 he))

theorem canGw_takes_apart_overtaken :
    ∃ s, afterBringUp overtaken = some s ∧
      s.inbox.map (fun m => m.data.length) = [8, 16] ∧
      ∃ sent : List CanState, SampledInOrder s.ctl.reported sent ∧
        (s.ctrlInbox.map fun m => eventOf m.data) = sent.map CanState.event := by
  have hrun : (afterBringUp overtaken).map
      (fun s => s.inbox.map fun m => m.data.length) = some [8, 16] := by
    decide +kernel
  obtain ⟨s, hexec, hs⟩ := Option.map_eq_some_iff.1 hrun
  exact ⟨s, hexec, hs, (canGw_takes_apart ⟨_, hexec⟩).2.1⟩

end DataLogger.CanGwApp
