import DataLogger.CanGwApp.Traffic

/-!
# The can-gw firmware, its bus and its missing endpoint

`adc_task` asks `can_started` before it sends, the receive callback asks nobody: a `can_stop`
that has failed silences the one for good and not the other.  Without an endpoint neither
sends, and the queue keeps the first frames.  `adc_task` waits for nobody in either case.
-/

namespace DataLogger.CanGwApp

open DataLogger.Foundation
open DataLogger.Zephyr
open DataLogger.OpenAmp
open DataLogger.CanGw
open DataLogger.Ads868x
open DataLogger.RpmsgPlatform

variable {cfg : Config} {region : RscTable} {s t : Firmware} {a : Action}
variable {v0 : Fin 8 → Reading} {world0 : Gw}

def Action.Restarts : Action → Prop
  | .start _ => True
  | _ => False

/-! ## After a `can_stop` that has failed -/

theorem lost_callback {n : Node} (hn : n.Lost) (d : Delivery) :
    (rpmsgRecvCanCallback n d).Lost := by
  cases hctrl : d.ctrl? with
  | some c =>
      rw [callback_ctrl hctrl]
      exact lost_handleCtrl (n := { n with peerAddr := d.src }) hn
  | none =>
      cases hframe : d.frame? with
      | none =>
          rw [callback_other hctrl hframe]
          exact hn
      | some frame =>
          rw [callback_frame hframe, Node.Lost]
          obtain ⟨hflag, hdev⟩ := canSend_countSend d.replies.send frame
            { n with peerAddr := d.src } ({ n with peerAddr := d.src }.canSend _ frame).1
          rw [hflag, hdev]
          exact hn

/-- The frame that has got past `can_started`. -/
def AdcPc.passed : AdcPc → List CanFrame
  | sending frame _ => [frame]
  | absent | init | sampling | putting _ _ | checking _ _ | sleeping | ended => []

@[simp] theorem passed_next (rest : List CanFrame) : (AdcPc.next rest).passed = [] := by
  cases rest <;> rfl

/-- The controller is lost to the flag, and `adc_task` has sent nothing but some of `frames`. -/
structure Firmware.Silenced (frames : List CanFrame) (s : Firmware) : Prop where
  lost : s.node.Lost
  sent : (writtenBy .adcTask s.bus ++ s.adc.pc.passed).Sublist frames

theorem Firmware.Silenced.move {frames : List CanFrame} (hs : s.Silenced frames)
    (hnode : t.node = s.node) (hbus : t.bus = s.bus)
    (hpassed : t.adc.pc.passed.Sublist s.adc.pc.passed) : t.Silenced frames := by
  refine ⟨hnode ▸ hs.lost, ?_⟩
  rw [hbus]
  exact (hpassed.append_left _).trans hs.sent

theorem silenced_step {frames : List CanFrame} (hs : s.Silenced frames) (ha : ¬ a.Restarts)
    (hstep : (firmwareMachine cfg).step s a = some t) : t.Silenced frames := by
  cases Firmware.step_cases hstep with
  | start kind => exact absurd trivial ha
  | mainLooping ready hmain =>
      refine hs.move rfl rfl ?_
      split <;> exact List.nil_sublist _
  | recvCan d hdelivers hsrc => exact ⟨hs.lost, hs.sent⟩
  | recvCanEnd d hd =>
      refine ⟨lost_callback hs.lost d, ?_⟩
      rw [Firmware.putNode, writtenBy_record_other (by decide)]
      exact hs.sent
  | adcReady hpc hspi hrc => exact hs.move rfl rfl (List.nil_sublist _)
  | adcGivesUp world hpc => exact hs.move rfl rfl (List.nil_sublist _)
  | adcSampled v world hpc hloop =>
      refine hs.move rfl rfl ?_
      rw [passed_next]
      exact List.nil_sublist _
  | adcQueued frame rest q hpc hput => exact hs.move rfl rfl (List.nil_sublist _)
  | adcLost frame rest hpc hfull => exact hs.move rfl rfl (List.nil_sublist _)
  | adcChecked frame rest hpc hstarted =>
      rw [hs.lost.1] at hstarted
      cases hstarted
  | adcSkipped frame rest hpc hstopped =>
      refine hs.move rfl rfl ?_
      rw [passed_next]
      exact List.nil_sublist _
  | adcSent frame rest hpc hdev =>
      refine ⟨hs.lost, ?_⟩
      have hsent := hs.sent
      rw [hpc] at hsent
      rw [passed_next, writtenBy_append, List.append_nil]
      exact hsent
  | adcRefused r frame rest hpc =>
      refine hs.move rfl rfl ?_
      rw [passed_next]
      exact List.nil_sublist _
  | adcWoken hpc => exact hs.move rfl rfl (List.nil_sublist _)
  | rings | driverOk | mainHooked | mainReturned | core | mngGiven | gwTaken | gwCreated | gwEnded
  | rx | evt => exact hs.move rfl rfl (List.Sublist.refl _)

theorem silenced_exec {frames : List CanFrame} {as : List Action} (hs : s.Silenced frames)
    (has : ∀ a ∈ as, ¬ a.Restarts) (hexec : (firmwareMachine cfg).exec s as = some t) :
    t.Silenced frames := by
  induction as generalizing s with
  | nil =>
      cases hexec
      exact hs
  | cons a as ih =>
      obtain ⟨u, hstep, hrest⟩ := Machine.exec_cons_eq_some.1 hexec
      have hu := silenced_step hs (has a List.mem_cons_self) hstep
      exact ih hu (fun b hb => has b (List.mem_cons_of_mem a hb)) hrest

/-- The callback's frame is taken by a started controller, whatever `can_started` says. -/
theorem recvCanEnd_sends {d : Delivery} {frame : CanFrame} (hd : s.callback = some d)
    (hframe : d.frame? = some frame) (hdev : s.node.dev.started = true)
    (hsend : d.replies.send = .ok) :
    ∃ u, (firmwareMachine cfg).step s .recvCanEnd = some u ∧
      u.bus = s.bus ++ [(.linux, frame)] := by
  refine ⟨{ s.putNode .linux (rpmsgRecvCanCallback s.node d) with callback := none }, ?_, ?_⟩
  · simp only [firmwareMachine, Firmware.step, hd]
    rfl
  · have hsent := (transmits_callback s.node d).sent
    rw [takenFrames, if_pos ⟨hdev, hsend⟩, hframe] at hsent
    rw [Firmware.putNode, hsent]
    exact record_concat _ _ _ _

/-- **A failed `can_stop` divides the two senders.**  Once the flag says stopped and the
controller is on the bus, that stays so until the core is restarted: of the ADC at most the
frame that has passed the flag already is sent, while every frame from Linux that the
driver accepts still goes out. -/
theorem adc_silenced_by_failed_stop (hlost : s.node.Lost) {as : List Action}
    (has : ∀ a ∈ as, ¬ a.Restarts) (hexec : (firmwareMachine cfg).exec s as = some t) :
    t.node.Lost ∧
      (writtenBy .adcTask t.bus).Sublist (writtenBy .adcTask s.bus ++ s.adc.pc.passed) ∧
      ∀ d frame, t.callback = some d → d.frame? = some frame → d.replies.send = .ok →
        ∃ u, (firmwareMachine cfg).step t .recvCanEnd = some u ∧
          u.bus = t.bus ++ [(.linux, frame)] := by
  obtain ⟨hlost, hsent⟩ := silenced_exec ⟨hlost, List.Sublist.refl _⟩ has hexec
  refine ⟨hlost, (List.sublist_append_left _ _).trans hsent, ?_⟩
  intro d frame hd hframe hsend
  exact recvCanEnd_sends hd hframe hlost.2 hsend

def startDelivery : Delivery :=
  ⟨(RpmsgCanCtrl.request .start 0#8 0#32).toBytes, 1024#32, .allOk⟩

def failedStopDelivery : Delivery :=
  ⟨(RpmsgCanCtrl.request .stop 0#8 0#32).toBytes, 1024#32,
    { DriverReplies.allOk with stop := .fail eIo }⟩

def dataDelivery : Delivery :=
  ⟨(wireOfFrame ⟨0x123#32, 1#8, 0#8, zeroData⟩).toBytes, 1024#32, .allOk⟩

/-- START, and a STOP whose `can_stop` fails: the ADC's next round stays off the bus, the frame
from Linux goes out. -/
theorem adc_silenced_by_failed_stop_one :
    ∃ s t, afterBringUp [.recvCan startDelivery, .recvCanEnd, .recvCan failedStopDelivery,
        .recvCanEnd] = some s ∧
      (firmwareMachine configExample).exec s [.adcWake, .adcSample, .adcPut, .adcCheck, .adcPut,
        .adcCheck, .recvCan dataDelivery] = some t ∧
      writtenBy .adcTask t.bus = [] ∧
      ∃ u, (firmwareMachine configExample).step t .recvCanEnd = some u ∧
        u.bus = t.bus ++ [(.linux, ⟨0x123#32, 1#8, 0#8, zeroData⟩)] := by
  have hfirst : (afterBringUp [.recvCan startDelivery, .recvCanEnd, .recvCan failedStopDelivery,
      .recvCanEnd]).map (fun s =>
        (s.node.canStarted, s.node.dev.started, s.bus.length, s.adc.pc.passed.length)) =
          some (false, true, 0, 0) := by decide +kernel
  have hsecond : ((afterBringUp [.recvCan startDelivery, .recvCanEnd,
      .recvCan failedStopDelivery, .recvCanEnd]).bind fun s =>
        (firmwareMachine configExample).exec s [.adcWake, .adcSample, .adcPut, .adcCheck, .adcPut,
          .adcCheck, .recvCan dataDelivery]).map (fun t => t.callback) =
            some (some dataDelivery) := by decide +kernel
  obtain ⟨s, hexec, hs⟩ := Option.map_eq_some_iff.1 hfirst
  obtain ⟨t, hboth, ht⟩ := Option.map_eq_some_iff.1 hsecond
  rw [hexec, Option.bind_some] at hboth
  simp only [Prod.mk.injEq, List.length_eq_zero_iff] at hs
  obtain ⟨hflag, hdev, hbus, hpassed⟩ := hs
  obtain ⟨-, hsent, hlinux⟩ := adc_silenced_by_failed_stop ⟨hflag, hdev⟩ (by simp [Action.Restarts])
    hboth
  rw [hbus, hpassed] at hsent
  refine ⟨s, t, hexec, hboth, ?_, ?_⟩
  · exact List.sublist_nil.1 hsent
  · exact hlinux dataDelivery _ ht (by decide) rfl

/-! ## The thread that waits for nobody -/

/-- The steps of `adc_task`, with the driver always answering `r`. -/
def Action.IsAdc (r : Reply) : Action → Prop
  | .adcInit | .adcSample | .adcPut | .adcCheck | .adcWake => True
  | .adcSend q => q = r
  | _ => False

instance (r : Reply) : DecidablePred (Action.IsAdc r) := fun a => by
  unfold Action.IsAdc
  split <;> infer_instance

def adcMachine (cfg : Config) (r : Reply) : Machine Firmware Action :=
  (firmwareMachine cfg).restrict (Action.IsAdc r)

variable {r : Reply}

/-- Alone the thread gets to `t`, where it stands at `pc` in the same round. -/
def Firmware.GetsTo (cfg : Config) (r : Reply) (s : Firmware) (pc : AdcPc) : Prop :=
  ∃ t, (adcMachine cfg r).Reaches s t ∧ t.adc.pc = pc ∧ t.adc.rounds = s.adc.rounds

theorem Firmware.GetsTo.head {pc : AdcPc}
    (hstep : (firmwareMachine cfg).step s a = some t) (ha : a.IsAdc r)
    (hrounds : t.adc.rounds = s.adc.rounds)
    (h : t.GetsTo cfg r pc) : s.GetsTo cfg r pc := by
  obtain ⟨u, hreach, hpc, hsame⟩ := h
  have hfirst : (adcMachine cfg r).Reaches s t :=
    Machine.Reaches.of_step (Machine.restrict_step.2 ⟨ha, hstep⟩)
  exact ⟨u, hfirst.trans hreach, hpc, hsame.trans hrounds⟩

theorem getsTo_self (cfg : Config) (r : Reply) (s : Firmware) : s.GetsTo cfg r s.adc.pc :=
  ⟨s, Machine.Reaches.refl _ s, rfl, rfl⟩

theorem getsTo_of_sending {frame : CanFrame} {rest : List CanFrame}
    (hpc : s.adc.pc = .sending frame rest) : s.GetsTo cfg r (.next rest) := by
  have hsend : ∃ t, (firmwareMachine cfg).step s (.adcSend r) = some t ∧
      t.adc.pc = .next rest ∧ t.adc.rounds = s.adc.rounds := by
    simp only [firmwareMachine, Firmware.step, Firmware.adcSendStep, hpc]
    refine ⟨_, rfl, ?_, ?_⟩
    · dsimp only
      split <;> rfl
    · dsimp only
      split <;> rfl
  obtain ⟨t, hstep, hnext, hrounds⟩ := hsend
  exact .head hstep rfl hrounds (hnext ▸ getsTo_self cfg r t)

theorem getsTo_of_checking {frame : CanFrame} {rest : List CanFrame}
    (hpc : s.adc.pc = .checking frame rest) : s.GetsTo cfg r (.next rest) := by
  have hstep : (firmwareMachine cfg).step s .adcCheck = some { s with
      adc := { s.adc with
        pc := if s.node.canStarted then .sending frame rest else .next rest } } := by
    simp only [firmwareMachine, Firmware.step, Firmware.adcCheckStep, hpc]
  refine .head hstep trivial rfl ?_
  cases hflag : s.node.canStarted with
  | true => exact getsTo_of_sending rfl
  | false => exact getsTo_self cfg r _

theorem getsTo_of_putting {frame : CanFrame} {rest : List CanFrame}
    (hpc : s.adc.pc = .putting frame rest) : s.GetsTo cfg r (.next rest) := by
  have hput : ∃ t, (firmwareMachine cfg).step s .adcPut = some t ∧
      t.adc.pc = .checking frame rest ∧ t.adc.rounds = s.adc.rounds := by
    simp only [firmwareMachine, Firmware.step, Firmware.adcPutStep, hpc]
    split
    · exact ⟨_, rfl, rfl, rfl⟩
    · exact ⟨_, rfl, rfl, rfl⟩
  obtain ⟨t, hstep, hnext, hrounds⟩ := hput
  exact .head hstep trivial hrounds (getsTo_of_checking hnext)

theorem Firmware.GetsTo.trans {pc pc' : AdcPc} (h : s.GetsTo cfg r pc)
    (hnext : ∀ t : Firmware, t.adc.pc = pc → t.GetsTo cfg r pc') : s.GetsTo cfg r pc' := by
  obtain ⟨t, hreach, hpc, hrounds⟩ := h
  obtain ⟨u, hreach', hpc', hrounds'⟩ := hnext t hpc
  exact ⟨u, hreach.trans hreach', hpc', hrounds'.trans hrounds⟩

theorem getsTo_sleeping (rest : List CanFrame) :
    ∀ s : Firmware, s.adc.pc = .next rest → s.GetsTo cfg r .sleeping := by
  induction rest with
  | nil =>
      intro s hpc
      exact ⟨s, Machine.Reaches.refl _ s, hpc, rfl⟩
  | cons frame rest ih =>
      intro s hpc
      exact (getsTo_of_putting hpc).trans ih

theorem getsTo_sampling (hloops : s.adc.pc.loops = true) : s.GetsTo cfg r .sampling := by
  have hwake : ∀ s : Firmware, s.adc.pc = .sleeping → s.GetsTo cfg r .sampling := by
    intro s hpc
    have hstep : (firmwareMachine cfg).step s .adcWake =
        some { s with adc := { s.adc with pc := .sampling } } := by
      simp only [firmwareMachine, Firmware.step, Firmware.adcWakeStep, hpc]
    exact .head hstep trivial rfl (getsTo_self cfg r _)
  cases hpc : s.adc.pc with
  | absent | init | ended =>
      rw [hpc] at hloops
      cases hloops
  | sampling => exact hpc ▸ getsTo_self cfg r s
  | sleeping => exact hwake s hpc
  | putting frame rest =>
      exact ((getsTo_of_putting hpc).trans (getsTo_sleeping rest)).trans hwake
  | checking frame rest =>
      exact ((getsTo_of_checking hpc).trans (getsTo_sleeping rest)).trans hwake
  | sending frame rest =>
      exact ((getsTo_of_sending hpc).trans (getsTo_sleeping rest)).trans hwake

/-- However full the queue is and whatever the driver answers, the rounds go on. -/
theorem adc_samples_on (cfg : Config) (r : Reply) (n : Nat) (hloops : s.adc.pc.loops = true) :
    ∃ t, (adcMachine cfg r).Reaches s t ∧ t.adc.pc.loops = true ∧
      t.adc.rounds.length = s.adc.rounds.length + n := by
  induction n with
  | zero => exact ⟨s, Machine.Reaches.refl _ s, hloops, rfl⟩
  | succ n ih =>
      obtain ⟨t, hreach, htloops, hlength⟩ := ih
      have hwakes : t.GetsTo cfg r .sampling := getsTo_sampling htloops
      obtain ⟨u, hreach', hpc, hrounds⟩ := hwakes
      have hsample : ∃ w, (firmwareMachine cfg).step u .adcSample = some w ∧
          w.adc.pc.loops = true ∧ w.adc.rounds.length = u.adc.rounds.length + 1 := by
        simp only [firmwareMachine, Firmware.step, Firmware.adcSampleStep, hpc]
        refine ⟨_, rfl, ?_, ?_⟩
        · simp only [loops_next]
        · exact List.length_append
      obtain ⟨w, hstep, hwloops, hwlength⟩ := hsample
      have hadc : Action.IsAdc r .adcSample := trivial
      have hlast : (adcMachine cfg r).Reaches u w :=
        Machine.Reaches.of_step (Machine.restrict_step.2 ⟨hadc, hstep⟩)
      refine ⟨w, (hreach.trans hreach').trans hlast, hwloops, ?_⟩
      rw [hwlength, hrounds, hlength, Nat.add_assoc]

/-! ## Without the endpoint -/

/-- The semaphore is given, and then passed on to `can_gw_task`, by a platform that runs. -/
structure Firmware.Sound (s : Firmware) : Prop where
  consistent : s.Consistent
  platform : s.polling = true → ∃ da0 da1, s.platform.core = .running da0 da1
  token : 0 < s.rpdevReadySem.count ∨ s.gw = .creating ∨ s.gw = .running ∨ s.gw = .ended →
    s.polling = true

theorem sound_boot (cfg : Config) (p : Platform) (v : Fin 8 → Reading) (world : Gw) :
    (Firmware.boot cfg p v world).Sound := by
  refine ⟨consistent_boot cfg p v world, (fun h => nomatch h), ?_⟩
  intro h
  rcases h with h | h | h | h <;> cases h

theorem Firmware.Sound.move (hs : s.Sound) (hcons : t.Consistent)
    (hcore : t.platform.core = s.platform.core) (hpolling : t.polling = s.polling)
    (hsem : t.rpdevReadySem = s.rpdevReadySem) (hgw : t.gw = s.gw) : t.Sound :=
  ⟨hcons, by rw [hpolling, hcore]; exact hs.platform,
    by rw [hpolling, hsem, hgw]; exact hs.token⟩

theorem linux_keeps_core {L : LinkedTable} {p q : Platform} {b : PlatformAction}
    (hb : b = .writeDriverOk ∨ ∃ da0 da1, b = .writeRings da0 da1)
    (hstep : p.step L b = some q) : q.core = p.core := by
  rcases hb with rfl | ⟨da0, da1, rfl⟩
  · obtain ⟨-, hnext⟩ := Option.ite_none_right_eq_some.1 hstep
    cases hnext
    rfl
  · obtain ⟨-, hnext⟩ := Option.ite_none_right_eq_some.1 hstep
    cases hnext
    rfl

theorem preserves_sound : (firmwareMachine cfg).Preserves Firmware.Sound := by
  intro s a t hs hstep
  have hcons := preserves_consistent hs.consistent hstep
  cases Firmware.step_cases hstep with
  | start kind => exact sound_boot cfg _ _ _
  | rings da0 da1 p hp =>
      exact hs.move hcons (linux_keeps_core (.inr ⟨da0, da1, rfl⟩) hp) rfl rfl rfl
  | driverOk p hp => exact hs.move hcons (linux_keeps_core (.inl rfl) hp) rfl rfl rfl
  | mainLooping ready hmain =>
      refine ⟨hcons, hs.platform, ?_⟩
      intro h
      rcases h with h | h | h | h
      · exact hs.token (.inl h)
      · cases h
      · cases h
      · cases h
  | core ok p hmain hp =>
      refine ⟨hcons, ?_, hs.token⟩
      intro hpolling
      obtain ⟨da0, da1, hcore⟩ := hs.platform hpolling
      rw [Platform.coreStep, hcore, Option.some.injEq] at hp
      exact ⟨da0, da1, hp ▸ hcore⟩
  | mngGiven da0 da1 hcore hpolling => exact ⟨hcons, fun _ => ⟨da0, da1, hcore⟩, fun _ => rfl⟩
  | gwTaken ok sem hgw hsem =>
      have hgiven : s.polling = true := hs.token (.inl (by omega))
      exact ⟨hcons, hs.platform, fun _ => hgiven⟩
  | gwCreated hgw =>
      have hgiven := hs.token (.inr (.inl hgw))
      exact ⟨hcons, hs.platform, fun _ => hgiven⟩
  | gwEnded hgw =>
      have hgiven := hs.token (.inr (.inl hgw))
      exact ⟨hcons, hs.platform, fun _ => hgiven⟩
  | mainHooked | mainReturned | recvCan | recvCanEnd | rx | evt | adcReady | adcGivesUp
  | adcSampled | adcQueued | adcLost | adcChecked | adcSkipped | adcSent | adcRefused
  | adcWoken => exact hs.move hcons rfl rfl rfl rfl

theorem sound_of_reaches
    (h : (firmwareMachine cfg).Reaches (.initial cfg region v0 world0) s) : s.Sound :=
  preserves_sound.reaches (sound_boot cfg _ _ _) h

/-- `can_gw_task` stays in its loop. -/
theorem running_of_step (hs : s.Consistent) (hstep : (firmwareMachine cfg).step s a = some t)
    (ha : ¬ a.Restarts) (hgw : s.gw = .running) : t.gw = .running := by
  cases Firmware.step_cases hstep with
  | start kind => exact absurd trivial ha
  | mainLooping ready hmain =>
      have habsent := (hs.threads (by rw [hmain]; decide)).2
      rw [hgw] at habsent
      cases habsent
  | gwTaken ok sem hwaiting hsem =>
      rw [hgw] at hwaiting
      cases hwaiting
  | gwCreated hcreating => rfl
  | gwEnded hcreating =>
      rw [hgw] at hcreating
      cases hcreating
  | rings | driverOk | mainHooked | mainReturned | core | mngGiven | recvCan | recvCanEnd | rx
  | evt | adcReady | adcGivesUp | adcSampled | adcQueued | adcLost | adcChecked | adcSkipped
  | adcSent | adcRefused | adcWoken => exact hgw

/-- The controller and both logs as at boot, the first 64 frames of the two producers in the
queue, and every later one of the bus counted as dropped. -/
structure Firmware.Dormant (cfg : Config) (s : Firmware) : Prop where
  node : s.node = .atBoot cfg.dtBitrate
  callback : s.callback = none
  task : s.tx.task = .waiting
  ctl : ∀ st peer, s.ctl.task ≠ .addressed st peer
  passed : s.adc.pc.passed = []
  bus : s.bus = []
  wire : s.wire = []
  queue : s.tx.canRxQ.items = (s.puts.map Prod.snd).take 64
  drops : s.tx.statCanRxDrop = BitVec.ofNat 32 (s.puts.length - 64)

theorem dormant_boot (cfg : Config) (p : Platform) (v : Fin 8 → Reading) (world : Gw) :
    (Firmware.boot cfg p v world).Dormant cfg :=
  ⟨rfl, rfl, rfl, (fun _ _ h => nomatch h), rfl, rfl, rfl, rfl, rfl⟩

/-- A step that leaves the queue and the controller alone. -/
theorem Firmware.Dormant.move (hs : s.Dormant cfg) (hnode : t.node = s.node)
    (hcallback : t.callback = s.callback) (htx : t.tx = s.tx) (hctl : t.ctl = s.ctl)
    (hpassed : t.adc.pc.passed = []) (hbus : t.bus = s.bus) (hwire : t.wire = s.wire)
    (hputs : t.puts = s.puts) : t.Dormant cfg := by
  refine ⟨hnode ▸ hs.node, hcallback ▸ hs.callback, htx ▸ hs.task, ?_, hpassed, hbus ▸ hs.bus,
    hwire ▸ hs.wire, ?_, ?_⟩
  · rw [hctl]
    exact hs.ctl
  · rw [htx, hputs]
    exact hs.queue
  · rw [htx, hputs]
    exact hs.drops

/-- A queue that nobody empties, with one more frame put. -/
theorem dormant_queued {frame : CanFrame} {q : BoundedQueue CanFrame 64} (hs : s.Dormant cfg)
    (hq : q.items = s.tx.canRxQ.items ++ [frame]) (w : Producer) :
    q.items = ((s.puts ++ [(w, frame)]).map Prod.snd).take 64 ∧
      s.tx.statCanRxDrop = BitVec.ofNat 32 ((s.puts ++ [(w, frame)]).length - 64) := by
  have hshort : s.puts.length < 64 := by
    have hle := q.length_le
    rw [hq, hs.queue, List.length_append, List.length_take, List.length_map,
      List.length_singleton] at hle
    omega
  constructor
  · rw [hq, hs.queue, List.map_append, List.take_of_length_le, List.take_of_length_le]
    · rfl
    · rw [List.length_append, List.length_map]
      exact hshort
    · rw [List.length_map]
      omega
  · rw [hs.drops, List.length_append, List.length_singleton]
    congr 1
    omega

theorem dormant_dropped (hs : s.Dormant cfg) (frame : CanFrame)
    (hfull : 64 ≤ s.tx.canRxQ.items.length) :
    s.tx.canRxQ.items = ((s.puts ++ [(Producer.canRxCb, frame)]).map Prod.snd).take 64 ∧
      s.tx.statCanRxDrop + 1 =
        BitVec.ofNat 32 ((s.puts ++ [(Producer.canRxCb, frame)]).length - 64) := by
  have hlong : 64 ≤ s.puts.length := by
    rw [hs.queue, List.length_take, List.length_map] at hfull
    omega
  constructor
  · rw [hs.queue, List.map_append, List.take_append_of_le_length (by simpa using hlong)]
  · rw [hs.drops, ofNat_succ, List.length_append, List.length_singleton]
    congr 1
    omega

theorem accepted_of_dormant (hs : s.Dormant cfg) (w : Sender) : s.accepted w = [] := by
  rw [Firmware.accepted, hs.wire]
  rfl

theorem dormant_rx {b : RxAction} {p : RxPath} (hs : s.Dormant cfg) (hgw : s.gw ≠ .running)
    (henabled : s.rxEnabled b = true) (hp : s.rxPath.step b = some p) :
    Firmware.Dormant cfg
      { s.putRxPath p with
        puts := s.puts ++ (arrivals [b]).map fun frame => (.canRxCb, frame) } := by
  have hnone := accepted_of_dormant hs .gwTask
  cases b with
  | canRxCb frame =>
      have hstep : rxMachine.step s.rxPath (.canRxCb frame) = some p := hp
      cases RxPath.step_cases hstep with
      | queued frame q hq =>
          obtain ⟨hqueue, hdrops⟩ := dormant_queued hs hq .canRxCb
          refine ⟨hs.node, hs.callback, hs.task, hs.ctl, hs.passed, hs.bus, ?_, hqueue, hdrops⟩
          exact (record_self _ _ _).trans hs.wire
      | dropped frame hfull =>
          obtain ⟨hqueue, hdrops⟩ := dormant_dropped hs frame hfull
          refine ⟨hs.node, hs.callback, hs.task, hs.ctl, hs.passed, hs.bus, ?_, hqueue, hdrops⟩
          exact (record_self _ _ _).trans hs.wire
  | recv src => cases henabled
  | dequeue | readPeer | send r | count => exact absurd (of_decide_eq_true henabled) hgw

theorem dormant_evt {b : EvtAction} {p : EvtPath} (hs : s.Dormant cfg)
    (hp : s.evtPath.step b = some p) (henabled : s.evtEnabled b = true) :
    (s.putEvtPath p).Dormant cfg := by
  have hstep : evtMachine.step s.evtPath b = some p := hp
  have hpeer : s.evtPath.peerAddr = peerUnknown := by
    change s.node.peerAddr = peerUnknown
    rw [hs.node]
    rfl
  have hquiet : (∀ st peer, p.task ≠ .addressed st peer) ∧ p.accepted = s.accepted .main := by
    cases EvtPath.step_cases hstep with
    | recv src hsrc => cases henabled
    | addressed st htask hst hknown => exact absurd hpeer hknown
    | accepted st peer htask => exact absurd htask (hs.ctl st peer)
    | refused st peer e htask => exact absurd htask (hs.ctl st peer)
    | reported | given | timeout => exact ⟨hs.ctl, rfl⟩
    | taken | readState | skipped => exact ⟨by simp, rfl⟩
  obtain ⟨htask, haccepted⟩ := hquiet
  refine ⟨hs.node, hs.callback, hs.task, htask, hs.passed, hs.bus, ?_, hs.queue, hs.drops⟩
  rw [Firmware.putEvtPath, haccepted]
  exact (record_self _ _ _).trans hs.wire

theorem dormant_step (hcons : s.Consistent) (hs : s.gw ≠ .running → s.Dormant cfg)
    (hstep : (firmwareMachine cfg).step s a = some t) (ht : t.gw ≠ .running) :
    t.Dormant cfg := by
  by_cases ha : a.Restarts
  · cases a with
    | start kind =>
        cases hstep
        exact dormant_boot cfg _ _ _
    | writeRings | writeDriverOk | main | core | mng | gw | recvCan | recvCanEnd | rx | evt
    | adcInit | adcSample | adcPut | adcCheck | adcSend | adcWake => cases ha
  have hgw : s.gw ≠ .running := fun h => ht (running_of_step hcons hstep ha h)
  have hd := hs hgw
  have hstopped : s.node.canStarted = false := by rw [hd.node]; rfl
  have hpassed : ∀ frame rest, s.adc.pc ≠ .sending frame rest := by
    intro frame rest hpc
    have hnone := hd.passed
    rw [hpc] at hnone
    cases hnone
  cases Firmware.step_cases hstep with
  | start kind => exact absurd trivial ha
  | mainLooping ready hmain =>
      refine hd.move rfl rfl rfl rfl ?_ rfl rfl rfl
      split <;> rfl
  | recvCan d hdelivers hsrc => exact absurd hdelivers.2.2 hgw
  | recvCanEnd d hcallback => cases hd.callback.symm.trans hcallback
  | rx b p henabled hp => exact dormant_rx hd hgw henabled hp
  | evt b p henabled hp => exact dormant_evt hd hp henabled
  | adcQueued frame rest q hpc hput =>
      obtain ⟨hqueue, hdrops⟩ := dormant_queued hd (BoundedQueue.put_eq_some.1 hput).2 .adcTask
      exact ⟨hd.node, hd.callback, hd.task, hd.ctl, rfl, hd.bus, hd.wire, hqueue, hdrops⟩
  | adcChecked frame rest hpc hstarted =>
      rw [hstopped] at hstarted
      cases hstarted
  | adcSent frame rest hpc hdev => exact absurd hpc (hpassed frame rest)
  | adcRefused r frame rest hpc => exact absurd hpc (hpassed frame rest)
  | adcSampled v world hpc hloop =>
      exact hd.move rfl rfl rfl rfl (by simp only [passed_next]) rfl rfl rfl
  | adcSkipped frame rest hpc hflag =>
      exact hd.move rfl rfl rfl rfl (by simp only [passed_next]) rfl rfl rfl
  | adcReady | adcGivesUp | adcLost | adcWoken => exact hd.move rfl rfl rfl rfl rfl rfl rfl rfl
  | rings | driverOk | mainHooked | mainReturned | core | mngGiven | gwTaken | gwCreated
  | gwEnded => exact hd.move rfl rfl rfl rfl hd.passed rfl rfl rfl

theorem dormant_of_reaches
    (h : (firmwareMachine cfg).Reaches (.initial cfg region v0 world0) s)
    (hgw : s.gw ≠ .running) : s.Dormant cfg := by
  have hpres : (firmwareMachine cfg).Preserves fun s =>
      s.Consistent ∧ (s.gw ≠ .running → s.Dormant cfg) := by
    intro s a t hs hstep
    exact ⟨preserves_consistent hs.1 hstep, dormant_step hs.1 hs.2 hstep⟩
  exact (hpres.reaches ⟨consistent_boot cfg _ _ _, fun _ => dormant_boot cfg _ _ _⟩ h).2 hgw

/-- Without a restart a failed platform stays failed. -/
theorem failed_of_exec {as : List Action} (hfailed : s.platform.core = .failed)
    (has : ∀ a ∈ as, ¬ a.Restarts) (hexec : (firmwareMachine cfg).exec s as = some t) :
    t.platform.core = .failed := by
  induction as generalizing s with
  | nil =>
      cases hexec
      exact hfailed
  | cons a as ih =>
      obtain ⟨u, hstep, hrest⟩ := Machine.exec_cons_eq_some.1 hexec
      have hu : u.platform.core = .failed := by
        cases Firmware.step_cases hstep with
        | start kind => exact absurd trivial (has _ List.mem_cons_self)
        | rings da0 da1 p hp =>
            exact (linux_keeps_core (.inr ⟨da0, da1, rfl⟩) hp).trans hfailed
        | driverOk p hp => exact (linux_keeps_core (.inl rfl) hp).trans hfailed
        | core ok p hmain hp => simp [Platform.coreStep, hfailed] at hp
        | mainHooked | mainReturned | mainLooping | mngGiven | gwTaken | gwCreated | gwEnded
        | recvCan | recvCanEnd | rx | evt | adcReady | adcGivesUp | adcSampled | adcQueued
        | adcLost | adcChecked | adcSkipped | adcSent | adcRefused | adcWoken => exact hfailed
      exact ih hu (fun b hb => has b (List.mem_cons_of_mem a hb)) hrest

/-- **Without the endpoint the firmware only collects.**  As long as `can_gw_task` is not in its
loop, nothing is sent to Linux or on the bus, the queue holds the first 64 frames of the
two producers and the bus frames behind them are counted.  Once the platform has failed that
lasts until the core is restarted, and `adc_task`, if it got past its init, still samples as
many rounds as one likes. -/
theorem canGw_silent_without_endpoint
    (h : (firmwareMachine cfg).Reaches (.initial cfg region v0 world0) s) :
    (s.gw ≠ .running → s.Dormant cfg) ∧
      ∀ as t, s.platform.core = .failed → (∀ a ∈ as, ¬ a.Restarts) →
        (firmwareMachine cfg).exec s as = some t →
        t.Dormant cfg ∧ ∀ r n, t.adc.pc.loops = true → ∃ u, (adcMachine cfg r).Reaches t u ∧
          u.adc.rounds.length = t.adc.rounds.length + n := by
  refine ⟨dormant_of_reaches h, ?_⟩
  intro as t hfailed has hexec
  have ht := h.trans ⟨as, hexec⟩
  have hgw : t.gw ≠ .running := by
    intro hrunning
    have hsound := sound_of_reaches ht
    obtain ⟨da0, da1, hcore⟩ := hsound.platform (hsound.token (.inr (.inr (.inl hrunning))))
    rw [failed_of_exec hfailed has hexec] at hcore
    cases hcore
  refine ⟨dormant_of_reaches ht hgw, ?_⟩
  intro r n hloops
  obtain ⟨u, hreach, -, hlength⟩ := adc_samples_on cfg r n hloops
  exact ⟨u, hreach, hlength⟩

/-- The IPM device is not ready: one more round of the ADC joins the first in the queue. -/
theorem canGw_silent_without_endpoint_ipm :
    ∃ s u, (firmwareMachine configExample).exec
        (.initial configExample regionZero readingsBoot gwBoot)
        [.start .attach, .main true, .main true, .adcInit, .adcSample, .adcPut, .adcCheck,
          .core true, .core true, .core true, .core false] = some s ∧
      s.tx.canRxQ.items.length = 1 ∧ s.Dormant configExample ∧
      (adcMachine configExample (.fail eIo)).Reaches s u ∧ u.adc.rounds.length = 2 := by
  have hrun : ((firmwareMachine configExample).exec
      (.initial configExample regionZero readingsBoot gwBoot)
      [.start .attach, .main true, .main true, .adcInit, .adcSample, .adcPut, .adcCheck,
        .core true, .core true, .core true, .core false]).map (fun s =>
          (s.platform.core, s.tx.canRxQ.items.length, s.adc.pc.loops, s.adc.rounds.length)) =
      some (.failed, 1, true, 1) := by decide +kernel
  obtain ⟨s, hexec, hs⟩ := Option.map_eq_some_iff.1 hrun
  simp only [Prod.mk.injEq] at hs
  obtain ⟨hfailed, hlength, hloops, hrounds⟩ := hs
  obtain ⟨-, hsilent⟩ := canGw_silent_without_endpoint ⟨_, hexec⟩
  obtain ⟨hdormant, hsamples⟩ := hsilent [] s hfailed (by simp) rfl
  obtain ⟨u, hreach, hu⟩ := hsamples (.fail eIo) 1 hloops
  exact ⟨s, u, hexec, hlength, hdormant, hreach, by rw [hu, hrounds]⟩

end DataLogger.CanGwApp
