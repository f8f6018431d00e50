import DataLogger.CanGw.Transmit
import DataLogger.CanGwApp.Firmware

/-!
# What passes through the can-gw firmware

The way of the frames runs in it as it does alone, although a second thread fills the queue.
From there: where each frame of the two producers ends up, and whose frames the controller
gets.
-/

namespace DataLogger.CanGwApp

open DataLogger.Foundation
open DataLogger.Zephyr
open DataLogger.OpenAmp
open DataLogger.CanGw
open DataLogger.Ads868x
open DataLogger.RpmsgPlatform

variable {cfg : Config} {region : RscTable} {s t : Firmware} {a : Action}
variable {v0 : Fin 8 → Reading} {world0 : Gw}

/-! ## Reading back what was put -/

theorem rxEnabled_not_recv {b : RxAction} (h : s.rxEnabled b = true) (src : BitVec 32) :
    b ≠ .recv src := by
  rintro rfl
  cases h

theorem rxPath_of_step {b : RxAction} {p : RxPath} (henabled : s.rxEnabled b = true)
    (hp : s.rxPath.step b = some p) : (s.putRxPath p).rxPath = p := by
  obtain ⟨hpeer, hgrows⟩ := rx_keeps hp (rxEnabled_not_recv henabled)
  have haccepted : (s.putRxPath p).accepted .gwTask = p.accepted := writtenBy_record rfl hgrows
  rw [Firmware.rxPath, haccepted,
    ← show p.peerAddr = (s.putRxPath p).node.peerAddr from hpeer]
  rfl

theorem rxPath_putEvtPath (p : EvtPath) : (s.putEvtPath p).rxPath = s.rxPath := by
  have haccepted : (s.putEvtPath p).accepted .gwTask = s.accepted .gwTask :=
    writtenBy_record_other (by decide) _ _ _
  rw [Firmware.rxPath, haccepted]
  rfl

/-! ## The way of the frames -/

def rxPart : Component Firmware RxPath RxAction where
  machine := rxMachine
  starts p := p = .atBoot
  view s := some s.rxPath

/-- The store to `peer_addr` of a callback under way is in place, and the threads that `main`
creates last are not there before it does. -/
structure Firmware.Consistent (s : Firmware) : Prop where
  callback : ∀ d, s.callback = some d → s.node.peerAddr = d.src
  threads : s.main ≠ .looping → s.adc.pc = .absent ∧ s.gw = .absent

theorem consistent_boot (cfg : Config) (p : Platform) (v : Fin 8 → Reading) (world : Gw) :
    (Firmware.boot cfg p v world).Consistent :=
  ⟨(fun _ h => nomatch h), fun _ => ⟨rfl, rfl⟩⟩

/-- A step of a thread that only runs behind `main`'s last step before its loop. -/
theorem Firmware.Consistent.of_looping (hs : s.Consistent)
    (hthread : s.adc.pc ≠ .absent ∨ s.gw ≠ .absent) (hmain : t.main = s.main)
    (hcallback : t.callback = s.callback) (hpeer : t.node.peerAddr = s.node.peerAddr) :
    t.Consistent := by
  constructor
  · intro d hd
    rw [hpeer]
    exact hs.callback d (hcallback ▸ hd)
  · intro hnot
    obtain ⟨hadc, hgw⟩ := hs.threads (hmain ▸ hnot)
    rcases hthread with h | h
    · exact absurd hadc h
    · exact absurd hgw h

theorem preserves_consistent : (firmwareMachine cfg).Preserves Firmware.Consistent := by
  intro s a t hs hstep
  cases Firmware.step_cases hstep with
  | start kind => exact consistent_boot cfg _ _ _
  | mainHooked hmain => exact ⟨hs.callback, fun _ => hs.threads (by simp [hmain])⟩
  | mainReturned hmain => exact ⟨hs.callback, fun _ => hs.threads (by simp [hmain])⟩
  | mainLooping ready hmain => exact ⟨hs.callback, fun h => absurd rfl h⟩
  | recvCan d hdelivers hsrc =>
      refine ⟨?_, hs.threads⟩
      intro d' hd'
      cases hd'
      rfl
  | recvCanEnd d hd => exact ⟨(fun _ h => nomatch h), hs.threads⟩
  | gwTaken ok sem hgw hsem => exact hs.of_looping (.inr (by simp [hgw])) rfl rfl rfl
  | gwCreated hgw => exact hs.of_looping (.inr (by simp [hgw])) rfl rfl rfl
  | gwEnded hgw => exact hs.of_looping (.inr (by simp [hgw])) rfl rfl rfl
  | adcReady hpc hspi hrc => exact hs.of_looping (.inl (by simp [hpc])) rfl rfl rfl
  | adcGivesUp world hpc => exact hs.of_looping (.inl (by simp [hpc])) rfl rfl rfl
  | adcSampled v world hpc hloop => exact hs.of_looping (.inl (by simp [hpc])) rfl rfl rfl
  | adcQueued frame rest q hpc hput => exact hs.of_looping (.inl (by simp [hpc])) rfl rfl rfl
  | adcLost frame rest hpc hfull => exact hs.of_looping (.inl (by simp [hpc])) rfl rfl rfl
  | adcChecked frame rest hpc hstarted => exact hs.of_looping (.inl (by simp [hpc])) rfl rfl rfl
  | adcSkipped frame rest hpc hstopped => exact hs.of_looping (.inl (by simp [hpc])) rfl rfl rfl
  | adcSent frame rest hpc hdev => exact hs.of_looping (.inl (by simp [hpc])) rfl rfl rfl
  | adcRefused r frame rest hpc => exact hs.of_looping (.inl (by simp [hpc])) rfl rfl rfl
  | adcWoken hpc => exact hs.of_looping (.inl (by simp [hpc])) rfl rfl rfl
  | rings | driverOk | core | mngGiven | rx | evt => exact ⟨hs.callback, hs.threads⟩

theorem canRxCb_of_put {p : RxPath} {frame : CanFrame} {q : BoundedQueue CanFrame 64}
    (hput : p.canRxQ.put frame = some q) :
    rxMachine.step p (.canRxCb frame) =
      some { p with received := p.received ++ [frame], canRxQ := q } := by
  change some (p.canRxCb frame) = _
  simp only [RxPath.canRxCb, hput]

theorem rxPart_follows (hs : s.Consistent) (hstep : (firmwareMachine cfg).step s a = some t) :
    rxPart.Follows s t := by
  cases Firmware.step_cases hstep with
  | start kind => exact .started _ rfl rfl
  | recvCan d hdelivers hsrc => exact .moved _ _ (.recv d.src) rfl rfl (if_neg hsrc)
  | recvCanEnd d hd =>
      apply Component.Follows.idle
      have hpeer : (rpmsgRecvCanCallback s.node d).peerAddr = s.node.peerAddr :=
        (peerAddr_callback s.node d).trans (hs.callback d hd).symm
      simp [rxPart, Firmware.rxPath, Firmware.putNode, Firmware.accepted, hpeer]
  | rx b p henabled hp =>
      exact .moved _ _ b rfl (congrArg some (rxPath_of_step henabled hp)) hp
  | evt b p henabled hp => exact .idle (congrArg some (rxPath_putEvtPath p))
  | adcQueued frame rest q hpc hput =>
      exact .moved _ _ (.canRxCb frame) rfl rfl (canRxCb_of_put (p := s.rxPath) hput)
  | rings | driverOk | mainHooked | mainReturned | mainLooping | core | mngGiven | gwTaken
  | gwCreated | gwEnded | adcReady | adcGivesUp | adcSampled | adcLost | adcChecked | adcSkipped
  | adcSent | adcRefused | adcWoken => exact .idle rfl

theorem rxPath_of_reaches
    (h : (firmwareMachine cfg).Reaches (.initial cfg region v0 world0) s) :
    rxMachine.Reaches .atBoot s.rxPath := by
  have hstart : rxPart.Reached (.initial cfg region v0 world0) :=
    .of_start (show _ = some RxPath.atBoot from rfl) rfl
  have hreached : rxPart.Reached s := rxPart.reached_of_reaches hstart (consistent_boot cfg _ _ _)
    preserves_consistent (fun _ _ _ => rxPart_follows) h
  obtain ⟨_, rfl, hreach⟩ := hreached _ rfl
  exact hreach

/-! ## The logs -/

/-- The two logs against the queue, the controller and the counters. -/
structure Firmware.Logged (s : Firmware) : Prop where
  puts : s.puts.map Prod.snd = s.tx.received
  bus : s.bus.map Prod.snd = s.node.sent
  linuxTx : s.node.statCanTx = BitVec.ofNat 32 (writtenBy .linux s.bus).length
  adcTx : s.adc.statAdcTx = BitVec.ofNat 32 (writtenBy .adcTask s.bus).length

theorem logged_boot (cfg : Config) (p : Platform) (v : Fin 8 → Reading) (world : Gw) :
    (Firmware.boot cfg p v world).Logged :=
  ⟨rfl, rfl, rfl, rfl⟩

theorem rx_received {p q : RxPath} {b : RxAction} (hstep : p.step b = some q) :
    q.received = p.received ++ arrivals [b] := by
  cases RxPath.step_cases hstep with
  | queued | dropped => rfl
  | recv | dequeued | discarded | addressed | accepted | refused | counted | countedDrop =>
      exact (List.append_nil _).symm

theorem logged_recvCanEnd {d : Delivery} (hs : s.Logged) :
    Firmware.Logged
      { s.putNode .linux (rpmsgRecvCanCallback s.node d) with callback := none } := by
  obtain ⟨hsent, htaken, -⟩ := transmits_callback s.node d
  have hgrows : s.node.sent <+: (rpmsgRecvCanCallback s.node d).sent := ⟨_, hsent.symm⟩
  refine ⟨hs.puts, map_snd_record hs.bus hgrows, ?_, ?_⟩
  · rw [Firmware.putNode, record, writtenBy_append, writtenBy_tagged, List.length_append,
      hsent, List.drop_left, htaken, hs.linuxTx, ← BitVec.ofNat_add]
  · rw [Firmware.putNode, writtenBy_record_other (by decide)]
    exact hs.adcTx

theorem preserves_logged : (firmwareMachine cfg).Preserves Firmware.Logged := by
  intro s a t hs hstep
  cases Firmware.step_cases hstep with
  | start kind => exact logged_boot cfg _ _ _
  | recvCanEnd d hd => exact logged_recvCanEnd hs
  | rx b p henabled hp =>
      refine ⟨?_, hs.bus, hs.linuxTx, hs.adcTx⟩
      have hreceived : p.received = s.tx.received ++ arrivals [b] := rx_received hp
      rw [List.map_append, hs.puts, List.map_map]
      exact (congrArg (s.tx.received ++ ·) (List.map_id _)).trans hreceived.symm
  | adcQueued frame rest q hpc hput =>
      refine ⟨?_, hs.bus, hs.linuxTx, hs.adcTx⟩
      rw [List.map_append, hs.puts]
      rfl
  | adcSent frame rest hpc hdev =>
      refine ⟨hs.puts, ?_, ?_, ?_⟩
      · rw [List.map_append, hs.bus]
        rfl
      · rw [writtenBy_append, hs.linuxTx]
        simp [writtenBy]
      · rw [writtenBy_append, hs.adcTx]
        simp [writtenBy, BitVec.ofNat_add]
  | rings | driverOk | mainHooked | mainReturned | mainLooping | core | mngGiven | gwTaken
  | gwCreated | gwEnded | recvCan | evt | adcReady | adcGivesUp | adcSampled | adcLost
  | adcChecked | adcSkipped | adcRefused | adcWoken =>
      exact ⟨hs.puts, hs.bus, hs.linuxTx, hs.adcTx⟩

/-! ## The frames of the ADC -/

/-- The frame that is put, or could not be put, and not yet sent or skipped. -/
def AdcPc.atHand : AdcPc → List CanFrame
  | checking frame _ => [frame]
  | sending frame _ => [frame]
  | absent | init | sampling | putting _ _ | sleeping | ended => []

/-- `built` are the frames of the sampled rounds that `adc_task` has tried to put. -/
structure Firmware.Built (cfg : Config) (s : Firmware) (built : List CanFrame) : Prop where
  rounds : built ++ s.adc.pc.unput = s.adc.rounds.flatMap (canFrames cfg.kart)
  puts : (writtenBy .adcTask s.puts).Sublist built
  lost : built.length = (writtenBy .adcTask s.puts).length + s.adc.lost
  bus : (writtenBy .adcTask s.bus ++ s.adc.pc.atHand).Sublist built

/-- A step that moves the thread on without a put. -/
theorem Firmware.Built.move {built : List CanFrame} (hs : s.Built cfg built)
    (hrounds : t.adc.rounds = s.adc.rounds) (hunput : t.adc.pc.unput = s.adc.pc.unput)
    (hputs : writtenBy .adcTask t.puts = writtenBy .adcTask s.puts)
    (hlost : t.adc.lost = s.adc.lost)
    (hbus : (writtenBy .adcTask t.bus ++ t.adc.pc.atHand).Sublist
      (writtenBy .adcTask s.bus ++ s.adc.pc.atHand)) : t.Built cfg built :=
  ⟨by rw [hunput, hrounds, hs.rounds], by rw [hputs]; exact hs.puts,
    by rw [hputs, hlost, hs.lost], hbus.trans hs.bus⟩

/-- A frame that the queue has taken, or not. -/
theorem Firmware.Built.put {built : List CanFrame} {frame : CanFrame} {rest : List CanFrame}
    (hs : s.Built cfg built) (hpc : s.adc.pc = .putting frame rest)
    (hnext : t.adc.pc = .checking frame rest) (hrounds : t.adc.rounds = s.adc.rounds)
    (hbus : t.bus = s.bus)
    (hputs : (writtenBy .adcTask t.puts).Sublist (built ++ [frame]))
    (hlost : (writtenBy .adcTask t.puts).length + t.adc.lost =
      (writtenBy .adcTask s.puts).length + s.adc.lost + 1) :
    t.Built cfg (built ++ [frame]) := by
  have hall := hs.rounds
  have hsent := hs.bus
  rw [hpc] at hall hsent
  refine ⟨?_, hputs, ?_, ?_⟩
  · rw [hnext, hrounds, ← hall]
    simp [AdcPc.unput]
  · rw [hlost, List.length_append, hs.lost]
    rfl
  · rw [hnext, hbus]
    rw [AdcPc.atHand, List.append_nil] at hsent
    exact hsent.append_right [frame]

/-- What the sampling loop leaves behind after some rounds. -/
def afterRounds (E : Bench) : Nat → (Fin 8 → Reading) → Gw → (Fin 8 → Reading) × Gw
  | 0, v, w => (v, w)
  | rounds + 1, v, w =>
      let (v, w) := sampleLoop E (List.finRange 8) v w
      afterRounds E rounds v w

/-- `adc_task` is in its sampling loop. -/
def AdcPc.loops : AdcPc → Bool
  | sampling | putting _ _ | checking _ _ | sending _ _ | sleeping => true
  | absent | init | ended => false

@[simp] theorem loops_next (rest : List CanFrame) : (AdcPc.next rest).loops = true := by
  cases rest <;> rfl

/-- The thread has sampled what the ADC and its stack make of it. -/
structure AdcVars.Sampled (cfg : Config) (a : AdcVars) : Prop where
  early : a.pc = .absent ∨ a.pc = .init → a.v = a.v0 ∧ a.world = a.world0
  idle : a.pc.loops = false → a.rounds = []
  ready : a.pc.loops = true → cfg.spiReady = true ∧ (initRetry cfg.bench 5 a.world0).1 = 0
  rounds : a.pc.loops = true → a.rounds =
    sampleRounds cfg.bench a.rounds.length a.v0 (initRetry cfg.bench 5 a.world0).2
  world : a.pc.loops = true → (a.v, a.world) =
    afterRounds cfg.bench a.rounds.length a.v0 (initRetry cfg.bench 5 a.world0).2

variable {b c : AdcVars}

/-- A move inside the loop. -/
theorem AdcVars.Sampled.move (hb : b.Sampled cfg) (hpc : b.pc.loops = true)
    (hnext : c.pc.loops = true) (hv : c.v = b.v) (hworld : c.world = b.world)
    (hv0 : c.v0 = b.v0) (hworld0 : c.world0 = b.world0) (hrounds : c.rounds = b.rounds) :
    c.Sampled cfg := by
  refine ⟨?_, ?_, ?_, ?_, ?_⟩
  · intro h
    rcases h with h | h <;> rw [h] at hnext <;> cases hnext
  · intro h
    rw [hnext] at h
    cases h
  · intro _
    rw [hworld0]
    exact hb.ready hpc
  · intro _
    rw [hworld0, hv0, hrounds]
    exact hb.rounds hpc
  · intro _
    rw [hworld0, hv0, hrounds, hv, hworld]
    exact hb.world hpc

theorem logged_of_reaches
    (h : (firmwareMachine cfg).Reaches (.initial cfg region v0 world0) s) : s.Logged :=
  preserves_logged.reaches (logged_boot cfg _ _ _) h

/-- What rpmsg has accepted from the queue, frame by frame and with its producer. -/
theorem forwarded_of_reaches
    (h : (firmwareMachine cfg).Reaches (.initial cfg region v0 world0) s) :
    ∃ log : List (Producer × CanFrame), log.Sublist s.puts ∧
      (s.accepted .gwTask).map RpmsgMessage.data =
        log.map fun e => (wireOfFrame e.2).toBytes := by
  obtain ⟨frames, hsub, hdata⟩ := ordered_of_reaches (rxPath_of_reaches h)
  have hframes : frames.Sublist (s.puts.map Prod.snd) := by
    rw [(logged_of_reaches h).puts]
    refine List.Sublist.trans ?_ hsub
    rw [List.append_assoc]
    exact List.sublist_append_left _ _
  obtain ⟨log, hlog, rfl⟩ := List.sublist_map_iff.1 hframes
  refine ⟨log, hlog, ?_⟩
  rw [List.map_map] at hdata
  exact hdata

/-- Big-endian counts, as the comments describe the two frames. -/
def packExample (c : Fin 4 → BitVec 16) : Vector Byte 8 :=
  Vector.ofFn fun i => if i.val % 2 = 0 then (c (Fin.ofNat 4 (i.val / 2))).extractLsb' 8 8
    else (c (Fin.ofNat 4 (i.val / 2))).extractLsb' 0 8

/-- A board on which word 12, the second of the first round, gets lost. -/
def configExample : Config :=
  ⟨linkedExample, 1000000#32, ⟨0x700#32, 0x701#32, packExample, packExample⟩, true, true,
    benchLost 12⟩

/-- Up to the two frames of the first round in the queue, and on to the endpoint. -/
def bringUp : List Action :=
  [.start .attach, .main true, .main true, .adcInit, .adcSample, .adcPut, .adcCheck, .adcPut,
    .adcCheck, .core true, .core true, .core true, .core true, .core true,
    .writeRings 0xB8000000#32 0xB8008000#32, .writeDriverOk, .core true, .core true,
    .core true, .core true, .mng, .gw true, .gw true]

def afterBringUp (as : List Action) : Option Firmware :=
  (firmwareMachine configExample).exec (.initial configExample regionZero readingsBoot gwBoot)
    (bringUp ++ as)

end DataLogger.CanGwApp
