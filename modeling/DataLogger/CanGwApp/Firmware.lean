import DataLogger.CanGw.Forwarding
import DataLogger.CanGw.Vars
import DataLogger.CanGwApp.AdcTask
import DataLogger.Foundation.Components
import DataLogger.Foundation.SharedLog
import DataLogger.RpmsgPlatform.ResourceTable

/-!
# The can-gw firmware

`main` of the can-gw app and its threads.  Two producers fill `can_rx_q`: the CAN callback and
`adc_task`, which counts no frame it cannot put.  Two threads send on the bus: the receive
callback, which asks the driver, and `adc_task`, which asks `can_started` first.
`can_gw_task` empties the queue and `main` itself reports state changes.  A restart of the
core clears its memory; the resource table and the ADC stay as they are.

`main` creates its three threads in one step.  What the management thread does between its own
creation and that of the other two is not modelled: its steps start when all three are there.
-/

namespace DataLogger.CanGwApp

open DataLogger.Foundation
open DataLogger.Zephyr
open DataLogger.OpenAmp
open DataLogger.CanGw
open DataLogger.Ads868x
open DataLogger.RpmsgPlatform

/-! ## The frames of a round -/

/-- What the generated `kart_can.h` provides: the two identifiers and the two pack functions,
applied to the raw counts. -/
structure KartCan where
  id700 : BitVec 32
  id701 : BitVec 32
  pack700 : (Fin 4 → BitVec 16) → Vector Byte 8
  pack701 : (Fin 4 → BitVec 16) → Vector Byte 8

/-- The frames that `adc_task` builds from one round. -/
def canFrames (kart : KartCan) (m : AdcFrames) : List CanFrame :=
  [⟨kart.id700, 8#8, 0#8, kart.pack700 fun k => (m.m700 k).value⟩,
    ⟨kart.id701, 8#8, 0#8, kart.pack701 fun k => (m.m701 k).value⟩]

/-! ## The threads -/

/-- `hooked` is behind the registration of the filter and the callback, `looping` behind the
creation of the threads. -/
inductive MainPc where
  | boot
  | hooked
  | looping
  | returned
  deriving DecidableEq, Repr

/-- `can_gw_task`; `running` is behind a successful `rpmsg_create_ept`. -/
inductive GwPc where
  | absent
  | waiting
  | creating
  | running
  | ended
  deriving DecidableEq, Repr

/-- `adc_task`; `rest` are the frames of the round behind the one at hand. -/
inductive AdcPc where
  | absent
  | init
  | sampling
  | putting (frame : CanFrame) (rest : List CanFrame)
  | checking (frame : CanFrame) (rest : List CanFrame)
  | sending (frame : CanFrame) (rest : List CanFrame)
  | sleeping
  | ended
  deriving DecidableEq

/-- The head of the loop over the frames of a round. -/
def AdcPc.next : List CanFrame → AdcPc
  | [] => sleeping
  | frame :: rest => putting frame rest

/-- The frames of the round that are not yet put. -/
def AdcPc.unput : AdcPc → List CanFrame
  | putting frame rest => frame :: rest
  | checking _ rest => rest
  | sending _ rest => rest
  | absent | init | sampling | sleeping | ended => []

/-- The variables of `adc_task` and the ADC.  `rounds` are the rounds sampled since the core has
started, with the ADC as in `world0` and the stack as in `v0`; `lost` counts the puts that
have failed. -/
structure AdcVars where
  pc : AdcPc
  v : Fin 8 → Reading
  world : Gw
  statAdcTx : BitVec 32
  v0 : Fin 8 → Reading
  world0 : Gw
  rounds : List AdcFrames
  lost : Nat

/-- Who puts frames into `can_rx_q`. -/
inductive Producer where
  | canRxCb
  | adcTask
  deriving DecidableEq, Repr

/-- Whose frames the controller takes. -/
inductive BusSender where
  | linux
  | adcTask
  deriving DecidableEq, Repr

/-- Who calls `rpmsg_trysendto`. -/
inductive Sender where
  | gwTask
  | main
  deriving DecidableEq, Repr

/-! ## The state -/

/-- `callback` is the message that `rpmsg_recv_can_callback` is handling, behind its store to
`peer_addr`.  `wire` is what rpmsg has accepted, `puts` what has been put into `can_rx_q` or
counted as dropped, `bus` what the controller has taken. -/
structure Firmware where
  platform : Platform
  main : MainPc
  rpdevReadySem : Semaphore 1
  polling : Bool
  gw : GwPc
  node : Node
  callback : Option Delivery
  tx : TxVars
  ctl : CtlVars
  adc : AdcVars
  wire : List (Sender × RpmsgMessage)
  puts : List (Producer × CanFrame)
  bus : List (BusSender × CanFrame)

/-- What the build, the board and the outside world fix; `adcNode` is the ADS8688 node in the
devicetree, `spiReady` what `spi_is_ready_dt` says. -/
structure Config where
  linked : LinkedTable
  dtBitrate : BitVec 32
  kart : KartCan
  adcNode : Bool
  spiReady : Bool
  bench : Bench

/-- The core's memory after a reset. -/
def Firmware.boot (cfg : Config) (platform : Platform) (v : Fin 8 → Reading) (world : Gw) :
    Firmware where
  platform := platform
  main := .boot
  rpdevReadySem := .empty 1
  polling := false
  gw := .absent
  node := .atBoot cfg.dtBitrate
  callback := none
  tx := .atBoot
  ctl := .atBoot
  adc := ⟨.absent, v, world, 0#32, v, world, [], 0⟩
  wire := []
  puts := []
  bus := []

/-- Power-on: the region of the resource table, the stack and the ADC may hold anything. -/
def Firmware.initial (cfg : Config) (region : RscTable) (v : Fin 8 → Reading) (world : Gw) :
    Firmware :=
  .boot cfg (.initial region) v world

namespace Firmware

def accepted (w : Sender) (s : Firmware) : List RpmsgMessage := writtenBy w s.wire

/-- The way from `can_rx_q` to rpmsg. -/
def rxPath (s : Firmware) : RxPath := s.tx.path s.node.peerAddr (s.accepted .gwTask)

def putRxPath (s : Firmware) (p : RxPath) : Firmware :=
  { s with tx := txVars p, wire := record .gwTask (s.accepted .gwTask) p.accepted s.wire }

/-- The way of a state change to rpmsg. -/
def evtPath (s : Firmware) : EvtPath := s.ctl.path s.node.peerAddr (s.accepted .main)

def putEvtPath (s : Firmware) (p : EvtPath) : Firmware :=
  { s with ctl := ctlVars p, wire := record .main (s.accepted .main) p.accepted s.wire }

/-- A new node, with the frames it has sent noted for `w`. -/
def putNode (s : Firmware) (w : BusSender) (n : Node) : Firmware :=
  { s with node := n, bus := record w s.node.sent n.sent s.bus }

end Firmware

/-! ## The steps -/

/-- `start`: the core is restarted.  `writeRings`, `writeDriverOk`: Linux writes to the
resource table.  `main`: `main` up to its loop; `ready` is what `device_is_ready` says.
`core`, `mng`: the management thread up to its loop.  `gw`: `can_gw_task` up to its loop.
`recvCan`, `recvCanEnd`: the management thread delivers a message; the callback takes two
steps.  `rx` are the steps of `can_rx_cb` and of `can_gw_task` in its loop, `evt` those of the
state callback and of `main` in its loop.  The others are those of `adc_task`. -/
inductive Action where
  | start (kind : SessionKind)
  | writeRings (da0 da1 : BitVec 32)
  | writeDriverOk
  | main (ready : Bool)
  | core (ok : Bool)
  | mng
  | gw (ok : Bool)
  | recvCan (d : Delivery)
  | recvCanEnd
  | rx (a : RxAction)
  | evt (a : EvtAction)
  | adcInit
  | adcSample
  | adcPut
  | adcCheck
  | adcSend (r : Reply)
  | adcWake

namespace Firmware

def mainStep (cfg : Config) (ready : Bool) (s : Firmware) : Option Firmware :=
  if s.platform.core = .off then none
  else
    match s.main with
    | .boot => some { s with main := if ready then .hooked else .returned }
    | .hooked =>
        some { s with
          main := .looping
          gw := .waiting
          adc := { s.adc with pc := if cfg.adcNode then .init else .absent } }
    | .looping | .returned => none

/-- `rpmsg_mng_task` behind `platform_create_rpmsg_vdev`.  When that or `platform_init` has failed
it returns without a give. -/
def mngStep (s : Firmware) : Option Firmware :=
  match s.platform.core, s.polling with
  | .running _ _, false =>
      some { s with rpdevReadySem := s.rpdevReadySem.give, polling := true }
  | _, _ => none

def gwStep (ok : Bool) (s : Firmware) : Option Firmware :=
  match s.gw with
  | .waiting =>
      s.rpdevReadySem.take.map fun sem => { s with rpdevReadySem := sem, gw := .creating }
  | .creating => some { s with gw := if ok then .running else .ended }
  | .absent | .running | .ended => none

/-- The management thread is in its loop, not inside a callback, and the endpoint is there. -/
def Delivers (s : Firmware) : Prop :=
  s.polling = true ∧ s.callback = none ∧ s.gw = .running

instance (s : Firmware) : Decidable s.Delivers :=
  inferInstanceAs (Decidable (_ ∧ _))

/-- The filter and the state callback are registered. -/
def hooked (s : Firmware) : Bool := s.main = .hooked ∨ s.main = .looping

def rxEnabled (s : Firmware) : RxAction → Bool
  | .canRxCb _ => s.hooked
  | .recv _ => false
  | .dequeue | .readPeer | .send _ | .count => s.gw = .running

def evtEnabled (s : Firmware) : EvtAction → Bool
  | .recv _ => false
  | .report _ | .give => s.hooked
  | .take | .timeout | .readState | .readPeer | .send _ => s.main = .looping

/-- A call of `can_rx_cb` is noted among the puts. -/
def rxStep (a : RxAction) (s : Firmware) : Option Firmware :=
  if s.rxEnabled a then
    (s.rxPath.step a).map fun p =>
      { s.putRxPath p with puts := s.puts ++ (arrivals [a]).map fun frame => (.canRxCb, frame) }
  else none

def adcInitStep (cfg : Config) (s : Firmware) : Option Firmware :=
  match s.adc.pc with
  | .init =>
      if cfg.spiReady then
        let (rc, world) := initRetry cfg.bench 5 s.adc.world
        some { s with
          adc := { s.adc with world := world, pc := if rc ≠ 0 then .ended else .sampling } }
      else some { s with adc := { s.adc with pc := .ended } }
  | _ => none

/-- One round over the eight channels. -/
def adcSampleStep (cfg : Config) (s : Firmware) : Option Firmware :=
  match s.adc.pc with
  | .sampling =>
      let (v, world) := sampleLoop cfg.bench (List.finRange 8) s.adc.v s.adc.world
      some { s with
        adc := { s.adc with
          v := v
          world := world
          rounds := s.adc.rounds ++ [packRound v]
          pc := .next (canFrames cfg.kart (packRound v)) } }
  | _ => none

/-- `k_msgq_put(&can_rx_q, &frame, K_NO_WAIT)`; its return code is not looked at. -/
def adcPutStep (s : Firmware) : Option Firmware :=
  match s.adc.pc with
  | .putting frame rest =>
      match s.tx.canRxQ.put frame with
      | some q =>
          some { s with
            tx := { s.tx with canRxQ := q, received := s.tx.received ++ [frame] }
            puts := s.puts ++ [(.adcTask, frame)]
            adc := { s.adc with pc := .checking frame rest } }
      | none =>
          some { s with adc := { s.adc with lost := s.adc.lost + 1, pc := .checking frame rest } }
  | _ => none

/-- `if (can_started && ...`. -/
def adcCheckStep (s : Firmware) : Option Firmware :=
  match s.adc.pc with
  | .checking frame rest =>
      some { s with
        adc := { s.adc with pc := if s.node.canStarted then .sending frame rest else .next rest } }
  | _ => none

/-- `can_send` with 5 ms to wait for a mailbox. -/
def adcSendStep (r : Reply) (s : Firmware) : Option Firmware :=
  match s.adc.pc with
  | .sending frame rest =>
      let (ret, n) := s.node.canSend r frame
      let adc := { s.adc with pc := .next rest }
      let adc := if ret = 0 then { adc with statAdcTx := adc.statAdcTx + 1 } else adc
      some { s.putNode .adcTask n with adc := adc }
  | _ => none

def adcWakeStep (s : Firmware) : Option Firmware :=
  match s.adc.pc with
  | .sleeping => some { s with adc := { s.adc with pc := .sampling } }
  | _ => none

def step (cfg : Config) (s : Firmware) : Action → Option Firmware
  | .start kind => some (.boot cfg (s.platform.start cfg.linked kind) s.adc.v s.adc.world)
  | .writeRings da0 da1 =>
      (s.platform.step cfg.linked (.writeRings da0 da1)).map fun p => { s with platform := p }
  | .writeDriverOk =>
      (s.platform.step cfg.linked .writeDriverOk).map fun p => { s with platform := p }
  | .main ready => s.mainStep cfg ready
  | .core ok =>
      if s.main = .looping then
        (s.platform.coreStep cfg.linked ok).map fun p => { s with platform := p }
      else none
  | .mng => s.mngStep
  | .gw ok => s.gwStep ok
  | .recvCan d =>
      if s.Delivers ∧ d.src ≠ peerUnknown then
        some { s with node := { s.node with peerAddr := d.src }, callback := some d }
      else none
  | .recvCanEnd =>
      s.callback.map fun d =>
        { s.putNode .linux (rpmsgRecvCanCallback s.node d) with callback := none }
  | .rx a => s.rxStep a
  | .evt a => if s.evtEnabled a then (s.evtPath.step a).map s.putEvtPath else none
  | .adcInit => s.adcInitStep cfg
  | .adcSample => s.adcSampleStep cfg
  | .adcPut => s.adcPutStep
  | .adcCheck => s.adcCheckStep
  | .adcSend r => s.adcSendStep r
  | .adcWake => s.adcWakeStep

end Firmware

def firmwareMachine (cfg : Config) : Machine Firmware Action := ⟨Firmware.step cfg⟩

/-! ## What a step can do -/

/-- Every way a step changes the state, with what it found there. -/
inductive Firmware.Step (cfg : Config) (s : Firmware) : Action → Firmware → Prop where
  | start (kind : SessionKind) :
      Step cfg s (.start kind)
        (.boot cfg (s.platform.start cfg.linked kind) s.adc.v s.adc.world)
  | rings (da0 da1 : BitVec 32) (p : Platform)
      (hp : s.platform.step cfg.linked (.writeRings da0 da1) = some p) :
      Step cfg s (.writeRings da0 da1) { s with platform := p }
  | driverOk (p : Platform) (hp : s.platform.step cfg.linked .writeDriverOk = some p) :
      Step cfg s .writeDriverOk { s with platform := p }
  | mainHooked (hmain : s.main = .boot) : Step cfg s (.main true) { s with main := .hooked }
  | mainReturned (hmain : s.main = .boot) :
      Step cfg s (.main false) { s with main := .returned }
  | mainLooping (ready : Bool) (hmain : s.main = .hooked) :
      Step cfg s (.main ready)
        { s with
          main := .looping
          gw := .waiting
          adc := { s.adc with pc := if cfg.adcNode then .init else .absent } }
  | core (ok : Bool) (p : Platform) (hmain : s.main = .looping)
      (hp : s.platform.coreStep cfg.linked ok = some p) :
      Step cfg s (.core ok) { s with platform := p }
  | mngGiven (da0 da1 : BitVec 32) (hcore : s.platform.core = .running da0 da1)
      (hpolling : s.polling = false) :
      Step cfg s .mng { s with rpdevReadySem := s.rpdevReadySem.give, polling := true }
  | gwTaken (ok : Bool) (sem : Semaphore 1) (hgw : s.gw = .waiting)
      (hsem : s.rpdevReadySem.count = sem.count + 1) :
      Step cfg s (.gw ok) { s with rpdevReadySem := sem, gw := .creating }
  | gwCreated (hgw : s.gw = .creating) : Step cfg s (.gw true) { s with gw := .running }
  | gwEnded (hgw : s.gw = .creating) : Step cfg s (.gw false) { s with gw := .ended }
  | recvCan (d : Delivery) (hdelivers : s.Delivers) (hsrc : d.src ≠ peerUnknown) :
      Step cfg s (.recvCan d)
        { s with node := { s.node with peerAddr := d.src }, callback := some d }
  | recvCanEnd (d : Delivery) (hd : s.callback = some d) :
      Step cfg s .recvCanEnd
        { s.putNode .linux (rpmsgRecvCanCallback s.node d) with callback := none }
  | rx (a : RxAction) (p : RxPath) (henabled : s.rxEnabled a = true)
      (hp : s.rxPath.step a = some p) :
      Step cfg s (.rx a)
        { s.putRxPath p with puts := s.puts ++ (arrivals [a]).map fun frame => (.canRxCb, frame) }
  | evt (a : EvtAction) (p : EvtPath) (henabled : s.evtEnabled a = true)
      (hp : s.evtPath.step a = some p) : Step cfg s (.evt a) (s.putEvtPath p)
  | adcReady (hpc : s.adc.pc = .init) (hspi : cfg.spiReady = true)
      (hrc : (initRetry cfg.bench 5 s.adc.world).1 = 0) :
      Step cfg s .adcInit
        { s with
          adc := { s.adc with
            world := (initRetry cfg.bench 5 s.adc.world).2, pc := .sampling } }
  | adcGivesUp (world : Gw) (hpc : s.adc.pc = .init) :
      Step cfg s .adcInit { s with adc := { s.adc with world := world, pc := .ended } }
  | adcSampled (v : Fin 8 → Reading) (world : Gw) (hpc : s.adc.pc = .sampling)
      (hloop : sampleLoop cfg.bench (List.finRange 8) s.adc.v s.adc.world = (v, world)) :
      Step cfg s .adcSample
        { s with
          adc := { s.adc with
            v := v
            world := world
            rounds := s.adc.rounds ++ [packRound v]
            pc := .next (canFrames cfg.kart (packRound v)) } }
  | adcQueued (frame : CanFrame) (rest : List CanFrame) (q : BoundedQueue CanFrame 64)
      (hpc : s.adc.pc = .putting frame rest) (hput : s.tx.canRxQ.put frame = some q) :
      Step cfg s .adcPut
        { s with
          tx := { s.tx with canRxQ := q, received := s.tx.received ++ [frame] }
          puts := s.puts ++ [(.adcTask, frame)]
          adc := { s.adc with pc := .checking frame rest } }
  | adcLost (frame : CanFrame) (rest : List CanFrame) (hpc : s.adc.pc = .putting frame rest)
      (hfull : 64 ≤ s.tx.canRxQ.items.length) :
      Step cfg s .adcPut
        { s with adc := { s.adc with lost := s.adc.lost + 1, pc := .checking frame rest } }
  | adcChecked (frame : CanFrame) (rest : List CanFrame) (hpc : s.adc.pc = .checking frame rest)
      (hstarted : s.node.canStarted = true) :
      Step cfg s .adcCheck { s with adc := { s.adc with pc := .sending frame rest } }
  | adcSkipped (frame : CanFrame) (rest : List CanFrame) (hpc : s.adc.pc = .checking frame rest)
      (hstopped : s.node.canStarted = false) :
      Step cfg s .adcCheck { s with adc := { s.adc with pc := .next rest } }
  | adcSent (frame : CanFrame) (rest : List CanFrame) (hpc : s.adc.pc = .sending frame rest)
      (hdev : s.node.dev.started = true) :
      Step cfg s (.adcSend .ok)
        { s with
          node := { s.node with sent := s.node.sent ++ [frame] }
          bus := s.bus ++ [(.adcTask, frame)]
          adc := { s.adc with pc := .next rest, statAdcTx := s.adc.statAdcTx + 1 } }
  | adcRefused (r : Reply) (frame : CanFrame) (rest : List CanFrame)
      (hpc : s.adc.pc = .sending frame rest) :
      Step cfg s (.adcSend r) { s with adc := { s.adc with pc := .next rest } }
  | adcWoken (hpc : s.adc.pc = .sleeping) :
      Step cfg s .adcWake { s with adc := { s.adc with pc := .sampling } }

variable {cfg : Config} {s t : Firmware} {a : Action}

theorem mainStep_cases {ready : Bool} (hstep : s.mainStep cfg ready = some t) :
    s.Step cfg (.main ready) t := by
  rw [Firmware.mainStep] at hstep
  split at hstep
  · cases hstep
  · split at hstep
    · rename_i hmain
      cases ready with
      | true =>
          cases hstep
          exact .mainHooked hmain
      | false =>
          cases hstep
          exact .mainReturned hmain
    · rename_i hmain
      cases hstep
      exact .mainLooping ready hmain
    · cases hstep
    · cases hstep

theorem mngStep_cases (hstep : s.mngStep = some t) : s.Step cfg .mng t := by
  rw [Firmware.mngStep] at hstep
  split at hstep
  · rename_i da0 da1 hcore hpolling
    cases hstep
    exact .mngGiven da0 da1 hcore hpolling
  · cases hstep

theorem gwStep_cases {ok : Bool} (hstep : s.gwStep ok = some t) : s.Step cfg (.gw ok) t := by
  rw [Firmware.gwStep] at hstep
  split at hstep
  · rename_i hgw
    obtain ⟨sem, hsem, hnext⟩ := Option.map_eq_some_iff.1 hstep
    cases hnext
    exact .gwTaken ok sem hgw (Semaphore.take_eq_some.1 hsem)
  · rename_i hgw
    cases ok with
    | true =>
        cases hstep
        exact .gwCreated hgw
    | false =>
        cases hstep
        exact .gwEnded hgw
  · cases hstep
  · cases hstep
  · cases hstep

theorem adcInitStep_cases (hstep : s.adcInitStep cfg = some t) : s.Step cfg .adcInit t := by
  rw [Firmware.adcInitStep] at hstep
  split at hstep
  · rename_i hpc
    split at hstep
    · rename_i hspi
      by_cases hrc : (initRetry cfg.bench 5 s.adc.world).1 = 0
      · simp only [hrc, ne_eq, not_true_eq_false, if_false] at hstep
        cases hstep
        exact .adcReady hpc hspi hrc
      · simp only [hrc, ne_eq, not_false_eq_true, if_true] at hstep
        cases hstep
        exact .adcGivesUp _ hpc
    · cases hstep
      exact .adcGivesUp s.adc.world hpc
  · cases hstep

theorem adcPutStep_cases (hstep : s.adcPutStep = some t) : s.Step cfg .adcPut t := by
  rw [Firmware.adcPutStep] at hstep
  split at hstep
  · rename_i frame rest hpc
    split at hstep
    · rename_i q hput
      cases hstep
      exact .adcQueued frame rest q hpc hput
    · rename_i hput
      cases hstep
      exact .adcLost frame rest hpc (BoundedQueue.put_eq_none.1 hput)
  · cases hstep

theorem adcCheckStep_cases (hstep : s.adcCheckStep = some t) : s.Step cfg .adcCheck t := by
  rw [Firmware.adcCheckStep] at hstep
  split at hstep
  · rename_i frame rest hpc
    cases hflag : s.node.canStarted with
    | true =>
        rw [hflag, if_pos rfl] at hstep
        cases hstep
        exact .adcChecked frame rest hpc hflag
    | false =>
        rw [hflag, if_neg (by decide)] at hstep
        cases hstep
        exact .adcSkipped frame rest hpc hflag
  · cases hstep

/-- A frame that the driver has not taken leaves the node as it was. -/
theorem canSend_refused {n : Node} {r : Reply} {frame : CanFrame}
    (hret : (n.canSend r frame).1 ≠ 0) : (n.canSend r frame).2 = n := by
  rw [ne_eq, canSend_fst_eq_zero] at hret
  rw [Node.canSend, driverCall_snd, if_neg hret]

theorem adcSendStep_cases {r : Reply} (hstep : s.adcSendStep r = some t) :
    s.Step cfg (.adcSend r) t := by
  rw [Firmware.adcSendStep] at hstep
  split at hstep
  · rename_i frame rest hpc
    by_cases hret : (s.node.canSend r frame).1 = 0
    · obtain ⟨hdev, rfl⟩ := canSend_fst_eq_zero.1 hret
      simp only [canSend_taken frame hdev, if_true] at hstep
      cases hstep
      have h : s.Step cfg (.adcSend .ok) _ := .adcSent frame rest hpc hdev
      simpa only [Firmware.putNode, record_concat] using h
    · simp only [hret, if_false, canSend_refused hret] at hstep
      cases hstep
      have h : s.Step cfg (.adcSend r) _ := .adcRefused r frame rest hpc
      simpa only [Firmware.putNode, record_self] using h
  · cases hstep

theorem Firmware.step_cases (hstep : (firmwareMachine cfg).step s a = some t) :
    s.Step cfg a t := by
  change s.step cfg a = some t at hstep
  cases a with
  | start kind =>
      cases hstep
      exact .start kind
  | writeRings da0 da1 =>
      obtain ⟨p, hp, hnext⟩ := Option.map_eq_some_iff.1 hstep
      cases hnext
      exact .rings da0 da1 p hp
  | writeDriverOk =>
      obtain ⟨p, hp, hnext⟩ := Option.map_eq_some_iff.1 hstep
      cases hnext
      exact .driverOk p hp
  | main ready => exact mainStep_cases hstep
  | core ok =>
      obtain ⟨hmain, hnext⟩ := Option.ite_none_right_eq_some.1 hstep
      obtain ⟨p, hp, hnext⟩ := Option.map_eq_some_iff.1 hnext
      cases hnext
      exact .core ok p hmain hp
  | mng => exact mngStep_cases hstep
  | gw ok => exact gwStep_cases hstep
  | recvCan d =>
      obtain ⟨⟨hdelivers, hsrc⟩, hnext⟩ := Option.ite_none_right_eq_some.1 hstep
      cases hnext
      exact .recvCan d hdelivers hsrc
  | recvCanEnd =>
      obtain ⟨d, hd, hnext⟩ := Option.map_eq_some_iff.1 hstep
      cases hnext
      exact .recvCanEnd d hd
  | rx a =>
      obtain ⟨henabled, hnext⟩ := Option.ite_none_right_eq_some.1 hstep
      obtain ⟨p, hp, hnext⟩ := Option.map_eq_some_iff.1 hnext
      cases hnext
      exact .rx a p henabled hp
  | evt a =>
      obtain ⟨henabled, hnext⟩ := Option.ite_none_right_eq_some.1 hstep
      obtain ⟨p, hp, hnext⟩ := Option.map_eq_some_iff.1 hnext
      cases hnext
      exact .evt a p henabled hp
  | adcInit => exact adcInitStep_cases hstep
  | adcSample =>
      change s.adcSampleStep cfg = some t at hstep
      rw [Firmware.adcSampleStep] at hstep
      split at hstep
      · rename_i hpc
        cases hstep
        exact .adcSampled _ _ hpc rfl
      · cases hstep
  | adcPut => exact adcPutStep_cases hstep
  | adcCheck => exact adcCheckStep_cases hstep
  | adcSend r => exact adcSendStep_cases hstep
  | adcWake =>
      change s.adcWakeStep = some t at hstep
      rw [Firmware.adcWakeStep] at hstep
      split at hstep
      · rename_i hpc
        cases hstep
        exact .adcWoken hpc
      · cases hstep

end DataLogger.CanGwApp
