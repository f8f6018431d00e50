import DataLogger.CanGw.Vars
import DataLogger.Foundation.Components
import DataLogger.Foundation.SharedLog
import DataLogger.Keepalive.KaTask
import DataLogger.RpmsgPlatform.ReadySem
import DataLogger.RpmsgPlatform.ResourceTable

/-!
# The whole firmware

`main` of the main-app and everything it starts: the management thread with the platform it
brings up, the keepalive thread, the two threads of the CAN gateway, the callbacks that
run in the driver's and in the management thread's context, and Linux on the other side
of the resource table.  They share `peer_addr`, the clock and the rpmsg device, and
interleave freely.  A restart of the core clears its memory; the region of the resource
table stays.
-/

namespace DataLogger.MainApp

open DataLogger.Foundation
open DataLogger.Zephyr
open DataLogger.OpenAmp
open DataLogger.CanGw
open DataLogger.Keepalive
open DataLogger.RpmsgPlatform

/-! ## Threads and endpoints -/

/-- What waits for the platform and then owns an endpoint: `ka_task` and
`can_gw_tx_task`. -/
inductive Feature where
  | keepalive
  | canGw
  deriving DecidableEq, Repr

theorem mem_features (f : Feature) : f ∈ ({.keepalive, .canGw} : Finset Feature) := by
  cases f <;> decide

instance : Fintype Feature := ⟨{.keepalive, .canGw}, mem_features⟩

/-- The threads that call `rpmsg_trysendto`. -/
inductive Sender where
  | ka
  | tx
  | ctl
  deriving DecidableEq, Repr

/-- Whose endpoint a thread sends on. -/
def Sender.feature : Sender → Feature
  | .ka => .keepalive
  | .tx => .canGw
  | .ctl => .canGw

/-- The thread of a feature; `running` is behind a successful `rpmsg_create_ept`. -/
inductive FeatureThread where
  | absent
  | waiting
  | running
  | ended
  deriving DecidableEq, Repr

/-- The next call of `main`. -/
inductive MainPc where
  | rpmsgPlatformStart
  | keepaliveStart
  | canGwStart
  | returned
  deriving DecidableEq, Repr

/-! ## The state -/

/-- The locals of `ka_task` in its loop. -/
structure KaLoop where
  pc : KaPc
  next : Nat
  seq : BitVec 32
  testPaused : Int
  wakes : List Nat
  stamps : List Nat

/-- `callback` is the message that `rpmsg_recv_can_callback` is handling, behind its store to
`peer_addr`.  `wire` is what rpmsg has accepted, in order; `heard` the sources of the
messages that have come in on each endpoint. -/
structure System where
  platform : Platform
  startup : Startup Feature Unit
  main : MainPc
  thread : Feature → FeatureThread
  canReady : Bool
  node : Node
  callback : Option Delivery
  tx : TxVars
  ctl : CtlVars
  clock : Nat
  kaPeer : BitVec 32
  kaLoop : Option KaLoop
  wire : List (Sender × RpmsgMessage)
  heard : Feature → List (BitVec 32)

/-- The table linked into the image, the Kconfig values and the bitrate of the devicetree. -/
structure Config where
  linked : LinkedTable
  testPause : TestPause
  dtBitrate : BitVec 32

/-- The core's memory after a reset. -/
def System.boot (cfg : Config) (platform : Platform) : System where
  platform := platform
  startup := .initial
  main := .rpmsgPlatformStart
  thread _ := .absent
  canReady := false
  node := .atBoot cfg.dtBitrate
  callback := none
  tx := .atBoot
  ctl := .atBoot
  clock := 0
  kaPeer := noPeer
  kaLoop := none
  wire := []
  heard _ := []

/-- Power-on: the core is off, and the region of the resource table may hold anything. -/
def System.initial (cfg : Config) (region : RscTable) : System :=
  .boot cfg (.initial region)

/-! ## The parts -/

def KaLoop.path (clock : Nat) (peer : BitVec 32) (accepted : List RpmsgMessage) (v : KaLoop) : Ka :=
  ⟨clock, peer, v.pc, v.next, v.seq, v.testPaused, accepted, v.wakes, v.stamps⟩

def kaVars (k : Ka) : KaLoop :=
  ⟨k.pc, k.next, k.seq, k.testPaused, k.wakes, k.stamps⟩

namespace System

/-- What rpmsg has accepted from one thread. -/
def accepted (w : Sender) (s : System) : List RpmsgMessage := writtenBy w s.wire

/-- The way from the CAN callback to rpmsg. -/
def rxPath (s : System) : RxPath := s.tx.path s.node.peerAddr (s.accepted .tx)

def putRxPath (s : System) (p : RxPath) : System :=
  { s with tx := txVars p, wire := record .tx (s.accepted .tx) p.accepted s.wire }

/-- The way of a state change to rpmsg. -/
def evtPath (s : System) : EvtPath := s.ctl.path s.node.peerAddr (s.accepted .ctl)

def putEvtPath (s : System) (p : EvtPath) : System :=
  { s with ctl := ctlVars p, wire := record .ctl (s.accepted .ctl) p.accepted s.wire }

/-- `ka_task` in its loop. -/
def ka (s : System) (v : KaLoop) : Ka := v.path s.clock s.kaPeer (s.accepted .ka)

def putKa (s : System) (k : Ka) : System :=
  { s with kaLoop := some (kaVars k), wire := record .ka (s.accepted .ka) k.accepted s.wire }

end System

/-! ## The steps -/

/-- `start`: the core is restarted.  `writeRings`, `writeDriverOk`: Linux writes to the
resource table.  `main`: the next call of `main`; `canReady` is what `device_is_ready` says
there.  `core`, `mng`: the management thread up to its loop.  `wait`, `endpoint`: a feature in
`rpmsg_platform_wait` and behind it.  `recvKa`, `recvCan`, `recvCanEnd`: the management thread
delivers a message; the CAN callback takes two steps.  `rx` and `evt` are the
steps of the two paths of the gateway, `kaEnter` and `ka` those of the keepalive. -/
inductive Action where
  | start (kind : SessionKind)
  | writeRings (da0 da1 : BitVec 32)
  | writeDriverOk
  | main (canReady : Bool)
  | core (ok : Bool)
  | mng
  | wait (f : Feature)
  | endpoint (f : Feature) (ok : Bool)
  | pass (ms : Nat)
  | recvKa (src : BitVec 32)
  | recvCan (d : Delivery)
  | recvCanEnd
  | rx (a : RxAction)
  | evt (a : EvtAction)
  | kaEnter
  | ka (r : Reply)

/-- What `rpmsg_mng_task` gets back when the core moves on, if one of the functions it calls
has returned. -/
def returned (before after : CorePc) : Option (StartupAct Feature Unit) :=
  match before, after with
  | .metalInit, .failed => some (.platformInit false)
  | .ipmReady, .failed => some (.platformInit false)
  | .ipmReady, .createVdev => some (.platformInit true)
  | .createVdev, .failed => some (.createVdev none)
  | .initVring0, .failed => some (.createVdev none)
  | .initVring1 _, .failed => some (.createVdev none)
  | .initRpmsg _ _, .failed => some (.createVdev none)
  | .initRpmsg _ _, .running _ _ => some (.createVdev (some ()))
  | _, _ => none

namespace System

def coreStep (cfg : Config) (ok : Bool) (s : System) : Option System :=
  if s.main = .rpmsgPlatformStart then none
  else
    (s.platform.coreStep cfg.linked ok).bind fun platform =>
      match returned s.platform.core platform.core with
      | none => some { s with platform := platform }
      | some a => (s.startup.step a).map fun startup =>
          { s with platform := platform, startup := startup }

def mainStep (canReady : Bool) (s : System) : Option System :=
  if s.platform.core = .off then none
  else
    match s.main with
    | .rpmsgPlatformStart => some { s with main := .keepaliveStart }
    | .keepaliveStart =>
        some { s with main := .canGwStart,
                      thread := Function.update s.thread .keepalive .waiting }
    | .canGwStart =>
        -- with the device not ready there are no filter, no callbacks and no threads
        if canReady then
          some { s with main := .returned, canReady := true,
                        thread := Function.update s.thread .canGw .waiting }
        else some { s with main := .returned }
    | .returned => none

/-- Behind `rpmsg_platform_wait`: `rpmsg_create_ept`, if there is a device. -/
def createEpt (f : Feature) (ok : Bool) (s : System) : Option System :=
  if s.thread f = .waiting then
    match s.startup.caller f with
    | .returned (some ()) =>
        some { s with thread := Function.update s.thread f (if ok then .running else .ended) }
    | .returned none => some { s with thread := Function.update s.thread f .ended }
    | _ => none
  else none

/-- The management thread is in its loop, not inside a callback, and the endpoint is there. -/
def Delivers (s : System) (f : Feature) : Prop :=
  s.startup.mng = .polling ∧ s.callback = none ∧ s.thread f = .running

instance (s : System) (f : Feature) : Decidable (s.Delivers f) :=
  inferInstanceAs (Decidable (_ ∧ _))

def hear (f : Feature) (src : BitVec 32) (s : System) : System :=
  { s with heard := Function.update s.heard f (s.heard f ++ [src]) }

/-- Who takes a step of the receive path: the driver, once `can_gw_start` has set the filter,
or the thread, once its endpoint is there. -/
def rxEnabled (s : System) : RxAction → Bool
  | .canRxCb _ => s.canReady
  | .recv _ => false
  | .dequeue | .readPeer | .send _ | .count => s.thread .canGw = .running

/-- The control thread does not wait for the platform. -/
def evtEnabled (s : System) : EvtAction → Bool
  | .recv _ => false
  | .report _ | .give | .take | .timeout | .readState | .readPeer | .send _ => s.canReady

def step (cfg : Config) (s : System) : Action → Option System
  | .start kind => some (.boot cfg (s.platform.start cfg.linked kind))
  | .writeRings da0 da1 =>
      (s.platform.step cfg.linked (.writeRings da0 da1)).map fun p => { s with platform := p }
  | .writeDriverOk =>
      (s.platform.step cfg.linked .writeDriverOk).map fun p => { s with platform := p }
  | .main canReady => s.mainStep canReady
  | .core ok => s.coreStep cfg ok
  | .mng => (s.startup.step .mng).map fun startup => { s with startup := startup }
  | .wait f =>
      if s.thread f = .waiting then
        (s.startup.step (.wait f)).map fun startup => { s with startup := startup }
      else none
  | .endpoint f ok => s.createEpt f ok
  | .pass ms => some { s with clock := s.clock + ms }
  | .recvKa src =>
      if s.Delivers .keepalive ∧ src ≠ noPeer then
        some ({ s with kaPeer := src }.hear .keepalive src)
      else none
  | .recvCan d =>
      if s.Delivers .canGw ∧ d.src ≠ peerUnknown then
        some ({ s with node := { s.node with peerAddr := d.src },
                       callback := some d }.hear .canGw d.src)
      else none
  | .recvCanEnd =>
      s.callback.map fun d => { s with node := rpmsgRecvCanCallback s.node d, callback := none }
  | .rx a => if s.rxEnabled a then (s.rxPath.step a).map s.putRxPath else none
  | .evt a => if s.evtEnabled a then (s.evtPath.step a).map s.putEvtPath else none
  | .kaEnter =>
      if s.thread .keepalive = .running ∧ s.kaLoop = none then
        some { s with kaLoop := some (kaVars (Ka.enter s.clock s.kaPeer)) }
      else none
  | .ka r => s.kaLoop.bind fun v => ((s.ka v).run cfg.testPause r).map s.putKa

end System

def systemMachine (cfg : Config) : Machine System Action := ⟨System.step cfg⟩

/-! ## What a step can do -/

/-- Every way a step changes the state, with what it found there. -/
inductive System.Step (cfg : Config) (s : System) : Action → System → Prop where
  | start (kind : SessionKind) :
      Step cfg s (.start kind) (.boot cfg (s.platform.start cfg.linked kind))
  | rings (da0 da1 : BitVec 32) (p : Platform)
      (hp : s.platform.step cfg.linked (.writeRings da0 da1) = some p) :
      Step cfg s (.writeRings da0 da1) { s with platform := p }
  | driverOk (p : Platform) (hp : s.platform.step cfg.linked .writeDriverOk = some p) :
      Step cfg s .writeDriverOk { s with platform := p }
  | platformStarted (canReady : Bool) (hon : s.platform.core ≠ .off)
      (hmain : s.main = .rpmsgPlatformStart) :
      Step cfg s (.main canReady) { s with main := .keepaliveStart }
  | keepaliveStarted (canReady : Bool) (hmain : s.main = .keepaliveStart) :
      Step cfg s (.main canReady)
        { s with main := .canGwStart,
                 thread := Function.update s.thread .keepalive .waiting }
  | canGwStarted (hmain : s.main = .canGwStart) :
      Step cfg s (.main true)
        { s with main := .returned, canReady := true,
                 thread := Function.update s.thread .canGw .waiting }
  | canGwAbsent (hmain : s.main = .canGwStart) :
      Step cfg s (.main false) { s with main := .returned }
  | core (ok : Bool) (p : Platform) (hmain : s.main ≠ .rpmsgPlatformStart)
      (hp : s.platform.coreStep cfg.linked ok = some p)
      (hreturned : returned s.platform.core p.core = none) :
      Step cfg s (.core ok) { s with platform := p }
  | coreReturned (ok : Bool) (p : Platform) (b : StartupAct Feature Unit)
      (st : Startup Feature Unit) (hmain : s.main ≠ .rpmsgPlatformStart)
      (hp : s.platform.coreStep cfg.linked ok = some p)
      (hreturned : returned s.platform.core p.core = some b)
      (hst : s.startup.step b = some st) :
      Step cfg s (.core ok) { s with platform := p, startup := st }
  | mng (st : Startup Feature Unit) (hst : s.startup.step .mng = some st) :
      Step cfg s .mng { s with startup := st }
  | waited (f : Feature) (st : Startup Feature Unit) (hthread : s.thread f = .waiting)
      (hst : s.startup.step (.wait f) = some st) :
      Step cfg s (.wait f) { s with startup := st }
  | created (f : Feature) (hthread : s.thread f = .waiting)
      (hcaller : s.startup.caller f = .returned (some ())) :
      Step cfg s (.endpoint f true)
        { s with thread := Function.update s.thread f .running }
  | gaveUp (f : Feature) (ok : Bool) (hthread : s.thread f = .waiting) :
      Step cfg s (.endpoint f ok) { s with thread := Function.update s.thread f .ended }
  | passed (ms : Nat) : Step cfg s (.pass ms) { s with clock := s.clock + ms }
  | recvKa (src : BitVec 32) (hdelivers : s.Delivers .keepalive) (hsrc : src ≠ noPeer) :
      Step cfg s (.recvKa src) ({ s with kaPeer := src }.hear .keepalive src)
  | recvCan (d : Delivery) (hdelivers : s.Delivers .canGw) (hsrc : d.src ≠ peerUnknown) :
      Step cfg s (.recvCan d)
        ({ s with node := { s.node with peerAddr := d.src },
                  callback := some d }.hear .canGw d.src)
  | recvCanEnd (d : Delivery) (hd : s.callback = some d) :
      Step cfg s .recvCanEnd { s with node := rpmsgRecvCanCallback s.node d, callback := none }
  | rx (a : RxAction) (p : RxPath) (henabled : s.rxEnabled a = true)
      (hp : s.rxPath.step a = some p) : Step cfg s (.rx a) (s.putRxPath p)
  | evt (a : EvtAction) (p : EvtPath) (henabled : s.evtEnabled a = true)
      (hp : s.evtPath.step a = some p) : Step cfg s (.evt a) (s.putEvtPath p)
  | kaEnter (hthread : s.thread .keepalive = .running) (hloop : s.kaLoop = none) :
      Step cfg s .kaEnter { s with kaLoop := some (kaVars (Ka.enter s.clock s.kaPeer)) }
  | ka (r : Reply) (v : KaLoop) (k : Ka) (hv : s.kaLoop = some v)
      (hk : (s.ka v).run cfg.testPause r = some k) : Step cfg s (.ka r) (s.putKa k)

variable {cfg : Config} {s t : System} {a : Action}

theorem mainStep_cases {canReady : Bool} (hstep : s.mainStep canReady = some t) :
    s.Step cfg (.main canReady) t := by
  rw [System.mainStep] at hstep
  split at hstep
  · cases hstep
  · rename_i hon
    split at hstep
    · rename_i hmain
      cases hstep
      exact .platformStarted canReady hon hmain
    · rename_i hmain
      cases hstep
      exact .keepaliveStarted canReady hmain
    · rename_i hmain
      cases canReady with
      | true =>
          cases hstep
          exact .canGwStarted hmain
      | false =>
          cases hstep
          exact .canGwAbsent hmain
    · cases hstep

theorem coreStep_cases {ok : Bool} (hstep : s.coreStep cfg ok = some t) :
    s.Step cfg (.core ok) t := by
  rw [System.coreStep] at hstep
  split at hstep
  · cases hstep
  · rename_i hmain
    obtain ⟨p, hp, hnext⟩ := Option.bind_eq_some_iff.1 hstep
    split at hnext
    · rename_i hreturned
      cases hnext
      exact .core ok p hmain hp hreturned
    · rename_i b hreturned
      obtain ⟨st, hst, hnext⟩ := Option.map_eq_some_iff.1 hnext
      cases hnext
      exact .coreReturned ok p b st hmain hp hreturned hst

theorem createEpt_cases {f : Feature} {ok : Bool} (hstep : s.createEpt f ok = some t) :
    s.Step cfg (.endpoint f ok) t := by
  obtain ⟨hthread, hnext⟩ := Option.ite_none_right_eq_some.1 hstep
  split at hnext
  · rename_i hcaller
    cases ok with
    | true =>
        cases hnext
        exact .created f hthread hcaller
    | false =>
        cases hnext
        exact .gaveUp f false hthread
  · cases hnext
    exact .gaveUp f ok hthread
  · cases hnext

theorem System.step_cases (hstep : (systemMachine cfg).step s a = some t) : s.Step cfg a t := by
  change s.step cfg a = some t at hstep
  cases a with
  | start kind =>
      cases hstep
      exact .start kind
  | writeRings da0 da1 =>
      obtain ⟨p, hp, hnext⟩ := Option.map_eq_some_iff.1 hstep
      cases hnext
      exact .rings da0 da1 p hp
  | writeDriverOk =>
      obtain ⟨p, hp, hnext⟩ := Option.map_eq_some_iff.1 hstep
      cases hnext
      exact .driverOk p hp
  | main canReady => exact mainStep_cases hstep
  | core ok => exact coreStep_cases hstep
  | mng =>
      obtain ⟨st, hst, hnext⟩ := Option.map_eq_some_iff.1 hstep
      cases hnext
      exact .mng st hst
  | wait f =>
      obtain ⟨hthread, hnext⟩ := Option.ite_none_right_eq_some.1 hstep
      obtain ⟨st, hst, hnext⟩ := Option.map_eq_some_iff.1 hnext
      cases hnext
      exact .waited f st hthread hst
  | endpoint f ok => exact createEpt_cases hstep
  | pass ms =>
      cases hstep
      exact .passed ms
  | recvKa src =>
      obtain ⟨⟨hdelivers, hsrc⟩, hnext⟩ := Option.ite_none_right_eq_some.1 hstep
      cases hnext
      exact .recvKa src hdelivers hsrc
  | recvCan d =>
      obtain ⟨⟨hdelivers, hsrc⟩, hnext⟩ := Option.ite_none_right_eq_some.1 hstep
      cases hnext
      exact .recvCan d hdelivers hsrc
  | recvCanEnd =>
      obtain ⟨d, hd, hnext⟩ := Option.map_eq_some_iff.1 hstep
      cases hnext
      exact .recvCanEnd d hd
  | rx a =>
      obtain ⟨henabled, hnext⟩ := Option.ite_none_right_eq_some.1 hstep
      obtain ⟨p, hp, hnext⟩ := Option.map_eq_some_iff.1 hnext
      cases hnext
      exact .rx a p henabled hp
  | evt a =>
      obtain ⟨henabled, hnext⟩ := Option.ite_none_right_eq_some.1 hstep
      obtain ⟨p, hp, hnext⟩ := Option.map_eq_some_iff.1 hnext
      cases hnext
      exact .evt a p henabled hp
  | kaEnter =>
      obtain ⟨⟨hthread, hloop⟩, hnext⟩ := Option.ite_none_right_eq_some.1 hstep
      cases hnext
      exact .kaEnter hthread hloop
  | ka r =>
      obtain ⟨v, hv, hnext⟩ := Option.bind_eq_some_iff.1 hstep
      obtain ⟨k, hk, hnext⟩ := Option.map_eq_some_iff.1 hnext
      cases hnext
      exact .ka r v k hv hk

/-! ## A first session -/

def configExample : Config := ⟨linkedExample, ⟨0, 0⟩, 1000000#32⟩

/-- An ATTACH over an empty region, up to the two endpoints and the keepalive's loop. -/
def bringUp : List Action :=
  [.start .attach, .main true, .main true, .main true, .wait .keepalive, .wait .canGw,
    .core true, .core true, .core true, .core true, .core true,
    .writeRings 0xB8000000#32 0xB8008000#32, .writeDriverOk, .core true, .core true,
    .core true, .core true, .mng, .wait .keepalive, .mng, .wait .keepalive,
    .wait .keepalive, .wait .canGw, .wait .canGw, .wait .canGw, .endpoint .keepalive true,
    .endpoint .canGw true, .kaEnter]

def afterBringUp (as : List Action) : Option System :=
  (systemMachine configExample).exec (.initial configExample regionZero) (bringUp ++ as)

example : (afterBringUp []).map (fun s => (s.thread .keepalive, s.thread .canGw, s.startup.mng)) =
    some (.running, .running, .polling) := by decide +kernel

end DataLogger.MainApp
