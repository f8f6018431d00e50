import DataLogger.MainApp.System

/-!
# The parts of the firmware run as they do alone

Each of the machines the paths were verified with is a part of the whole firmware: its steps
are steps of the whole, and what else happens leaves it alone.  What holds in every
reachable state of a part therefore holds of it in every interleaving.
-/

namespace DataLogger.MainApp

open DataLogger.Foundation
open DataLogger.Zephyr
open DataLogger.OpenAmp
open DataLogger.CanGw
open DataLogger.Keepalive
open DataLogger.RpmsgPlatform

/-! ## What the steps of the parts leave alone -/

theorem ka_keeps {cfg : TestPause} {r : Reply} {k l : Ka} (hrun : k.run cfg r = some l) :
    l.clock = k.clock ∧ l.peer = k.peer ∧ k.accepted <+: l.accepted := by
  rw [Ka.run] at hrun
  cases hpc : k.pc with
  | sleeping =>
      simp only [hpc] at hrun
      obtain ⟨-, hnext⟩ := Option.ite_none_right_eq_some.1 hrun
      cases hnext
      exact ⟨rfl, rfl, List.prefix_rfl⟩
  | awake =>
      rw [hpc] at hrun
      cases hrun
      rw [Ka.check]
      split
      · exact ⟨rfl, rfl, List.prefix_rfl⟩
      · split <;> exact ⟨rfl, rfl, List.prefix_rfl⟩
  | stamping peer =>
      rw [hpc] at hrun
      cases hrun
      exact ⟨rfl, rfl, List.prefix_rfl⟩
  | sending peer uptime =>
      rw [hpc] at hrun
      cases hrun
      cases r with
      | ok => exact ⟨rfl, rfl, List.prefix_append _ _⟩
      | fail e =>
          rw [send_fail]
          exact ⟨rfl, rfl, List.prefix_rfl⟩

theorem rxEnabled_not_recv {s : System} {a : RxAction} (h : s.rxEnabled a = true)
    (src : BitVec 32) : a ≠ .recv src := by
  rintro rfl
  cases h

theorem evtEnabled_not_recv {s : System} {a : EvtAction} (h : s.evtEnabled a = true)
    (src : BitVec 32) : a ≠ .recv src := by
  rintro rfl
  cases h

/-! ## Reading back what was put -/

variable {cfg : Config} {region : RscTable} {s t : System} {a : Action}

section Put

variable {p : RxPath} {q : EvtPath} {k : Ka}

@[simp] theorem accepted_putRxPath_other {w : Sender} (hw : w ≠ .tx) :
    (s.putRxPath p).accepted w = s.accepted w :=
  writtenBy_record_other hw.symm _ _ _

@[simp] theorem accepted_putEvtPath_other {w : Sender} (hw : w ≠ .ctl) :
    (s.putEvtPath q).accepted w = s.accepted w :=
  writtenBy_record_other hw.symm _ _ _

@[simp] theorem accepted_putKa_other {w : Sender} (hw : w ≠ .ka) :
    (s.putKa k).accepted w = s.accepted w :=
  writtenBy_record_other hw.symm _ _ _

theorem rxPath_putRxPath (hpeer : p.peerAddr = s.node.peerAddr)
    (hgrows : s.accepted .tx <+: p.accepted) : (s.putRxPath p).rxPath = p := by
  have haccepted : (s.putRxPath p).accepted .tx = p.accepted := writtenBy_record rfl hgrows
  rw [System.rxPath, haccepted, ← show p.peerAddr = (s.putRxPath p).node.peerAddr from hpeer]
  rfl

theorem evtPath_putEvtPath (hpeer : q.peerAddr = s.node.peerAddr)
    (hgrows : s.accepted .ctl <+: q.accepted) : (s.putEvtPath q).evtPath = q := by
  have haccepted : (s.putEvtPath q).accepted .ctl = q.accepted := writtenBy_record rfl hgrows
  rw [System.evtPath, haccepted, ← show q.peerAddr = (s.putEvtPath q).node.peerAddr from hpeer]
  rfl

theorem ka_putKa (hclock : k.clock = s.clock) (hpeer : k.peer = s.kaPeer)
    (hgrows : s.accepted .ka <+: k.accepted) : (s.putKa k).ka (kaVars k) = k := by
  have haccepted : (s.putKa k).accepted .ka = k.accepted := writtenBy_record rfl hgrows
  rw [System.ka, haccepted, ← show k.clock = (s.putKa k).clock from hclock,
    ← show k.peer = (s.putKa k).kaPeer from hpeer]
  rfl

end Put

/-- A step of the receive path is one of `rxMachine`, seen through the whole. -/
theorem rxPath_of_step {b : RxAction} {p : RxPath} (henabled : s.rxEnabled b = true)
    (hp : s.rxPath.step b = some p) : (s.putRxPath p).rxPath = p := by
  obtain ⟨hpeer, hgrows⟩ := rx_keeps hp (rxEnabled_not_recv henabled)
  exact rxPath_putRxPath hpeer hgrows

theorem evtPath_of_step {b : EvtAction} {p : EvtPath} (henabled : s.evtEnabled b = true)
    (hp : s.evtPath.step b = some p) : (s.putEvtPath p).evtPath = p := by
  obtain ⟨hpeer, hgrows⟩ := evt_keeps hp (evtEnabled_not_recv henabled)
  exact evtPath_putEvtPath hpeer hgrows

theorem ka_of_run {r : Reply} {v : KaLoop} {k : Ka} (hk : (s.ka v).run cfg.testPause r = some k) :
    (s.putKa k).ka (kaVars k) = k := by
  obtain ⟨hclock, hpeer, hgrows⟩ := ka_keeps hk
  exact ka_putKa hclock hpeer hgrows

/-! ## The parts -/

/-- The node once the callback that is under way has returned. -/
def System.settled (s : System) : Node :=
  match s.callback with
  | none => s.node
  | some d => rpmsgRecvCanCallback s.node d

def rxPart : Component System RxPath RxAction where
  machine := rxMachine
  starts p := p = .atBoot
  view s := some s.rxPath

def evtPart : Component System EvtPath EvtAction where
  machine := evtMachine
  starts p := p = .atBoot
  view s := some s.evtPath

def nodePart (cfg : Config) : Component System Node Delivery where
  machine := recvMachine
  starts n := n = .atBoot cfg.dtBitrate
  view s := some s.settled

def startupPart : Component System (Startup Feature Unit) (StartupAct Feature Unit) where
  machine := startupMachine Feature Unit
  starts st := st = .initial
  view s := some s.startup

def platformPart (cfg : Config) (region : RscTable) :
    Component System Platform PlatformAction where
  machine := platformMachine cfg.linked
  starts p := p = .initial region
  view s := some s.platform

def kaPart (cfg : Config) : Component System Ka KaAct where
  machine := kaMachine cfg.testPause
  starts k := ∃ t0 peer, k = .enter t0 peer
  view s := s.kaLoop.map s.ka

/-! ## The steps follow the parts -/

/-- What the projections rely on: the store of a callback under way is in place, and the
keepalive has sent nothing before its loop. -/
structure System.Consistent (s : System) : Prop where
  callback : ∀ d, s.callback = some d → s.node.peerAddr = d.src
  kaLog : s.kaLoop = none → s.accepted .ka = []

theorem consistent_boot (cfg : Config) (p : Platform) : (System.boot cfg p).Consistent :=
  ⟨(fun _ h => nomatch h), fun _ => rfl⟩

theorem preserves_consistent : (systemMachine cfg).Preserves System.Consistent := by
  rintro s a t ⟨hcallback, hlog⟩ hstep
  cases System.step_cases hstep with
  | start kind => exact consistent_boot cfg _
  | recvCan d hdelivers hsrc =>
      refine ⟨?_, hlog⟩
      intro d' hd'
      cases hd'
      rfl
  | recvCanEnd d hd => exact ⟨(fun _ h => nomatch h), hlog⟩
  | rx b p henabled hp =>
      refine ⟨hcallback, fun hloop => ?_⟩
      rw [accepted_putRxPath_other (by decide)]
      exact hlog hloop
  | evt b p henabled hp =>
      refine ⟨hcallback, fun hloop => ?_⟩
      rw [accepted_putEvtPath_other (by decide)]
      exact hlog hloop
  | kaEnter hthread hloop => exact ⟨hcallback, (fun h => nomatch h)⟩
  | ka r v k hv hk => exact ⟨hcallback, (fun h => nomatch h)⟩
  | rings | driverOk | platformStarted | keepaliveStarted | canGwStarted | canGwAbsent | core
  | coreReturned | mng | waited | created | gaveUp | passed | recvKa =>
      exact ⟨hcallback, hlog⟩

theorem rxPart_follows (hs : s.Consistent) (hstep : (systemMachine cfg).step s a = some t) :
    rxPart.Follows s t := by
  cases System.step_cases hstep with
  | start kind => exact .started _ rfl rfl
  | recvCan d hdelivers hsrc =>
      exact .moved _ _ (.recv d.src) rfl rfl (if_neg hsrc)
  | recvCanEnd d hd =>
      apply Component.Follows.idle
      have hpeer : (rpmsgRecvCanCallback s.node d).peerAddr = s.node.peerAddr :=
        (peerAddr_callback s.node d).trans (hs.callback d hd).symm
      simp [rxPart, System.rxPath, System.accepted, hpeer]
  | rx b p henabled hp =>
      exact .moved _ _ b rfl (congrArg some (rxPath_of_step henabled hp)) hp
  | evt b p henabled hp =>
      apply Component.Follows.idle
      have haccepted : (s.putEvtPath p).accepted .tx = s.accepted .tx :=
        accepted_putEvtPath_other (by decide)
      simp only [rxPart, System.rxPath, haccepted]
      rfl
  | ka r v k hv hk =>
      apply Component.Follows.idle
      have haccepted : (s.putKa k).accepted .tx = s.accepted .tx :=
        accepted_putKa_other (by decide)
      simp only [rxPart, System.rxPath, haccepted]
      rfl
  | rings | driverOk | platformStarted | keepaliveStarted | canGwStarted | canGwAbsent | core
  | coreReturned | mng | waited | created | gaveUp | passed | recvKa | kaEnter =>
      exact .idle rfl

theorem evtPart_follows (hs : s.Consistent) (hstep : (systemMachine cfg).step s a = some t) :
    evtPart.Follows s t := by
  cases System.step_cases hstep with
  | start kind => exact .started _ rfl rfl
  | recvCan d hdelivers hsrc =>
      exact .moved _ _ (.recv d.src) rfl rfl (if_neg hsrc)
  | recvCanEnd d hd =>
      apply Component.Follows.idle
      have hpeer : (rpmsgRecvCanCallback s.node d).peerAddr = s.node.peerAddr :=
        (peerAddr_callback s.node d).trans (hs.callback d hd).symm
      simp [evtPart, System.evtPath, System.accepted, hpeer]
  | rx b p henabled hp =>
      apply Component.Follows.idle
      have haccepted : (s.putRxPath p).accepted .ctl = s.accepted .ctl :=
        accepted_putRxPath_other (by decide)
      simp only [evtPart, System.evtPath, haccepted]
      rfl
  | evt b p henabled hp =>
      exact .moved _ _ b rfl (congrArg some (evtPath_of_step henabled hp)) hp
  | ka r v k hv hk =>
      apply Component.Follows.idle
      have haccepted : (s.putKa k).accepted .ctl = s.accepted .ctl :=
        accepted_putKa_other (by decide)
      simp only [evtPart, System.evtPath, haccepted]
      rfl
  | rings | driverOk | platformStarted | keepaliveStarted | canGwStarted | canGwAbsent | core
  | coreReturned | mng | waited | created | gaveUp | passed | recvKa | kaEnter =>
      exact .idle rfl

/-- The callback's first store is the one that its two steps share. -/
theorem callback_stored (n : Node) (d : Delivery) :
    rpmsgRecvCanCallback { n with peerAddr := d.src } d = rpmsgRecvCanCallback n d := rfl

theorem nodePart_follows (hstep : (systemMachine cfg).step s a = some t) :
    (nodePart cfg).Follows s t := by
  cases System.step_cases hstep with
  | start kind => exact .started _ rfl rfl
  | recvCan d hdelivers hsrc =>
      have hidle : s.settled = s.node := by rw [System.settled, hdelivers.2.1]
      refine .moved s.node (rpmsgRecvCanCallback s.node d) d (congrArg some hidle) ?_ rfl
      exact congrArg some (callback_stored s.node d)
  | recvCanEnd d hd =>
      apply Component.Follows.idle
      simp only [nodePart, System.settled, hd]
  | rings | driverOk | platformStarted | keepaliveStarted | canGwStarted | canGwAbsent | core
  | coreReturned | mng | waited | created | gaveUp | passed | recvKa | rx | evt | kaEnter | ka =>
      exact .idle rfl

theorem startupPart_follows (hstep : (systemMachine cfg).step s a = some t) :
    startupPart.Follows s t := by
  cases System.step_cases hstep with
  | start kind => exact .started _ rfl rfl
  | coreReturned ok p b st hmain hp hreturned hst => exact .moved _ _ b rfl rfl hst
  | mng st hst => exact .moved _ _ .mng rfl rfl hst
  | waited f st hthread hst => exact .moved _ _ (.wait f) rfl rfl hst
  | rings | driverOk | platformStarted | keepaliveStarted | canGwStarted | canGwAbsent | core
  | created | gaveUp | passed | recvKa | recvCan | recvCanEnd | rx | evt | kaEnter | ka =>
      exact .idle rfl

theorem platformPart_follows (hstep : (systemMachine cfg).step s a = some t) :
    (platformPart cfg region).Follows s t := by
  cases System.step_cases hstep with
  | start kind => exact .moved _ _ (.start kind) rfl rfl rfl
  | rings da0 da1 p hp => exact .moved _ _ (.writeRings da0 da1) rfl rfl hp
  | driverOk p hp => exact .moved _ _ .writeDriverOk rfl rfl hp
  | core ok p hmain hp hreturned => exact .moved _ _ (.core ok) rfl rfl hp
  | coreReturned ok p b st hmain hp hreturned hst => exact .moved _ _ (.core ok) rfl rfl hp
  | platformStarted | keepaliveStarted | canGwStarted | canGwAbsent | mng | waited | created
  | gaveUp | passed | recvKa | recvCan | recvCanEnd | rx | evt | kaEnter | ka =>
      exact .idle rfl

/-- A step that the keepalive sees only through its clock or its peer. -/
theorem kaPart_moved {b : KaAct} (hloop : t.kaLoop = s.kaLoop)
    (hstep : ∀ v, (kaMachine cfg.testPause).step (s.ka v) b = some (t.ka v)) :
    (kaPart cfg).Follows s t := by
  cases hv : s.kaLoop with
  | none =>
      apply Component.Follows.ended
      simp [kaPart, hloop, hv]
  | some v =>
      refine .moved (s.ka v) (t.ka v) b ?_ ?_ (hstep v)
      · simp [kaPart, hv]
      · simp [kaPart, hloop, hv]

/-- A step that the keepalive does not see. -/
theorem kaPart_idle (hloop : t.kaLoop = s.kaLoop) (hka : t.ka = s.ka) :
    (kaPart cfg).Follows s t := by
  apply Component.Follows.idle
  simp only [kaPart, hloop, hka]

theorem kaPart_follows (hs : s.Consistent) (hstep : (systemMachine cfg).step s a = some t) :
    (kaPart cfg).Follows s t := by
  cases System.step_cases hstep with
  | start kind => exact .ended rfl
  | passed ms => exact kaPart_moved (b := .pass ms) rfl fun _ => rfl
  | recvKa src hdelivers hsrc => exact kaPart_moved (b := .recv src) rfl fun _ => rfl
  | rx b p henabled hp =>
      refine kaPart_idle rfl (funext fun v => ?_)
      rw [System.ka, accepted_putRxPath_other (by decide)]
      rfl
  | evt b p henabled hp =>
      refine kaPart_idle rfl (funext fun v => ?_)
      rw [System.ka, accepted_putEvtPath_other (by decide)]
      rfl
  | kaEnter hthread hloop =>
      refine .started (.enter s.clock s.kaPeer) ?_ ⟨_, _, rfl⟩
      have hlog := hs.kaLog hloop
      simp only [System.accepted] at hlog
      simp [kaPart, System.ka, System.accepted, hlog, KaLoop.path, kaVars, Ka.enter, Ka.loopHead]
  | ka r v k hv hk =>
      refine .moved (s.ka v) k (.run r) ?_ ?_ hk
      · simp [kaPart, hv]
      · exact congrArg some (ka_of_run hk)
  | rings | driverOk | platformStarted | keepaliveStarted | canGwStarted | canGwAbsent | core
  | coreReturned | mng | waited | created | gaveUp | recvCan | recvCanEnd =>
      exact .idle rfl

/-! ## Every reachable state -/

theorem consistent_of_reaches (h : (systemMachine cfg).Reaches (.initial cfg region) s) :
    s.Consistent :=
  preserves_consistent.reaches (consistent_boot cfg _) h

/-- The rule for a part that runs from boot on. -/
theorem part_of_reaches {P PAction : Type*} (part : Component System P PAction) {x0 x : P}
    (hstart : ∀ y, part.starts y → y = x0) (hview0 : part.view (.initial cfg region) = some x0)
    (hx0 : part.starts x0) (hview : part.view s = some x)
    (hfollows : ∀ ⦃s a t⦄, s.Consistent → (systemMachine cfg).step s a = some t →
      part.Follows s t)
    (h : (systemMachine cfg).Reaches (.initial cfg region) s) : part.machine.Reaches x0 x := by
  have hreached : part.Reached s := part.reached_of_reaches (.of_start hview0 hx0)
    (consistent_boot cfg _) preserves_consistent hfollows h
  obtain ⟨y, hy, hreach⟩ := hreached x hview
  rw [hstart y hy] at hreach
  exact hreach

theorem rxPath_of_reaches (h : (systemMachine cfg).Reaches (.initial cfg region) s) :
    rxMachine.Reaches .atBoot s.rxPath :=
  part_of_reaches rxPart (fun _ hy => hy) rfl rfl rfl (fun _ _ _ => rxPart_follows) h

theorem evtPath_of_reaches (h : (systemMachine cfg).Reaches (.initial cfg region) s) :
    evtMachine.Reaches .atBoot s.evtPath :=
  part_of_reaches evtPart (fun _ hy => hy) rfl rfl rfl (fun _ _ _ => evtPart_follows) h

theorem settled_of_reaches (h : (systemMachine cfg).Reaches (.initial cfg region) s) :
    recvMachine.Reaches (.atBoot cfg.dtBitrate) s.settled :=
  part_of_reaches (nodePart cfg) (fun _ hy => hy) rfl rfl rfl
    (fun _ _ _ _ => nodePart_follows) h

theorem startup_of_reaches (h : (systemMachine cfg).Reaches (.initial cfg region) s) :
    (startupMachine Feature Unit).Reaches .initial s.startup :=
  part_of_reaches startupPart (fun _ hy => hy) rfl rfl rfl
    (fun _ _ _ _ => startupPart_follows) h

theorem platform_of_reaches (h : (systemMachine cfg).Reaches (.initial cfg region) s) :
    (platformMachine cfg.linked).Reaches (.initial region) s.platform :=
  part_of_reaches (platformPart cfg region) (fun _ hy => hy) rfl rfl rfl
    (fun _ _ _ _ => platformPart_follows) h

/-- The keepalive enters its loop once in a session. -/
theorem ka_of_reaches (h : (systemMachine cfg).Reaches (.initial cfg region) s) {v : KaLoop}
    (hv : s.kaLoop = some v) :
    ∃ t0 peer, (kaMachine cfg.testPause).Reaches (.enter t0 peer) (s.ka v) := by
  have hreached : (kaPart cfg).Reached s := (kaPart cfg).reached_of_reaches (.of_none rfl)
    (consistent_boot cfg _) preserves_consistent (fun _ _ _ => kaPart_follows) h
  obtain ⟨_, ⟨t0, peer, rfl⟩, hreach⟩ := hreached (s.ka v) (by simp [kaPart, hv])
  exact ⟨t0, peer, hreach⟩

/-- **The firmware refines its parts.**  In every state that boot, threads, callbacks and
restarts can lead to, each part is in a state that it reaches on its own: the two paths of
the gateway, the node with its controller, the wait for the platform, the platform over
all sessions, and the keepalive's loop. -/
theorem firmware_refines_parts (h : (systemMachine cfg).Reaches (.initial cfg region) s) :
    rxMachine.Reaches .atBoot s.rxPath ∧ evtMachine.Reaches .atBoot s.evtPath ∧
      recvMachine.Reaches (.atBoot cfg.dtBitrate) s.settled ∧
      (startupMachine Feature Unit).Reaches .initial s.startup ∧
      (platformMachine cfg.linked).Reaches (.initial region) s.platform ∧
      ∀ v, s.kaLoop = some v → ∃ t0 peer,
        (kaMachine cfg.testPause).Reaches (.enter t0 peer) (s.ka v) :=
  ⟨rxPath_of_reaches h, evtPath_of_reaches h, settled_of_reaches h, startup_of_reaches h,
    platform_of_reaches h, fun _ hv => ka_of_reaches h hv⟩

/-- The keepalive's loop after a late entry, as the firmware shows it. -/
theorem firmware_refines_parts_keepalive :
    ∃ s v t0 peer, afterBringUp [.recvKa 9#32, .pass 1000, .ka .ok] = some s ∧
      s.kaLoop = some v ∧ (kaMachine ⟨0, 0⟩).Reaches (.enter t0 peer) (s.ka v) := by
  have hrun : (afterBringUp [.recvKa 9#32, .pass 1000, .ka .ok]).map
      (fun s => s.kaLoop.isSome) = some true := by decide +kernel
  obtain ⟨s, hexec, hs⟩ := Option.map_eq_some_iff.1 hrun
  obtain ⟨v, hv⟩ := Option.isSome_iff_exists.1 hs
  obtain ⟨-, -, -, -, -, hka⟩ := firmware_refines_parts ⟨_, hexec⟩
  obtain ⟨t0, peer, hreach⟩ := hka v hv
  exact ⟨s, v, t0, peer, hexec, hv, hreach⟩

end DataLogger.MainApp
