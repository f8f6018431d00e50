import DataLogger.MainApp.LinuxView
import DataLogger.MainApp.Safety

/-!
# The gateway without its endpoint

Until `rpmsg_create_ept` has succeeded, and for good when the platform has failed, nobody
empties `can_rx_q` and nobody touches the controller: the queue keeps the first frames
and the rest are counted.
-/

namespace DataLogger.MainApp

open DataLogger.Foundation
open DataLogger.Zephyr
open DataLogger.CanGw
open DataLogger.RpmsgPlatform

variable {cfg : Config} {region : RscTable} {s t : System} {a : Action}

/-- The controller as at boot, nothing sent on the gateway's endpoint, the first 64 frames in
the queue and every other one counted as dropped. -/
structure System.Dormant (cfg : Config) (s : System) : Prop where
  node : s.node = .atBoot cfg.dtBitrate
  callback : s.callback = none
  task : s.tx.task = .waiting
  counters : s.tx.statCanRx = 0#32 ∧ s.tx.statRpmsgDrop = 0#32 ∧ s.tx.discarded = 0
  queue : s.tx.canRxQ.items = s.tx.received.take 64
  drops : s.tx.statCanRxDrop = BitVec.ofNat 32 (s.tx.received.length - 64)

theorem dormant_boot (cfg : Config) (p : Platform) : (System.boot cfg p).Dormant cfg :=
  ⟨rfl, rfl, rfl, ⟨rfl, rfl, rfl⟩, rfl, rfl⟩

/-! ## The queue that nobody empties -/

theorem dormant_queued {frame : CanFrame} {q : BoundedQueue CanFrame 64} (hs : s.Dormant cfg)
    (hq : q.items = s.tx.canRxQ.items ++ [frame]) :
    q.items = (s.tx.received ++ [frame]).take 64 ∧
      s.tx.statCanRxDrop = BitVec.ofNat 32 ((s.tx.received ++ [frame]).length - 64) := by
  have hroom : (s.tx.received.take 64).length + 1 ≤ 64 := by
    have hle := q.length_le
    rw [hq, hs.queue, List.length_append] at hle
    exact hle
  have hshort : s.tx.received.length < 64 := by
    rw [List.length_take] at hroom
    omega
  constructor
  · rw [hq, hs.queue, List.take_of_length_le (by omega), List.take_of_length_le]
    rw [List.length_append, List.length_singleton]
    omega
  · rw [hs.drops, List.length_append, List.length_singleton]
    congr 1
    omega

theorem dormant_dropped (hs : s.Dormant cfg) (frame : CanFrame)
    (hfull : 64 ≤ s.tx.canRxQ.items.length) :
    s.tx.canRxQ.items = (s.tx.received ++ [frame]).take 64 ∧
      s.tx.statCanRxDrop + 1 = BitVec.ofNat 32 ((s.tx.received ++ [frame]).length - 64) := by
  have hlong : 64 ≤ s.tx.received.length := by
    rw [hs.queue, List.length_take] at hfull
    omega
  constructor
  · rw [hs.queue, List.take_append_of_le_length hlong]
  · rw [hs.drops, ofNat_succ, List.length_append, List.length_singleton]
    congr 1
    omega

theorem dormant_rx {b : RxAction} {p : RxPath} (hs : s.Dormant cfg)
    (hthread : s.thread .canGw ≠ .running) (henabled : s.rxEnabled b = true)
    (hp : s.rxPath.step b = some p) : (s.putRxPath p).Dormant cfg := by
  cases b with
  | canRxCb frame =>
      have hstep : rxMachine.step s.rxPath (.canRxCb frame) = some p := hp
      cases RxPath.step_cases hstep with
      | queued frame q hq =>
          obtain ⟨hqueue, hdrops⟩ := dormant_queued hs hq
          exact ⟨hs.node, hs.callback, hs.task, hs.counters, hqueue, hdrops⟩
      | dropped frame hfull =>
          obtain ⟨hqueue, hdrops⟩ := dormant_dropped hs frame hfull
          exact ⟨hs.node, hs.callback, hs.task, hs.counters, hqueue, hdrops⟩
  | recv src => cases henabled
  | dequeue | readPeer | send r | count => exact absurd (of_decide_eq_true henabled) hthread

theorem dormant_step (hsound : s.Sound) (hs : s.thread .canGw ≠ .running → s.Dormant cfg)
    (hstep : (systemMachine cfg).step s a = some t) (ht : t.thread .canGw ≠ .running) :
    t.Dormant cfg := by
  by_cases hstart : ∃ kind, a = .start kind
  · obtain ⟨kind, rfl⟩ := hstart
    cases hstep
    exact dormant_boot cfg _
  have hthread : s.thread .canGw ≠ .running := by
    intro hrunning
    exact ht (running_of_step hsound.threaded hstep (fun kind h => hstart ⟨kind, h⟩) hrunning)
  obtain ⟨hnode, hcallback, htask, hcounters, hqueue, hdrops⟩ := hs hthread
  cases System.step_cases hstep with
  | start kind => exact absurd ⟨kind, rfl⟩ hstart
  | recvCan d hdelivers hsrc => exact absurd hdelivers.2.2 hthread
  | recvCanEnd d hd => cases hcallback.symm.trans hd
  | rx b p henabled hp => exact dormant_rx (hs hthread) hthread henabled hp
  | rings | driverOk | platformStarted | keepaliveStarted | canGwStarted | canGwAbsent | core
  | coreReturned | mng | waited | created | gaveUp | passed | recvKa | evt | kaEnter | ka =>
      exact ⟨hnode, hcallback, htask, hcounters, hqueue, hdrops⟩

theorem dormant_of_reaches (h : (systemMachine cfg).Reaches (.initial cfg region) s)
    (hthread : s.thread .canGw ≠ .running) : s.Dormant cfg := by
  have hpres : (systemMachine cfg).Preserves fun s =>
      s.Sound ∧ (s.thread .canGw ≠ .running → s.Dormant cfg) := by
    intro s a t hs hstep
    exact ⟨preserves_sound hs.1 hstep, dormant_step hs.1 hs.2 hstep⟩
  exact (hpres.reaches ⟨sound_initial cfg region, fun _ => dormant_boot cfg _⟩ h).2 hthread

theorem inbox_of_not_running (hs : s.Sound) {f : Feature} (hf : s.thread f ≠ .running) :
    s.inbox f = [] := by
  rw [List.eq_nil_iff_forall_not_mem]
  intro m hm
  obtain ⟨e, he, rfl⟩ := List.mem_map.1 hm
  obtain ⟨hmem, hfeature⟩ := List.mem_filter.1 he
  have hheard := hs.addressed.wire e hmem
  rw [of_decide_eq_true hfeature] at hheard
  exact hf (hs.addressed.running f (List.ne_nil_of_mem hheard))

/-! ## A platform that has failed -/

def Action.Restarts : Action → Prop
  | .start _ => True
  | _ => False

/-- Without a restart a failed platform stays failed. -/
theorem failed_of_step (hfailed : s.platform.core = .failed) (ha : ¬ a.Restarts)
    (hstep : (systemMachine cfg).step s a = some t) : t.platform.core = .failed := by
  have hcore : ∀ ok p, s.platform.coreStep cfg.linked ok ≠ some p := by
    intro ok p
    simp [Platform.coreStep, hfailed]
  cases System.step_cases hstep with
  | start kind => exact absurd trivial ha
  | rings da0 da1 p hp =>
      obtain ⟨-, hnext⟩ := Option.ite_none_right_eq_some.1 hp
      cases hnext
      exact hfailed
  | driverOk p hp =>
      obtain ⟨-, hnext⟩ := Option.ite_none_right_eq_some.1 hp
      cases hnext
      exact hfailed
  | core ok p hmain hp hreturned => exact absurd hp (hcore ok p)
  | coreReturned ok p b st hmain hp hreturned hst => exact absurd hp (hcore ok p)
  | platformStarted | keepaliveStarted | canGwStarted | canGwAbsent | mng | waited | created
  | gaveUp | passed | recvKa | recvCan | recvCanEnd | rx | evt | kaEnter | ka => exact hfailed

theorem failed_of_exec {as : List Action} (hfailed : s.platform.core = .failed)
    (has : ∀ a ∈ as, ¬ a.Restarts) (hexec : (systemMachine cfg).exec s as = some t) :
    t.platform.core = .failed := by
  induction as generalizing s with
  | nil =>
      cases hexec
      exact hfailed
  | cons a as ih =>
      obtain ⟨u, hstep, hrest⟩ := Machine.exec_cons_eq_some.1 hexec
      have hu := failed_of_step hfailed (has a List.mem_cons_self) hstep
      exact ih hu (fun b hb => has b (List.mem_cons_of_mem a hb)) hrest

/-- **No endpoint, no traffic, and nothing lost uncounted.**  As long as the gateway has no
endpoint the controller is as at boot, the queue holds the first 64 frames and the
others are counted; and once the platform has failed, that is how it stays, with nothing
sent by anyone, until the core is restarted. -/
theorem firmware_silent_without_endpoint
    (h : (systemMachine cfg).Reaches (.initial cfg region) s) :
    (s.thread .canGw ≠ .running → s.inbox .canGw = [] ∧ s.Dormant cfg) ∧
      ∀ as t, s.platform.core = .failed → (∀ a ∈ as, ¬ a.Restarts) →
        (systemMachine cfg).exec s as = some t →
        t.Dormant cfg ∧ ∀ f, t.thread f ≠ .running ∧ t.inbox f = [] := by
  constructor
  · intro hthread
    exact ⟨inbox_of_not_running (sound_of_reaches h) hthread, dormant_of_reaches h hthread⟩
  · intro as t hfailed has hexec
    have ht := h.trans ⟨as, hexec⟩
    have hcore := failed_of_exec hfailed has hexec
    have hthread : ∀ f, t.thread f ≠ .running := by
      intro f hf
      obtain ⟨-, da0, da1, hrunning⟩ := up_of_running ht hf
      rw [hcore] at hrunning
      cases hrunning
    exact ⟨dormant_of_reaches ht (hthread .canGw),
      fun f => ⟨hthread f, inbox_of_not_running (sound_of_reaches ht) (hthread f)⟩⟩

/-- The IPM device is not ready; both features give up, and a frame stays in the queue. -/
theorem firmware_silent_without_endpoint_ipm :
    ∃ s, (systemMachine configExample).exec (.initial configExample regionZero)
        [.start .attach, .main true, .main true, .main true, .core true, .core true, .core true,
          .core false, .mng, .wait .canGw, .wait .canGw, .wait .canGw, .wait .canGw,
          .endpoint .canGw true, .rx (.canRxCb ⟨0x123#32, 1#8, 0#8, zeroData⟩)] = some s ∧
      s.tx.received.length = 1 ∧ s.Dormant configExample ∧ s.inbox .keepalive = [] := by
  have hrun : ((systemMachine configExample).exec (.initial configExample regionZero)
      [.start .attach, .main true, .main true, .main true, .core true, .core true, .core true,
        .core false, .mng, .wait .canGw, .wait .canGw, .wait .canGw, .wait .canGw,
        .endpoint .canGw true, .rx (.canRxCb ⟨0x123#32, 1#8, 0#8, zeroData⟩)]).map
          (fun s => (s.platform.core, s.tx.received.length)) = some (.failed, 1) := by
    decide +kernel
  obtain ⟨s, hexec, hs⟩ := Option.map_eq_some_iff.1 hrun
  obtain ⟨hfailed, hlength⟩ := Prod.mk.inj hs
  obtain ⟨-, hsilent⟩ := firmware_silent_without_endpoint ⟨_, hexec⟩
  obtain ⟨hdormant, hall⟩ := hsilent [] s hfailed (by simp) rfl
  exact ⟨s, hexec, hlength, hdormant, (hall .keepalive).2⟩

end DataLogger.MainApp
