import DataLogger.CanGw.RxPath
import DataLogger.CanGw.StateEvents

/-!
# The paths in a firmware

A firmware has one `peer_addr` and one log of what rpmsg has accepted; the two paths of the
gateway see both.  Here are the variables that each path has for itself, what its own steps do
to the shared ones, and what Linux reads in the messages of each.
-/

namespace DataLogger.CanGw

open DataLogger.Foundation
open DataLogger.Zephyr
open DataLogger.OpenAmp

/-! ## The variables -/

/-- The variables of `can_rx_cb` and `can_gw_tx_task`. -/
structure TxVars where
  canRxQ : BoundedQueue CanFrame 64
  statCanRx : BitVec 32
  statCanRxDrop : BitVec 32
  statRpmsgDrop : BitVec 32
  task : TxTask
  received : List CanFrame
  discarded : Nat

/-- The variables of `can_state_change_cb` and `can_gw_ctl_task`. -/
structure CtlVars where
  pendingState : Int
  stateSem : Semaphore 1
  callbacks : Nat
  task : CtlTask
  reported : List CanState

def TxVars.atBoot : TxVars := ⟨.empty CanFrame 64, 0#32, 0#32, 0#32, .waiting, [], 0⟩

def CtlVars.atBoot : CtlVars := ⟨-1, .empty 1, 0, .waiting, []⟩

def TxVars.path (peerAddr : BitVec 32) (accepted : List RpmsgMessage) (v : TxVars) : RxPath :=
  ⟨v.canRxQ, peerAddr, v.statCanRx, v.statCanRxDrop, v.statRpmsgDrop, v.task, v.received,
    accepted, v.discarded⟩

def CtlVars.path (peerAddr : BitVec 32) (accepted : List RpmsgMessage) (v : CtlVars) : EvtPath :=
  ⟨v.pendingState, v.stateSem, peerAddr, v.callbacks, v.task, v.reported, accepted⟩

def txVars (p : RxPath) : TxVars :=
  ⟨p.canRxQ, p.statCanRx, p.statCanRxDrop, p.statRpmsgDrop, p.task, p.received, p.discarded⟩

def ctlVars (p : EvtPath) : CtlVars :=
  ⟨p.pendingState, p.stateSem, p.callbacks, p.task, p.reported⟩

/-! ## What the steps leave alone -/

theorem rx_keeps {p q : RxPath} {a : RxAction} (hstep : p.step a = some q)
    (ha : ∀ src, a ≠ .recv src) : q.peerAddr = p.peerAddr ∧ p.accepted <+: q.accepted := by
  cases RxPath.step_cases hstep with
  | recv src => exact absurd rfl (ha src)
  | accepted => exact ⟨rfl, List.prefix_append _ _⟩
  | queued | dropped | dequeued | discarded | addressed | refused | counted | countedDrop =>
      exact ⟨rfl, List.prefix_rfl⟩

theorem evt_keeps {p q : EvtPath} {a : EvtAction} (hstep : p.step a = some q)
    (ha : ∀ src, a ≠ .recv src) : q.peerAddr = p.peerAddr ∧ p.accepted <+: q.accepted := by
  cases EvtPath.step_cases hstep with
  | recv src => exact absurd rfl (ha src)
  | accepted => exact ⟨rfl, List.prefix_append _ _⟩
  | reported | given | taken | timeout | readState | addressed | skipped | refused =>
      exact ⟨rfl, List.prefix_rfl⟩

/-! ## Reading the messages -/

theorem length_of_map_data {α : Type*} {accepted : List RpmsgMessage} {xs : List α}
    {encode : α → List Byte} {size : Nat} (hdata : accepted.map RpmsgMessage.data = xs.map encode)
    (hsize : ∀ x, (encode x).length = size) : ∀ m ∈ accepted, m.data.length = size := by
  intro m hm
  have hmem : m.data ∈ xs.map encode := by
    rw [← hdata]
    exact List.mem_map_of_mem hm
  obtain ⟨x, -, hx⟩ := List.mem_map.1 hmem
  rw [← hx, hsize]

theorem decode_frames {accepted : List RpmsgMessage} {frames : List CanFrame}
    (hdata : accepted.map RpmsgMessage.data = frames.map fun f => (wireOfFrame f).toBytes)
    (hframes : ∀ f ∈ frames, f.WellFormed) :
    (accepted.map fun m => frameOfWire (RpmsgCanWire.ofBytes m.data)) = frames := by
  calc (accepted.map fun m => frameOfWire (RpmsgCanWire.ofBytes m.data))
      = (accepted.map RpmsgMessage.data).map fun d => frameOfWire (RpmsgCanWire.ofBytes d) := by
        rw [List.map_map]
        rfl
    _ = frames.map fun f => frameOfWire (wireOfFrame f) := by
        rw [hdata, List.map_map]
        simp [Function.comp_def]
    _ = frames.map id := List.map_congr_left fun f hf => frameOfWire_wireOfFrame (hframes f hf)
    _ = frames := List.map_id frames

theorem decode_states {accepted : List RpmsgMessage} {sent : List CanState}
    (hdata : accepted.map RpmsgMessage.data = sent.map evtStateData) :
    (accepted.map fun m => (RpmsgCanCtrl.ofBytes m.data).arg) =
      sent.map fun st => BitVec.ofNat 32 st.code := by
  have hevents := congrArg (List.map Prod.snd) (decode_events hdata)
  rw [List.map_map, List.map_map] at hevents
  exact hevents

end DataLogger.CanGw
