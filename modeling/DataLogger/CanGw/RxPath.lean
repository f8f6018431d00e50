import DataLogger.CanGw.Control
import DataLogger.Foundation.KernelObjects
import DataLogger.OpenAmp.Rpmsg
import Mathlib.Data.Nat.ModEq

/-!
# From the CAN callback to rpmsg

`can_rx_cb` queues frames from interrupt context, `can_gw_tx_task` dequeues, reads the
peer address, sends and counts, and the receive callback sets the peer address at any
moment in between.  The three interleave freely; `received`, `accepted` and `discarded`
only record what has happened.
-/

namespace DataLogger.CanGw

open DataLogger.Foundation
open DataLogger.Zephyr
open DataLogger.OpenAmp

/-! ## The state -/

/-- Where `can_gw_tx_task` stands in its loop. -/
inductive TxTask where
  | waiting
  | holding (frame : CanFrame)
  | addressed (frame : CanFrame) (peer : BitVec 32)
  | returned (ret : Int)
  deriving DecidableEq

namespace TxTask

/-- The frame that `rpmsg_trysendto` has not seen yet. -/
def unsent : TxTask → List CanFrame
  | waiting => []
  | holding frame => [frame]
  | addressed frame _ => [frame]
  | returned _ => []

/-- Number of frames in the task's hands: dequeued and not yet counted. -/
def hands : TxTask → Nat
  | waiting => 0
  | holding _ => 1
  | addressed _ _ => 1
  | returned _ => 1

theorem hands_le (task : TxTask) : task.hands ≤ 1 := by
  cases task <;> simp [hands]

end TxTask

structure RxPath where
  canRxQ : BoundedQueue CanFrame 64
  peerAddr : BitVec 32
  statCanRx : BitVec 32
  statCanRxDrop : BitVec 32
  statRpmsgDrop : BitVec 32
  task : TxTask
  received : List CanFrame
  accepted : List RpmsgMessage
  discarded : Nat

def RxPath.atBoot : RxPath :=
  ⟨.empty CanFrame 64, peerUnknown, 0#32, 0#32, 0#32, .waiting, [], [], 0⟩

/-! ## The steps -/

/-- `canRxCb`: the driver hands over a frame.  `recv`: a message from Linux arrives.  The
others are the steps of `can_gw_tx_task`. -/
inductive RxAction where
  | canRxCb (frame : CanFrame)
  | recv (src : BitVec 32)
  | dequeue
  | readPeer
  | send (r : Reply)
  | count
  deriving DecidableEq

def RxPath.canRxCb (frame : CanFrame) (s : RxPath) : RxPath :=
  let s := { s with received := s.received ++ [frame] }
  match s.canRxQ.put frame with
  | some q => { s with canRxQ := q }
  | none => { s with statCanRxDrop := s.statCanRxDrop + 1 }

def dataMessage (frame : CanFrame) (peer : BitVec 32) : RpmsgMessage :=
  ⟨(wireOfFrame frame).toBytes, peer⟩

def RxPath.step (s : RxPath) : RxAction → Option RxPath
  | .canRxCb frame => some (s.canRxCb frame)
  | .recv src => if src = peerUnknown then none else some { s with peerAddr := src }
  | .dequeue =>
      match s.task with
      | .waiting =>
          match s.canRxQ.get with
          | some (frame, q) => some { s with canRxQ := q, task := .holding frame }
          | none => none
      | _ => none
  | .readPeer =>
      match s.task with
      | .holding frame =>
          let peer := s.peerAddr
          if peer = peerUnknown then
            some { s with task := .waiting, discarded := s.discarded + 1 }
          else some { s with task := .addressed frame peer }
      | _ => none
  | .send r =>
      match s.task with
      | .addressed frame peer =>
          let (ret, accepted) := rpmsgTrysendto r (dataMessage frame peer) s.accepted
          some { s with accepted := accepted, task := .returned ret }
      | _ => none
  | .count =>
      match s.task with
      | .returned ret =>
          if ret = 0 ∨ ret = sizeofWire then
            some { s with statCanRx := s.statCanRx + 1, task := .waiting }
          else some { s with statRpmsgDrop := s.statRpmsgDrop + 1, task := .waiting }
      | _ => none

def rxMachine : Machine RxPath RxAction := ⟨RxPath.step⟩

/-- A received message sets the peer address and nothing else of this path. -/
theorem peerAddr_callback (n : Node) (d : Delivery) :
    (rpmsgRecvCanCallback n d).peerAddr = d.src := by
  cases hctrl : d.ctrl? with
  | some c =>
      rw [callback_ctrl hctrl]
      exact (handleCtrl_frame c d.replies _).1
  | none =>
      cases hframe : d.frame? with
      | none => rw [callback_other hctrl hframe]
      | some frame =>
          rw [callback_frame hframe, (countSend_frame _ _).2.2.1]
          exact driverCall_keeps Node.peerAddr rfl

/-! ## What a step can do -/

/-- Every way a step changes the state, with what it found there. -/
inductive RxPath.Step (s : RxPath) : RxAction → RxPath → Prop where
  | queued (frame : CanFrame) (q : BoundedQueue CanFrame 64)
      (hq : q.items = s.canRxQ.items ++ [frame]) :
      Step s (.canRxCb frame)
        { s with received := s.received ++ [frame], canRxQ := q }
  | dropped (frame : CanFrame) (hfull : 64 ≤ s.canRxQ.items.length) :
      Step s (.canRxCb frame)
        { s with received := s.received ++ [frame], statCanRxDrop := s.statCanRxDrop + 1 }
  | recv (src : BitVec 32) (hsrc : src ≠ peerUnknown) :
      Step s (.recv src) { s with peerAddr := src }
  | dequeued (frame : CanFrame) (q : BoundedQueue CanFrame 64) (htask : s.task = .waiting)
      (hq : s.canRxQ.items = frame :: q.items) :
      Step s .dequeue { s with canRxQ := q, task := .holding frame }
  | discarded (frame : CanFrame) (htask : s.task = .holding frame)
      (hpeer : s.peerAddr = peerUnknown) :
      Step s .readPeer { s with task := .waiting, discarded := s.discarded + 1 }
  | addressed (frame : CanFrame) (htask : s.task = .holding frame)
      (hpeer : s.peerAddr ≠ peerUnknown) :
      Step s .readPeer { s with task := .addressed frame s.peerAddr }
  | accepted (frame : CanFrame) (peer : BitVec 32) (htask : s.task = .addressed frame peer) :
      Step s (.send .ok)
        { s with accepted := s.accepted ++ [dataMessage frame peer],
                 task := .returned sizeofWire }
  | refused (frame : CanFrame) (peer : BitVec 32) (e : Errno)
      (htask : s.task = .addressed frame peer) :
      Step s (.send (.fail e)) { s with task := .returned e.code }
  | counted (ret : Int) (htask : s.task = .returned ret)
      (hret : ret = 0 ∨ ret = sizeofWire) :
      Step s .count { s with statCanRx := s.statCanRx + 1, task := .waiting }
  | countedDrop (ret : Int) (htask : s.task = .returned ret)
      (hret : ¬ (ret = 0 ∨ ret = sizeofWire)) :
      Step s .count { s with statRpmsgDrop := s.statRpmsgDrop + 1, task := .waiting }

theorem length_dataMessage (frame : CanFrame) (peer : BitVec 32) :
    (dataMessage frame peer).data.length = sizeofWire :=
  RpmsgCanWire.length_toBytes _

theorem RxPath.step_cases {s t : RxPath} {a : RxAction} (hstep : rxMachine.step s a = some t) :
    s.Step a t := by
  change s.step a = some t at hstep
  cases a with
  | canRxCb frame =>
      rw [RxPath.step, Option.some.injEq] at hstep
      subst hstep
      unfold RxPath.canRxCb
      cases hput : s.canRxQ.put frame with
      | some q =>
          simp only [hput]
          exact .queued frame q (BoundedQueue.put_eq_some.1 hput).2
      | none =>
          simp only [hput]
          exact .dropped frame (BoundedQueue.put_eq_none.1 hput)
  | recv src =>
      rw [RxPath.step] at hstep
      split at hstep
      · cases hstep
      · rename_i hsrc
        cases hstep
        exact .recv src hsrc
  | dequeue =>
      rw [RxPath.step] at hstep
      split at hstep
      · rename_i htask
        split at hstep
        · rename_i frame q hget
          cases hstep
          exact .dequeued frame q htask (BoundedQueue.get_eq_some.1 hget)
        · cases hstep
      · cases hstep
  | readPeer =>
      rw [RxPath.step] at hstep
      split at hstep
      · rename_i frame htask
        simp only at hstep
        split at hstep
        · rename_i hpeer
          cases hstep
          exact .discarded frame htask hpeer
        · rename_i hpeer
          cases hstep
          exact .addressed frame htask hpeer
      · cases hstep
  | send r =>
      rw [RxPath.step] at hstep
      split at hstep
      · rename_i frame peer htask
        cases r with
        | ok =>
            rw [rpmsgTrysendto, length_dataMessage] at hstep
            cases hstep
            exact .accepted frame peer htask
        | fail e =>
            cases hstep
            exact .refused frame peer e htask
      · cases hstep
  | count =>
      rw [RxPath.step] at hstep
      split at hstep
      · rename_i ret htask
        split at hstep
        · rename_i hret
          cases hstep
          exact .counted ret htask hret
        · rename_i hret
          cases hstep
          exact .countedDrop ret htask hret
      · cases hstep

/-! ## Order -/

/-- The messages accepted so far carry, in order, some of the received frames; the frame
in the task's hands and the queued ones come after them. -/
def RxPath.Ordered (s : RxPath) : Prop :=
  ∃ frames, (frames ++ s.task.unsent ++ s.canRxQ.items).Sublist s.received ∧
    s.accepted.map RpmsgMessage.data = frames.map fun f => (wireOfFrame f).toBytes

theorem preserves_ordered : rxMachine.Preserves RxPath.Ordered := by
  rintro s a t ⟨frames, hsub, hdata⟩ hstep
  -- what is in the hands may be dropped from the list, never moved in it
  have hforget : (frames ++ s.canRxQ.items).Sublist s.received := by
    refine List.Sublist.trans ?_ hsub
    exact (List.sublist_append_left frames s.task.unsent).append_right _
  cases RxPath.step_cases hstep with
  | queued frame q hq =>
      refine ⟨frames, ?_, hdata⟩
      simp only [hq]
      rw [← List.append_assoc]
      exact hsub.append_right [frame]
  | dropped frame hfull =>
      exact ⟨frames, hsub.trans (List.sublist_append_left _ _), hdata⟩
  | recv src hsrc => exact ⟨frames, hsub, hdata⟩
  | dequeued frame q htask hq =>
      refine ⟨frames, ?_, hdata⟩
      rw [hq] at hforget
      simpa [TxTask.unsent] using hforget
  | discarded frame htask hpeer =>
      refine ⟨frames, ?_, hdata⟩
      simpa [TxTask.unsent] using hforget
  | addressed frame htask hpeer =>
      refine ⟨frames, ?_, hdata⟩
      rw [htask] at hsub
      exact hsub
  | accepted frame peer htask =>
      refine ⟨frames ++ [frame], ?_, ?_⟩
      · rw [htask] at hsub
        simpa [TxTask.unsent] using hsub
      · simp [hdata, dataMessage]
  | refused frame peer e htask =>
      refine ⟨frames, ?_, hdata⟩
      simpa [TxTask.unsent] using hforget
  | counted ret htask hret =>
      refine ⟨frames, ?_, hdata⟩
      simpa [TxTask.unsent] using hforget
  | countedDrop ret htask hret =>
      refine ⟨frames, ?_, hdata⟩
      simpa [TxTask.unsent] using hforget

/-! ## Accounting -/

/-- The exact numbers behind the three wrapping counters: every frame handed to
`can_rx_cb` is in one place. -/
def RxPath.Accounted (s : RxPath) : Prop :=
  ∃ forwarded queueDrops rpmsgDrops : Nat,
    s.statCanRx = BitVec.ofNat 32 forwarded ∧
    s.statCanRxDrop = BitVec.ofNat 32 queueDrops ∧
    s.statRpmsgDrop = BitVec.ofNat 32 rpmsgDrops ∧
    s.received.length = forwarded + queueDrops + rpmsgDrops + s.canRxQ.items.length +
      s.task.hands + s.discarded

theorem ofNat_succ (n : Nat) : BitVec.ofNat 32 n + 1 = BitVec.ofNat 32 (n + 1) :=
  (BitVec.ofNat_add n 1).symm

theorem preserves_accounted : rxMachine.Preserves RxPath.Accounted := by
  rintro s a t ⟨rx, qd, rd, hrx, hqd, hrd, hsum⟩ hstep
  cases RxPath.step_cases hstep with
  | queued frame q hq =>
      refine ⟨rx, qd, rd, hrx, hqd, hrd, ?_⟩
      simp only [hq, List.length_append, List.length_singleton]
      omega
  | dropped frame hfull =>
      refine ⟨rx, qd + 1, rd, hrx, ?_, hrd, ?_⟩
      · simp only [hqd, ofNat_succ]
      · simp only [List.length_append, List.length_singleton]
        omega
  | recv src hsrc => exact ⟨rx, qd, rd, hrx, hqd, hrd, hsum⟩
  | dequeued frame q htask hq =>
      refine ⟨rx, qd, rd, hrx, hqd, hrd, ?_⟩
      rw [htask, hq, List.length_cons, TxTask.hands] at hsum
      simp only [TxTask.hands]
      omega
  | discarded frame htask hpeer =>
      refine ⟨rx, qd, rd, hrx, hqd, hrd, ?_⟩
      rw [htask, TxTask.hands] at hsum
      simp only [TxTask.hands]
      omega
  | addressed frame htask hpeer =>
      rw [htask] at hsum
      exact ⟨rx, qd, rd, hrx, hqd, hrd, hsum⟩
  | accepted frame peer htask =>
      rw [htask] at hsum
      exact ⟨rx, qd, rd, hrx, hqd, hrd, hsum⟩
  | refused frame peer e htask =>
      rw [htask] at hsum
      exact ⟨rx, qd, rd, hrx, hqd, hrd, hsum⟩
  | counted ret htask hret =>
      refine ⟨rx + 1, qd, rd, ?_, hqd, hrd, ?_⟩
      · simp only [hrx, ofNat_succ]
      · rw [htask, TxTask.hands] at hsum
        simp only [TxTask.hands]
        omega
  | countedDrop ret htask hret =>
      refine ⟨rx, qd, rd + 1, hrx, hqd, ?_, ?_⟩
      · simp only [hrd, ofNat_succ]
      · rw [htask, TxTask.hands] at hsum
        simp only [TxTask.hands]
        omega

theorem RxPath.Accounted.modEq {s : RxPath} (h : s.Accounted) :
    s.received.length ≡ s.statCanRx.toNat + s.statCanRxDrop.toNat + s.statRpmsgDrop.toNat +
      s.canRxQ.items.length + s.task.hands + s.discarded [MOD 2 ^ 32] := by
  obtain ⟨rx, qd, rd, hrx, hqd, hrd, hsum⟩ := h
  have hwrap : ∀ n : Nat, n ≡ (BitVec.ofNat 32 n).toNat [MOD 2 ^ 32] := by
    intro n
    rw [BitVec.toNat_ofNat]
    exact (Nat.mod_modEq n (2 ^ 32)).symm
  rw [hsum, hrx, hqd, hrd]
  exact ((((hwrap rx).add (hwrap qd)).add (hwrap rd)).add_right _).add_right _ |>.add_right _

/-- `stat_can_rx` counts exactly the accepted messages, but for one that has just been
accepted; the success code is never 0. -/
structure RxPath.Forwarded (s : RxPath) : Prop where
  count : BitVec.ofNat 32 s.accepted.length =
    s.statCanRx + if s.task = .returned sizeofWire then 1 else 0
  ret : s.task ≠ .returned 0

theorem preserves_forwarded : rxMachine.Preserves RxPath.Forwarded := by
  rintro s a t ⟨hcount, hret0⟩ hstep
  cases RxPath.step_cases hstep with
  | queued frame q hq => exact ⟨hcount, hret0⟩
  | dropped frame hfull => exact ⟨hcount, hret0⟩
  | recv src hsrc => exact ⟨hcount, hret0⟩
  | dequeued frame q htask hq => exact ⟨by simpa [htask] using hcount, by simp⟩
  | discarded frame htask hpeer => exact ⟨by simpa [htask] using hcount, by simp⟩
  | addressed frame htask hpeer => exact ⟨by simpa [htask] using hcount, by simp⟩
  | accepted frame peer htask =>
      simp only [htask, reduceCtorEq, if_false] at hcount
      exact ⟨by simp [BitVec.ofNat_add, hcount], by simp [sizeofWire]⟩
  | refused frame peer e htask =>
      have hneg := e.neg
      have hne : e.code ≠ (sizeofWire : Int) := by
        unfold sizeofWire
        omega
      exact ⟨by simpa [htask, hne] using hcount, by simpa using e.code_ne_zero⟩
  | counted ret htask hret =>
      have hsize : ret = sizeofWire := by
        rcases hret with rfl | hret
        · exact absurd htask hret0
        · exact hret
      rw [htask, hsize, if_pos rfl] at hcount
      exact ⟨by simpa using hcount, by simp⟩
  | countedDrop ret htask hret =>
      have hne : ret ≠ (sizeofWire : Int) := fun h => hret (Or.inr h)
      exact ⟨by simpa [htask, hne] using hcount, by simp⟩

/-! ## Discards -/

def RxPath.ReadsKnown (s : RxPath) : Prop :=
  ∀ frame peer, s.task = .addressed frame peer → s.peerAddr ≠ peerUnknown

theorem preserves_readsKnown : rxMachine.Preserves RxPath.ReadsKnown := by
  intro s a t hs hstep frame peer htask
  cases RxPath.step_cases hstep with
  | queued => exact hs frame peer htask
  | dropped => exact hs frame peer htask
  | recv src hsrc => exact hsrc
  | addressed _ _ hpeer => exact hpeer
  | dequeued => cases htask
  | discarded => cases htask
  | accepted => cases htask
  | refused => cases htask
  | counted => cases htask
  | countedDrop => cases htask

theorem preserves_discarded (k : Nat) :
    rxMachine.Preserves fun s => s.peerAddr ≠ peerUnknown ∧ s.discarded = k := by
  rintro s a t ⟨hpeer, hk⟩ hstep
  cases RxPath.step_cases hstep with
  | recv src hsrc => exact ⟨hsrc, hk⟩
  | discarded _ _ hunknown => exact absurd hunknown hpeer
  | queued => exact ⟨hpeer, hk⟩
  | dropped => exact ⟨hpeer, hk⟩
  | dequeued => exact ⟨hpeer, hk⟩
  | addressed => exact ⟨hpeer, hk⟩
  | accepted => exact ⟨hpeer, hk⟩
  | refused => exact ⟨hpeer, hk⟩
  | counted => exact ⟨hpeer, hk⟩
  | countedDrop => exact ⟨hpeer, hk⟩

/-! ## Every reachable state -/

variable {s : RxPath}

theorem ordered_of_reaches (hreach : rxMachine.Reaches .atBoot s) : s.Ordered :=
  preserves_ordered.reaches ⟨[], List.Sublist.refl _, rfl⟩ hreach

theorem accounted_of_reaches (hreach : rxMachine.Reaches .atBoot s) : s.Accounted :=
  preserves_accounted.reaches ⟨0, 0, 0, rfl, rfl, rfl, rfl⟩ hreach

theorem forwarded_of_reaches (hreach : rxMachine.Reaches .atBoot s) : s.Forwarded :=
  preserves_forwarded.reaches ⟨rfl, by simp [RxPath.atBoot]⟩ hreach

theorem readsKnown_of_reaches (hreach : rxMachine.Reaches .atBoot s) : s.ReadsKnown :=
  preserves_readsKnown.reaches (fun _ _ htask => by cases htask) hreach

/-- **No frame is duplicated, reordered or lost without being counted.**  Whatever the
interleaving, the accepted messages encode a subsequence of the received frames, the
counters and the places a frame can be in add up modulo `2 ^ 32`, `stat_can_rx` is the number of
the accepted messages but for one that has just been accepted, and a task that has read a known
peer discards nothing from then on. -/
theorem rxPath_accounts (hreach : rxMachine.Reaches .atBoot s) :
    (∃ frames : List CanFrame, frames.Sublist s.received ∧
      s.accepted.map RpmsgMessage.data = frames.map fun f => (wireOfFrame f).toBytes) ∧
    s.received.length ≡ s.statCanRx.toNat + s.statCanRxDrop.toNat + s.statRpmsgDrop.toNat +
      s.canRxQ.items.length + s.task.hands + s.discarded [MOD 2 ^ 32] ∧
    BitVec.ofNat 32 s.accepted.length =
      s.statCanRx + (if s.task = .returned sizeofWire then 1 else 0) ∧
    s.canRxQ.items.length ≤ 64 ∧ s.task.hands ≤ 1 ∧
    ∀ frame peer, s.task = .addressed frame peer →
      ∀ t, rxMachine.Reaches s t → t.discarded = s.discarded := by
  refine ⟨?_, (accounted_of_reaches hreach).modEq, (forwarded_of_reaches hreach).count,
    s.canRxQ.length_le, s.task.hands_le, ?_⟩
  · obtain ⟨frames, hsub, hdata⟩ := ordered_of_reaches hreach
    refine ⟨frames, List.Sublist.trans ?_ hsub, hdata⟩
    rw [List.append_assoc]
    exact List.sublist_append_left _ _
  · intro frame peer htask t hst
    have hpeer := readsKnown_of_reaches hreach frame peer htask
    exact ((preserves_discarded s.discarded).reaches ⟨hpeer, rfl⟩ hst).2

/-- A frame received before the peer is known and one received after it. -/
theorem rxPath_accounts_two :
    ∃ s, rxMachine.Reaches .atBoot s ∧ s.discarded = 1 ∧ s.accepted.length = 1 ∧
      s.received.length ≡ s.statCanRx.toNat + s.statCanRxDrop.toNat + s.statRpmsgDrop.toNat +
        s.canRxQ.items.length + s.task.hands + s.discarded [MOD 2 ^ 32] := by
  have hreach : rxMachine.Reaches .atBoot _ :=
    ⟨[.canRxCb ⟨0x123#32, 1#8, 0#8, zeroData⟩, .dequeue, .readPeer, .recv 1024#32,
      .canRxCb ⟨0x124#32, 1#8, 0#8, zeroData⟩, .dequeue, .readPeer, .send .ok, .count], rfl⟩
  exact ⟨_, hreach, rfl, rfl, (rxPath_accounts hreach).2.1⟩

end DataLogger.CanGw
