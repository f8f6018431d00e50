import DataLogger.CanGw.Codec
import DataLogger.MainApp.Parts

/-!
# What Linux can make of the messages

Two threads send on the endpoint of the gateway, and only the length of a message says whose
it is.  Splitting the stream by length gives back what each thread has sent, in order, so
that the guarantees of the two paths hold for Linux, which sees only the mixture.
-/

namespace DataLogger.MainApp

open DataLogger.Foundation
open DataLogger.Zephyr
open DataLogger.OpenAmp
open DataLogger.CanGw
open DataLogger.Keepalive
open DataLogger.RpmsgPlatform

variable {cfg : Config} {region : RscTable} {s t : System}

/-- The messages on the endpoint of a feature, as Linux gets them. -/
def System.inbox (s : System) (f : Feature) : List RpmsgMessage :=
  (s.wire.filter fun e => e.1.feature = f).map Prod.snd

/-- The messages of the size of `struct rpmsg_can_wire`. -/
def System.dataInbox (s : System) : List RpmsgMessage :=
  (s.inbox .canGw).filter fun m => m.data.length = sizeofWire

/-- The messages of the size of `struct rpmsg_can_ctrl`. -/
def System.ctrlInbox (s : System) : List RpmsgMessage :=
  (s.inbox .canGw).filter fun m => m.data.length = sizeofCtrl

/-! ## Sizes -/

theorem frames_of_reaches (h : (systemMachine cfg).Reaches (.initial cfg region) s) :
    ∃ frames : List CanFrame, frames.Sublist s.tx.received ∧
      (s.accepted .tx).map RpmsgMessage.data = frames.map fun f => (wireOfFrame f).toBytes := by
  obtain ⟨frames, hsub, hdata⟩ := ordered_of_reaches (rxPath_of_reaches h)
  refine ⟨frames, List.Sublist.trans ?_ hsub, hdata⟩
  rw [List.append_assoc]
  exact List.sublist_append_left _ _

theorem states_of_reaches (h : (systemMachine cfg).Reaches (.initial cfg region) s) :
    ∃ sent : List CanState, (s.accepted .ctl).map RpmsgMessage.data = sent.map evtStateData ∧
      SampledInOrder s.ctl.reported sent := by
  obtain ⟨sent, hdata, -, hsampled⟩ :=
    (preserves_sound.reaches EvtPath.sound_atBoot (evtPath_of_reaches h)).inOrder
  exact ⟨sent, hdata, hsampled⟩

theorem length_of_tx (h : (systemMachine cfg).Reaches (.initial cfg region) s) :
    ∀ m ∈ s.accepted .tx, m.data.length = sizeofWire := by
  obtain ⟨frames, -, hdata⟩ := frames_of_reaches h
  exact length_of_map_data hdata fun f => RpmsgCanWire.length_toBytes _

theorem length_of_ctl (h : (systemMachine cfg).Reaches (.initial cfg region) s) :
    ∀ m ∈ s.accepted .ctl, m.data.length = sizeofCtrl := by
  obtain ⟨sent, hdata, -⟩ := states_of_reaches h
  exact length_of_map_data hdata fun st => RpmsgCanCtrl.length_toBytes _

/-! ## Splitting the stream -/

/-- A size that only one of the two threads uses finds what that thread has sent. -/
theorem split_inbox {w : Sender} {size : Nat} (hw : w.feature = .canGw)
    (hsize : ∀ v x, v.feature = .canGw → (v, x) ∈ s.wire → (x.data.length = size ↔ v = w)) :
    ((s.inbox .canGw).filter fun m => m.data.length = size) = s.accepted w := by
  rw [System.accepted, ← writtenBy_filter (p := fun e => e.1.feature = .canGw) (by simp [hw])]
  apply filter_eq_writtenBy
  intro v x hx
  obtain ⟨hmem, hv⟩ := List.mem_filter.1 hx
  simp only [decide_eq_true_eq] at hv ⊢
  exact hsize v x hv hmem

theorem dataInbox_eq (h : (systemMachine cfg).Reaches (.initial cfg region) s) :
    s.dataInbox = s.accepted .tx := by
  apply split_inbox rfl
  intro v x hv hx
  cases v with
  | ka => cases hv
  | tx => simp [length_of_tx h x (mem_writtenBy.2 hx)]
  | ctl => simp [length_of_ctl h x (mem_writtenBy.2 hx), sizeofCtrl, sizeofWire]

theorem ctrlInbox_eq (h : (systemMachine cfg).Reaches (.initial cfg region) s) :
    s.ctrlInbox = s.accepted .ctl := by
  apply split_inbox rfl
  intro v x hv hx
  cases v with
  | ka => cases hv
  | tx => simp [length_of_tx h x (mem_writtenBy.2 hx), sizeofCtrl, sizeofWire]
  | ctl => simp [length_of_ctl h x (mem_writtenBy.2 hx)]

theorem keepaliveInbox_eq (s : System) : s.inbox .keepalive = s.accepted .ka := by
  rw [System.accepted, ← writtenBy_filter (p := fun e => e.1.feature = .keepalive) fun _ => rfl,
    ← filter_eq_writtenBy (p := fun _ => true), List.filter_true]
  · rfl
  · intro v x hx
    obtain ⟨-, hv⟩ := List.mem_filter.1 hx
    cases v with
    | ka => simp
    | tx | ctl => simp [Sender.feature] at hv

theorem inbox_sizes (h : (systemMachine cfg).Reaches (.initial cfg region) s) :
    ∀ m ∈ s.inbox .canGw, m.data.length = sizeofWire ∨ m.data.length = sizeofCtrl := by
  intro m hm
  obtain ⟨⟨v, x⟩, he, rfl⟩ := List.mem_map.1 hm
  obtain ⟨hmem, hv⟩ := List.mem_filter.1 he
  cases v with
  | ka => simp [Sender.feature] at hv
  | tx => exact .inl (length_of_tx h x (mem_writtenBy.2 hmem))
  | ctl => exact .inr (length_of_ctl h x (mem_writtenBy.2 hmem))

/-! ## Decoding it -/

theorem keepalive_message (h : (systemMachine cfg).Reaches (.initial cfg region) s) {i : Nat}
    {m : RpmsgMessage} (hi : (s.inbox .keepalive)[i]? = some m) :
    (KaMsg.ofBytes m.data).seq = BitVec.ofNat 32 i ∧ ∃ u, u ≤ s.clock ∧
      KaMsg.ofBytes m.data = kaMsg (BitVec.ofNat 32 u) (BitVec.ofNat 32 i) := by
  rw [keepaliveInbox_eq] at hi
  cases hloop : s.kaLoop with
  | none =>
      rw [(consistent_of_reaches h).kaLog hloop] at hi
      cases hi
  | some v =>
      obtain ⟨t0, peer, hreach⟩ := ka_of_reaches h hloop
      obtain ⟨-, u, -, -, hu, hdata⟩ := (steady_of_reaches hreach).message hi
      exact ⟨congrArg KaMsg.seq hdata, u, hu, hdata⟩

/-- **Linux can take the mixture apart.**  In every reachable state of the firmware, the
16-byte messages on the gateway's endpoint decode to a subsequence of the frames received
from the bus, the 8-byte ones carry controller states in the order of their reports, there
are no others, and message `i` on the keepalive's endpoint has number `i`. -/
theorem linux_takes_apart (h : (systemMachine cfg).Reaches (.initial cfg region) s) :
    (∃ frames : List CanFrame, frames.Sublist s.tx.received ∧
      s.dataInbox.map RpmsgMessage.data = (frames.map fun f => (wireOfFrame f).toBytes) ∧
      ((∀ f ∈ s.tx.received, f.WellFormed) →
        (s.dataInbox.map fun m => frameOfWire (RpmsgCanWire.ofBytes m.data)) = frames)) ∧
    (∃ sent : List CanState, SampledInOrder s.ctl.reported sent ∧
      s.ctrlInbox.map RpmsgMessage.data = sent.map evtStateData ∧
      (s.ctrlInbox.map fun m => (RpmsgCanCtrl.ofBytes m.data).arg) =
        sent.map fun st => BitVec.ofNat 32 st.code) ∧
    (∀ m ∈ s.inbox .canGw, m.data.length = sizeofWire ∨ m.data.length = sizeofCtrl) ∧
    ∀ (i : Nat) m, (s.inbox .keepalive)[i]? = some m →
      (KaMsg.ofBytes m.data).seq = BitVec.ofNat 32 i ∧ ∃ u, u ≤ s.clock ∧
        KaMsg.ofBytes m.data = kaMsg (BitVec.ofNat 32 u) (BitVec.ofNat 32 i) := by
  refine ⟨?_, ?_, inbox_sizes h, fun i m hi => keepalive_message h hi⟩
  · obtain ⟨frames, hsub, hdata⟩ := frames_of_reaches h
    rw [dataInbox_eq h]
    refine ⟨frames, hsub, hdata, fun hreceived => ?_⟩
    exact decode_frames hdata fun f hf => hreceived f (hsub.subset hf)
  · obtain ⟨sent, hdata, hsampled⟩ := states_of_reaches h
    rw [ctrlInbox_eq h]
    exact ⟨sent, hsampled, hdata, decode_states hdata⟩

/-- A state change that overtakes a frame in the task's hands. -/
def overtaken : List Action :=
  [.recvCan ⟨[0x68#8, 0x69#8], 1024#32, .allOk⟩, .recvCanEnd,
    .rx (.canRxCb ⟨0x123#32, 1#8, 0#8, zeroData⟩), .rx .dequeue,
    .evt (.report .busOff), .evt .give, .evt .take, .evt .readState, .rx .readPeer,
    .evt .readPeer, .evt (.send .ok), .rx (.send .ok), .rx .count]

theorem linux_takes_apart_overtaken :
    ∃ s, afterBringUp overtaken = some s ∧
      (s.inbox .canGw).map (fun m => m.data.length) = [8, 16] ∧
      ∃ frames : List CanFrame, frames.Sublist s.tx.received ∧
        s.dataInbox.map RpmsgMessage.data = frames.map fun f => (wireOfFrame f).toBytes := by
  have hrun : (afterBringUp overtaken).map
      (fun s => (s.inbox .canGw).map fun m => m.data.length) = some [8, 16] := by
    decide +kernel
  obtain ⟨s, hexec, hs⟩ := Option.map_eq_some_iff.1 hrun
  obtain ⟨⟨frames, hsub, hdata, -⟩, -⟩ := linux_takes_apart ⟨_, hexec⟩
  exact ⟨s, hexec, hs, frames, hsub, hdata⟩

end DataLogger.MainApp
