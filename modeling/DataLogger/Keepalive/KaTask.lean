import DataLogger.Foundation.Machine
import DataLogger.Foundation.Schedule
import DataLogger.OpenAmp.Rpmsg

/-!
# The keepalive stream

`ka_task` wakes up at absolute deadlines one period apart and sends one message to the peer
that `ka_recv_cb` has noted last.  Time, the callback and the answers of rpmsg are the
environment's; the thread may be held up between any two of its steps.
-/

namespace DataLogger.Keepalive

open DataLogger.Foundation
open DataLogger.Zephyr
open DataLogger.OpenAmp

/-! ## The message -/

/-- `struct ka_msg`. -/
structure KaMsg where
  magic : BitVec 32
  proto : BitVec 16
  len : BitVec 16
  uptimeMs : BitVec 32
  seq : BitVec 32
  deriving DecidableEq, Repr

def sizeofKaMsg : Nat := 16

def kaMagic : BitVec 32 := 0x414B434D#32
def kaProto : BitVec 16 := 1#16
def kaPeriodMs : Nat := 1000

namespace KaMsg

/-- The bytes of the struct on a little-endian core. -/
def toBytes (m : KaMsg) : List Byte :=
  le32Bytes m.magic ++ (leBytes 2 m.proto.toNat ++ (leBytes 2 m.len.toNat ++
    (le32Bytes m.uptimeMs ++ le32Bytes m.seq)))

def ofBytes (bytes : List Byte) : KaMsg where
  magic := le32 (bytes.take 4)
  proto := BitVec.ofNat 16 (readLE ((bytes.drop 4).take 2))
  len := BitVec.ofNat 16 (readLE ((bytes.drop 6).take 2))
  uptimeMs := le32 ((bytes.drop 8).take 4)
  seq := le32 ((bytes.drop 12).take 4)

@[simp] theorem length_toBytes (m : KaMsg) : m.toBytes.length = sizeofKaMsg := by
  simp [toBytes, sizeofKaMsg]

theorem ofNat_readLE_leBytes (x : BitVec 16) :
    BitVec.ofNat 16 (readLE (leBytes 2 x.toNat)) = x := by
  have hx : x.toNat < 256 ^ 2 := x.isLt
  rw [readLE_leBytes hx, BitVec.ofNat_toNat, BitVec.setWidth_eq]

@[simp] theorem ofBytes_toBytes (m : KaMsg) : ofBytes m.toBytes = m := by
  obtain ⟨magic, proto, len, uptimeMs, seq⟩ := m
  simp [ofBytes, toBytes, List.drop_append, ofNat_readLE_leBytes, List.take_of_length_le,
    List.drop_of_length_le]

end KaMsg

/-- The message of a period, with what `ka_task` fills in. -/
def kaMsg (uptimeMs seq : BitVec 32) : KaMsg :=
  ⟨kaMagic, kaProto, BitVec.ofNat 16 sizeofKaMsg, uptimeMs, seq⟩

/-! ## The task -/

/-- `MAIN_APP_KA_TEST_PAUSE_AT_S` and `MAIN_APP_KA_TEST_PAUSE_LEN_S`. -/
structure TestPause where
  pauseAt : Int
  pauseLen : Int

inductive KaPc where
  | sleeping
  | awake
  | stamping (peer : BitVec 32)
  | sending (peer : BitVec 32) (uptime : Nat)
  deriving DecidableEq

/-- `ka_task` in its loop.  `wakes` and `stamps` are the uptimes at which it woke up and at
which it stamped the messages that were then accepted. -/
structure Ka where
  clock : Nat
  peer : BitVec 32
  pc : KaPc
  next : Nat
  seq : BitVec 32
  testPaused : Int
  accepted : List RpmsgMessage
  wakes : List Nat
  stamps : List Nat
  deriving DecidableEq

inductive KaAct where
  | pass (ms : Nat)
  | recv (src : BitVec 32)
  | run (r : Reply)

def noPeer : BitVec 32 := 0xFFFFFFFF#32

namespace Ka

/-- The head of the loop: the next deadline, and to sleep. -/
def loopHead (s : Ka) : Ka := { s with next := s.next + kaPeriodMs, pc := .sleeping }

/-- `ka_task` enters its loop at uptime `t0`. -/
def enter (t0 : Nat) (peer : BitVec 32) : Ka :=
  loopHead ⟨t0, peer, .awake, t0, 0#32, 0, [], [], []⟩

/-- After the wake-up: the peer, and the pause for tests. -/
def check (cfg : TestPause) (s : Ka) : Ka :=
  if s.peer = noPeer then s.loopHead
  else if 0 < cfg.pauseAt ∧ cfg.pauseAt ≤ s.seq.toNat ∧ s.testPaused < cfg.pauseLen then
    { s with testPaused := s.testPaused + 1 }.loopHead
  else { s with pc := .stamping s.peer }

/-- The attempt to send the message that was stamped at `uptime`. -/
def send (r : Reply) (peer : BitVec 32) (uptime : Nat) (s : Ka) : Ka :=
  let msg := kaMsg (BitVec.ofNat 32 uptime) s.seq
  let (ret, accepted) := rpmsgTrysendto r ⟨msg.toBytes, peer⟩ s.accepted
  if ret ≥ 0 then
    { s with accepted := accepted, seq := s.seq + 1#32, stamps := s.stamps ++ [uptime] }.loopHead
  else { s with accepted := accepted }.loopHead

/-- The task's next step; it does not wake up before its deadline. -/
def run (cfg : TestPause) (r : Reply) (s : Ka) : Option Ka :=
  match s.pc with
  | .sleeping =>
      if s.next ≤ s.clock then some { s with pc := .awake, wakes := s.wakes ++ [s.clock] }
      else none
  | .awake => some (s.check cfg)
  | .stamping peer => some { s with pc := .sending peer s.clock }
  | .sending peer uptime => some (s.send r peer uptime)

def step (cfg : TestPause) (s : Ka) : KaAct → Option Ka
  | .pass ms => some { s with clock := s.clock + ms }
  | .recv src => some { s with peer := src }
  | .run r => s.run cfg r

end Ka

def kaMachine (cfg : TestPause) : Machine Ka KaAct := ⟨Ka.step cfg⟩

/-! ## The invariant of the loop -/

/-- A message under way: `peer` is a real one, and with the stamp `uptime` of it the stamps
of the accepted messages stay in order and on schedule. -/
def KaPc.Sound (t0 : Nat) (s : Ka) : KaPc → Prop
  | .sleeping => True
  | .awake => True
  | .stamping peer => peer ≠ noPeer
  | .sending peer uptime => peer ≠ noPeer ∧ uptime ≤ s.clock ∧
      t0 + kaPeriodMs * s.wakes.length ≤ uptime ∧ ∀ u ∈ s.stamps, u ≤ uptime

/-- What the loop keeps, with `t0` the uptime at which it was entered. -/
structure Ka.Steady (t0 : Nat) (s : Ka) : Prop where
  start_le : t0 ≤ s.clock
  schedule : s.next = t0 + kaPeriodMs *
    (if s.pc = .sleeping then s.wakes.length + 1 else s.wakes.length)
  wakes : OnSchedule t0 kaPeriodMs s.wakes
  wakes_le : ∀ u ∈ s.wakes, u ≤ s.clock
  stamps : OnSchedule t0 kaPeriodMs s.stamps
  stamps_le : ∀ u ∈ s.stamps, u ≤ s.clock
  stamps_sorted : s.stamps.Pairwise (· ≤ ·)
  stamps_lt : s.stamps.length + (if s.pc = .sleeping then 0 else 1) ≤ s.wakes.length
  pc : s.pc.Sound t0 s
  length : s.accepted.length = s.stamps.length
  seq : s.seq = BitVec.ofNat 32 s.accepted.length
  accepted : ∀ i msg, s.accepted[i]? = some msg → msg.dst ≠ noPeer ∧
    ∃ u, s.stamps[i]? = some u ∧
      msg.data = (kaMsg (BitVec.ofNat 32 u) (BitVec.ofNat 32 i)).toBytes

variable {cfg : TestPause} {t0 : Nat} {s t : Ka} {r : Reply} {peer : BitVec 32} {uptime : Nat}

theorem steady_enter (t0 : Nat) (peer : BitVec 32) : (Ka.enter t0 peer).Steady t0 := by
  refine ⟨Nat.le_refl t0, rfl, onSchedule_nil, ?_, onSchedule_nil, ?_, List.Pairwise.nil,
    Nat.le_refl 0, trivial, rfl, rfl, ?_⟩
  · intro u hu
    cases hu
  · intro u hu
    cases hu
  · intro i msg hi
    simp [Ka.enter, Ka.loopHead] at hi

/-- Neither time nor another peer makes a message under way unsound. -/
theorem KaPc.Sound.mono {pc : KaPc} (h : pc.Sound t0 s) (hclock : s.clock ≤ t.clock)
    (hwakes : t.wakes = s.wakes) (hstamps : t.stamps = s.stamps) : pc.Sound t0 t := by
  cases pc with
  | sleeping => trivial
  | awake => trivial
  | stamping peer => exact h
  | sending peer uptime =>
      obtain ⟨hpeer, hle, hdeadline, hsorted⟩ := h
      rw [← hwakes] at hdeadline
      rw [← hstamps] at hsorted
      exact ⟨hpeer, Nat.le_trans hle hclock, hdeadline, hsorted⟩

theorem steady_pass (hs : s.Steady t0) (ms : Nat) :
    Ka.Steady t0 { s with clock := s.clock + ms } :=
  ⟨Nat.le_add_right_of_le hs.start_le, hs.schedule, hs.wakes,
    fun u hu => Nat.le_add_right_of_le (hs.wakes_le u hu), hs.stamps,
    fun u hu => Nat.le_add_right_of_le (hs.stamps_le u hu), hs.stamps_sorted, hs.stamps_lt,
    hs.pc.mono (Nat.le_add_right _ _) rfl rfl, hs.length, hs.seq, hs.accepted⟩

theorem steady_recv (hs : s.Steady t0) (src : BitVec 32) :
    Ka.Steady t0 { s with peer := src } :=
  ⟨hs.start_le, hs.schedule, hs.wakes, hs.wakes_le, hs.stamps, hs.stamps_le,
    hs.stamps_sorted, hs.stamps_lt, hs.pc.mono (Nat.le_refl _) rfl rfl, hs.length, hs.seq,
    hs.accepted⟩

theorem steady_wake (hs : s.Steady t0) (hpc : s.pc = .sleeping) (hdue : s.next ≤ s.clock) :
    Ka.Steady t0 { s with pc := .awake, wakes := s.wakes ++ [s.clock] } := by
  have hschedule := hs.schedule
  have hstamps := hs.stamps_lt
  rw [hpc, if_pos rfl] at hschedule hstamps
  refine ⟨hs.start_le, ?_, hs.wakes.append (hschedule ▸ hdue), ?_, hs.stamps, hs.stamps_le,
    hs.stamps_sorted, ?_, trivial, hs.length, hs.seq, hs.accepted⟩
  · rw [if_neg (by simp), List.length_append]
    exact hschedule
  · intro u hu
    rcases List.mem_append.1 hu with h | h
    · exact hs.wakes_le u h
    · exact Nat.le_of_eq (List.mem_singleton.1 h)
  · rw [if_neg (by simp), List.length_append]
    exact Nat.add_le_add_right hstamps 1

/-- A move of the thread within its period. -/
theorem steady_move {pc : KaPc} (hs : s.Steady t0) (hpc : s.pc ≠ .sleeping)
    (hne : pc ≠ .sleeping) (hsound : pc.Sound t0 s) : Ka.Steady t0 { s with pc := pc } := by
  have hschedule := hs.schedule
  have hstamps := hs.stamps_lt
  rw [if_neg hpc] at hschedule hstamps
  refine ⟨hs.start_le, ?_, hs.wakes, hs.wakes_le, hs.stamps, hs.stamps_le, hs.stamps_sorted,
    ?_, ?_, hs.length, hs.seq, hs.accepted⟩
  · rw [if_neg hne]
    exact hschedule
  · rw [if_neg hne]
    exact hstamps
  · exact hsound.mono (Nat.le_refl _) rfl rfl

/-- A period that ends without an accepted message: only the deadline moves on. -/
theorem steady_loopHead (hs : s.Steady t0) (hpc : s.pc ≠ .sleeping) :
    s.loopHead.Steady t0 := by
  have hschedule := hs.schedule
  have hstamps := hs.stamps_lt
  rw [if_neg hpc] at hschedule hstamps
  refine ⟨hs.start_le, ?_, hs.wakes, hs.wakes_le, hs.stamps, hs.stamps_le, hs.stamps_sorted,
    ?_, trivial, hs.length, hs.seq, hs.accepted⟩
  · rw [Ka.loopHead, if_pos rfl, Nat.mul_succ, ← Nat.add_assoc, ← hschedule]
  · exact Nat.le_of_succ_le hstamps

theorem steady_testPaused (hs : s.Steady t0) (n : Int) :
    Ka.Steady t0 { s with testPaused := n } :=
  ⟨hs.start_le, hs.schedule, hs.wakes, hs.wakes_le, hs.stamps, hs.stamps_le,
    hs.stamps_sorted, hs.stamps_lt, hs.pc.mono (Nat.le_refl _) rfl rfl, hs.length, hs.seq,
    hs.accepted⟩

theorem steady_check (hs : s.Steady t0) (hpc : s.pc = .awake) : (s.check cfg).Steady t0 := by
  have hne : s.pc ≠ .sleeping := by rw [hpc]; decide
  rw [Ka.check]
  split
  · exact steady_loopHead hs hne
  · rename_i hpeer
    split
    · exact steady_loopHead (steady_testPaused hs _) hne
    · exact steady_move hs hne (by simp) hpeer

theorem steady_stamp (hs : s.Steady t0) (hpc : s.pc = .stamping peer) :
    Ka.Steady t0 { s with pc := .sending peer s.clock } := by
  have hne : s.pc ≠ .sleeping := by rw [hpc]; simp
  have hpeer := hs.pc
  have hstamps := hs.stamps_lt
  rw [hpc] at hpeer
  rw [if_neg hne] at hstamps
  have hdeadline := hs.wakes.deadline_le (by omega) hs.wakes_le
  exact steady_move hs hne (by simp) ⟨hpeer, Nat.le_refl _, hdeadline, hs.stamps_le⟩

/-- A period whose message rpmsg takes. -/
theorem steady_accept (hs : s.Steady t0) (hpc : s.pc = .sending peer uptime) :
    Ka.Steady t0 (Ka.loopHead { s with
      accepted := s.accepted ++
        [⟨(kaMsg (BitVec.ofNat 32 uptime) s.seq).toBytes, peer⟩],
      seq := s.seq + 1#32, stamps := s.stamps ++ [uptime] }) := by
  have hne : s.pc ≠ .sleeping := by rw [hpc]; simp
  have hschedule := hs.schedule
  have hstamps := hs.stamps_lt
  have hsound := hs.pc
  rw [if_neg hne] at hschedule hstamps
  rw [hpc] at hsound
  obtain ⟨hpeer, hclock, hdeadline, hsorted⟩ := hsound
  have honTime : t0 + kaPeriodMs * (s.stamps.length + 1) ≤ uptime :=
    Nat.le_trans (Nat.add_le_add_left (Nat.mul_le_mul_left _ hstamps) t0) hdeadline
  refine ⟨hs.start_le, ?_, hs.wakes, hs.wakes_le, hs.stamps.append honTime, ?_, ?_, ?_,
    trivial, ?_, ?_, ?_⟩
  · rw [Ka.loopHead, if_pos rfl, Nat.mul_succ, ← Nat.add_assoc, ← hschedule]
  · intro u hu
    rcases List.mem_append.1 hu with h | h
    · exact hs.stamps_le u h
    · rw [List.mem_singleton.1 h]
      exact hclock
  · refine List.pairwise_append.2 ⟨hs.stamps_sorted, List.pairwise_singleton _ _, ?_⟩
    intro u hu v hv
    rw [List.mem_singleton.1 hv]
    exact hsorted u hu
  · simpa [Ka.loopHead] using hstamps
  · simp [Ka.loopHead, hs.length]
  · simp [Ka.loopHead, hs.seq, BitVec.ofNat_add]
  · intro i msg hi
    rcases getElem?_concat_cases hi with hold | ⟨rfl, rfl⟩
    · obtain ⟨hdst, u, hu, hdata⟩ := hs.accepted i msg hold
      refine ⟨hdst, u, ?_, hdata⟩
      exact (List.getElem?_append_left (List.getElem?_eq_some_iff.1 hu).1).trans hu
    · refine ⟨hpeer, uptime, ?_, ?_⟩
      · rw [hs.length]
        exact List.getElem?_concat_length
      · rw [hs.seq]

theorem send_fail (s : Ka) (e : Errno) (peer : BitVec 32) (uptime : Nat) :
    s.send (.fail e) peer uptime = s.loopHead := by
  have hneg : ¬ e.code ≥ 0 := Int.not_le.2 e.neg
  exact if_neg hneg

theorem steady_send (hs : s.Steady t0) (hpc : s.pc = .sending peer uptime) :
    (s.send r peer uptime).Steady t0 := by
  have hne : s.pc ≠ .sleeping := by rw [hpc]; simp
  cases r with
  | ok => exact steady_accept hs hpc
  | fail e =>
      rw [send_fail]
      exact steady_loopHead hs hne

theorem steady_step : (kaMachine cfg).Preserves (Ka.Steady t0) := by
  intro s a t hs hstep
  cases a with
  | pass ms =>
      cases hstep
      exact steady_pass hs ms
  | recv src =>
      cases hstep
      exact steady_recv hs src
  | run r =>
      change s.run cfg r = some t at hstep
      rw [Ka.run] at hstep
      cases hpc : s.pc with
      | sleeping =>
          simp only [hpc] at hstep
          obtain ⟨hdue, hnext⟩ := Option.ite_none_right_eq_some.1 hstep
          cases hnext
          exact steady_wake hs hpc hdue
      | awake =>
          rw [hpc] at hstep
          cases hstep
          exact steady_check hs hpc
      | stamping peer =>
          rw [hpc] at hstep
          cases hstep
          exact steady_stamp hs hpc
      | sending peer uptime =>
          rw [hpc] at hstep
          cases hstep
          exact steady_send hs hpc

theorem steady_of_reaches (h : (kaMachine cfg).Reaches (Ka.enter t0 peer) s) : s.Steady t0 :=
  steady_step.reaches (steady_enter t0 peer) h

/-! ## The stream that Linux sees -/

namespace Ka.Steady

theorem message {i : Nat} {msg : RpmsgMessage} (hs : s.Steady t0)
    (hi : s.accepted[i]? = some msg) :
    msg.dst ≠ noPeer ∧ ∃ u, s.stamps[i]? = some u ∧
      t0 + kaPeriodMs * (i + 1) ≤ u ∧ u ≤ s.clock ∧
      KaMsg.ofBytes msg.data = kaMsg (BitVec.ofNat 32 u) (BitVec.ofNat 32 i) := by
  obtain ⟨hdst, u, hu, hdata⟩ := hs.accepted i msg hi
  refine ⟨hdst, u, hu, hs.stamps i u hu, hs.stamps_le u (List.mem_of_getElem? hu), ?_⟩
  rw [hdata, KaMsg.ofBytes_toBytes]

theorem fields {i : Nat} {msg : RpmsgMessage} (hs : s.Steady t0)
    (hi : s.accepted[i]? = some msg) :
    msg.dst ≠ noPeer ∧
      (KaMsg.ofBytes msg.data).magic = 0x414B434D#32 ∧ (KaMsg.ofBytes msg.data).proto = 1#16 ∧
      (KaMsg.ofBytes msg.data).len = 16#16 ∧
      (KaMsg.ofBytes msg.data).seq = BitVec.ofNat 32 i ∧
      ∃ u, s.stamps[i]? = some u ∧ t0 + 1000 * (i + 1) ≤ u ∧ u ≤ s.clock ∧
        (KaMsg.ofBytes msg.data).uptimeMs = BitVec.ofNat 32 u := by
  obtain ⟨hdst, u, hu, hdue, hclock, hdata⟩ := hs.message hi
  rw [hdata]
  exact ⟨hdst, rfl, rfl, rfl, rfl, u, hu, hdue, hclock, rfl⟩

/-- Between two messages that arrive, the step of `seq` counts the ones that did not. -/
theorem seq_step {sent lost rest : List RpmsgMessage} {a b : RpmsgMessage} (hs : s.Steady t0)
    (hsplit : s.accepted = sent ++ a :: (lost ++ b :: rest)) :
    (KaMsg.ofBytes b.data).seq =
      (KaMsg.ofBytes a.data).seq + 1#32 + BitVec.ofNat 32 lost.length := by
  have ha : s.accepted[sent.length]? = some a := by
    rw [hsplit]
    simp
  have hb : s.accepted[sent.length + 1 + lost.length]? = some b := by
    rw [hsplit, List.getElem?_append_right (by omega), Nat.add_assoc, Nat.add_sub_cancel_left,
      Nat.add_comm 1, List.getElem?_cons_succ, List.getElem?_append_right (Nat.le_refl _)]
    simp
  obtain ⟨-, u, -, -, -, hdataA⟩ := hs.message ha
  obtain ⟨-, v, -, -, -, hdataB⟩ := hs.message hb
  rw [hdataA, hdataB]
  simp [kaMsg, BitVec.ofNat_add]

theorem length_le (hs : s.Steady t0) :
    s.accepted.length ≤ (s.clock - t0) / kaPeriodMs := by
  rw [hs.length]
  exact hs.stamps.length_le (by decide) hs.stamps_le

end Ka.Steady

/-- However a period ends, the deadline moves on by one period; `seq` counts what rpmsg has
taken and nothing else. -/
theorem run_period_end (hrun : s.run cfg r = some t) (hawake : s.pc ≠ .sleeping)
    (hend : t.pc = .sleeping) :
    t.next = s.next + kaPeriodMs ∧ (t.accepted = s.accepted → t.seq = s.seq) := by
  rw [Ka.run] at hrun
  cases hpc : s.pc with
  | sleeping => exact absurd hpc hawake
  | awake =>
      rw [hpc] at hrun
      cases hrun
      rw [Ka.check] at hend ⊢
      split
      · exact ⟨rfl, fun _ => rfl⟩
      · rename_i hpeer
        rw [if_neg hpeer] at hend
        split
        · exact ⟨rfl, fun _ => rfl⟩
        · rename_i hactive
          rw [if_neg hactive] at hend
          cases hend
  | stamping peer =>
      rw [hpc] at hrun
      cases hrun
      cases hend
  | sending peer uptime =>
      rw [hpc] at hrun
      cases hrun
      cases r with
      | ok =>
          refine ⟨rfl, fun hsame => ?_⟩
          have hlonger : s.accepted ++ [_] = s.accepted := hsame
          simp at hlonger
      | fail e =>
          rw [send_fail]
          exact ⟨rfl, fun _ => rfl⟩

/-- Linux can count losses by `seq` and measure time by `uptimeMs`, whatever the delays, the
peers, the refusals and the pauses. -/
theorem keepalive_stream (h : (kaMachine cfg).Reaches (Ka.enter t0 peer) s) :
    (∀ i msg, s.accepted[i]? = some msg → msg.dst ≠ noPeer ∧
      (KaMsg.ofBytes msg.data).magic = 0x414B434D#32 ∧ (KaMsg.ofBytes msg.data).proto = 1#16 ∧
      (KaMsg.ofBytes msg.data).len = 16#16 ∧
      (KaMsg.ofBytes msg.data).seq = BitVec.ofNat 32 i ∧
      ∃ u, s.stamps[i]? = some u ∧ t0 + 1000 * (i + 1) ≤ u ∧ u ≤ s.clock ∧
        (KaMsg.ofBytes msg.data).uptimeMs = BitVec.ofNat 32 u) ∧
    s.stamps.length = s.accepted.length ∧ s.stamps.Pairwise (· ≤ ·) ∧
    (∀ sent a lost b rest, s.accepted = sent ++ a :: (lost ++ b :: rest) →
      (KaMsg.ofBytes b.data).seq =
        (KaMsg.ofBytes a.data).seq + 1#32 + BitVec.ofNat 32 lost.length) ∧
    s.seq = BitVec.ofNat 32 s.accepted.length ∧
    s.next = t0 + 1000 *
      (if s.pc = .sleeping then s.wakes.length + 1 else s.wakes.length) ∧
    (∀ r t, s.run cfg r = some t → s.pc ≠ .sleeping → t.pc = .sleeping →
      t.next = s.next + 1000 ∧ (t.accepted = s.accepted → t.seq = s.seq)) ∧
    (∀ k u, s.wakes[k]? = some u → t0 + 1000 * (k + 1) ≤ u ∧ u ≤ s.clock) ∧
    s.accepted.length ≤ (s.clock - t0) / 1000 := by
  have hs := steady_of_reaches h
  refine ⟨fun i msg hi => hs.fields hi, hs.length.symm, hs.stamps_sorted, ?_, hs.seq,
    hs.schedule, fun r t => run_period_end, ?_, hs.length_le⟩
  · intro sent a lost b rest hsplit
    exact hs.seq_step hsplit
  · intro k u hk
    exact ⟨hs.wakes k u hk, hs.wakes_le u (List.mem_of_getElem? hk)⟩

/-- A late peer, a refusal, a pause of one period and a stall of several: three messages, the
second of them lost. -/
theorem keepalive_stream_stall :
    ∃ s, (kaMachine ⟨1, 1⟩).exec (Ka.enter 400 noPeer)
        [.pass 1000, .run .ok, .run .ok, .recv 9#32, .pass 6005, .run .ok, .run .ok,
          .run .ok, .run (.fail rpmsgErrNoBuff), .run .ok, .run .ok, .run .ok, .run .ok,
          .run .ok, .run .ok, .run .ok, .run .ok, .run .ok, .run .ok, .pass 3,
          .run .ok, .run .ok, .run .ok, .run .ok] = some s ∧
      s.stamps = [7405, 7405, 7408] ∧ s.next = 7400 ∧
      ∃ a lost b, s.accepted = [a, lost, b] ∧
        (KaMsg.ofBytes b.data).seq = (KaMsg.ofBytes a.data).seq + 2#32 ∧
        (KaMsg.ofBytes b.data).magic = 0x414B434D#32 ∧
        (KaMsg.ofBytes b.data).uptimeMs = 7408#32 := by
  have hrun : ((kaMachine ⟨1, 1⟩).exec (Ka.enter 400 noPeer)
      [.pass 1000, .run .ok, .run .ok, .recv 9#32, .pass 6005, .run .ok, .run .ok,
        .run .ok, .run (.fail rpmsgErrNoBuff), .run .ok, .run .ok, .run .ok, .run .ok,
        .run .ok, .run .ok, .run .ok, .run .ok, .run .ok, .run .ok, .pass 3,
        .run .ok, .run .ok, .run .ok, .run .ok]).map
          (fun s => (s.stamps, s.next, s.accepted.length)) =
      some ([7405, 7405, 7408], 7400, 3) := by decide +kernel
  obtain ⟨s, hexec, hs⟩ := Option.map_eq_some_iff.1 hrun
  simp only [Prod.mk.injEq] at hs
  obtain ⟨hstamps, hnext, hlength⟩ := hs
  obtain ⟨a, lost, b, hsplit⟩ := List.length_eq_three.1 hlength
  have hstream := keepalive_stream ⟨_, hexec⟩
  have hstep := hstream.2.2.2.1 [] a [lost] b [] hsplit
  have hlast : s.accepted[2]? = some b := by rw [hsplit]; rfl
  obtain ⟨-, hmagic, -, -, -, u, hu, -, -, huptime⟩ := hstream.1 2 b hlast
  rw [hstamps] at hu
  cases hu
  refine ⟨s, hexec, hstamps, hnext, a, lost, b, hsplit, ?_, hmagic, huptime⟩
  rw [hstep, BitVec.add_assoc]
  rfl

end DataLogger.Keepalive
