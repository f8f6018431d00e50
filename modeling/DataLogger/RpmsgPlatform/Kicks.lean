import DataLogger.Foundation.Machine

/-!
# Kicks over the messaging unit

Linux kicks by writing a transmit register, and its write is over once the other side has
read the matching receive register.  `rpmsg_mng_task` does not use the interrupt: in each
turn of its loop `mu_ack_rx` reads the receive registers that a snapshot of the status
register shows full, and then the vring is looked at.
-/

namespace DataLogger.RpmsgPlatform

open DataLogger.Foundation

/-! ## The unit and the loop -/

/-- The receive-full flag of channel `n` in the status register. -/
def rf (n : Fin 4) : Nat := 27 - n

/-- A kick: the steps the loop had done when it was written, and the messages that were in the
vring by then. -/
structure Kick where
  since : Nat
  posted : Nat
  deriving DecidableEq

/-- Where the loop stands; `acking` is `mu_ack_rx` with its snapshot, in front of channel `n`. -/
inductive PollPc where
  | sleeping
  | acking (sr : BitVec 32) (n : Fin 4)
  | notifying
  deriving DecidableEq

/-- In front of the first channel. -/
def PollPc.acks (sr : BitVec 32) : PollPc := acking sr ⟨0, Nat.zero_lt_succ 3⟩

/-- `sr` is the status register; `posted` and `taken` count the messages that Linux has put into
the vring and that were taken from it.  `steps`, `kicked`, `acked` and `empty` only record:
the steps of the loop, the kick in each full register, the ones read with the step of the
read, and the reads of registers that were not full. -/
structure MessagingUnit where
  sr : BitVec 32
  pc : PollPc
  posted : Nat
  taken : Nat
  steps : Nat
  kicked : Fin 4 → Option Kick
  acked : List (Kick × Nat)
  empty : Nat

/-- The registers are free, whatever the other flags are. -/
def MessagingUnit.initial (sr : BitVec 32) : MessagingUnit where
  sr := sr &&& ~~~0x0F000000#32
  pc := .sleeping
  posted := 0
  taken := 0
  steps := 0
  kicked _ := none
  acked := []
  empty := 0

/-- `post`: Linux puts a message into the vring.  `kick`: it writes the register of a channel,
which has to be free.  `poll`: the next step of the loop. -/
inductive KickAction where
  | post
  | kick (n : Fin 4)
  | poll
  deriving DecidableEq

namespace MessagingUnit

/-- One turn of the loop in `mu_ack_rx`. -/
def ackRx (sr : BitVec 32) (n : Fin 4) (s : MessagingUnit) : MessagingUnit :=
  if sr.getLsbD (rf n) then
    { s with
      sr := s.sr &&& ~~~(BitVec.twoPow 32 (rf n))
      kicked := Function.update s.kicked n none
      acked := s.acked ++ ((s.kicked n).map fun k => (k, s.steps)).toList
      empty := if s.sr.getLsbD (rf n) then s.empty else s.empty + 1 }
  else s

/-- One step of the loop.  `taken := s.posted` stands for `rproc_virtio_notified`, which hands on
messages until the vring is empty; messages that Linux adds meanwhile count for a later turn. -/
def poll (s : MessagingUnit) : MessagingUnit :=
  match s.pc with
  | .sleeping => { s with pc := .acks s.sr, steps := s.steps + 1 }
  | .acking sr n =>
      { s.ackRx sr n with
        pc := if h : n.val + 1 < 4 then .acking sr ⟨n.val + 1, h⟩ else .notifying
        steps := s.steps + 1 }
  | .notifying => { s with pc := .sleeping, taken := s.posted, steps := s.steps + 1 }

def step (s : MessagingUnit) : KickAction → Option MessagingUnit
  | .post => some { s with posted := s.posted + 1 }
  | .kick n =>
      if s.sr.getLsbD (rf n) then none
      else
        some { s with
          sr := s.sr ||| BitVec.twoPow 32 (rf n)
          kicked := Function.update s.kicked n (some ⟨s.steps, s.posted⟩) }
  | .poll => some s.poll

end MessagingUnit

def kickMachine : Machine MessagingUnit KickAction := ⟨MessagingUnit.step⟩

/-! ## Flags -/

theorem rf_inj {n m : Fin 4} : rf n = rf m ↔ n = m := by
  rw [rf, rf, Fin.ext_iff]
  omega

theorem rf_lt (n : Fin 4) : rf n < 32 := by
  rw [rf]
  omega

theorem flag_set (sr : BitVec 32) (n m : Fin 4) :
    (sr ||| BitVec.twoPow 32 (rf n)).getLsbD (rf m) = (sr.getLsbD (rf m) || decide (n = m)) := by
  have hlt := rf_lt n
  rw [BitVec.getLsbD_or, BitVec.getLsbD_twoPow, decide_eq_true hlt, Bool.true_and]
  simp only [rf_inj]

theorem flag_clear (sr : BitVec 32) (n m : Fin 4) :
    (sr &&& ~~~(BitVec.twoPow 32 (rf n))).getLsbD (rf m) =
      (sr.getLsbD (rf m) && !decide (n = m)) := by
  have hlt := rf_lt n
  have hlt' := rf_lt m
  rw [BitVec.getLsbD_and, BitVec.getLsbD_not, BitVec.getLsbD_twoPow, decide_eq_true hlt,
    decide_eq_true hlt', Bool.true_and, Bool.true_and]
  simp only [rf_inj]

/-! ## The invariant -/

/-- The number of a step within its turn. -/
def PollPc.position : PollPc → Nat
  | sleeping => 0
  | acking _ n => 1 + n
  | notifying => 5

/-- A kick that waits on channel `n`: of this turn or the one before, and only of this one once
its channel has been passed. -/
structure MessagingUnit.Waits (s : MessagingUnit) (n : Fin 4) (k : Kick) : Prop where
  since_le : k.since ≤ s.steps
  recent : s.steps ≤ k.since + 5 + s.pc.position
  posted_le : k.posted ≤ s.posted
  acking : ∀ sr m, s.pc = .acking sr m →
    (m ≤ n → (sr.getLsbD (rf n) = true ↔ k.since + (1 + m) ≤ s.steps)) ∧
      (n < m → s.steps < k.since + (1 + m))
  notifying : s.pc = .notifying → s.steps < k.since + 5

structure MessagingUnit.Sound (s : MessagingUnit) : Prop where
  flags : ∀ n, s.sr.getLsbD (rf n) = (s.kicked n).isSome
  waits : ∀ n k, s.kicked n = some k → s.Waits n k
  snapshot : ∀ sr m, s.pc = .acking sr m → ∀ n, m ≤ n → sr.getLsbD (rf n) = true →
    (s.kicked n).isSome = true
  acked : ∀ e ∈ s.acked, e.2 ≤ e.1.since + 9 ∧ e.1.posted ≤ s.posted
  taken : s.pc = .sleeping → ∀ e ∈ s.acked, e.1.posted ≤ s.taken
  empty : s.empty = 0

theorem kicks_sound_initial (sr : BitVec 32) : (MessagingUnit.initial sr).Sound := by
  have hmask : ∀ n : Fin 4, (0x0F000000#32).getLsbD (rf n) = true := by decide
  refine ⟨?_, ?_, ?_, ?_, ?_, rfl⟩
  · intro n
    change (sr &&& ~~~0x0F000000#32).getLsbD (rf n) = false
    rw [BitVec.getLsbD_and, BitVec.getLsbD_not, hmask, Bool.not_true, Bool.and_false,
      Bool.and_false]
  · intro n k hk
    cases hk
  · intro sr' m hpc
    cases hpc
  · intro e he
    cases he
  · intro _ e he
    cases he

theorem sound_post {s : MessagingUnit} (hs : s.Sound) :
    MessagingUnit.Sound { s with posted := s.posted + 1 } := by
  refine ⟨hs.flags, ?_, hs.snapshot, ?_, hs.taken, hs.empty⟩
  · intro n k hk
    have hw := hs.waits n k hk
    exact ⟨hw.since_le, hw.recent, Nat.le_succ_of_le hw.posted_le, hw.acking, hw.notifying⟩
  · intro e he
    obtain ⟨hage, hposted⟩ := hs.acked e he
    exact ⟨hage, Nat.le_succ_of_le hposted⟩

theorem sound_kick {s : MessagingUnit} {n : Fin 4} (hs : s.Sound)
    (hfree : s.sr.getLsbD (rf n) = false) :
    MessagingUnit.Sound { s with
      sr := s.sr ||| BitVec.twoPow 32 (rf n)
      kicked := Function.update s.kicked n (some ⟨s.steps, s.posted⟩) } := by
  have hnone : (s.kicked n).isSome = false := by rw [← hs.flags n, hfree]
  refine ⟨?_, ?_, ?_, hs.acked, hs.taken, hs.empty⟩
  · intro m
    change (s.sr ||| BitVec.twoPow 32 (rf n)).getLsbD (rf m) =
      (Function.update s.kicked n (some ⟨s.steps, s.posted⟩) m).isSome
    rw [flag_set, hs.flags]
    by_cases hnm : n = m
    · subst hnm
      simp
    · rw [Function.update_of_ne (Ne.symm hnm)]
      simp [hnm]
  · intro m k hk
    change Function.update s.kicked n (some ⟨s.steps, s.posted⟩) m = some k at hk
    by_cases hnm : m = n
    · subst hnm
      rw [Function.update_self, Option.some.injEq] at hk
      subst hk
      refine ⟨Nat.le_refl _, ?_, Nat.le_refl _, ?_, ?_⟩
      · change s.steps ≤ s.steps + 5 + s.pc.position
        omega
      · intro sr i hpc
        change (i ≤ m → (sr.getLsbD (rf m) = true ↔ s.steps + (1 + i) ≤ s.steps)) ∧
          (m < i → s.steps < s.steps + (1 + i))
        refine ⟨?_, fun _ => by omega⟩
        intro him
        refine iff_of_false ?_ (by omega)
        intro hseen
        rw [hs.snapshot sr i hpc m him hseen] at hnone
        cases hnone
      · intro _
        change s.steps < s.steps + 5
        omega
    · rw [Function.update_of_ne hnm] at hk
      have hw := hs.waits m k hk
      exact ⟨hw.since_le, hw.recent, hw.posted_le, hw.acking, hw.notifying⟩
  · intro sr i hpc m him hseen
    by_cases hnm : m = n
    · subst hnm
      simp
    · change (Function.update s.kicked n _ m).isSome = true
      rw [Function.update_of_ne hnm]
      exact hs.snapshot sr i hpc m him hseen

/-- The snapshot shows every kick that waits. -/
theorem sound_wake {s : MessagingUnit} (hs : s.Sound) (hpc : s.pc = .sleeping) :
    MessagingUnit.Sound { s with pc := .acks s.sr, steps := s.steps + 1 } := by
  refine ⟨hs.flags, ?_, ?_, hs.acked, (fun h => nomatch h), hs.empty⟩
  · intro n k hk
    have hw := hs.waits n k hk
    have hrecent := hw.recent
    have hsince := hw.since_le
    rw [hpc] at hrecent
    refine ⟨Nat.le_succ_of_le hsince, ?_, hw.posted_le, ?_, (fun h => nomatch h)⟩
    · change s.steps + 1 ≤ k.since + 5 + 1
      exact Nat.succ_le_succ hrecent
    · intro sr m hm
      cases hm
      refine ⟨fun _ => ?_, fun h => absurd h (Nat.not_lt_zero _)⟩
      refine iff_of_true ?_ (Nat.succ_le_succ hsince)
      rw [hs.flags n, hk]
      rfl
  · intro sr m hm n _ hseen
    cases hm
    rw [← hs.flags n]
    exact hseen

theorem sound_notify {s : MessagingUnit} (hs : s.Sound) (hpc : s.pc = .notifying) :
    MessagingUnit.Sound { s with pc := .sleeping, taken := s.posted, steps := s.steps + 1 } := by
  refine ⟨hs.flags, ?_, (fun _ _ h => nomatch h), hs.acked, fun _ e he => (hs.acked e he).2,
    hs.empty⟩
  intro n k hk
  have hw := hs.waits n k hk
  have hnew := hw.notifying hpc
  refine ⟨Nat.le_succ_of_le hw.since_le, ?_, hw.posted_le, (fun _ _ h => nomatch h),
    (fun h => nomatch h)⟩
  change s.steps + 1 ≤ k.since + 5 + 0
  omega

/-- The read of one register: the kick in it is answered. -/
structure AckSpec (s : MessagingUnit) (sr : BitVec 32) (n : Fin 4) (t : MessagingUnit) : Prop where
  flags : ∀ m, t.sr.getLsbD (rf m) = (t.kicked m).isSome
  others : ∀ m, m ≠ n → t.kicked m = s.kicked m
  own : ∀ k, t.kicked n = some k → s.kicked n = some k ∧ sr.getLsbD (rf n) = false
  acked : ∀ e ∈ t.acked, e ∈ s.acked ∨ (s.kicked n = some e.1 ∧ e.2 = s.steps)
  empty : t.empty = 0
  posted : t.posted = s.posted

theorem ackRx_spec {s : MessagingUnit} {sr : BitVec 32} {n : Fin 4} (hs : s.Sound)
    (hpc : s.pc = .acking sr n) : AckSpec s sr n (s.ackRx sr n) := by
  rw [MessagingUnit.ackRx]
  cases hseen : sr.getLsbD (rf n) with
  | false =>
      rw [if_neg (by decide)]
      exact ⟨hs.flags, fun _ _ => rfl, fun k hk => ⟨hk, hseen⟩, fun e he => .inl he, hs.empty, rfl⟩
  | true =>
      have hsome := hs.snapshot sr n hpc n (Nat.le_refl _) hseen
      rw [if_pos rfl]
      refine ⟨?_, ?_, ?_, ?_, ?_, rfl⟩
      · intro m
        change (s.sr &&& ~~~(BitVec.twoPow 32 (rf n))).getLsbD (rf m) =
          (Function.update s.kicked n none m).isSome
        rw [flag_clear, hs.flags]
        by_cases hnm : n = m
        · subst hnm
          simp
        · rw [Function.update_of_ne (Ne.symm hnm)]
          simp [hnm]
      · intro m hm
        exact Function.update_of_ne hm _ _
      · intro k hk
        change Function.update s.kicked n none n = some k at hk
        rw [Function.update_self] at hk
        cases hk
      · intro e he
        rcases List.mem_append.1 he with hold | hnew
        · exact .inl hold
        · right
          rw [Option.mem_toList, Option.map_eq_some_iff] at hnew
          obtain ⟨k, hk, rfl⟩ := hnew
          exact ⟨hk, rfl⟩
      · change (if s.sr.getLsbD (rf n) then s.empty else s.empty + 1) = 0
        rw [hs.flags n, if_pos hsome]
        exact hs.empty

/-- Where the loop goes behind channel `n`. -/
theorem next_pc (sr : BitVec 32) (n : Fin 4) :
    let pc := if h : n.val + 1 < 4 then PollPc.acking sr ⟨n.val + 1, h⟩ else .notifying
    pc.position = 1 + n + 1 ∧ (pc = .notifying → n.val = 3) ∧ pc ≠ .sleeping ∧
      ∀ sr' m, pc = .acking sr' m → sr' = sr ∧ m.val = n + 1 := by
  intro pc
  by_cases h : n.val + 1 < 4
  · have hpc : pc = .acking sr ⟨n.val + 1, h⟩ := dif_pos h
    rw [hpc]
    refine ⟨(Nat.add_assoc _ _ _).symm, (fun h => nomatch h), (fun h => nomatch h), ?_⟩
    intro sr' m hm
    cases hm
    exact ⟨rfl, rfl⟩
  · have hpc : pc = .notifying := dif_neg h
    rw [hpc]
    refine ⟨?_, fun _ => by omega, (fun h => nomatch h), (fun _ _ h => nomatch h)⟩
    change 5 = _
    omega

theorem sound_ack {s : MessagingUnit} {sr : BitVec 32} {n : Fin 4} (hs : s.Sound)
    (hpc : s.pc = .acking sr n) :
    MessagingUnit.Sound { s.ackRx sr n with
      pc := if h : n.val + 1 < 4 then .acking sr ⟨n.val + 1, h⟩ else .notifying
      steps := s.steps + 1 } := by
  have hack := ackRx_spec hs hpc
  obtain ⟨hposition, hnotifying, hawake, hacking⟩ := next_pc sr n
  have hhere : s.pc.position = 1 + n := by rw [hpc]; rfl
  have hlt := n.isLt
  refine ⟨hack.flags, ?_, ?_, ?_, fun h => absurd h hawake, hack.empty⟩
  · intro m k hk
    have hk' : s.kicked m = some k := by
      by_cases hmn : m = n
      · rw [hmn] at hk ⊢
        exact (hack.own k hk).1
      · rw [← hack.others m hmn]
        exact hk
    have hw := hs.waits m k hk'
    have hrecent := hw.recent
    obtain ⟨hahead, hbehind⟩ := hw.acking sr n hpc
    -- a kick on a channel passed by now is newer than the snapshot
    have hpassed : m ≤ n → s.steps < k.since + (1 + n) := by
      intro hmn
      by_cases heq : m = n
      · rw [heq] at hk hahead
        have hunseen := (hack.own k hk).2
        by_contra hold
        rw [(hahead (Nat.le_refl _)).2 (Nat.not_lt.1 hold)] at hunseen
        cases hunseen
      · have hne : m.val ≠ n.val := fun h => heq (Fin.ext h)
        exact hbehind (Nat.lt_of_le_of_ne hmn hne)
    rw [hhere] at hrecent
    refine ⟨Nat.le_succ_of_le hw.since_le, ?_, ?_, ?_, ?_⟩
    · rw [hposition]
      change s.steps + 1 ≤ _
      omega
    · rw [hack.posted]
      exact hw.posted_le
    · intro sr' m' hm'
      obtain ⟨rfl, hnext⟩ := hacking sr' m' hm'
      change (m' ≤ m → (sr'.getLsbD (rf m) = true ↔ k.since + (1 + m') ≤ s.steps + 1)) ∧
        (m < m' → s.steps + 1 < k.since + (1 + m'))
      rw [hnext]
      constructor
      · intro hle
        have hnm : n ≤ m := by
          rw [Fin.le_def] at hle ⊢
          omega
        rw [hahead hnm]
        omega
      · intro hlt'
        have hmn : m ≤ n := by
          rw [Fin.lt_def] at hlt'
          rw [Fin.le_def]
          omega
        have hnew := hpassed hmn
        omega
    · intro hlast
      have hthree := hnotifying hlast
      have hmn : m ≤ n := by
        rw [Fin.le_def]
        omega
      have hnew := hpassed hmn
      change s.steps + 1 < k.since + 5
      omega
  · intro sr' m' hm' m hle hseen
    obtain ⟨rfl, hnext⟩ := hacking sr' m' hm'
    rw [Fin.le_def] at hle
    have hne : m ≠ n := by
      intro heq
      rw [heq] at hle
      omega
    change ((s.ackRx sr' n).kicked m).isSome = true
    rw [hack.others m hne]
    refine hs.snapshot sr' n hpc m ?_ hseen
    rw [Fin.le_def]
    omega
  · intro e he
    change e.2 ≤ e.1.since + 9 ∧ e.1.posted ≤ (s.ackRx sr n).posted
    rw [hack.posted]
    rcases hack.acked e he with hold | ⟨hkicked, hwhen⟩
    · exact hs.acked e hold
    · have hw := hs.waits n e.1 hkicked
      have hrecent := hw.recent
      rw [hhere] at hrecent
      exact ⟨by omega, hw.posted_le⟩

theorem preserves_kicks_sound : kickMachine.Preserves MessagingUnit.Sound := by
  intro s a t hs hstep
  change s.step a = some t at hstep
  cases a with
  | post =>
      cases hstep
      exact sound_post hs
  | kick n =>
      obtain ⟨hfree, hnext⟩ := Option.ite_none_left_eq_some.1 hstep
      cases hnext
      exact sound_kick hs (by simpa using hfree)
  | poll =>
      cases hstep
      rw [MessagingUnit.poll]
      cases hpc : s.pc with
      | sleeping => exact sound_wake hs hpc
      | acking sr n => exact sound_ack hs hpc
      | notifying => exact sound_notify hs hpc

/-- A kick waits for less than ten steps. -/
theorem waits_le {s : MessagingUnit} {n : Fin 4} {k : Kick} (hw : s.Waits n k) :
    s.steps ≤ k.since + 9 := by
  have hrecent := hw.recent
  cases hpc : s.pc with
  | sleeping =>
      rw [hpc] at hrecent
      exact Nat.le_add_right_of_le (k := 4) hrecent
  | acking sr m =>
      rw [hpc] at hrecent
      change s.steps ≤ k.since + 5 + (1 + m) at hrecent
      have hlt := m.isLt
      omega
  | notifying =>
      have hnew := hw.notifying hpc
      omega

/-- **Every kick is answered, and what it was for is taken.**  However Linux and the loop are
interleaved, a register is read only when it is full, a kick is read within nine steps of
the loop, so in its own turn or the next, and at the end of that turn everything that was in
the vring when it was written has been taken. -/
theorem kicks_answered {sr : BitVec 32} {s : MessagingUnit}
    (h : kickMachine.Reaches (.initial sr) s) :
    s.empty = 0 ∧ (∀ n k, s.kicked n = some k → s.steps ≤ k.since + 9) ∧
      (∀ e ∈ s.acked, e.2 ≤ e.1.since + 9) ∧
      (s.pc = .sleeping → ∀ e ∈ s.acked, e.1.posted ≤ s.taken) := by
  have hs := preserves_kicks_sound.reaches (kicks_sound_initial sr) h
  refine ⟨hs.empty, ?_, fun e he => (hs.acked e he).1, hs.taken⟩
  intro n k hk
  exact waits_le (hs.waits n k hk)

/-- A kick on channel 3 right behind the snapshot, and its answer in the next turn. -/
def lateKick : List KickAction :=
  [.poll, .post, .kick (Fin.last 3), .poll, .poll, .poll, .poll, .poll, .poll, .poll, .poll,
    .poll, .poll, .poll]

theorem kicks_answered_late :
    ∃ s, kickMachine.exec (.initial 0x00F00000#32) lateKick = some s ∧
      s.acked = [(⟨1, 1⟩, 10)] ∧ s.empty = 0 ∧ ∀ e ∈ s.acked, e.1.posted ≤ s.taken := by
  have hrun : (kickMachine.exec (.initial 0x00F00000#32) lateKick).map
      (fun s => (s.acked, s.pc)) = some ([(⟨1, 1⟩, 10)], .sleeping) := by decide +kernel
  obtain ⟨s, hexec, hs⟩ := Option.map_eq_some_iff.1 hrun
  obtain ⟨hacked, hpc⟩ := Prod.mk.inj hs
  obtain ⟨hempty, -, -, htaken⟩ := kicks_answered ⟨_, hexec⟩
  exact ⟨s, hexec, hacked, hempty, htaken hpc⟩

end DataLogger.RpmsgPlatform
