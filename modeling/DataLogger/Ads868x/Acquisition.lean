import DataLogger.Ads868x.Sequence
import DataLogger.Foundation.Contiguous

/-!
# The acquisition thread and the interval timer

`ads868x_acquisition_thread` one frame or one call at a time, so that the timer can expire
between any two of its steps.  While a read is under way exactly one of four holds: a
sampling is queued, the thread works on one, the timer is armed for the next, or the thread
is about to complete the read.
-/

namespace DataLogger.Ads868x

open DataLogger.Foundation
open DataLogger.Zephyr

/-! ## The thread -/

/-- Where the acquisition thread is. -/
inductive AcqPc where
  | waiting
  | reading (channels : BitVec 32) (channel : Option Nat)
  | failed (ret : Int)
  | failedStopped (ret : Int)
  | done
  | advance (repeatSampling : Bool)
  | rearm
  | restart
  | finish
  | complete
  deriving DecidableEq

/-- A frame on the SPI bus: of which read, or the write of a range register. -/
inductive BusFrame where
  | conversion (read : Nat)
  | rangeWrite (ch : Nat)
  deriving DecidableEq

/-- The driver without its callers, with the reads started and completed so far and the
frames on the bus, oldest first. -/
structure Core where
  sampler : Sampler
  ctx : AdcContext
  acq : AcqPc
  reads : Nat
  completions : Nat
  bus : List BusFrame

/-- A frame of `ads868x_read_channels`, with the channel selected before. -/
def readFrame (E : Bench) (channels : BitVec 32) (channel : Option Nat) (w : Ads) : AcqPc × Ads :=
  match channel with
  | none =>
      let first := findLsbSet channels - 1
      let (ret, _, w) := ads868xCommand E (ads868xCmdManCh first) w
      if ret ≠ 0 then (.failed ret, w)
      else (.reading (channels &&& ~~~(bit first)) (some first), w)
  | some channel =>
      if channels ≠ 0#32 then
        let next := findLsbSet channels - 1
        let (ret, raw, w) := ads868xCommand E (ads868xCmdManCh next) w
        if ret ≠ 0 then (.failed ret, w)
        else
          (.reading (channels &&& ~~~(bit next)) (some next),
            w.store (ads868xToSample w.data channel raw))
      else
        let (ret, raw, w) := ads868xCommand E ads868xCmdNoOp w
        if ret ≠ 0 then (.failed ret, w)
        else (.done, w.store (ads868xToSample w.data channel raw))

def Core.startSampling (c : Core) : Core :=
  { c with sampler := adcContextStartSampling c.sampler }

/-- One step of `ads868x_acquisition_thread`; `answer` is the callback's, where it is asked. -/
def Core.acquire (E : Bench) (answer : AdcAction) (c : Core) : Option Core :=
  match c.acq with
  | .waiting =>
      c.sampler.sem.take.map fun sem =>
        { c with sampler := { c.sampler with sem := sem },
                 acq := .reading c.ctx.sequence.channels none }
  | .reading channels channel =>
      let (acq, w) := readFrame E channels channel c.sampler.toAds
      some { c with sampler := { c.sampler with toAds := w }, acq := acq,
                    bus := c.bus ++ [.conversion c.reads] }
  | .failed ret => some { c with ctx := c.ctx.disableTimer, acq := .failedStopped ret }
  | .failedStopped ret =>
      some { c with ctx := c.ctx.complete ret, acq := .waiting,
                    completions := c.completions + 1 }
  | .done =>
      match c.ctx.samplingDone answer with
      | (.finish, ctx) => some { c with ctx := ctx, acq := .finish }
      | (.again repeatSampling, ctx) => some { c with ctx := ctx, acq := .advance repeatSampling }
  | .advance repeatSampling =>
      some { c with sampler := adcContextUpdateBufferPointer repeatSampling c.sampler,
                    acq := .rearm }
  | .rearm =>
      let (now, ctx) := c.ctx.rearm
      some { c with ctx := ctx, acq := if now then .restart else .waiting }
  | .restart => some { c.startSampling with acq := .waiting }
  | .finish => some { c with ctx := c.ctx.finishTimer, acq := .complete }
  | .complete =>
      some { c with ctx := c.ctx.complete 0, acq := .waiting,
                    completions := c.completions + 1 }

/-- The interval timer expires. -/
def Core.expire (c : Core) : Option Core :=
  if c.ctx.timer then
    let (now, ctx) := c.ctx.requestNextSampling
    let c := { c with ctx := ctx }
    some (if now then c.startSampling else c)
  else none

/-! ## Phases of a read -/

/-- The thread works on a sampling. -/
def AcqPc.sampling : AcqPc → Bool
  | .reading _ _ | .failed _ | .done | .advance _ | .rearm | .restart | .finish => true
  | .waiting | .failedStopped _ | .complete => false

/-- The thread is about to complete the read. -/
def AcqPc.stopped : AcqPc → Bool
  | .failedStopped _ | .complete => true
  | _ => false

/-- While a sampling is outstanding an interval timer runs but only counts. -/
def Core.Outstanding (c : Core) : Prop :=
  if c.ctx.sequence.interval = 0 then c.ctx.timer = false
  else c.ctx.timer = true ∧ 1 ≤ c.ctx.samplingRequested

/-- Who has the read. -/
inductive Core.Phase (c : Core) : Prop where
  | queued (hsem : c.sampler.sem.count = 1) (hacq : c.acq = .waiting)
      (htimer : c.Outstanding)
  | sampling (hsem : c.sampler.sem.count = 0) (hacq : c.acq.sampling = true)
      (htimer : c.Outstanding)
  | armed (hsem : c.sampler.sem.count = 0) (hacq : c.acq = .waiting)
      (hinterval : c.ctx.sequence.interval ≠ 0) (htimer : c.ctx.timer = true)
      (hrequested : c.ctx.samplingRequested = 0)
  | stopped (hsem : c.sampler.sem.count = 0) (hacq : c.acq.stopped = true)
      (htimer : c.ctx.timer = false)

/-- A read has been started and not completed. -/
structure Core.Underway (c : Core) : Prop where
  sync : c.ctx.sync.count = 0
  completions : c.completions + 1 = c.reads
  phase : c.Phase

/-- Nothing is left of the reads so far but, until it is taken, the token of the last. -/
structure Core.Quiet (c : Core) : Prop where
  sem : c.sampler.sem.count = 0
  acq : c.acq = .waiting
  timer : c.ctx.timer = false
  completions : c.completions = c.reads

variable {E : Bench} {c t : Core} {answer : AdcAction}

theorem Core.Phase.of_sampling (h : c.Phase) (hacq : c.acq.sampling = true) :
    c.sampler.sem.count = 0 ∧ c.Outstanding := by
  cases h with
  | queued hsem hwaiting htimer => simp [hwaiting, AcqPc.sampling] at hacq
  | sampling hsem hsampling htimer => exact ⟨hsem, htimer⟩
  | armed hsem hwaiting hinterval htimer hrequested =>
      simp [hwaiting, AcqPc.sampling] at hacq
  | stopped hsem hstopped htimer =>
      cases hpc : c.acq <;> simp [hpc, AcqPc.sampling, AcqPc.stopped] at hacq hstopped

theorem Core.Phase.of_stopped (h : c.Phase) (hacq : c.acq.stopped = true) :
    c.sampler.sem.count = 0 ∧ c.ctx.timer = false := by
  cases h with
  | queued hsem hwaiting htimer => simp [hwaiting, AcqPc.stopped] at hacq
  | sampling hsem hsampling htimer =>
      cases hpc : c.acq <;> simp [hpc, AcqPc.sampling, AcqPc.stopped] at hacq hsampling
  | armed hsem hwaiting hinterval htimer hrequested =>
      simp [hwaiting, AcqPc.stopped] at hacq
  | stopped hsem hstopped htimer => exact ⟨hsem, htimer⟩

theorem Core.Outstanding.congr (h : c.Outstanding) (hseq : t.ctx.sequence = c.ctx.sequence)
    (htimer : t.ctx.timer = c.ctx.timer)
    (hrequested : t.ctx.samplingRequested = c.ctx.samplingRequested) : t.Outstanding := by
  rw [Core.Outstanding] at h ⊢
  rw [hseq, htimer, hrequested]
  exact h

theorem give_of_zero {sem : Semaphore 1} (hsem : sem.count = 0) : sem.give.count = 1 := by
  rw [Semaphore.give_count, hsem]
  rfl

theorem readFrame_sampling (channels : BitVec 32) (channel : Option Nat) (w : Ads) :
    (readFrame E channels channel w).1.sampling = true := by
  cases channel with
  | none =>
      rw [readFrame]
      simp only
      split
      · rfl
      · rfl
  | some channel =>
      rw [readFrame]
      split
      · simp only
        split
        · rfl
        · rfl
      · simp only
        split
        · rfl
        · rfl

theorem samplingDone_context (ctx : AdcContext) (answer : AdcAction) :
    (ctx.samplingDone answer).2.sequence = ctx.sequence ∧
      (ctx.samplingDone answer).2.timer = ctx.timer ∧
      (ctx.samplingDone answer).2.samplingRequested = ctx.samplingRequested ∧
      (ctx.samplingDone answer).2.sync = ctx.sync ∧
      (ctx.samplingDone answer).2.lock = ctx.lock := by
  rcases @AdcContext.samplingDone_cases ctx answer with
    ⟨hdone, -⟩ | hdone | ⟨hdone, -, -, -⟩
  · rw [hdone]
    exact ⟨rfl, rfl, rfl, rfl, rfl⟩
  · rw [hdone]
    exact ⟨rfl, rfl, rfl, rfl, rfl⟩
  · rw [hdone]
    exact ⟨rfl, rfl, rfl, rfl, rfl⟩

/-! ## The thread keeps the phases -/

theorem acquire_of_quiet (hc : c.Quiet) : c.acquire E answer = none := by
  have htake : c.sampler.sem.take = none := by
    rw [Semaphore.take, if_pos hc.sem]
  rw [Core.acquire, hc.acq]
  simp only [htake, Option.map_none]

theorem expire_of_quiet (hc : c.Quiet) : c.expire = none := by
  rw [Core.expire, hc.timer]
  rfl

theorem outstanding_interval (hinterval : c.ctx.sequence.interval ≠ 0) :
    c.Outstanding ↔ c.ctx.timer = true ∧ 1 ≤ c.ctx.samplingRequested := by
  rw [Core.Outstanding, if_neg hinterval]

theorem outstanding_immediate (hinterval : c.ctx.sequence.interval = 0) :
    c.Outstanding ↔ c.ctx.timer = false := by
  rw [Core.Outstanding, if_pos hinterval]

theorem timer_of_expire (hstep : c.expire = some t) : c.ctx.timer = true := by
  by_contra hstopped
  rw [Core.expire, if_neg hstopped] at hstep
  cases hstep

/-- An expiry that starts a sampling. -/
theorem expire_armed (htimer : c.ctx.timer = true) (hrequested : c.ctx.samplingRequested = 0) :
    c.expire = some (Core.startSampling
      { c with ctx := { c.ctx with samplingRequested := c.ctx.samplingRequested + 1 } }) := by
  rw [Core.expire, if_pos htimer, AdcContext.requestNextSampling, if_pos hrequested]
  rfl

/-- An expiry that only counts. -/
theorem expire_counting (htimer : c.ctx.timer = true) (hrequested : c.ctx.samplingRequested ≠ 0) :
    c.expire = some { c with ctx := { c.ctx with
      samplingRequested := c.ctx.samplingRequested + 1, status := eBusy.code } } := by
  rw [Core.expire, if_pos htimer, AdcContext.requestNextSampling, if_neg hrequested]
  rfl

theorem expire_outstanding (hout : c.Outstanding) (hstep : c.expire = some t) :
    t = { c with ctx := { c.ctx with
      samplingRequested := c.ctx.samplingRequested + 1, status := eBusy.code } } ∧
      t.Outstanding := by
  have htimer := timer_of_expire hstep
  have hinterval : c.ctx.sequence.interval ≠ 0 := by
    intro hzero
    rw [(outstanding_immediate hzero).1 hout] at htimer
    cases htimer
  have hpos := ((outstanding_interval hinterval).1 hout).2
  rw [expire_counting htimer (by omega), Option.some.injEq] at hstep
  subst hstep
  refine ⟨rfl, ?_⟩
  apply (outstanding_interval _).2
  · refine ⟨htimer, ?_⟩
    change 1 ≤ c.ctx.samplingRequested + 1
    omega
  · exact hinterval

theorem expire_underway (hc : c.Underway) (hstep : c.expire = some t) : t.Underway := by
  cases hc.phase with
  | queued hsem hacq htimer =>
      obtain ⟨rfl, hout⟩ := expire_outstanding htimer hstep
      exact ⟨hc.sync, hc.completions, .queued hsem hacq hout⟩
  | sampling hsem hacq htimer =>
      obtain ⟨rfl, hout⟩ := expire_outstanding htimer hstep
      exact ⟨hc.sync, hc.completions, .sampling hsem hacq hout⟩
  | armed hsem hacq hinterval htimer hrequested =>
      rw [expire_armed htimer hrequested, Option.some.injEq] at hstep
      subst hstep
      refine ⟨hc.sync, hc.completions, .queued (give_of_zero hsem) hacq ?_⟩
      apply (outstanding_interval _).2
      · refine ⟨htimer, ?_⟩
        change 1 ≤ c.ctx.samplingRequested + 1
        omega
      · exact hinterval
  | stopped hsem hacq htimer =>
      rw [Core.expire, htimer] at hstep
      cases hstep

theorem rearm_context (ctx : AdcContext) :
    ctx.rearm.2.sequence = ctx.sequence ∧ ctx.rearm.2.sync = ctx.sync ∧
      ctx.rearm.2.lock = ctx.lock := by
  rw [AdcContext.rearm]
  split
  · exact ⟨rfl, rfl, rfl⟩
  · exact ⟨rfl, rfl, rfl⟩

/-- Where another sampling follows: at once, or with the next expiry. -/
theorem phase_rearm (hsem : c.sampler.sem.count = 0) (hout : c.Outstanding) :
    Core.Phase { c with ctx := c.ctx.rearm.2,
                        acq := if c.ctx.rearm.1 then .restart else .waiting } := by
  by_cases hinterval : c.ctx.sequence.interval = 0
  · rw [AdcContext.rearm, if_pos hinterval]
    exact .sampling hsem rfl hout
  · obtain ⟨htimer, hpos⟩ := (outstanding_interval hinterval).1 hout
    rw [AdcContext.rearm, if_neg hinterval]
    by_cases hmore : 1 < c.ctx.samplingRequested
    · refine .sampling hsem ?_ ?_
      · simp [hmore, AcqPc.sampling]
      · apply (outstanding_interval _).2
        · refine ⟨htimer, ?_⟩
          change 1 ≤ c.ctx.samplingRequested - 1
          omega
        · exact hinterval
    · refine .armed hsem ?_ hinterval htimer ?_
      · simp [hmore]
      · change c.ctx.samplingRequested - 1 = 0
        omega

/-- A start that is taken up was one that somebody had queued. -/
theorem underway_take {sem : Semaphore 1} {channels : BitVec 32} (hc : c.Underway)
    (htake : c.sampler.sem.take = some sem) :
    Core.Underway { c with sampler := { c.sampler with sem := sem },
                           acq := .reading channels none } := by
  have hcount := Semaphore.take_eq_some.1 htake
  refine ⟨hc.sync, hc.completions, ?_⟩
  cases hc.phase with
  | queued hsem hwaiting htimer =>
      have hzero : sem.count = 0 := by omega
      exact .sampling hzero rfl htimer
  | sampling hsem hsampling htimer => omega
  | armed hsem hwaiting hinterval htimer hrequested => omega
  | stopped hsem hstopped htimer => omega

/-- What the callback answers changes neither the timer nor who has the read. -/
theorem underway_samplingDone {acq : AcqPc} (hc : c.Underway) (hpc : c.acq = .done)
    (hacq : acq.sampling = true) :
    Core.Underway { c with ctx := (c.ctx.samplingDone answer).2, acq := acq } := by
  obtain ⟨hsem, htimer⟩ := hc.phase.of_sampling (by rw [hpc]; rfl)
  obtain ⟨hsequence, hrunning, hrequested, hsync, -⟩ := samplingDone_context c.ctx answer
  exact ⟨hsync ▸ hc.sync, hc.completions,
    .sampling hsem hacq (htimer.congr hsequence hrunning hrequested)⟩

theorem finishTimer_spec (hout : c.Outstanding) :
    c.ctx.finishTimer.timer = false ∧ c.ctx.finishTimer.sync = c.ctx.sync := by
  rw [AdcContext.finishTimer]
  split
  · exact ⟨rfl, rfl⟩
  · rename_i hinterval
    exact ⟨(outstanding_immediate (not_not.1 hinterval)).1 hout, rfl⟩

/-- Each step of the thread keeps the read under way, or completes it and leaves nothing but
the token for its caller. -/
theorem acquire_underway (hc : c.Underway) (hstep : c.acquire E answer = some t) :
    t.Underway ∨ (t.Quiet ∧ t.ctx.sync.count = 1) := by
  rw [Core.acquire] at hstep
  cases hacq : c.acq with
  | waiting =>
      rw [hacq] at hstep
      simp only [Option.map_eq_some_iff] at hstep
      obtain ⟨sem, htake, rfl⟩ := hstep
      left
      exact underway_take hc htake
  | reading channels channel =>
      obtain ⟨hsem, htimer⟩ := hc.phase.of_sampling (by rw [hacq]; rfl)
      simp only [hacq, Option.some.injEq] at hstep
      subst hstep
      left
      exact ⟨hc.sync, hc.completions, .sampling hsem (readFrame_sampling _ _ _) htimer⟩
  | failed ret =>
      obtain ⟨hsem, htimer⟩ := hc.phase.of_sampling (by rw [hacq]; rfl)
      simp only [hacq, Option.some.injEq] at hstep
      subst hstep
      left
      exact ⟨hc.sync, hc.completions, .stopped hsem rfl rfl⟩
  | failedStopped ret =>
      obtain ⟨hsem, htimer⟩ := hc.phase.of_stopped (by rw [hacq]; rfl)
      simp only [hacq, Option.some.injEq] at hstep
      subst hstep
      right
      exact ⟨⟨hsem, rfl, htimer, hc.completions⟩, give_of_zero hc.sync⟩
  | done =>
      simp only [hacq] at hstep
      left
      split at hstep
      · rename_i ctx hdone
        cases hstep
        have hmoved : Core.Underway
            { c with ctx := (c.ctx.samplingDone answer).2, acq := .finish } :=
          underway_samplingDone hc hacq rfl
        rwa [hdone] at hmoved
      · rename_i repeatSampling ctx hdone
        cases hstep
        have hmoved : Core.Underway
            { c with ctx := (c.ctx.samplingDone answer).2, acq := .advance repeatSampling } :=
          underway_samplingDone hc hacq rfl
        rwa [hdone] at hmoved
  | advance repeatSampling =>
      obtain ⟨hsem, htimer⟩ := hc.phase.of_sampling (by rw [hacq]; rfl)
      simp only [hacq, Option.some.injEq] at hstep
      subst hstep
      left
      refine ⟨hc.sync, hc.completions, .sampling ?_ rfl htimer⟩
      rw [adcContextUpdateBufferPointer]
      split
      · exact hsem
      · exact hsem
  | rearm =>
      obtain ⟨hsem, htimer⟩ := hc.phase.of_sampling (by rw [hacq]; rfl)
      simp only [hacq, Option.some.injEq] at hstep
      subst hstep
      left
      refine ⟨(rearm_context c.ctx).2.1 ▸ hc.sync, hc.completions, ?_⟩
      exact phase_rearm hsem htimer
  | restart =>
      obtain ⟨hsem, htimer⟩ := hc.phase.of_sampling (by rw [hacq]; rfl)
      simp only [hacq, Option.some.injEq] at hstep
      subst hstep
      left
      exact ⟨hc.sync, hc.completions, .queued (give_of_zero hsem) rfl htimer⟩
  | finish =>
      obtain ⟨hsem, htimer⟩ := hc.phase.of_sampling (by rw [hacq]; rfl)
      simp only [hacq, Option.some.injEq] at hstep
      subst hstep
      left
      obtain ⟨hstopped, hsync⟩ := finishTimer_spec htimer
      exact ⟨hsync ▸ hc.sync, hc.completions, .stopped hsem rfl hstopped⟩
  | complete =>
      obtain ⟨hsem, htimer⟩ := hc.phase.of_stopped (by rw [hacq]; rfl)
      simp only [hacq, Option.some.injEq] at hstep
      subst hstep
      right
      exact ⟨⟨hsem, rfl, htimer, hc.completions⟩, give_of_zero hc.sync⟩

/-! ## The frames of one pass -/

def readFrames (E : Bench) : Nat → AcqPc × Ads → AcqPc × Ads
  | n + 1, (.reading channels channel, w) => readFrames E n (readFrame E channels channel w)
  | _, s => s

/-- Where the thread is after a pass that has returned `out.1`. -/
def passEnd (out : Int × Ads) : AcqPc × Ads :=
  (if out.1 ≠ 0 then .failed out.1 else .done, out.2)

theorem readFrames_failed (n : Nat) (ret : Int) (w : Ads) :
    readFrames E n (.failed ret, w) = (.failed ret, w) := by
  cases n <;> rfl

theorem readFrames_loop (rest : List Nat) {channels : BitVec 32} {channel : Nat} {w : Ads}
    (hbits : setBits channels = rest) :
    readFrames E (rest.length + 1) (.reading channels (some channel), w) =
      passEnd (readLoop E channels channel w) := by
  induction rest generalizing channels channel w with
  | nil =>
      have hzero := setBits_eq_nil.1 hbits
      rw [readLoop_nil hbits, List.length_nil, readFrames, readFrame,
        if_neg (not_not.2 hzero)]
      by_cases hret : (ads868xCommand E ads868xCmdNoOp w).1 = 0
      · rw [if_neg (not_not.2 hret)]
        simp [hret, passEnd, readFrames]
      · rw [if_pos hret]
        simp [hret, passEnd, readFrames]
  | cons next rest ih =>
      have hne : channels ≠ 0#32 := by
        intro hzero
        rw [setBits_eq_nil.2 hzero] at hbits
        cases hbits
      rw [readLoop_cons hbits, List.length_cons, readFrames, readFrame, if_pos hne,
        findLsbSet_sub_one hbits]
      by_cases hret : (ads868xCommand E (ads868xCmdManCh next) w).1 = 0
      · rw [if_neg (not_not.2 hret), ← ih (setBits_clear_lsb hbits)]
        simp only [ne_eq, hret, not_true_eq_false, if_false]
      · rw [if_pos hret]
        simp only [ne_eq, hret, not_false_eq_true, if_true, readFrames_failed, passEnd]

/-- Taken one at a time, the frames of a pass are `ads868x_read_channels`. -/
theorem readFrames_eq {channels : BitVec 32} (hne : channels ≠ 0#32) (w : Ads) :
    readFrames E (popcount channels + 1) (.reading channels none, w) =
      passEnd (ads868xReadChannels E channels w) := by
  cases hbits : setBits channels with
  | nil => exact absurd (setBits_eq_nil.1 hbits) hne
  | cons first rest =>
      rw [readChannels_eq hbits, popcount, hbits, List.length_cons, readFrames, readFrame,
        findLsbSet_sub_one hbits]
      by_cases hret : (ads868xCommand E (ads868xCmdManCh first) w).1 = 0
      · rw [if_neg (not_not.2 hret), ← readFrames_loop rest (setBits_clear_lsb hbits)]
        simp only [ne_eq, hret, not_true_eq_false, if_false]
      · rw [if_pos hret]
        simp only [ne_eq, hret, not_false_eq_true, if_true, readFrames_failed, passEnd]

/-! ## The bus -/

def BusFrame.IsConversion : BusFrame → Prop
  | .conversion _ => True
  | .rangeWrite _ => False

/-- The frames of each read stand together, and those of the read under way come last. -/
structure Core.BusOk (c : Core) : Prop where
  le : ∀ k, BusFrame.conversion k ∈ c.bus → k ≤ c.reads
  opened : c.Underway → ∃ older n,
    c.bus = older ++ List.replicate n (BusFrame.conversion c.reads) ∧
      BusFrame.conversion c.reads ∉ older
  contiguous : Contiguous BusFrame.IsConversion c.bus

theorem acquire_frame (hstep : c.acquire E answer = some t) :
    t.reads = c.reads ∧ t.ctx.lock = c.ctx.lock ∧
      (t.bus = c.bus ∨ t.bus = c.bus ++ [.conversion c.reads]) := by
  rw [Core.acquire] at hstep
  cases hacq : c.acq with
  | waiting =>
      simp only [hacq, Option.map_eq_some_iff] at hstep
      obtain ⟨sem, -, rfl⟩ := hstep
      exact ⟨rfl, rfl, Or.inl rfl⟩
  | reading channels channel =>
      simp only [hacq, Option.some.injEq] at hstep
      subst hstep
      exact ⟨rfl, rfl, Or.inr rfl⟩
  | done =>
      obtain ⟨-, -, -, -, hlock⟩ := samplingDone_context c.ctx answer
      simp only [hacq] at hstep
      split at hstep
      · rename_i ctx hdone
        rw [hdone] at hlock
        cases hstep
        exact ⟨rfl, hlock, Or.inl rfl⟩
      · rename_i repeatSampling ctx hdone
        rw [hdone] at hlock
        cases hstep
        exact ⟨rfl, hlock, Or.inl rfl⟩
  | rearm =>
      simp only [hacq, Option.some.injEq] at hstep
      subst hstep
      exact ⟨rfl, (rearm_context c.ctx).2.2, Or.inl rfl⟩
  | finish =>
      simp only [hacq, Option.some.injEq] at hstep
      subst hstep
      refine ⟨rfl, ?_, Or.inl rfl⟩
      change c.ctx.finishTimer.lock = c.ctx.lock
      rw [AdcContext.finishTimer]
      split
      · rfl
      · rfl
  | failed ret =>
      simp only [hacq, Option.some.injEq] at hstep
      subst hstep
      exact ⟨rfl, rfl, Or.inl rfl⟩
  | failedStopped ret =>
      simp only [hacq, Option.some.injEq] at hstep
      subst hstep
      exact ⟨rfl, rfl, Or.inl rfl⟩
  | advance repeatSampling =>
      simp only [hacq, Option.some.injEq] at hstep
      subst hstep
      exact ⟨rfl, rfl, Or.inl rfl⟩
  | restart =>
      simp only [hacq, Option.some.injEq] at hstep
      subst hstep
      exact ⟨rfl, rfl, Or.inl rfl⟩
  | complete =>
      simp only [hacq, Option.some.injEq] at hstep
      subst hstep
      exact ⟨rfl, rfl, Or.inl rfl⟩

theorem expire_frame (hstep : c.expire = some t) :
    t.reads = c.reads ∧ t.ctx.lock = c.ctx.lock ∧ t.bus = c.bus := by
  have htimer := timer_of_expire hstep
  by_cases hrequested : c.ctx.samplingRequested = 0
  · rw [expire_armed htimer hrequested, Option.some.injEq] at hstep
    subst hstep
    exact ⟨rfl, rfl, rfl⟩
  · rw [expire_counting htimer hrequested, Option.some.injEq] at hstep
    subst hstep
    exact ⟨rfl, rfl, rfl⟩

theorem busOk_acquire (hc : c.Underway) (hbus : c.BusOk) (hstep : c.acquire E answer = some t) :
    t.BusOk := by
  obtain ⟨hreads, -, hframes⟩ := acquire_frame hstep
  obtain ⟨older, n, hopen, hfresh⟩ := hbus.opened hc
  rcases hframes with hsame | hmore
  · refine ⟨?_, ?_, hsame ▸ hbus.contiguous⟩
    · rw [hsame, hreads]
      exact hbus.le
    · intro _
      rw [hsame, hreads]
      exact ⟨older, n, hopen, hfresh⟩
  · refine ⟨?_, ?_, ?_⟩
    · intro k hk
      rw [hmore, List.mem_append, List.mem_singleton] at hk
      rw [hreads]
      rcases hk with h | h
      · exact hbus.le k h
      · cases h
        exact Nat.le_refl _
    · intro _
      refine ⟨older, n + 1, ?_, hreads ▸ hfresh⟩
      rw [hmore, hopen, hreads, List.append_assoc, List.replicate_succ']
    · rw [hmore, hopen]
      apply contiguous_append_open _ hfresh
      rw [← hopen]
      exact hbus.contiguous

theorem busOk_expire (hc : c.Underway) (hbus : c.BusOk) (hstep : c.expire = some t) :
    t.BusOk := by
  obtain ⟨hreads, -, hsame⟩ := expire_frame hstep
  refine ⟨?_, ?_, hsame ▸ hbus.contiguous⟩
  · rw [hsame, hreads]
    exact hbus.le
  · intro _
    rw [hsame, hreads]
    exact hbus.opened hc

end DataLogger.Ads868x
