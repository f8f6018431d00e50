import DataLogger.Ads868x.Serialisation
import DataLogger.Foundation.Histories

/-!
# The driver as an atomic object

What a caller sees of `ads868x_read` and `ads868x_channel_setup` while other threads call them
too is what it would see if the calls were made one after the other: a read that the
acquisition thread carries out frame by frame, with the interval timer in between and setups
waiting for the lock, stores and returns what the same read returns on its own.  Only the
timer leaves a trace: it can turn the 0 of a read into `-EBUSY`.
-/

namespace DataLogger.Ads868x

open DataLogger.Foundation
open DataLogger.Zephyr

/-! ## Calls on their own -/

/-- A read that has passed the checks, from its first sampling on. -/
def readAlone (E : Bench) (seq : AdcSequence) (w : Ads) (answers : List AdcAction) :
    Option ReadRun :=
  (sequenceMachine E).exec
    (ReadRun.start seq ⟨w, Semaphore.empty 1⟩
      ⟨Semaphore.empty 1, Semaphore.empty 1, seq, 0, 0, 0, false⟩) answers

/-- What a read that was completed with `ended` returns. -/
def Returns (seq : AdcSequence) (ended ret : Int) : Prop :=
  ret = ended ∨ (ended = 0 ∧ ret = eBusy.code ∧ seq.interval ≠ 0)

/-- `request`, with the driver to itself, returns `ret` and takes it from `w` to `v`. -/
inductive Serves (E : Bench) (nchannels : Nat) : Request → Ads → Int → Ads → Prop where
  | setup {cfg : AdcChannelCfg} {w v : Ads} {ret : Int} (o : WriteOutcome) (lock : Semaphore 1)
      (h : ads868xChannelSetup nchannels cfg o ⟨w, (Semaphore.empty 1).give⟩ =
        some (ret, ⟨v, lock⟩)) : Serves E nchannels (.setup cfg) w ret v
  | refused {seq : AdcSequence} {w : Ads} (h : ads868xCheckSequence nchannels seq ≠ 0) :
      Serves E nchannels (.read seq) w (ads868xCheckSequence nchannels seq) w
  | read {seq : AdcSequence} {w : Ads} {ret ended : Int} {answers : List AdcAction}
      {r : ReadRun} (hcheck : ads868xCheckSequence nchannels seq = 0)
      (halone : readAlone E seq w answers = some r) (hended : r.ended = some ended)
      (hret : Returns seq ended ret) : Serves E nchannels (.read seq) w ret r.sampler.toAds

/-- What a step shows to the callers; a setup that a check turns down returns at once. -/
def Sys.events {ι : Type*} (nchannels : Nat) (s : Sys ι) :
    Act ι → List (CallEvent ι Request Int)
  | .call i (.read seq) => [.call i (.read seq)]
  | .call i (.setup cfg) =>
      if cfg.Rejected nchannels then [.call i (.setup cfg), .ret i eNotSup.code]
      else [.call i (.setup cfg)]
  | .caller i _ =>
      match s.caller i with
      | .setupRelease ret | .readRelease _ ret => [.ret i ret]
      | _ => []
  | .acquire _ | .expire => []

/-! ## A pass that has come to its end -/

variable {E : Bench} {seq : AdcSequence} {w : Ads} {c t : Core} {r : ReadRun}
  {answer : AdcAction}

/-- The pass is not over. -/
def AcqPc.inPass : AcqPc → Bool
  | .reading _ _ => true
  | _ => false

theorem readFrames_still {acq : AcqPc} (hacq : acq.inPass = false) (n : Nat) :
    readFrames E n (acq, w) = (acq, w) := by
  cases n with
  | zero => rfl
  | succ n =>
      cases acq with
      | reading channels channel => cases hacq
      | _ => rfl

theorem readFrames_add (n m : Nat) (acq : AcqPc) (w : Ads) :
    readFrames E (n + m) (acq, w) = readFrames E m (readFrames E n (acq, w)) := by
  induction n generalizing acq w with
  | zero =>
      rw [Nat.zero_add]
      rfl
  | succ n ih =>
      cases hacq : acq.inPass with
      | false => rw [readFrames_still hacq, readFrames_still hacq, readFrames_still hacq]
      | true =>
          cases acq with
          | reading channels channel =>
              rw [Nat.add_right_comm]
              exact ih _ _
          | _ => cases hacq

theorem passEnd_inPass (out : Int × Ads) : (passEnd out).1.inPass = false := by
  rw [passEnd]
  split
  · rfl
  · rfl

/-- However many frames it has taken, a pass that is over is `ads868x_read_channels`. -/
theorem passEnd_of_readFrames {channels : BitVec 32} {n : Nat} {acq : AcqPc} {v : Ads}
    (hne : channels ≠ 0#32) (hacq : acq.inPass = false)
    (hframes : readFrames E n (.reading channels none, w) = (acq, v)) :
    passEnd (ads868xReadChannels E channels w) = (acq, v) := by
  calc passEnd (ads868xReadChannels E channels w)
      = readFrames E n (readFrames E (popcount channels + 1) (.reading channels none, w)) := by
        rw [readFrames_eq hne]
        exact (readFrames_still (passEnd_inPass _) n).symm
    _ = readFrames E (popcount channels + 1) (readFrames E n (.reading channels none, w)) := by
        rw [← readFrames_add, ← readFrames_add, Nat.add_comm]
    _ = (acq, v) := by rw [hframes, readFrames_still hacq]

/-! ## A sampling of the read on its own -/

/-- Contexts of the same sequence at the same sampling; the timer and its requests, the status
and the semaphores are left out. -/
def Agrees (a b : AdcContext) : Prop :=
  a.sequence = b.sequence ∧ a.currentSampling = b.currentSampling

theorem currentSampling_of_some {a : AdcContext} {options : AdcSequenceOptions}
    (hoptions : a.sequence.options = some options) : a.currentSampling = a.samplingIndex := by
  rw [AdcContext.currentSampling, hoptions]

/-- What follows a sampling depends on no more than that. -/
theorem samplingDone_agrees {a b : AdcContext} (h : Agrees a b) (answer : AdcAction) :
    (a.samplingDone answer).1 = (b.samplingDone answer).1 ∧
      Agrees (a.samplingDone answer).2 (b.samplingDone answer).2 := by
  obtain ⟨hsequence, hsampling⟩ := h
  cases hoptions : b.sequence.options with
  | none =>
      simp only [AdcContext.samplingDone, hsequence, hoptions, true_and]
      exact ⟨hsequence, hsampling⟩
  | some options =>
      have hindex : a.samplingIndex = b.samplingIndex := by
        rw [← currentSampling_of_some (hsequence ▸ hoptions), hsampling,
          currentSampling_of_some hoptions]
      simp only [AdcContext.samplingDone, hsequence, hoptions, hindex]
      cases (if options.callback = true then answer else AdcAction.adcContinue) with
      | adcRepeat => exact ⟨rfl, hsequence, hsampling⟩
      | adcFinish => exact ⟨rfl, hsequence, hsampling⟩
      | adcContinue =>
          by_cases hmore : b.samplingIndex < options.extraSamplings.toNat
          · simp only [hmore, if_true, true_and]
            exact ⟨rfl, rfl⟩
          · simp only [hmore, if_false, true_and]
            exact ⟨hsequence, hsampling⟩

theorem samplingDone_status (a : AdcContext) (answer : AdcAction) :
    (a.samplingDone answer).2.status = a.status := by
  rcases @AdcContext.samplingDone_cases a answer with ⟨h, -⟩ | h | ⟨h, -⟩
  · rw [h]
  · rw [h]
  · rw [h]

theorem returns_complete {a : AdcContext} (ended : Int) (h : Returns seq 0 a.status) :
    Returns seq ended (a.complete ended).status := by
  by_cases hended : ended = 0
  · rw [AdcContext.complete, hended]
    exact h
  · left
    exact if_pos hended

/-- A pass of the plain read that fails. -/
theorem step_failed {ret : Int} {v : Ads} (answer : AdcAction) (hended : r.ended = none)
    (hret : ret ≠ 0)
    (hread : ads868xReadChannels E r.ctx.sequence.channels
      (adcContextStartSampling r.sampler).toAds = (ret, v)) :
    ∃ u, r.step E answer = some u ∧ u.ctx = r.ctx ∧ u.ended = some ret ∧ u.sampler.toAds = v := by
  rw [ReadRun.step, if_neg (by simp [hended])]
  simp only [take_start, Option.map_some, hread, if_pos hret]
  exact ⟨_, rfl, rfl, rfl, rfl⟩

/-- A pass of the plain read that ends well: the read is over or goes on. -/
theorem step_passed {v : Ads} (answer : AdcAction) (hended : r.ended = none)
    (hread : ads868xReadChannels E r.ctx.sequence.channels
      (adcContextStartSampling r.sampler).toAds = (0, v)) :
    ∃ u, r.step E answer = some u ∧ u.ctx = (r.ctx.samplingDone answer).2 ∧
      (((r.ctx.samplingDone answer).1 = .finish ∧ u.ended = some 0 ∧ u.sampler.toAds = v) ∨
        ∃ repeatSampling, (r.ctx.samplingDone answer).1 = .again repeatSampling ∧
          u.ended = none ∧ ∀ s : Sampler, s.toAds = v →
            u.sampler.toAds = (adcContextUpdateBufferPointer repeatSampling s).toAds) := by
  rw [ReadRun.step, if_neg (by simp [hended])]
  simp only [take_start, Option.map_some, hread, ne_eq, not_true_eq_false, if_false]
  cases hdone : r.ctx.samplingDone answer with
  | mk next ctx =>
      cases next with
      | finish => exact ⟨_, rfl, rfl, Or.inl ⟨rfl, rfl, rfl⟩⟩
      | again repeatSampling =>
          refine ⟨_, rfl, rfl, Or.inr ⟨repeatSampling, rfl, rfl, ?_⟩⟩
          rintro s rfl
          cases repeatSampling with
          | false => rfl
          | true => rfl

/-! ## The read that the thread carries out -/

/-- The thread's driver is that of the plain run `r`, or is on its way to the next state of it. -/
def Core.Follows (E : Bench) (r : ReadRun) (c : Core) : Prop :=
  match c.acq with
  | .waiting => r.ended = none ∧ c.sampler.toAds =
      if c.sampler.sem.count = 0 then r.sampler.toAds
      else (adcContextStartSampling r.sampler).toAds
  | .reading _ _ | .failed _ | .done => r.ended = none ∧
      ∃ n, readFrames E n (.reading r.ctx.sequence.channels none,
        (adcContextStartSampling r.sampler).toAds) = (c.acq, c.sampler.toAds)
  | .advance repeatSampling => r.ended = none ∧
      r.sampler.toAds = (adcContextUpdateBufferPointer repeatSampling c.sampler).toAds
  | .rearm | .restart => r.ended = none ∧ c.sampler.toAds = r.sampler.toAds
  | .failedStopped ret => r.ended = some ret ∧ ret ≠ 0 ∧ c.sampler.toAds = r.sampler.toAds
  | .finish | .complete => r.ended = some 0 ∧ c.sampler.toAds = r.sampler.toAds

/-- The read of `seq` that began at `w` is under way, and has come as far as the plain run `r`. -/
structure Core.Mirrors (E : Bench) (seq : AdcSequence) (w : Ads) (c : Core) (r : ReadRun) :
    Prop where
  alone : ∃ answers, readAlone E seq w answers = some r
  sequence : c.ctx.sequence = seq
  context : Agrees c.ctx r.ctx
  status : Returns seq 0 c.ctx.status
  follows : c.Follows E r

/-- The read of `seq` that began at `w` is under way, or has been completed and waits for its
caller. -/
def Core.Carries (E : Bench) (nchannels : Nat) (seq : AdcSequence) (w : Ads) (c : Core) : Prop :=
  (c.ctx.sync.count = 0 ∧ ∃ r, c.Mirrors E seq w r) ∨
    (c.ctx.sync.count = 1 ∧ Serves E nchannels (.read seq) w c.ctx.status c.sampler.toAds)

theorem Core.Mirrors.next {u : ReadRun} (h : c.Mirrors E seq w r)
    (hnext : r.step E answer = some u) : ∃ answers, readAlone E seq w answers = some u := by
  obtain ⟨answers, halone⟩ := h.alone
  refine ⟨answers ++ [answer], ?_⟩
  rw [readAlone] at halone ⊢
  rw [Machine.exec_append_some halone, Machine.exec_singleton]
  exact hnext

/-! ## Steps of the thread and of the timer -/

/-- Where a frame can leave the thread. -/
def AcqPc.atPass : AcqPc → Bool
  | .reading _ _ | .failed _ | .done => true
  | _ => false

theorem readFrame_atPass (channels : BitVec 32) (channel : Option Nat) :
    (readFrame E channels channel w).1.atPass = true := by
  cases channel with
  | none =>
      rw [readFrame]
      simp only
      split
      · rfl
      · rfl
  | some channel =>
      rw [readFrame]
      split
      · simp only
        split
        · rfl
        · rfl
      · simp only
        split
        · rfl
        · rfl

theorem follows_of_frames {n : Nat} (hacq : c.acq.atPass = true) (hended : r.ended = none)
    (hframes : readFrames E n (.reading r.ctx.sequence.channels none,
      (adcContextStartSampling r.sampler).toAds) = (c.acq, c.sampler.toAds)) :
    c.Follows E r := by
  rw [Core.Follows]
  cases hpc : c.acq with
  | reading channels channel => exact ⟨hended, n, hpc ▸ hframes⟩
  | failed ret => exact ⟨hended, n, hpc ▸ hframes⟩
  | done => exact ⟨hended, n, hpc ▸ hframes⟩
  | _ =>
      rw [hpc] at hacq
      cases hacq

/-- One more frame of the pass. -/
theorem follows_reading {channels : BitVec 32} {channel : Option Nat} {bus : List BusFrame}
    (hacq : c.acq = .reading channels channel) (h : c.Follows E r) :
    Core.Follows E r
      { c with sampler := { c.sampler with
                 toAds := (readFrame E channels channel c.sampler.toAds).2 },
               acq := (readFrame E channels channel c.sampler.toAds).1, bus := bus } := by
  simp only [Core.Follows, hacq] at h
  obtain ⟨hended, n, hframes⟩ := h
  apply follows_of_frames (n := n + 1) (readFrame_atPass _ _) hended
  rw [readFrames_add, hframes]
  rfl

theorem passEnd_eq_failed {out : Int × Ads} {ret : Int}
    (h : passEnd out = (.failed ret, w)) : out = (ret, w) ∧ ret ≠ 0 := by
  rw [passEnd, Prod.mk.injEq] at h
  obtain ⟨hpc, rfl⟩ := h
  split at hpc
  · rename_i hret
    cases hpc
    exact ⟨rfl, hret⟩
  · cases hpc

theorem passEnd_eq_done {out : Int × Ads} (h : passEnd out = (.done, w)) : out = (0, w) := by
  rw [passEnd, Prod.mk.injEq] at h
  obtain ⟨hpc, rfl⟩ := h
  split at hpc
  · cases hpc
  · rename_i hret
    exact Prod.ext (not_not.1 hret) rfl

variable {nchannels : Nat}

theorem Core.Mirrors.channels (h : c.Mirrors E seq w r) :
    r.ctx.sequence.channels = seq.channels := by
  rw [← h.context.1, h.sequence]

/-- A pass that has failed: the plain run has ended with the same code. -/
theorem mirrors_failed {ret : Int} (hne : seq.channels ≠ 0#32) (hacq : c.acq = .failed ret)
    (h : c.Mirrors E seq w r) :
    ∃ u, Core.Mirrors E seq w
      { c with ctx := c.ctx.disableTimer, acq := .failedStopped ret } u := by
  have hfollows := h.follows
  simp only [Core.Follows, hacq] at hfollows
  obtain ⟨hended, n, hframes⟩ := hfollows
  obtain ⟨hread, hret⟩ := passEnd_eq_failed
    (passEnd_of_readFrames (h.channels ▸ hne) rfl hframes)
  obtain ⟨u, hnext, hctx, hover, hads⟩ := step_failed .adcContinue hended hret hread
  exact ⟨u, h.next hnext, h.sequence, hctx ▸ h.context, h.status, hover, hret, hads.symm⟩

/-- A pass that has ended well: the callback's answer takes the plain run to its next state. -/
theorem mirrors_done (answer : AdcAction) (hne : seq.channels ≠ 0#32) (hacq : c.acq = .done)
    (h : c.Mirrors E seq w r) :
    ∃ u, Core.Mirrors E seq w
      { c with ctx := (c.ctx.samplingDone answer).2
               acq := match (c.ctx.samplingDone answer).1 with
                 | .finish => .finish
                 | .again repeatSampling => .advance repeatSampling } u := by
  have hfollows := h.follows
  simp only [Core.Follows, hacq] at hfollows
  obtain ⟨hended, n, hframes⟩ := hfollows
  have hread := passEnd_eq_done (passEnd_of_readFrames (h.channels ▸ hne) rfl hframes)
  obtain ⟨u, hnext, hctx, hwhere⟩ := step_passed answer hended hread
  obtain ⟨hsame, hagrees⟩ := samplingDone_agrees h.context answer
  obtain ⟨hsequence, -⟩ := samplingDone_context c.ctx answer
  refine ⟨u, h.next hnext, hsequence.trans h.sequence, hctx ▸ hagrees, ?_, ?_⟩
  · exact (samplingDone_status c.ctx answer).symm ▸ h.status
  · rcases hwhere with ⟨hdone, hover, hads⟩ | ⟨repeatSampling, hdone, hover, hads⟩
    · simp only [Core.Follows, hsame, hdone]
      exact ⟨hover, hads.symm⟩
    · simp only [Core.Follows, hsame, hdone]
      exact ⟨hover, hads c.sampler rfl⟩

theorem startSampling_congr {a b : Sampler} (h : a.toAds = b.toAds) :
    (adcContextStartSampling a).toAds = (adcContextStartSampling b).toAds := by
  rw [adcContextStartSampling, adcContextStartSampling, h]

/-- What leaves the plain run where it is. -/
theorem Core.Mirrors.keep (h : c.Mirrors E seq w r) (hagrees : Agrees t.ctx c.ctx)
    (hstatus : Returns seq 0 t.ctx.status) (hfollows : t.Follows E r) : t.Mirrors E seq w r :=
  ⟨h.alone, hagrees.1.trans h.sequence,
    ⟨hagrees.1.trans h.context.1, hagrees.2.trans h.context.2⟩, hstatus, hfollows⟩

theorem rearm_agrees (a : AdcContext) : Agrees a.rearm.2 a ∧ a.rearm.2.status = a.status := by
  rw [AdcContext.rearm]
  split
  · exact ⟨⟨rfl, rfl⟩, rfl⟩
  · exact ⟨⟨rfl, rfl⟩, rfl⟩

theorem finishTimer_agrees (a : AdcContext) :
    Agrees a.finishTimer a ∧ a.finishTimer.status = a.status := by
  rw [AdcContext.finishTimer]
  split
  · exact ⟨⟨rfl, rfl⟩, rfl⟩
  · exact ⟨⟨rfl, rfl⟩, rfl⟩

/-- Where another sampling follows, at once or with the next expiry. -/
theorem mirrors_rearm (hsem : c.sampler.sem.count = 0) (hacq : c.acq = .rearm)
    (h : c.Mirrors E seq w r) :
    Core.Mirrors E seq w { c with ctx := c.ctx.rearm.2,
                                  acq := if c.ctx.rearm.1 then .restart else .waiting } r := by
  have hfollows := h.follows
  simp only [Core.Follows, hacq] at hfollows
  obtain ⟨hended, hads⟩ := hfollows
  obtain ⟨hagrees, hstatus⟩ := rearm_agrees c.ctx
  apply h.keep hagrees
  · rw [hstatus]
    exact h.status
  · cases hnow : c.ctx.rearm.1 with
    | true => exact ⟨hended, hads⟩
    | false =>
        refine ⟨hended, ?_⟩
        rw [if_pos hsem]
        exact hads

/-- A step of the thread takes the read further, or completes it with what the plain run has
stored and, but for the timer, with what the plain run returns. -/
theorem carries_acquire (hcheck : ads868xCheckSequence nchannels seq = 0) (hunder : c.Underway)
    (h : c.Mirrors E seq w r) (hstep : c.acquire E answer = some t) :
    t.Carries E nchannels seq w := by
  have hne := (checkSequence_eq_zero hcheck).1
  have hfollows := h.follows
  rw [Core.acquire] at hstep
  cases hacq : c.acq with
  | waiting =>
      simp only [hacq, Option.map_eq_some_iff] at hstep
      obtain ⟨sem, htake, rfl⟩ := hstep
      have hcount := Semaphore.take_eq_some.1 htake
      simp only [Core.Follows, hacq] at hfollows
      obtain ⟨hended, hads⟩ := hfollows
      rw [if_neg (by omega)] at hads
      left
      refine ⟨hunder.sync, r, h.alone, h.sequence, h.context, h.status, ?_⟩
      apply follows_of_frames (n := 0) rfl hended
      rw [h.context.1, ← hads]
      rfl
  | reading channels channel =>
      simp only [hacq, Option.some.injEq] at hstep
      subst hstep
      left
      exact ⟨hunder.sync, r, h.alone, h.sequence, h.context, h.status,
        follows_reading hacq h.follows⟩
  | failed ret =>
      simp only [hacq, Option.some.injEq] at hstep
      subst hstep
      left
      exact ⟨hunder.sync, mirrors_failed hne hacq h⟩
  | failedStopped ret =>
      simp only [hacq, Option.some.injEq] at hstep
      subst hstep
      simp only [Core.Follows, hacq] at hfollows
      obtain ⟨hended, -, hads⟩ := hfollows
      obtain ⟨answers, halone⟩ := h.alone
      right
      refine ⟨give_of_zero hunder.sync, ?_⟩
      rw [hads]
      exact .read hcheck halone hended (returns_complete ret h.status)
  | done =>
      have hsync := (samplingDone_context c.ctx answer).2.2.2.1
      have hmirrors := mirrors_done answer hne hacq h
      simp only [hacq] at hstep
      left
      split at hstep
      · rename_i ctx hdone
        cases hstep
        rw [hdone] at hsync hmirrors
        exact ⟨hsync ▸ hunder.sync, hmirrors⟩
      · rename_i repeatSampling ctx hdone
        cases hstep
        rw [hdone] at hsync hmirrors
        exact ⟨hsync ▸ hunder.sync, hmirrors⟩
  | advance repeatSampling =>
      simp only [hacq, Option.some.injEq] at hstep
      subst hstep
      simp only [Core.Follows, hacq] at hfollows
      left
      exact ⟨hunder.sync, r, h.alone, h.sequence, h.context, h.status, hfollows.1,
        hfollows.2.symm⟩
  | rearm =>
      simp only [hacq, Option.some.injEq] at hstep
      subst hstep
      obtain ⟨hsem, -⟩ := hunder.phase.of_sampling (by rw [hacq]; rfl)
      left
      exact ⟨(rearm_context c.ctx).2.1 ▸ hunder.sync, r, mirrors_rearm hsem hacq h⟩
  | restart =>
      simp only [hacq, Option.some.injEq] at hstep
      subst hstep
      simp only [Core.Follows, hacq] at hfollows
      obtain ⟨hended, hads⟩ := hfollows
      left
      refine ⟨hunder.sync, r, h.alone, h.sequence, h.context, h.status, hended, ?_⟩
      rw [if_neg (by simp [Core.startSampling, adcContextStartSampling])]
      exact startSampling_congr hads
  | finish =>
      simp only [hacq, Option.some.injEq] at hstep
      subst hstep
      simp only [Core.Follows, hacq] at hfollows
      obtain ⟨-, htimer⟩ := hunder.phase.of_sampling (by rw [hacq]; rfl)
      obtain ⟨hagrees, hstatus⟩ := finishTimer_agrees c.ctx
      left
      refine ⟨(finishTimer_spec htimer).2 ▸ hunder.sync, r, h.keep hagrees ?_ hfollows⟩
      change Returns seq 0 c.ctx.finishTimer.status
      rw [hstatus]
      exact h.status
  | complete =>
      simp only [hacq, Option.some.injEq] at hstep
      subst hstep
      simp only [Core.Follows, hacq] at hfollows
      obtain ⟨hended, hads⟩ := hfollows
      obtain ⟨answers, halone⟩ := h.alone
      right
      refine ⟨give_of_zero hunder.sync, ?_⟩
      rw [hads]
      exact .read hcheck halone hended (returns_complete 0 h.status)

theorem interval_of_expire (hout : c.Outstanding) (hstep : c.expire = some t) :
    c.ctx.sequence.interval ≠ 0 := by
  intro hinterval
  have htimer := timer_of_expire hstep
  rw [(outstanding_immediate hinterval).1 hout] at htimer
  cases htimer

/-- An expiry starts the next sampling of the plain run; one that comes too early leaves the
status. -/
theorem carries_expire (hunder : c.Underway) (h : c.Mirrors E seq w r)
    (hstep : c.expire = some t) : t.Carries E nchannels seq w := by
  have hcounted (hout : c.Outstanding) : t.Carries E nchannels seq w := by
    have hinterval := interval_of_expire hout hstep
    obtain ⟨rfl, -⟩ := expire_outstanding hout hstep
    left
    refine ⟨hunder.sync, r, h.keep ⟨rfl, rfl⟩ ?_ h.follows⟩
    exact Or.inr ⟨rfl, rfl, h.sequence ▸ hinterval⟩
  cases hunder.phase with
  | queued hsem hacq htimer => exact hcounted htimer
  | sampling hsem hacq htimer => exact hcounted htimer
  | armed hsem hacq hinterval htimer hrequested =>
      have hfollows := h.follows
      simp only [Core.Follows, hacq, hsem, if_true] at hfollows
      obtain ⟨hended, hads⟩ := hfollows
      rw [expire_armed htimer hrequested, Option.some.injEq] at hstep
      subst hstep
      left
      refine ⟨hunder.sync, r, h.keep ⟨rfl, rfl⟩ h.status ?_⟩
      simp only [Core.Follows, Core.startSampling, hacq]
      refine ⟨hended, ?_⟩
      rw [if_neg (by simp [adcContextStartSampling])]
      exact startSampling_congr hads
  | stopped hsem hacq htimer =>
      rw [Core.expire, htimer] at hstep
      cases hstep

theorem startRead_status (seq : AdcSequence) (a : AdcContext) : (a.startRead seq).2.status = 0 := by
  rw [AdcContext.startRead]
  split
  · rfl
  · split
    · rfl
    · rfl

/-- A read that has passed the checks starts as it does on its own. -/
theorem mirrors_start {sampler : Sampler} (seq : AdcSequence) (hquiet : c.Quiet)
    (hsampler : sampler = { c.sampler with data := { c.sampler.data with buffer := seq.buffer } }) :
    Core.Mirrors E seq c.sampler.toAds
      { c with
        sampler := if (c.ctx.startRead seq).1 then adcContextStartSampling sampler else sampler
        ctx := (c.ctx.startRead seq).2
        reads := c.reads + 1 }
      (ReadRun.start seq ⟨c.sampler.toAds, Semaphore.empty 1⟩
        ⟨Semaphore.empty 1, Semaphore.empty 1, seq, 0, 0, 0, false⟩) := by
  have hsem : sampler.sem.count = 0 := by
    rw [hsampler]
    exact hquiet.sem
  have hads : sampler.toAds =
      { c.sampler.toAds with data := { c.sampler.data with buffer := seq.buffer } } := by
    rw [hsampler]
  refine ⟨⟨[], rfl⟩, AdcContext.startRead_sequence seq, ⟨?_, ?_⟩, ?_, ?_⟩
  · exact (AdcContext.startRead_sequence seq).trans (AdcContext.startRead_sequence seq).symm
  · exact (AdcContext.startRead_currentSampling seq).trans
      (AdcContext.startRead_currentSampling seq).symm
  · left
    exact startRead_status seq c.ctx
  · simp only [Core.Follows, hquiet.acq]
    refine ⟨rfl, ?_⟩
    cases hnow : (c.ctx.startRead seq).1 with
    | true =>
        simp only [if_true]
        rw [if_neg (by simp [adcContextStartSampling])]
        exact startSampling_congr hads
    | false =>
        simp only [Bool.false_eq_true, if_false]
        rw [if_pos hsem]
        exact hads

/-! ## The callers -/

/-- Where a caller with the call `request` in progress stands towards the object's state `v`. -/
def Stands (E : Bench) (nchannels : Nat) (core : Core) (v : Ads) (pc : CallerPc)
    (request : Option Request) : Prop :=
  match pc with
  | .idle => request = none
  | .setupLock ch range => ∃ cfg : AdcChannelCfg, request = some (.setup cfg) ∧
      ¬ cfg.Rejected nchannels ∧ cfg.channelId.toNat = ch ∧
      rangeOfGain cfg.gain cfg.differential = some range
  | .setupWrite ch range => core.sampler.toAds = v ∧
      ∃ cfg : AdcChannelCfg, request = some (.setup cfg) ∧
        ¬ cfg.Rejected nchannels ∧ cfg.channelId.toNat = ch ∧
        rangeOfGain cfg.gain cfg.differential = some range
  | .readLock seq => request = some (.read seq)
  | .readStart seq => core.sampler.toAds = v ∧ request = some (.read seq)
  | .readWait _ => ∃ seq, request = some (.read seq) ∧
      ads868xCheckSequence nchannels seq = 0 ∧ core.Carries E nchannels seq v
  | .setupRelease ret | .readRelease _ ret => ∃ called, request = some called ∧
      Serves E nchannels called v ret core.sampler.toAds

/-- The driver is at the state `v` of the object, but for the call that holds the lock. -/
structure Sys.Simulates {ι : Type*} [DecidableEq ι] [Fintype ι] (E : Bench) (nchannels : Nat)
    (s : Sys ι) (requests : ι → Option Request) (v : Ads) : Prop where
  serial : s.Serial
  stands : ∀ i, Stands E nchannels s.core v (s.caller i) (requests i)
  free : (∀ i, (s.caller i).inCall = false) → s.core.sampler.toAds = v

theorem Stands.frame {core core' : Core} {v v' : Ads} {pc : CallerPc} {request : Option Request}
    (hpc : pc.inCall = false) (h : Stands E nchannels core v pc request) :
    Stands E nchannels core' v' pc request := by
  cases pc with
  | idle => exact h
  | setupLock ch range => exact h
  | readLock seq => exact h
  | _ => cases hpc

variable {ι : Type*} [DecidableEq ι] [Fintype ι] {s s' : Sys ι} {i : ι} {v u : Ads}
  {requests : ι → Option Request}

/-- A step that moves one caller; the others are outside, or the step does not touch what
they rely on. -/
theorem simulates_move {core : Core} {pc : CallerPc} {request : Option Request}
    (hserial : Sys.Serial ⟨core, Function.update s.caller i pc⟩)
    (hothers : ∀ j, j ≠ i → Stands E nchannels core u (s.caller j) (requests j))
    (hself : Stands E nchannels core u pc request)
    (hfree : (∀ j, (Function.update s.caller i pc j).inCall = false) → core.sampler.toAds = u) :
    Sys.Simulates E nchannels ⟨core, Function.update s.caller i pc⟩
      (Function.update requests i request) u := by
  refine ⟨hserial, ?_, hfree⟩
  intro j
  change Stands E nchannels core u (Function.update s.caller i pc j)
    (Function.update requests i request j)
  by_cases hj : j = i
  · rw [hj, Function.update_self, Function.update_self]
    exact hself
  · rw [Function.update_of_ne hj, Function.update_of_ne hj]
    exact hothers j hj

/-- A step of the caller that holds the lock, within its call. -/
theorem simulates_inside {core : Core} {pc : CallerPc} (h : s.Simulates E nchannels requests v)
    (hserial : Sys.Serial ⟨core, Function.update s.caller i pc⟩)
    (hothers : ∀ j, j ≠ i → (s.caller j).inCall = false) (hin : pc.inCall = true)
    (hself : Stands E nchannels core v pc (requests i)) :
    Sys.Simulates E nchannels ⟨core, Function.update s.caller i pc⟩ requests v := by
  have hmoved : Sys.Simulates E nchannels ⟨core, Function.update s.caller i pc⟩
      (Function.update requests i (requests i)) v := by
    apply simulates_move hserial _ hself
    · intro hnone
      have hout := hnone i
      rw [Function.update_self, hin] at hout
      cases hout
    · intro j hj
      exact (h.stands j).frame (hothers j hj)
  rwa [Function.update_eq_self] at hmoved

theorem Sys.Simulates.others (h : s.Simulates E nchannels requests v)
    (hin : (s.caller i).inCall = true) (j : ι) (hj : j ≠ i) : (s.caller j).inCall = false := by
  by_contra hout
  exact hj (h.serial.token.exclusive (by simpa using hout) hin)

/-- A caller gets the lock: it finds the object's state. -/
theorem simulates_lock {lock : Semaphore 1} {pc : CallerPc}
    (h : s.Simulates E nchannels requests v) (htake : s.core.ctx.lock.take = some lock)
    (hout : (s.caller i).inCall = false) (hin : pc.inCall = true)
    (hserial : (s.withLock lock i pc).Serial)
    (hself : s.core.sampler.toAds = v →
      Stands E nchannels { s.core with ctx := { s.core.ctx with lock := lock } } v pc
        (requests i)) :
    (s.withLock lock i pc).Simulates E nchannels requests v := by
  have hnone := (h.serial.token.take htake hout hin).2
  exact simulates_inside h hserial (fun j _ => hnone j) hin (hself (h.free hnone))

/-- A caller releases the lock and returns: here the object serves its call. -/
theorem simulates_release {called : Request} {ret : Int}
    (h : s.Simulates E nchannels requests v) (hin : (s.caller i).inCall = true)
    (hserial : (s.withLock s.core.ctx.lock.give i .idle).Serial)
    (hcalled : requests i = some called)
    (hserves : Serves E nchannels called v ret s.core.sampler.toAds) :
    ∃ q u, Performs (Serves E nchannels) requests v [.ret i ret] q u ∧
      (s.withLock s.core.ctx.lock.give i .idle).Simulates E nchannels q u := by
  refine ⟨Function.update requests i none, s.core.sampler.toAds, .of_ret hcalled hserves, ?_⟩
  apply simulates_move hserial _ rfl
  · intro _
    rfl
  · intro j hj
    exact (h.stands j).frame (h.others hin j hj)

theorem simulates_begin {request : Request} (h : s.Simulates E nchannels requests v)
    (hstep : s.begin nchannels i request = some s') :
    ∃ q u, Performs (Serves E nchannels) requests v (s.events nchannels (.call i request)) q u ∧
      s'.Simulates E nchannels q u := by
  have hserial := serial_begin h.serial hstep
  have hstands := h.stands i
  unfold Sys.begin at hstep
  split at hstep
  · rename_i hidle
    rw [hidle] at hstands
    have hnocall : requests i = none := hstands
    -- the caller queues for the lock, and nobody else notices
    have hqueue {pc : CallerPc} (hpc : pc.inCall = false)
        (hself : Stands E nchannels s.core v pc (some request))
        (hserial : Sys.Serial ⟨s.core, Function.update s.caller i pc⟩) :
        Sys.Simulates E nchannels ⟨s.core, Function.update s.caller i pc⟩
          (Function.update requests i (some request)) v := by
      apply simulates_move hserial (fun j _ => h.stands j) hself
      intro hnone
      apply h.free
      intro j
      by_cases hj : j = i
      · rw [hj, hidle]
        rfl
      · have hout := hnone j
        rwa [Function.update_of_ne hj] at hout
    cases request with
    | read seq =>
        cases hstep
        exact ⟨_, v, .of_call hnocall, hqueue rfl rfl hserial⟩
    | setup cfg =>
        simp only at hstep
        by_cases hrejected : cfg.Rejected nchannels
        · rw [if_pos hrejected] at hstep
          cases hstep
          refine ⟨requests, v, ?_, h⟩
          rw [Sys.events, if_pos hrejected]
          exact .of_pair hnocall (.setup (.done 0#8) _ (channelSetup_of_rejected hrejected))
        · rw [if_neg hrejected, Option.map_eq_some_iff] at hstep
          obtain ⟨range, hgain, rfl⟩ := hstep
          refine ⟨_, v, ?_, hqueue rfl ⟨cfg, rfl, hrejected, rfl, hgain⟩ hserial⟩
          rw [Sys.events, if_neg hrejected]
          exact .of_call hnocall
  · cases hstep

/-- The register write is that of the whole call. -/
theorem serves_setup {cfg : AdcChannelCfg} {range : Byte} (o : WriteOutcome)
    (haccepted : ¬ cfg.Rejected nchannels)
    (hgain : rangeOfGain cfg.gain cfg.differential = some range) :
    Serves E nchannels (.setup cfg) v (ads868xProgramRange o cfg.channelId.toNat range v).1
      (ads868xProgramRange o cfg.channelId.toNat range v).2 := by
  apply Serves.setup o (Semaphore.empty 1).give
  rw [channelSetup_of_accepted haccepted hgain]
  rfl

theorem simulates_start {seq : AdcSequence} (h : s.Simulates E nchannels requests v)
    (hpc : s.caller i = .readStart seq) (hserial : (s.start nchannels i seq).Serial) :
    (s.start nchannels i seq).Simulates E nchannels requests v := by
  have hin : (s.caller i).inCall = true := by rw [hpc]; rfl
  have hstands := h.stands i
  rw [hpc] at hstands
  obtain ⟨rfl, hrequest⟩ := hstands
  obtain ⟨-, hquiet, hsync⟩ := h.serial.quiet hin (by rw [hpc]; rfl)
  rw [Sys.start] at hserial ⊢
  by_cases hcheck : ads868xCheckSequence nchannels seq = 0
  · rw [if_neg (not_not.2 hcheck)] at hserial ⊢
    apply simulates_inside h hserial (h.others hin) rfl
    refine ⟨seq, hrequest, hcheck, Or.inl ⟨?_, _, mirrors_start seq hquiet rfl⟩⟩
    have hsame := (startRead_cases seq s.core.ctx).1
    exact (congrArg Semaphore.count hsame).trans hsync
  · rw [if_pos hcheck] at hserial ⊢
    apply simulates_inside h hserial (h.others hin) rfl
    exact ⟨.read seq, hrequest, .refused hcheck⟩

theorem simulates_advance {o : WriteOutcome} (h : s.Simulates E nchannels requests v)
    (hstep : s.advance nchannels i o = some s') :
    ∃ q u, Performs (Serves E nchannels) requests v (s.events nchannels (.caller i o)) q u ∧
      s'.Simulates E nchannels q u := by
  have hserial := serial_advance h.serial hstep
  have hstands := h.stands i
  rw [Sys.advance] at hstep
  cases hpc : s.caller i with
  | idle =>
      rw [hpc] at hstep
      cases hstep
  | setupLock ch range =>
      simp only [hpc, Option.map_eq_some_iff] at hstep
      obtain ⟨lock, htake, rfl⟩ := hstep
      rw [hpc] at hstands
      simp only [Sys.events, hpc]
      refine ⟨requests, v, .nil _ _, simulates_lock h htake (by rw [hpc]; rfl) rfl hserial ?_⟩
      intro hads
      exact ⟨hads, hstands⟩
  | setupWrite ch range =>
      simp only [hpc, Option.some.injEq] at hstep
      subst hstep
      rw [hpc] at hstands
      obtain ⟨hads, cfg, hrequest, haccepted, rfl, hgain⟩ := hstands
      simp only [Sys.events, hpc]
      refine ⟨requests, v, .nil _ _,
        simulates_inside h hserial (h.others (by rw [hpc]; rfl)) rfl ?_⟩
      refine ⟨.setup cfg, hrequest, ?_⟩
      rw [← hads]
      exact serves_setup o haccepted hgain
  | setupRelease ret =>
      simp only [hpc, Option.some.injEq] at hstep
      subst hstep
      rw [hpc] at hstands
      obtain ⟨called, hrequest, hserves⟩ := hstands
      simp only [Sys.events, hpc]
      exact simulates_release h (by rw [hpc]; rfl) hserial hrequest hserves
  | readLock seq =>
      simp only [hpc, Option.map_eq_some_iff] at hstep
      obtain ⟨lock, htake, rfl⟩ := hstep
      rw [hpc] at hstands
      simp only [Sys.events, hpc]
      refine ⟨requests, v, .nil _ _, simulates_lock h htake (by rw [hpc]; rfl) rfl hserial ?_⟩
      intro hads
      exact ⟨hads, hstands⟩
  | readStart seq =>
      simp only [hpc, Option.some.injEq] at hstep
      subst hstep
      simp only [Sys.events, hpc]
      exact ⟨requests, v, .nil _ _, simulates_start h hpc hserial⟩
  | readWait read =>
      simp only [hpc, Option.map_eq_some_iff] at hstep
      obtain ⟨sync, htake, rfl⟩ := hstep
      have hcount := Semaphore.take_eq_some.1 htake
      rw [hpc] at hstands
      obtain ⟨seq, hrequest, -, ⟨hsync, -⟩ | ⟨-, hserves⟩⟩ := hstands
      · omega
      · simp only [Sys.events, hpc]
        refine ⟨requests, v, .nil _ _,
          simulates_inside h hserial (h.others (by rw [hpc]; rfl)) rfl ?_⟩
        exact ⟨.read seq, hrequest, hserves⟩
  | readRelease own ret =>
      simp only [hpc, Option.some.injEq] at hstep
      subst hstep
      rw [hpc] at hstands
      obtain ⟨called, hrequest, hserves⟩ := hstands
      simp only [Sys.events, hpc]
      exact simulates_release h (by rw [hpc]; rfl) hserial hrequest hserves

/-- A step of the thread or of the timer: it carries out the read of the caller that waits. -/
theorem simulates_core {core : Core} (h : s.Simulates E nchannels requests v)
    (hmoves : ¬ s.core.Quiet) (hserial : Sys.Serial { s with core := core })
    (hcarries : ∀ ⦃seq r⦄, ads868xCheckSequence nchannels seq = 0 → s.core.Underway →
      s.core.Mirrors E seq v r → core.Carries E nchannels seq v) :
    Sys.Simulates E nchannels { s with core := core } requests v := by
  obtain ⟨i, read, hpc, hunder⟩ := h.serial.waiting hmoves
  have hin : (s.caller i).inCall = true := by rw [hpc]; rfl
  have hstands := h.stands i
  rw [hpc] at hstands
  obtain ⟨seq, hrequest, hcheck, ⟨-, r, hmirrors⟩ | ⟨hsync, -⟩⟩ := hstands
  · refine ⟨hserial, ?_, ?_⟩
    · intro j
      by_cases hj : j = i
      · change Stands E nchannels core v (s.caller j) (requests j)
        rw [hj, hpc]
        exact ⟨seq, hrequest, hcheck, hcarries hcheck hunder hmirrors⟩
      · exact (h.stands j).frame (h.others hin j hj)
    · intro hnone
      rw [hnone i] at hin
      cases hin
  · rw [hunder.sync] at hsync
    cases hsync

theorem simulates_step {a : Act ι} (h : s.Simulates E nchannels requests v)
    (hstep : s.step E nchannels a = some s') :
    ∃ q u, Performs (Serves E nchannels) requests v (s.events nchannels a) q u ∧
      s'.Simulates E nchannels q u := by
  cases a with
  | call i request => exact simulates_begin h hstep
  | caller i o => exact simulates_advance h hstep
  | acquire answer =>
      have hserial := serial_step h.serial hstep
      rw [Sys.step, Option.map_eq_some_iff] at hstep
      obtain ⟨core, hcore, rfl⟩ := hstep
      have hmoves : ¬ s.core.Quiet := by
        intro hquiet
        rw [acquire_of_quiet hquiet] at hcore
        cases hcore
      refine ⟨requests, v, .nil _ _, simulates_core h hmoves hserial ?_⟩
      intro seq r hcheck hunder hmirrors
      exact carries_acquire hcheck hunder hmirrors hcore
  | expire =>
      have hserial := serial_step h.serial hstep
      rw [Sys.step, Option.map_eq_some_iff] at hstep
      obtain ⟨core, hcore, rfl⟩ := hstep
      have hmoves : ¬ s.core.Quiet := by
        intro hquiet
        rw [expire_of_quiet hquiet] at hcore
        cases hcore
      refine ⟨requests, v, .nil _ _, simulates_core h hmoves hserial ?_⟩
      intro seq r _ hunder hmirrors
      exact carries_expire hunder hmirrors hcore

/-! ## Whole runs -/

theorem simulates_initial (w : Ads) (seq : AdcSequence) :
    (Sys.initial w seq : Sys ι).Simulates E nchannels (fun _ => none) w :=
  ⟨serial_initial w seq, fun _ => rfl, fun _ => rfl⟩

theorem Stands.idle_iff {core : Core} {pc : CallerPc} {request : Option Request}
    (h : Stands E nchannels core v pc request) : request = none ↔ pc = .idle := by
  cases pc with
  | idle => exact ⟨fun _ => rfl, fun _ => h⟩
  | setupLock ch range =>
      obtain ⟨cfg, rfl, -⟩ := h
      simp
  | setupWrite ch range =>
      obtain ⟨-, cfg, rfl, -⟩ := h
      simp
  | setupRelease ret =>
      obtain ⟨called, rfl, -⟩ := h
      simp
  | readLock seq =>
      obtain rfl : request = some (.read seq) := h
      simp
  | readStart seq =>
      obtain ⟨-, rfl⟩ := h
      simp
  | readWait read =>
      obtain ⟨seq, rfl, -⟩ := h
      simp
  | readRelease own ret =>
      obtain ⟨called, rfl, -⟩ := h
      simp

/-- **The driver is linearizable.**  Whatever the callers, the thread, the timer and the bus
do, the calls and returns of a run are those of an atomic object on which each call runs
whole between its call and its return: a setup is `ads868x_channel_setup` with the lock free,
a read stores what the same read stores on its own, and returns what that read is
completed with or, for 0 and where it has an interval timer, `-EBUSY`.  While no caller
holds the lock the driver is that object. -/
theorem calls_linearised {w : Ads} {seq : AdcSequence} {acts : List (Act ι)}
    (hexec : (systemMachine E nchannels).exec (Sys.initial w seq) acts = some s) :
    ∃ requests v, Performs (Serves E nchannels) (fun _ => none) w
        ((systemMachine E nchannels).history (Sys.events nchannels) (Sys.initial w seq) acts)
        requests v ∧
      (∀ i, requests i = none ↔ s.caller i = .idle) ∧
      ((∀ i, (s.caller i).inCall = false) → s.core.sampler.toAds = v) := by
  obtain ⟨requests, v, hperforms, hsim⟩ := performs_history (Serves E nchannels)
    (Sys.events nchannels) (fun s requests v => s.Simulates E nchannels requests v)
    (fun _ _ _ _ _ h hstep => simulates_step h hstep) (simulates_initial w seq) hexec
  exact ⟨requests, v, hperforms, fun i => (hsim.stands i).idle_iff, hsim.free⟩

/-- Caller 1 asks for a setup, and waits for the lock through the two samplings of caller 0. -/
def actsOverlapping : List (Act (Fin 2)) :=
  [.call (Fin.ofNat 2 1) (.setup (cfgUnipolar 3#8)), .call (Fin.ofNat 2 0) (.read sequenceExample),
    .caller (Fin.ofNat 2 0) (.done 0#8), .caller (Fin.ofNat 2 0) (.done 0#8)] ++
  List.replicate 15 (.acquire .adcContinue) ++
  [.caller (Fin.ofNat 2 0) (.done 0#8), .caller (Fin.ofNat 2 0) (.done 0#8),
    .caller (Fin.ofNat 2 1) (.done 0#8), .caller (Fin.ofNat 2 1) (.done 0x06#8),
    .caller (Fin.ofNat 2 1) (.done 0#8)]

theorem calls_linearised_two :
    ∃ requests v, Performs (Serves benchQuiet 8) (fun _ => none) adsExample
        [.call (Fin.ofNat 2 1) (.setup (cfgUnipolar 3#8)),
          .call (Fin.ofNat 2 0) (.read sequenceExample),
          .ret (Fin.ofNat 2 0) 0, .ret (Fin.ofNat 2 1) 0] requests v ∧
      v.data.stores.length = 4 := by
  have hrun : ((systemMachine benchQuiet 8).exec (Sys.initial adsExample sequenceExample)
      actsOverlapping).map (fun s => (decide (∀ i, (s.caller i).inCall = false),
        s.core.sampler.data.stores.length)) = some (true, 4) := by decide +kernel
  obtain ⟨s, hexec, hend⟩ := Option.map_eq_some_iff.1 hrun
  obtain ⟨houtside, hstores⟩ := Prod.mk.inj hend
  obtain ⟨requests, v, hperforms, -, hfree⟩ := calls_linearised hexec
  refine ⟨requests, v, hperforms, ?_⟩
  rw [← hfree (of_decide_eq_true houtside)]
  exact hstores

end DataLogger.Ads868x
