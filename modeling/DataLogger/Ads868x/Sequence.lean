import DataLogger.Ads868x.ReadChannels
import DataLogger.Foundation.WriteLog
import DataLogger.Zephyr.AdcContext
import Mathlib.Tactic.Ring

/-!
# Where a read stores its samples

The checks of `ads868x_start_read`, the two callbacks that move the buffer pointer, and a
read as a run of samplings.  The buffer size is checked once, before the first frame; the
pointer is then advanced inside the frame loop and put back by a repeat.
-/

namespace DataLogger.Ads868x

open DataLogger.Foundation
open DataLogger.Zephyr

/-! ## The driver's part of a read -/

/-- `ads868x_validate_buffer_size`, with a `size_t` of 32 bits. -/
def ads868xValidateBufferSize (seq : AdcSequence) : Int :=
  let needed := popcount seq.channels * 2 % 2 ^ 32
  let needed := match seq.options with
    | none => needed
    | some options => needed * (1 + options.extraSamplings.toNat) % 2 ^ 32
  if seq.bufferSize < needed then eNoMem.code else 0

def ads868xResolution : Byte := 16#8

/-- The checks of `ads868x_start_read`. -/
def ads868xCheckSequence (nchannels : Nat) (seq : AdcSequence) : Int :=
  if seq.resolution ≠ ads868xResolution then eNotSup.code
  else if seq.channels = 0#32 ∨ seq.channels &&& ~~~(bitMask nchannels) ≠ 0#32 then eNotSup.code
  else if seq.oversampling ≠ 0#8 then eNotSup.code
  else if seq.calibrate then eNotSup.code
  else ads868xValidateBufferSize seq

/-- The driver with the semaphore that wakes the acquisition thread. -/
structure Sampler extends Ads where
  sem : Semaphore 1
  deriving DecidableEq

/-- `adc_context_start_sampling`. -/
def adcContextStartSampling (s : Sampler) : Sampler :=
  { s with data := { s.data with repeatBuffer := s.data.buffer }, sem := s.sem.give }

/-- `adc_context_update_buffer_pointer`. -/
def adcContextUpdateBufferPointer (repeatSampling : Bool) (s : Sampler) : Sampler :=
  if repeatSampling then { s with data := { s.data with buffer := s.data.repeatBuffer } } else s

/-! ## A read as a run of samplings -/

/-- One pass of `ads868x_read_channels`: for which sampling, how it ended, what it stored. -/
structure SamplingRun where
  index : Nat
  ret : Int
  stores : List (Nat × BitVec 16)
  deriving DecidableEq

/-- A read that has begun; `ended` is what it was completed with. -/
structure ReadRun where
  sampler : Sampler
  ctx : AdcContext
  log : List SamplingRun
  ended : Option Int
  deriving DecidableEq

def ReadRun.start (seq : AdcSequence) (sampler : Sampler) (ctx : AdcContext) : ReadRun where
  sampler := { sampler with data := { sampler.data with buffer := seq.buffer } }
  ctx := (ctx.startRead seq).2
  log := []
  ended := none

/-- The next sampling, from its start to what follows from the callback's answer. -/
def ReadRun.step (E : Bench) (r : ReadRun) (answer : AdcAction) : Option ReadRun :=
  if r.ended.isSome then none
  else
    let s := adcContextStartSampling r.sampler
    s.sem.take.map fun sem =>
      let (ret, w) := ads868xReadChannels E r.ctx.sequence.channels s.toAds
      let stores := w.data.stores.drop s.data.stores.length
      let log := r.log ++ [⟨r.ctx.currentSampling, ret, stores⟩]
      let s := { s with toAds := w, sem := sem }
      if ret ≠ 0 then { r with sampler := s, log := log, ended := some ret }
      else
        match r.ctx.samplingDone answer with
        | (.finish, ctx) => { sampler := s, ctx := ctx, log := log, ended := some 0 }
        | (.again repeatSampling, ctx) =>
            { sampler := adcContextUpdateBufferPointer repeatSampling s
              ctx := ctx, log := log, ended := none }

def sequenceMachine (E : Bench) : Machine ReadRun AdcAction := ⟨ReadRun.step E⟩

/-! ## What one pass stores -/

variable {E : Bench} {w : Ads}

/-- The pass has stored at most `n` samples, one after the other from the buffer pointer on,
and all `n` of them if it has returned 0. -/
def Laid (n : Nat) (w : Ads) (out : Int × Ads) : Prop :=
  ∃ samples, out.2.data.stores = w.data.stores ++ samples ∧
    samples.map Prod.fst = List.range' w.data.buffer samples.length ∧
    samples.length ≤ n ∧ (out.1 = 0 → samples.length = n) ∧
    out.2.data.buffer = w.data.buffer + samples.length ∧
    out.2.data.repeatBuffer = w.data.repeatBuffer

/-- A frame that fails ends the pass with nothing more stored. -/
theorem laid_of_failed {n : Nat} {cmd : BitVec 16} (hfail : E.outcome w.frames ≠ .ok) :
    Laid n w ((ads868xCommand E cmd w).1, (ads868xCommand E cmd w).2.2) := by
  refine ⟨[], ?_, rfl, Nat.zero_le n, ?_, ?_, ?_⟩
  · rw [command_data, List.append_nil]
  · intro hzero
    exact absurd ((command_eq_zero _).1 hzero) hfail
  · rw [command_data]
    rfl
  · rw [command_data]

/-- A sample stored in front of what the rest of the pass stores. -/
theorem laid_store {n : Nat} {x : BitVec 16} {v : Ads} {out : Int × Ads}
    (hdata : v.data = (w.store x).data) (hout : Laid n v out) : Laid (n + 1) w out := by
  obtain ⟨samples, hstores, hindices, hle, hall, hbuffer, hrepeat⟩ := hout
  rw [hdata] at hstores hindices hbuffer hrepeat
  refine ⟨(w.data.buffer, x) :: samples, ?_, ?_, ?_, ?_, ?_, hrepeat⟩
  · rw [hstores]
    exact (List.append_cons _ _ _).symm
  · rw [List.map_cons, hindices, List.length_cons, List.range'_succ]
    rfl
  · rw [List.length_cons]
    omega
  · intro hzero
    rw [List.length_cons, hall hzero]
  · rw [hbuffer, List.length_cons]
    change w.data.buffer + 1 + samples.length = _
    omega

theorem readLoop_laid (rest : List Nat) {channels : BitVec 32} {channel : Nat}
    (hbits : setBits channels = rest) :
    Laid (rest.length + 1) w (readLoop E channels channel w) := by
  induction rest generalizing channels channel w with
  | nil =>
      rw [readLoop_nil hbits]
      by_cases hok : E.outcome w.frames = .ok
      · rw [command_ok _ hok, if_neg (by simp)]
        apply laid_store rfl
        exact ⟨[], (List.append_nil _).symm, rfl, Nat.le_refl 0, fun _ => rfl, rfl, rfl⟩
      · rw [if_pos (fun h => hok ((command_eq_zero _).1 h))]
        exact laid_of_failed hok
  | cons next rest ih =>
      rw [readLoop_cons hbits]
      by_cases hok : E.outcome w.frames = .ok
      · rw [command_ok _ hok, if_neg (by simp)]
        exact laid_store rfl (ih (setBits_clear_lsb hbits))
      · rw [if_pos (fun h => hok ((command_eq_zero _).1 h))]
        exact laid_of_failed hok

theorem readChannels_laid {channels : BitVec 32} (hne : channels ≠ 0#32) :
    Laid (popcount channels) w (ads868xReadChannels E channels w) := by
  cases hbits : setBits channels with
  | nil => exact absurd (setBits_eq_nil.1 hbits) hne
  | cons first rest =>
      rw [readChannels_eq hbits, popcount, hbits]
      by_cases hok : E.outcome w.frames = .ok
      · rw [command_ok _ hok, if_neg (by simp)]
        exact readLoop_laid rest (setBits_clear_lsb hbits)
      · rw [if_pos (fun h => hok ((command_eq_zero _).1 h))]
        exact laid_of_failed hok

/-! ## The check made up front -/

theorem popcount_le (x : BitVec 32) : popcount x ≤ 32 := by
  calc popcount x ≤ (List.range 32).length := List.length_filter_le _ _
    _ = 32 := List.length_range

/-- No product of the check wraps: it compares the size with what the read needs. -/
theorem validateBufferSize_eq_zero {seq : AdcSequence} :
    ads868xValidateBufferSize seq = 0 ↔
      popcount seq.channels * 2 * (1 + seq.extraSamplings) ≤ seq.bufferSize := by
  have hcount := popcount_le seq.channels
  have hword : popcount seq.channels * 2 % 2 ^ 32 = popcount seq.channels * 2 :=
    Nat.mod_eq_of_lt (by omega)
  rw [ads868xValidateBufferSize, AdcSequence.extraSamplings]
  cases seq.options with
  | none =>
      simp only [hword, Nat.add_zero, Nat.mul_one]
      split
      · simp [eNoMem.code_ne_zero]
        omega
      · simp
        omega
  | some options =>
      have hextra : options.extraSamplings.toNat < 65536 := options.extraSamplings.isLt
      have hneeded : popcount seq.channels * 2 * (1 + options.extraSamplings.toNat) ≤
          64 * 65536 := Nat.mul_le_mul (by omega) (by omega)
      simp only [hword]
      rw [Nat.mod_eq_of_lt (by omega)]
      split
      · simp [eNoMem.code_ne_zero]
        omega
      · simp
        omega

theorem checkSequence_eq_zero {nchannels : Nat} {seq : AdcSequence}
    (hcheck : ads868xCheckSequence nchannels seq = 0) :
    seq.channels ≠ 0#32 ∧ seq.channels &&& ~~~(bitMask nchannels) = 0#32 ∧
      popcount seq.channels * 2 * (1 + seq.extraSamplings) ≤ seq.bufferSize := by
  rw [ads868xCheckSequence] at hcheck
  split at hcheck
  · exact absurd hcheck eNotSup.code_ne_zero
  · split at hcheck
    · exact absurd hcheck eNotSup.code_ne_zero
    · rename_i hmask
      split at hcheck
      · exact absurd hcheck eNotSup.code_ne_zero
      · split at hcheck
        · exact absurd hcheck eNotSup.code_ne_zero
        · rw [not_or, not_not] at hmask
          exact ⟨hmask.1, hmask.2, validateBufferSize_eq_zero.1 hcheck⟩

/-! ## One sampling -/

/-- The stores of a sampling lie at its own place in the buffer. -/
structure SamplingRun.AtOwnPlace (seq : AdcSequence) (run : SamplingRun) : Prop where
  index_le : run.index ≤ seq.extraSamplings
  length_le : run.stores.length ≤ popcount seq.channels
  indices : run.stores.map Prod.fst =
    List.range' (seq.buffer + run.index * popcount seq.channels) run.stores.length
  complete : run.ret = 0 → run.stores.length = popcount seq.channels

theorem SamplingRun.AtOwnPlace.in_buffer {seq : AdcSequence} {run : SamplingRun}
    (hrun : run.AtOwnPlace seq)
    (hsize : popcount seq.channels * 2 * (1 + seq.extraSamplings) ≤ seq.bufferSize)
    {x : Nat × BitVec 16} (hx : x ∈ run.stores) :
    seq.buffer ≤ x.1 ∧ x.1 < seq.buffer + seq.bufferSize / 2 := by
  have hmem : x.1 ∈ run.stores.map Prod.fst := List.mem_map_of_mem hx
  rw [hrun.indices, List.mem_range'_1] at hmem
  have hplace : (run.index + 1) * popcount seq.channels ≤ seq.bufferSize / 2 := by
    rw [Nat.le_div_iff_mul_le (by omega)]
    calc (run.index + 1) * popcount seq.channels * 2
        = popcount seq.channels * 2 * (1 + run.index) := by ring
      _ ≤ popcount seq.channels * 2 * (1 + seq.extraSamplings) :=
          Nat.mul_le_mul_left _ (Nat.add_le_add_left hrun.index_le 1)
      _ ≤ seq.bufferSize := hsize
  have hend : (run.index + 1) * popcount seq.channels =
      run.index * popcount seq.channels + popcount seq.channels := Nat.succ_mul _ _
  have hlength := hrun.length_le
  omega

/-- How a read goes on after the pass `run`. -/
inductive ReadRun.Goes (r : ReadRun) (answer : AdcAction) (run : SamplingRun) (t : ReadRun) :
    Prop where
  | failed (hret : run.ret ≠ 0) (hended : t.ended = some run.ret) (hctx : t.ctx = r.ctx)
  | ended (hret : run.ret = 0) (hended : t.ended = some 0) (hctx : t.ctx = r.ctx)
      (hwhy : AdcContext.FinishedBy r.ctx.sequence answer ∨
        r.ctx.sequence.extraSamplings ≤ r.ctx.currentSampling)
  | repeated (hret : run.ret = 0) (hended : t.ended = none) (hctx : t.ctx = r.ctx)
      (hbuffer : t.sampler.data.buffer = r.sampler.data.buffer)
  | advanced (hret : run.ret = 0) (hended : t.ended = none)
      (hctx : t.ctx = { r.ctx with samplingIndex := r.ctx.samplingIndex + 1 })
      (hbuffer : t.sampler.data.buffer =
        r.sampler.data.buffer + popcount r.ctx.sequence.channels)
      (hcurrent : r.ctx.currentSampling = r.ctx.samplingIndex)
      (hoptions : r.ctx.sequence.options.isSome)
      (hmore : r.ctx.samplingIndex < r.ctx.sequence.extraSamplings)

theorem take_start (s : Sampler) :
    (adcContextStartSampling s).sem.take = some (Semaphore.empty 1) := by
  rw [Semaphore.take_eq_some]
  change min (s.sem.count + 1) 1 = 0 + 1
  omega

/-- A read that has not ended is never stuck at its semaphore. -/
theorem exists_step {r : ReadRun} (hended : r.ended = none) (answer : AdcAction) :
    ∃ t, r.step E answer = some t := by
  rw [ReadRun.step, if_neg (by simp [hended])]
  simp only [take_start, Option.map_some]
  exact ⟨_, rfl⟩

/-- A sampling: one pass from the buffer pointer on, and then one of four ways to go on. -/
theorem step_spec {r t : ReadRun} {answer : AdcAction}
    (hne : r.ctx.sequence.channels ≠ 0#32) (hstep : r.step E answer = some t) :
    r.ended = none ∧ ∃ run : SamplingRun, run.index = r.ctx.currentSampling ∧
      run.stores.map Prod.fst = List.range' r.sampler.data.buffer run.stores.length ∧
      run.stores.length ≤ popcount r.ctx.sequence.channels ∧
      (run.ret = 0 → run.stores.length = popcount r.ctx.sequence.channels) ∧
      t.log = r.log ++ [run] ∧
      t.sampler.data.stores = r.sampler.data.stores ++ run.stores ∧
      r.Goes answer run t := by
  rw [ReadRun.step] at hstep
  split at hstep
  · cases hstep
  · rename_i hrunning
    have hended : r.ended = none := by simpa using hrunning
    obtain ⟨samples, hstores, hindices, hle, hall, hbuffer, hrepeat⟩ :=
      readChannels_laid (E := E) (w := (adcContextStartSampling r.sampler).toAds) hne
    simp only [take_start, Option.map_some, Option.some.injEq] at hstep
    generalize hread : ads868xReadChannels E r.ctx.sequence.channels
      (adcContextStartSampling r.sampler).toAds = out at hstep hstores hall hbuffer hrepeat
    obtain ⟨ret, w'⟩ := out
    have hnew : w'.data.stores.drop (adcContextStartSampling r.sampler).data.stores.length =
        samples := by
      rw [hstores, List.drop_left]
    simp only [hnew] at hstep
    refine ⟨hended, ⟨r.ctx.currentSampling, ret, samples⟩, rfl, hindices, hle, hall, ?_⟩
    by_cases hret : ret = 0
    · rw [if_neg (not_not.2 hret)] at hstep
      rcases @AdcContext.samplingDone_cases r.ctx answer with
        ⟨hdone, hwhy⟩ | hdone | ⟨hdone, hcurrent, hoptions, hmore⟩
      · rw [hdone] at hstep
        subst hstep
        exact ⟨rfl, hstores, .ended hret rfl rfl hwhy⟩
      · rw [hdone] at hstep
        subst hstep
        exact ⟨rfl, hstores, .repeated hret rfl rfl hrepeat⟩
      · rw [hdone] at hstep
        subst hstep
        refine ⟨rfl, hstores, .advanced hret rfl rfl ?_ hcurrent hoptions hmore⟩
        change w'.data.buffer = _
        rw [hbuffer, hall hret]
        rfl
    · rw [if_pos hret] at hstep
      subst hstep
      exact ⟨rfl, hstores, .failed hret rfl rfl⟩

/-! ## Whole reads -/

/-- Sampling `i` has succeeded, and has not been run again since. -/
def Covered (log : List SamplingRun) (i : Nat) : Prop :=
  ∃ before run after, log = before ++ run :: after ∧ run.index = i ∧ run.ret = 0 ∧
    ∀ later ∈ after, later.index ≠ i

theorem Covered.append {log : List SamplingRun} {run : SamplingRun} {i : Nat}
    (hlog : Covered log i) (hne : run.index ≠ i) : Covered (log ++ [run]) i := by
  obtain ⟨before, last, after, rfl, hindex, hret, hlater⟩ := hlog
  refine ⟨before, last, after ++ [run], by simp, hindex, hret, ?_⟩
  intro later hmem
  rcases List.mem_append.1 hmem with h | h
  · exact hlater later h
  · rw [List.mem_singleton.1 h]
    exact hne

theorem covered_last (log : List SamplingRun) {run : SamplingRun} (hret : run.ret = 0) :
    Covered (log ++ [run]) run.index :=
  ⟨log, run, [], rfl, rfl, hret, by simp⟩

/-- The invariant of a read: the pointer stands at the sampling in progress, and the
samplings before it are covered. -/
structure Laying (seq : AdcSequence) (earlier : List (Nat × BitVec 16)) (r : ReadRun) :
    Prop where
  sequence : r.ctx.sequence = seq
  current_le : r.ctx.currentSampling ≤ seq.extraSamplings
  pointer : r.ended = none → r.sampler.data.buffer =
    seq.buffer + r.ctx.currentSampling * popcount seq.channels
  stores : r.sampler.data.stores = earlier ++ r.log.flatMap SamplingRun.stores
  runs : ∀ run ∈ r.log, run.AtOwnPlace seq
  covered : ∀ i < r.ctx.currentSampling, Covered r.log i
  complete : r.ended = some 0 → Covered r.log r.ctx.currentSampling

theorem laying_start (seq : AdcSequence) (sampler : Sampler) (ctx : AdcContext) :
    Laying seq sampler.data.stores (ReadRun.start seq sampler ctx) := by
  have hcurrent : (ReadRun.start seq sampler ctx).ctx.currentSampling = 0 :=
    AdcContext.startRead_currentSampling seq
  refine ⟨AdcContext.startRead_sequence seq, ?_, ?_, (List.append_nil _).symm, ?_, ?_, ?_⟩
  · rw [hcurrent]
    exact Nat.zero_le _
  · intro _
    rw [hcurrent, Nat.zero_mul]
    rfl
  · intro run hmem
    cases hmem
  · intro i hi
    rw [hcurrent] at hi
    omega
  · intro hended
    cases hended

theorem currentSampling_advanced {ctx : AdcContext} (hoptions : ctx.sequence.options.isSome) :
    { ctx with samplingIndex := ctx.samplingIndex + 1 }.currentSampling =
      ctx.samplingIndex + 1 := by
  obtain ⟨options, hsome⟩ := Option.isSome_iff_exists.1 hoptions
  rw [AdcContext.currentSampling]
  simp only [hsome]

theorem laying_step {seq : AdcSequence} {earlier : List (Nat × BitVec 16)} {r t : ReadRun}
    {answer : AdcAction} (hne : seq.channels ≠ 0#32) (hr : Laying seq earlier r)
    (hstep : r.step E answer = some t) : Laying seq earlier t := by
  have hseq := hr.sequence
  rw [← hseq] at hne
  obtain ⟨hrunning, run, hindex, hindices, hle, hall, hlog, hstores, hgoes⟩ :=
    step_spec hne hstep
  rw [hseq] at hle hall
  have hplace : run.AtOwnPlace seq := by
    refine ⟨hindex ▸ hr.current_le, hle, ?_, hall⟩
    rw [hindices, hr.pointer hrunning, hindex]
  have hruns : ∀ other ∈ t.log, other.AtOwnPlace seq := by
    intro other hmem
    rw [hlog, List.mem_append, List.mem_singleton] at hmem
    rcases hmem with h | rfl
    · exact hr.runs other h
    · exact hplace
  have hwritten : t.sampler.data.stores = earlier ++ t.log.flatMap SamplingRun.stores := by
    rw [hstores, hr.stores, hlog, List.flatMap_append, List.append_assoc]
    simp
  have hbelow : ∀ i < r.ctx.currentSampling, Covered t.log i := by
    intro i hi
    rw [hlog]
    exact (hr.covered i hi).append (by omega)
  have hdone : run.ret = 0 → Covered t.log r.ctx.currentSampling := by
    intro hret
    rw [hlog, ← hindex]
    exact covered_last _ hret
  cases hgoes with
  | failed hret hended hctx =>
      refine ⟨by rw [hctx, hseq], hctx ▸ hr.current_le, ?_, hwritten, hruns, hctx ▸ hbelow, ?_⟩
      · intro h
        rw [hended] at h
        cases h
      · intro h
        rw [hended, Option.some.injEq] at h
        exact absurd h hret
  | ended hret hended hctx hwhy =>
      refine ⟨by rw [hctx, hseq], hctx ▸ hr.current_le, ?_, hwritten, hruns, hctx ▸ hbelow, ?_⟩
      · intro h
        rw [hended] at h
        cases h
      · intro _
        rw [hctx]
        exact hdone hret
  | repeated hret hended hctx hbuffer =>
      refine ⟨by rw [hctx, hseq], hctx ▸ hr.current_le, ?_, hwritten, hruns, hctx ▸ hbelow, ?_⟩
      · intro _
        rw [hbuffer, hctx, hr.pointer hrunning]
      · intro h
        rw [hended] at h
        cases h
  | advanced hret hended hctx hbuffer hcurrent hoptions hmore =>
      have hnext : t.ctx.currentSampling = r.ctx.samplingIndex + 1 := by
        rw [hctx]
        exact currentSampling_advanced hoptions
      refine ⟨by rw [hctx, ← hseq], ?_, ?_, hwritten, hruns, ?_, ?_⟩
      · rw [hnext, ← hseq]
        omega
      · intro _
        rw [hbuffer, hnext, hr.pointer hrunning, hcurrent, hseq]
        ring
      · intro i hi
        rw [hnext] at hi
        by_cases hlast : i = r.ctx.currentSampling
        · rw [hlast]
          exact hdone hret
        · exact hbelow i (by omega)
      · intro h
        rw [hended] at h
        cases h

theorem laying_exec {seq : AdcSequence} {sampler : Sampler} {ctx : AdcContext} {r : ReadRun}
    {answers : List AdcAction} (hne : seq.channels ≠ 0#32)
    (hexec : (sequenceMachine E).exec (ReadRun.start seq sampler ctx) answers = some r) :
    Laying seq sampler.data.stores r := by
  have hpres : (sequenceMachine E).Preserves (Laying seq sampler.data.stores) := by
    intro s a t hs hstep
    exact laying_step hne hs hstep
  exact hpres.exec (laying_start seq sampler ctx) hexec

/-- Cells of another sampling lie elsewhere. -/
theorem notMem_of_index_ne {seq : AdcSequence} {run : SamplingRun} {i k : Nat}
    (hrun : run.AtOwnPlace seq) (hne : run.index ≠ i) (hk : k < popcount seq.channels) :
    seq.buffer + i * popcount seq.channels + k ∉ run.stores.map Prod.fst := by
  have hlength := hrun.length_le
  rw [hrun.indices, List.mem_range'_1]
  rintro ⟨hlow, hhigh⟩
  rcases Nat.lt_or_gt_of_ne hne with hlt | hgt
  · have hplace : (run.index + 1) * popcount seq.channels ≤ i * popcount seq.channels :=
      Nat.mul_le_mul_right _ hlt
    rw [Nat.succ_mul] at hplace
    omega
  · have hplace : (i + 1) * popcount seq.channels ≤ run.index * popcount seq.channels :=
      Nat.mul_le_mul_right _ hgt
    rw [Nat.succ_mul] at hplace
    omega

/-- The cells of a covered sampling hold what its last pass stored. -/
theorem contents_of_covered {seq : AdcSequence} {earlier : List (Nat × BitVec 16)}
    {log : List SamplingRun} {i : Nat} (hruns : ∀ run ∈ log, run.AtOwnPlace seq)
    (hcovered : Covered log i) :
    ∃ run ∈ log, run.index = i ∧ run.ret = 0 ∧
      run.stores.length = popcount seq.channels ∧
      ∀ k < popcount seq.channels,
        contents (earlier ++ log.flatMap SamplingRun.stores)
            (seq.buffer + i * popcount seq.channels + k) =
          (run.stores[k]?).map Prod.snd := by
  obtain ⟨before, run, after, rfl, rfl, hret, hlater⟩ := hcovered
  have hrun : run.AtOwnPlace seq := hruns run (by simp)
  have hlength := hrun.complete hret
  refine ⟨run, by simp, rfl, hret, hlength, ?_⟩
  intro k hk
  have hafter : seq.buffer + run.index * popcount seq.channels + k ∉
      (after.flatMap SamplingRun.stores).map Prod.fst := by
    rw [List.map_flatMap, List.mem_flatMap]
    rintro ⟨later, hmem, hcell⟩
    exact notMem_of_index_ne (hruns later (by simp [hmem])) (hlater later hmem) hk hcell
  have hown := contents_consecutive hrun.indices (k := k) (by omega)
  have hsome : ∃ x, run.stores[k]? = some x :=
    ⟨_, List.getElem?_eq_getElem (by omega)⟩
  obtain ⟨x, hx⟩ := hsome
  rw [List.flatMap_append, List.flatMap_cons, ← List.append_assoc, ← List.append_assoc,
    contents_append_of_notMem hafter, contents_append, hown, hx]
  rfl

/-- A read that is completed with 0 has gone on to the last sampling, unless the callback has
answered FINISH. -/
theorem finished_or_full {seq : AdcSequence} {sampler : Sampler} {ctx : AdcContext}
    {r : ReadRun} {answers : List AdcAction} (hne : seq.channels ≠ 0#32)
    (hexec : (sequenceMachine E).exec (ReadRun.start seq sampler ctx) answers = some r)
    (hended : r.ended = some 0) :
    (∃ answer, answers.getLast? = some answer ∧ AdcContext.FinishedBy seq answer) ∨
      r.ctx.currentSampling = seq.extraSamplings := by
  rcases List.eq_nil_or_concat answers with rfl | ⟨earlier, answer, rfl⟩
  · cases hexec
    cases hended
  · rw [List.concat_eq_append, Machine.exec_append, Option.bind_eq_some_iff] at hexec
    obtain ⟨s, hearlier, hlast⟩ := hexec
    rw [Machine.exec_singleton] at hlast
    have hs := laying_exec hne hearlier
    have hr := laying_step hne hs hlast
    have hne' : s.ctx.sequence.channels ≠ 0#32 := by rw [hs.sequence]; exact hne
    obtain ⟨-, run, -, -, -, -, -, -, hgoes⟩ := step_spec hne' hlast
    cases hgoes with
    | failed hret hfailed hctx =>
        rw [hfailed, Option.some.injEq] at hended
        exact absurd hended hret
    | ended hret hover hctx hwhy =>
        rcases hwhy with hfinished | hfull
        · left
          exact ⟨answer, by simp, hs.sequence ▸ hfinished⟩
        · right
          rw [hs.sequence] at hfull
          have hle := hr.current_le
          rw [hctx] at hle ⊢
          omega
    | repeated hret hrepeated hctx hbuffer =>
        rw [hrepeated] at hended
        cases hended
    | advanced hret hadvanced hctx hbuffer hcurrent hoptions hmore =>
        rw [hadvanced] at hended
        cases hended

/-- **Every read keeps to its buffer and lays its samples out by sampling index.**  For a
sequence that passes the checks and any history of answers and SPI failures: every pass
stores from its sampling's own place on and inside the buffer, all of its samples if
it succeeds; and a read completed with 0 leaves, for each sampling up to its last one, the
samples of the last pass over it, up to the last extra sampling unless the callback has
answered FINISH. -/
theorem sequence_layout {nchannels : Nat} {seq : AdcSequence} {sampler : Sampler}
    {ctx : AdcContext} {r : ReadRun} {answers : List AdcAction}
    (hcheck : ads868xCheckSequence nchannels seq = 0)
    (hexec : (sequenceMachine E).exec (ReadRun.start seq sampler ctx) answers = some r) :
    (r.ended = none → ∀ answer, ∃ t, r.step E answer = some t) ∧
    r.sampler.data.stores = sampler.data.stores ++ r.log.flatMap SamplingRun.stores ∧
    (∀ run ∈ r.log, run.AtOwnPlace seq ∧
      ∀ x ∈ run.stores, seq.buffer ≤ x.1 ∧ x.1 < seq.buffer + seq.bufferSize / 2) ∧
    (r.ended = some 0 →
      ((∃ answer, answers.getLast? = some answer ∧ AdcContext.FinishedBy seq answer) ∨
        r.ctx.currentSampling = seq.extraSamplings) ∧
      ∀ i ≤ r.ctx.currentSampling, ∃ run ∈ r.log, run.index = i ∧ run.ret = 0 ∧
        run.stores.length = popcount seq.channels ∧
        ∀ k < popcount seq.channels,
          contents r.sampler.data.stores (seq.buffer + i * popcount seq.channels + k) =
            (run.stores[k]?).map Prod.snd) := by
  obtain ⟨hne, -, hsize⟩ := checkSequence_eq_zero hcheck
  have hr := laying_exec hne hexec
  refine ⟨exists_step, hr.stores, ?_, ?_⟩
  · intro run hmem
    have hrun := hr.runs run hmem
    exact ⟨hrun, fun x hx => hrun.in_buffer hsize hx⟩
  · intro hended
    refine ⟨finished_or_full hne hexec hended, ?_⟩
    intro i hi
    have hcovered : Covered r.log i := by
      by_cases hlast : i = r.ctx.currentSampling
      · rw [hlast]
        exact hr.complete hended
      · exact hr.covered i (by omega)
    rw [hr.stores]
    exact contents_of_covered hr.runs hcovered

/-- Channels 0 and 2 with one extra sampling and a callback. -/
def sequenceExample : AdcSequence where
  options := some ⟨0#32, true, 1#16⟩
  channels := 0x05#32
  buffer := 3
  bufferSize := 8
  resolution := 16#8
  oversampling := 0#8
  calibrate := false

def runExample : ReadRun :=
  ReadRun.start sequenceExample ⟨adsExample, Semaphore.empty 1⟩
    ⟨Semaphore.empty 1, Semaphore.empty 1, sequenceExample, 0, 7, 0, false⟩

theorem sequence_layout_repeat :
    ∃ r, (sequenceMachine benchExample).exec runExample
        [.adcRepeat, .adcContinue, .adcContinue] = some r ∧
      r.log.map SamplingRun.index = [0, 0, 1] ∧
      ∀ i ≤ 1, ∃ run ∈ r.log, run.index = i ∧ run.ret = 0 ∧ run.stores.length = 2 := by
  have hrun : ((sequenceMachine benchExample).exec runExample
      [.adcRepeat, .adcContinue, .adcContinue]).map
        (fun r => (r.ended, r.ctx.currentSampling, r.log.map SamplingRun.index)) =
      some (some 0, 1, [0, 0, 1]) := by decide +kernel
  obtain ⟨r, hexec, hr⟩ := Option.map_eq_some_iff.1 hrun
  simp only [Prod.mk.injEq] at hr
  obtain ⟨hended, hcurrent, hlog⟩ := hr
  have hcheck : ads868xCheckSequence 8 sequenceExample = 0 := by decide
  have hlayout := (sequence_layout hcheck hexec).2.2.2 hended
  refine ⟨r, hexec, hlog, ?_⟩
  intro i hi
  obtain ⟨run, hmem, hindex, hret, hlength, -⟩ := hlayout.2 i (hcurrent ▸ hi)
  exact ⟨run, hmem, hindex, hret, hlength⟩

end DataLogger.Ads868x
