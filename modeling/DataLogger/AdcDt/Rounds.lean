import DataLogger.AdcDt.Setup
import DataLogger.Foundation.Threaded
import Mathlib.Data.List.Perm.Subperm

/-!
# What a round prints

Each line is the input it names during the frames of its own read, with the sign of its
range, or the error of the frame that has ended that read.  The cells behind the channels of
the mask are never written.
-/

namespace DataLogger.AdcDt

open DataLogger.Foundation
open DataLogger.Zephyr
open DataLogger.Ads868x

/-! ## A read -/

variable {E : Bench}

theorem range_readLoop (rest : List Nat) {channels : BitVec 32} {channel : Nat} {w : Ads}
    (hbits : setBits channels = rest) :
    (readLoop E channels channel w).2.data.range = w.data.range := by
  induction rest generalizing channels channel w with
  | nil =>
      have hframe := congrArg AdcData.range (command_data E ads868xCmdNoOp w)
      rw [readLoop_nil hbits]
      split
      · exact hframe
      · exact hframe
  | cons next rest ih =>
      have hframe := congrArg AdcData.range (command_data E (ads868xCmdManCh next) w)
      rw [readLoop_cons hbits]
      split
      · exact hframe
      · exact (ih (setBits_clear_lsb hbits)).trans hframe

/-- A read leaves the range cache alone. -/
theorem range_readChannels {channels : BitVec 32} {w : Ads} (hne : channels ≠ 0#32) :
    (ads868xReadChannels E channels w).2.data.range = w.data.range := by
  cases hbits : setBits channels with
  | nil => exact absurd (setBits_eq_nil.1 hbits) hne
  | cons first rest =>
      have hframe := congrArg AdcData.range (command_data E (ads868xCmdManCh first) w)
      rw [readChannels_eq hbits]
      split
      · exact hframe
      · exact (range_readLoop rest (setBits_clear_lsb hbits)).trans hframe

/-- The driver as the acquisition thread finds it. -/
def Adc.pass (seq : AdcSequence) (a : Adc) : Ads :=
  { a.sampler.toAds with
    data := { a.sampler.data with buffer := seq.buffer, repeatBuffer := seq.buffer } }

theorem adcRead_refused {nchannels : Nat} {seq : AdcSequence} {a : Adc}
    (hlock : a.ctx.lock.count = 1) (hcheck : ads868xCheckSequence nchannels seq ≠ 0) :
    adcRead E nchannels seq a = some (ads868xCheckSequence nchannels seq, a) := by
  obtain ⟨held, htake, hgive⟩ := take_give hlock
  simp only [adcRead, htake, Option.bind_some, if_pos hcheck, hgive]

/-- Without options the read ends with its first pass. -/
theorem start_step {seq : AdcSequence} (sampler : Sampler) (ctx : AdcContext) {w : Ads}
    (hoptions : seq.options = none)
    (hw : w = { sampler.toAds with
      data := { sampler.data with buffer := seq.buffer, repeatBuffer := seq.buffer } }) :
    ∃ r, (ReadRun.start seq sampler ctx).step E .adcContinue = some r ∧
      r.ended = some (ads868xReadChannels E seq.channels w).1 ∧
      r.sampler.toAds = (ads868xReadChannels E seq.channels w).2 ∧
      r.ctx = { ctx with sequence := seq, status := 0 } := by
  have hctx : (ctx.startRead seq).2 = { ctx with sequence := seq, status := 0 } := by
    simp only [AdcContext.startRead, hoptions]
  have hrunning : ¬ (ReadRun.start seq sampler ctx).ended.isSome = true := by
    simp [ReadRun.start]
  rw [ReadRun.step, if_neg hrunning]
  simp only [take_start, Option.map_some, ReadRun.start, hctx]
  have hpass : (adcContextStartSampling
      { sampler with data := { sampler.data with buffer := seq.buffer } }).toAds = w := by
    rw [hw]
    rfl
  rw [hpass]
  by_cases hret : (ads868xReadChannels E seq.channels w).1 = 0
  · simp only [hret, AdcContext.samplingDone, hoptions]
    exact ⟨_, rfl, rfl, rfl, rfl⟩
  · simp only [if_pos hret]
    exact ⟨_, rfl, rfl, rfl, rfl⟩

/-- A completion is what the caller waits for. -/
theorem complete_take (ctx : AdcContext) (status : Int) (hsync : ctx.sync.count = 0) :
    (ctx.complete status).sync.take = some (Semaphore.empty 1) := by
  rw [Semaphore.take_eq_some]
  change min (ctx.sync.count + 1) 1 = 0 + 1
  omega

theorem adcRead_checked {nchannels : Nat} {seq : AdcSequence} {a : Adc}
    (hlock : a.ctx.lock.count = 1) (hsync : a.ctx.sync.count = 0)
    (hcheck : ads868xCheckSequence nchannels seq = 0) (hoptions : seq.options = none) :
    ∃ b, adcRead E nchannels seq a =
        some ((ads868xReadChannels E seq.channels (a.pass seq)).1, b) ∧
      b.sampler.toAds = (ads868xReadChannels E seq.channels (a.pass seq)).2 ∧
      b.ctx.lock.count = 1 ∧ b.ctx.sync.count = 0 := by
  obtain ⟨held, htake, hgive⟩ := take_give hlock
  obtain ⟨r, hstep, hended, hads, hctx⟩ :=
    start_step (E := E) a.sampler { a.ctx with lock := held } hoptions (w := a.pass seq) rfl
  have hidle : r.ctx.sync.count = 0 := by rw [hctx]; exact hsync
  have hzero : r.ctx.status = 0 := by rw [hctx]
  have hgiven : held.give.count = 1 := by rw [hgive]; exact hlock
  have hinterval : r.ctx.sequence.interval = 0 := by
    rw [hctx]
    simp only [AdcSequence.interval, hoptions]
  have hfinish : r.ctx.finishTimer = r.ctx := by
    rw [AdcContext.finishTimer, if_neg (not_not.2 hinterval)]
  simp only [adcRead, htake, Option.bind_some, hcheck, ne_eq, not_true_eq_false, if_false, hstep,
    hended]
  by_cases hret : (ads868xReadChannels E seq.channels (a.pass seq)).1 = 0
  · simp only [hret, not_true_eq_false, if_false, hfinish, complete_take _ 0 hidle,
      Option.map_some]
    refine ⟨_, congrArg some (Prod.ext ?_ rfl), hads, hgiven, rfl⟩
    simp [AdcContext.complete, hzero]
  · simp only [hret, not_false_eq_true, if_true]
    rw [complete_take r.ctx.disableTimer _ hidle, Option.map_some]
    refine ⟨_, congrArg some (Prod.ext ?_ rfl), hads, hgiven, rfl⟩
    simp [AdcContext.complete, hret]

/-- The frames of a read of `seq`: none if the driver refuses it, up to the first that fails, or
all of them, with the input of each channel in its own cell. -/
inductive ReadResult (E : Bench) (nchannels : Nat) (registers : Vector Byte 8)
    (seq : AdcSequence) (a : Adc) (out : Int × Adc) : Prop where
  | refused (hcheck : ads868xCheckSequence nchannels seq ≠ 0)
      (hcode : out.1 = ads868xCheckSequence nchannels seq)
      (hframes : out.2.sampler.frames = a.sampler.frames)
  | failed (hcheck : ads868xCheckSequence nchannels seq = 0) (k : Nat)
      (hk : k ≤ popcount seq.channels) (hfail : FailsAt E a.sampler.frames k out.1)
      (hframes : out.2.sampler.frames = a.sampler.frames + k + 1)
  | done (hcheck : ads868xCheckSequence nchannels seq = 0) (hcode : out.1 = 0)
      (hok : ∀ j, j ≤ popcount seq.channels → E.outcome (a.sampler.frames + j) = .ok)
      (hframes : out.2.sampler.frames = a.sampler.frames + (popcount seq.channels + 1))
      (hcells : ∀ k c, (channelsOf seq.channels)[k]? = some c →
        contents out.2.sampler.data.stores (seq.buffer + k) =
          some (sampleAt E registers (a.sampler.frames + 1 + k) c))

/-- A read of `seq`: no cell but its own has changed. -/
structure ReadSpec (E : Bench) (nchannels : Nat) (registers : Vector Byte 8) (seq : AdcSequence)
    (a : Adc) (out : Int × Adc) : Prop where
  idle : out.2.Idle registers
  elsewhere : ∀ i, i < seq.buffer ∨ seq.buffer + popcount seq.channels ≤ i →
    contents out.2.sampler.data.stores i = contents a.sampler.data.stores i
  result : ReadResult E nchannels registers seq a out

theorem sampleStores_cells (range : Vector Byte 8) (n index : Nat) (cs : List (Fin 8)) :
    (sampleStores E range n index cs).map Prod.fst = List.range' index cs.length := by
  induction cs generalizing n index with
  | nil => rfl
  | cons c cs ih =>
      rw [sampleStores_cons, List.map_cons, ih, List.length_cons, List.range'_succ]

/-- Each cell holds the input of its channel. -/
theorem contents_sampleStores {earlier : List (Nat × BitVec 16)} {range : Vector Byte 8}
    {n index k : Nat} {cs : List (Fin 8)} {c : Fin 8} (hk : cs[k]? = some c) :
    contents (earlier ++ sampleStores E range n index cs) (index + k) =
      some (sampleAt E range (n + k) c) := by
  have hlength : (sampleStores E range n index cs).length = cs.length := List.length_mapIdx
  have hcells := sampleStores_cells (E := E) range n index cs
  rw [← hlength] at hcells
  have hlt : k < (sampleStores E range n index cs).length := by
    rw [hlength]
    exact (List.getElem?_eq_some_iff.1 hk).1
  rw [contents_append, contents_consecutive hcells hlt, sampleStores, List.getElem?_mapIdx, hk]
  rfl

/-- The result of a read that has passed the checks. -/
theorem readResult_checked {nchannels : Nat} {registers : Vector Byte 8} {seq : AdcSequence}
    {a b : Adc} (hn : nchannels = 4 ∨ nchannels = 8) (ha : a.Idle registers)
    (hcheck : ads868xCheckSequence nchannels seq = 0)
    (hads : b.sampler.toAds = (ads868xReadChannels E seq.channels (a.pass seq)).2) :
    ReadResult E nchannels registers seq a
      ((ads868xReadChannels E seq.channels (a.pass seq)).1, b) := by
  obtain ⟨hne, hwithin, -⟩ := checkSequence_eq_zero hcheck
  obtain ⟨first, rest, hcs, hbits, hcount⟩ := exists_channels hn hne hwithin
  have hagree : (a.pass seq).RangesAgree := ha.cache.trans ha.device.symm
  by_cases hret : (ads868xReadChannels E seq.channels (a.pass seq)).1 = 0
  · have hok := outcomes_of_readChannels hbits hret
    rw [List.length_map] at hok
    obtain ⟨w', hread, hframes, -, hstores⟩ := readChannels_ok hbits hagree hok
    rw [hread] at hads
    refine .done hcheck hret ?_ ?_ ?_
    · intro j hj
      apply hok
      · exact Nat.le_add_right _ _
      · rw [hcount] at hj
        exact Nat.add_le_add_left hj _
    · rw [hads, hframes, hcount]
      rfl
    · intro k c hk
      rw [hcs] at hk
      rw [hads, hstores, ← ha.device]
      exact contents_sampleStores hk
  · obtain ⟨k, hk, hfail, hframes⟩ := failsAt_of_readChannels hne hret
    exact .failed hcheck k hk hfail (by rw [hads, hframes]; rfl)

theorem adcRead_spec {nchannels : Nat} {registers : Vector Byte 8} (seq : AdcSequence) {a : Adc}
    (hn : nchannels = 4 ∨ nchannels = 8) (ha : a.Idle registers) (hoptions : seq.options = none) :
    ∃ out, adcRead E nchannels seq a = some out ∧ ReadSpec E nchannels registers seq a out := by
  by_cases hcheck : ads868xCheckSequence nchannels seq = 0
  · obtain ⟨hne, -, -⟩ := checkSequence_eq_zero hcheck
    obtain ⟨b, hread, hads, hlock, hsync⟩ :=
      adcRead_checked (E := E) ha.lock ha.sync hcheck hoptions
    have hagree : (a.pass seq).RangesAgree := ha.cache.trans ha.device.symm
    have hranges := rangesAgree_readChannels (E := E) hne hagree
    have hcache := range_readChannels (E := E) (w := a.pass seq) hne
    obtain ⟨samples, hstores, hcells, hcount, -⟩ := readChannels_laid (E := E) (w := a.pass seq) hne
    have hcache' : b.sampler.data.range = registers := by
      rw [hads, hcache]
      exact ha.cache
    refine ⟨_, hread, ⟨hlock, hsync, ?_, hcache'⟩, ?_, readResult_checked hn ha hcheck hads⟩
    · rw [← hcache', hads]
      exact hranges.symm
    · intro i hi
      rw [hads, hstores]
      apply contents_append_of_notMem
      rw [hcells, List.mem_range'_1]
      change ¬ (seq.buffer ≤ i ∧ i < seq.buffer + samples.length)
      omega
  · exact ⟨_, adcRead_refused ha.lock hcheck, ha, fun _ _ => rfl, .refused hcheck rfl rfl⟩

/-! ## A round -/

/-- A resolution that the driver takes, and no oversampling. -/
def AdcDtSpec.Readable (spec : AdcDtSpec) : Prop :=
  spec.resolution = ads868xResolution ∧ spec.oversampling = 0#8

/-- `sequence`, whatever channel it was used for last. -/
structure ForOne (seq : AdcSequence) : Prop where
  options : seq.options = none
  buffer : seq.buffer = bufAt
  bufferSize : seq.bufferSize = 2
  calibrate : seq.calibrate = false

theorem within_iff {mask : BitVec 32} {nchannels : Nat} :
    mask &&& ~~~(bitMask nchannels) = 0#32 ↔ ∀ i, mask.getLsbD i = true → i < nchannels := by
  constructor
  · intro h i hi
    by_contra hge
    rw [getLsbD_of_within h (Nat.not_lt.1 hge)] at hi
    cases hi
  · intro h
    apply BitVec.eq_of_getLsbD_eq
    intro i hi
    simp only [BitVec.getLsbD_and, BitVec.getLsbD_not, bitMask, BitVec.getLsbD_ofNat,
      Nat.testBit_two_pow_sub_one, hi]
    cases hbit : mask.getLsbD i with
    | false => simp
    | true => simp [h i hbit]

theorem popcount_bit (c : Fin 8) : popcount (bit c) = 1 := by
  rw [popcount, bit, setBits_twoPow (by omega)]
  rfl

theorem channelsOf_bit (c : Fin 8) : channelsOf (bit c) = [c] := by
  have hbits : setBits (bit c) = (channelsOf (bit c)).map Fin.val := by
    apply setBits_eq_channelsOf
    intro i hi
    rw [bit, BitVec.getLsbD_twoPow]
    simp only [Bool.and_eq_false_iff, decide_eq_false_iff_not]
    right
    omega
  apply List.map_injective_iff.2 Fin.val_injective
  rw [← hbits, bit, setBits_twoPow (by omega)]
  rfl

/-- The read of one channel passes the checks exactly if the channel is readable. -/
theorem check_single {nchannels : Nat} {registers : Vector Byte 8} {spec : AdcDtSpec}
    {c : Fin 8} {seq : AdcSequence} (hspec : Programmed nchannels registers spec c)
    (hseq : ForOne seq) :
    (spec.Readable → ads868xCheckSequence nchannels (adcSequenceInitDt spec seq) = 0) ∧
      (¬ spec.Readable →
        ads868xCheckSequence nchannels (adcSequenceInitDt spec seq) = eNotSup.code) := by
  obtain ⟨cfg, hcfg, -⟩ := hspec.range
  have hne : bit c ≠ 0#32 := by
    rw [ne_eq, ← setBits_eq_nil, bit, setBits_twoPow (by omega)]
    simp
  have hwithin : bit c &&& ~~~(bitMask nchannels) = 0#32 := by
    rw [within_iff]
    intro i hi
    rw [bit, BitVec.getLsbD_twoPow, Bool.and_eq_true, decide_eq_true_eq, decide_eq_true_eq] at hi
    rw [← hi.2]
    exact hspec.lt
  have hsize : ads868xValidateBufferSize (adcSequenceInitDt spec seq) = 0 := by
    rw [validateBufferSize_eq_zero]
    simp [adcSequenceInitDt, hcfg, hspec.id, popcount_bit, AdcSequence.extraSamplings,
      hseq.options, hseq.bufferSize]
  rw [ads868xCheckSequence, hsize]
  simp only [adcSequenceInitDt, hcfg, hspec.id, hseq.calibrate, AdcDtSpec.Readable]
  by_cases hresolution : spec.resolution = ads868xResolution
  · by_cases hoversampling : spec.oversampling = 0#8
    · simp [hresolution, hoversampling, hne, hwithin]
    · simp [hresolution, hoversampling, hne, hwithin]
  · simp [hresolution]

/-- The line of a read of one channel that begins with frame `n`, and the frame that comes next.
The driver refuses the read, a frame of it fails, or the line is the input during its second
frame, with its sign. -/
inductive LineSpec (E : Bench) (registers : Vector Byte 8) (spec : AdcDtSpec) (n : Nat) :
    Line → Nat → Prop where
  | refused (hunreadable : ¬ spec.Readable) :
      LineSpec E registers spec n (.failed spec.channelId eNotSup.code) n
  | failed (k : Nat) (err : Int) (hreadable : spec.Readable) (hk : k ≤ 1)
      (hfail : FailsAt E n k err) :
      LineSpec E registers spec n (.failed spec.channelId err) (n + k + 1)
  | reading (c : Fin 8) (hid : spec.channelId.toNat = c) (hreadable : spec.Readable)
      (hok : ∀ j, j ≤ 1 → E.outcome (n + j) = .ok) :
      LineSpec E registers spec n
        (.reading spec.channelId (some (sampleAt E registers (n + 1) c))
          (some (clip (registers.get c) (E.level (n + 1) c (registers.get c))))) (n + 2)

/-- The line of the sequence that begins with frame `n`, and the frame that comes next.  A frame
of it fails, or the line lists the channels of the mask in their order, each as the input
during its own frame, and cells that nobody has written behind them. -/
inductive AllSpec (E : Bench) (registers : Vector Byte 8) (mask : BitVec 32) (count n : Nat) :
    AllLine → Nat → Prop where
  | failed (k : Nat) (err : Int) (hk : k ≤ popcount mask) (hfail : FailsAt E n k err) :
      AllSpec E registers mask count n (.failed err) (n + k + 1)
  | readings (hok : ∀ j, j ≤ popcount mask → E.outcome (n + j) = .ok) :
      AllSpec E registers mask count n
        (.readings ((List.range count).map fun k =>
          (channelsOf mask)[k]?.map fun c => sampleAt E registers (n + 1 + k) c))
        (n + (popcount mask + 1))

/-- `differential` is the sign of the range. -/
theorem toValue_sample {nchannels n : Nat} {registers : Vector Byte 8} {spec : AdcDtSpec}
    {c : Fin 8} (hspec : Programmed nchannels registers spec c) :
    toValue spec (sampleAt E registers n c) =
      clip (registers.get c) (E.level n c (registers.get c)) := by
  obtain ⟨cfg, hcfg, hgain⟩ := hspec.range
  have hsign := unipolar_of_gain hgain
  rw [← sampleValue_ofInt_clip, sampleValue, hsign, toValue, hcfg]
  cases hdiff : cfg.differential with
  | true => simp [hdiff, sampleAt]
  | false => simp [hdiff, sampleAt]

/-- One turn of the loop inside a round. -/
theorem read_line {nchannels : Nat} {registers : Vector Byte 8} {spec : AdcDtSpec} {c : Fin 8}
    {seq : AdcSequence} {a : Adc} {out : Int × Adc}
    (hspec : Programmed nchannels registers spec c) (hseq : ForOne seq)
    (hout : ReadSpec E nchannels registers (adcSequenceInitDt spec seq) a out) :
    LineSpec E registers spec a.sampler.frames
      (if out.1 < 0 then Line.failed spec.channelId out.1
        else Line.reading spec.channelId (contents out.2.sampler.data.stores bufAt)
          ((contents out.2.sampler.data.stores bufAt).map (toValue spec)))
      out.2.sampler.frames := by
  obtain ⟨hreadable, hunreadable⟩ := check_single hspec hseq
  obtain ⟨cfg, hcfg, -⟩ := hspec.range
  have hchannels : (adcSequenceInitDt spec seq).channels = bit c := by
    simp [adcSequenceInitDt, hcfg, hspec.id]
  have hpassed : ads868xCheckSequence nchannels (adcSequenceInitDt spec seq) = 0 →
      spec.Readable := by
    intro hcheck
    by_contra hnot
    rw [hunreadable hnot] at hcheck
    exact eNotSup.code_ne_zero hcheck
  cases hout.result with
  | refused hcheck hcode hframes =>
      have hnot : ¬ spec.Readable := fun h => hcheck (hreadable h)
      rw [hcode, hunreadable hnot, if_pos eNotSup.neg, hframes]
      exact .refused hnot
  | failed hcheck k hk hfail hframes =>
      rw [hchannels, popcount_bit] at hk
      rw [if_pos hfail.neg, hframes]
      exact .failed k out.1 (hpassed hcheck) hk hfail
  | done hcheck hcode hok hframes hcells =>
      rw [hchannels, popcount_bit] at hok hframes
      have hcell := hcells 0 c (by simp [hchannels, channelsOf_bit])
      have hbuffer : (adcSequenceInitDt spec seq).buffer = bufAt := by
        simp [adcSequenceInitDt, hcfg, hseq.buffer]
      rw [hbuffer, Nat.add_zero, Nat.add_zero] at hcell
      rw [if_neg (by omega), hcell, Option.map_some, toValue_sample hspec, hframes]
      exact .reading c hspec.id (hpassed hcheck) hok

theorem forOne_init (spec : AdcDtSpec) {seq : AdcSequence} (hseq : ForOne seq) :
    ForOne (adcSequenceInitDt spec seq) := by
  rw [adcSequenceInitDt]
  split
  · exact hseq
  · exact ⟨hseq.options, hseq.buffer, hseq.bufferSize, hseq.calibrate⟩

theorem readEach_spec {nchannels : Nat} {registers : Vector Byte 8} {specs : List AdcDtSpec}
    {seq : AdcSequence} {a : Adc} (hn : nchannels = 4 ∨ nchannels = 8)
    (hspecs : ∀ spec ∈ specs, ∃ c, Programmed nchannels registers spec c)
    (hseq : ForOne seq) (ha : a.Idle registers) :
    ∃ lines seq' b, readEach E nchannels specs seq a = some (lines, seq', b) ∧
      ForOne seq' ∧ b.Idle registers ∧ lines.length = specs.length ∧
      Threaded (fun n x m => LineSpec E registers x.1 n x.2 m) a.sampler.frames
        (specs.zip lines) b.sampler.frames ∧
      ∀ i, allAt ≤ i → contents b.sampler.data.stores i = contents a.sampler.data.stores i := by
  induction specs generalizing seq a with
  | nil => exact ⟨[], seq, a, rfl, hseq, ha, rfl, .nil _, fun _ _ => rfl⟩
  | cons spec specs ih =>
      obtain ⟨c, hspec⟩ := hspecs spec List.mem_cons_self
      have hseq' := forOne_init spec hseq
      obtain ⟨⟨err, b⟩, hread, hout⟩ := adcRead_spec (E := E) _ hn ha hseq'.options
      obtain ⟨lines, seq'', b', hrest, hseq'', hb', hlength, hlines, helse⟩ :=
        ih (fun other hother => hspecs other (List.mem_cons_of_mem _ hother)) hseq' hout.idle
      simp only [readEach, hread, Option.bind_some, hrest, Option.map_some]
      refine ⟨_, seq'', b', rfl, hseq'', hb', congrArg Nat.succ hlength,
        .cons (read_line hspec hseq hout) hlines, ?_⟩
      intro i hi
      obtain ⟨cfg, hcfg, -⟩ := hspec.range
      rw [helse i hi, hout.elsewhere i]
      right
      rw [hseq'.buffer]
      simp [adcSequenceInitDt, hcfg, hspec.id, popcount_bit, bufAt]
      exact hi

/-! ## The rounds -/

section Rounds

variable {table : Table} {mask : BitVec 32} {registers : Vector Byte 8}

theorem popcount_le_specs {a : Adc}
    (hset : SetUp table.nchannels table.specs mask registers a) :
    popcount mask ≤ table.specs.length := by
  have hnodup : (setBits mask).Nodup := (setBits_pairwise mask).imp fun h => Nat.ne_of_lt h
  have hsub : setBits mask ⊆ table.specs.map fun spec => spec.channelId.toNat := by
    intro i hi
    obtain ⟨spec, hspec, hid⟩ := (hset.mask i).1 (mem_setBits.1 hi)
    exact List.mem_map.2 ⟨spec, hspec, hid⟩
  have hle := (hnodup.subperm hsub).length_le
  rwa [List.length_map] at hle

/-- The sequence of all channels passes the checks. -/
theorem check_all {a : Adc} (hset : SetUp table.nchannels table.specs mask registers a) :
    ads868xCheckSequence table.nchannels (allSeq mask table.specs.length) = 0 := by
  have hne : mask ≠ 0#32 := by
    obtain ⟨spec, rest, hspecs⟩ := List.exists_cons_of_ne_nil table.nonempty
    have hbit : mask.getLsbD spec.channelId.toNat = true :=
      (hset.mask _).2 ⟨spec, by simp [hspecs], rfl⟩
    intro hzero
    simp [hzero] at hbit
  have hwithin : mask &&& ~~~(bitMask table.nchannels) = 0#32 := by
    rw [within_iff]
    intro i hi
    obtain ⟨spec, hspec, rfl⟩ := (hset.mask i).1 hi
    obtain ⟨c, hc⟩ := hset.programmed spec hspec
    rw [hc.id]
    exact hc.lt
  have hsize : ads868xValidateBufferSize (allSeq mask table.specs.length) = 0 := by
    rw [validateBufferSize_eq_zero]
    have hle := popcount_le_specs hset
    change popcount mask * 2 * (1 + 0) ≤ 2 * table.specs.length
    omega
  rw [ads868xCheckSequence, hsize]
  simp [allSeq, hne, hwithin, ads868xResolution]

/-- A round whose first frame is `n`, and the frame that comes next: its reads follow each
other without a gap, those of the single channels first. -/
structure RoundSpec (E : Bench) (table : Table) (mask : BitVec 32) (registers : Vector Byte 8)
    (n : Nat) (p : Printed) (m : Nat) : Prop where
  length : p.each.length = table.specs.length
  reads : ∃ k,
    Threaded (fun n x m => LineSpec E registers x.1 n x.2 m) n (table.specs.zip p.each) k ∧
      AllSpec E registers mask table.specs.length k p.all m

/-- Between two rounds, the first of which has begun with frame `n`; nobody has written behind
the channels of the mask. -/
structure Main.Sound (E : Bench) (table : Table) (mask : BitVec 32) (registers : Vector Byte 8)
    (n : Nat) (s : Main) : Prop where
  idle : s.adc.Idle registers
  sequence : ForOne s.sequence
  unread : ∀ i, allAt + popcount mask ≤ i → contents s.adc.sampler.data.stores i = none
  printed : Threaded (RoundSpec E table mask registers) n s.printed s.adc.sampler.frames

theorem all_line {a : Adc} {out : Int × Adc}
    (hset : SetUp table.nchannels table.specs mask registers a) {b : Adc}
    (hunread : ∀ i, allAt + popcount mask ≤ i → contents b.sampler.data.stores i = none)
    (hout : ReadSpec E table.nchannels registers (allSeq mask table.specs.length) b out) :
    AllSpec E registers mask table.specs.length b.sampler.frames
      (if out.1 < 0 then AllLine.failed out.1
        else AllLine.readings ((List.range table.specs.length).map fun i =>
          contents out.2.sampler.data.stores (allAt + i)))
      out.2.sampler.frames := by
  have hcheck := check_all hset
  cases hout.result with
  | refused hnot hcode hframes => exact absurd hcheck hnot
  | failed hcheck k hk hfail hframes =>
      rw [if_pos hfail.neg, hframes]
      exact .failed k out.1 hk hfail
  | done hcheck hcode hok hframes hread =>
      obtain ⟨hne, hwithin, -⟩ := checkSequence_eq_zero hcheck
      obtain ⟨first, rest, hcs, -, hcount⟩ := exists_channels table.size hne hwithin
      have hcells : (List.range table.specs.length).map (fun i =>
          contents out.2.sampler.data.stores (allAt + i)) =
          (List.range table.specs.length).map fun k =>
            (channelsOf mask)[k]?.map fun c =>
              sampleAt E registers (b.sampler.frames + 1 + k) c := by
        apply List.map_congr_left
        intro k _
        cases hk : (channelsOf mask)[k]? with
        | some c => exact hread k c hk
        | none =>
            have hbehind : popcount mask ≤ k := by
              change popcount mask = rest.length + 1 at hcount
              change channelsOf mask = first :: rest at hcs
              rw [hcs, List.getElem?_eq_none_iff, List.length_cons] at hk
              omega
            rw [hout.elsewhere (allAt + k) (.inr (Nat.add_le_add_left hbehind allAt))]
            exact hunread _ (Nat.add_le_add_left hbehind allAt)
      rw [if_neg (by omega), hcells, hframes]
      exact .readings hok

theorem round_spec {s : Main} {a : Adc} {n : Nat}
    (hset : SetUp table.nchannels table.specs mask registers a)
    (hs : s.Sound E table mask registers n) :
    ∃ t p, s.round E table mask = some t ∧ t.printed = s.printed ++ [p] ∧
      t.Sound E table mask registers n := by
  obtain ⟨lines, seq, b, heach, hseq, hb, hlength, hlines, helse⟩ :=
    readEach_spec (E := E) table.size hset.programmed hs.sequence hs.idle
  have hunread : ∀ i, allAt + popcount mask ≤ i → contents b.sampler.data.stores i = none := by
    intro i hi
    rw [helse i (Nat.le_of_add_right_le hi)]
    exact hs.unread i hi
  obtain ⟨⟨err, b'⟩, hread, hout⟩ :=
    adcRead_spec (E := E) (allSeq mask table.specs.length) table.size hb rfl
  simp only [Main.round, heach, Option.bind_some, hread, Option.map_some]
  refine ⟨_, _, rfl, rfl, hout.idle, hseq, ?_, ?_⟩
  · intro i hi
    rw [hout.elsewhere i (.inr hi)]
    exact hunread i hi
  · exact hs.printed.concat ⟨hlength, b.sampler.frames, hlines, all_line hset hunread hout⟩

/-- `main` before its first round. -/
def Main.start (a : Adc) : Main := ⟨sequenceStart, a, []⟩

theorem sound_start {a : Adc} (hset : SetUp table.nchannels table.specs mask registers a) :
    (Main.start a).Sound E table mask registers a.sampler.frames := by
  refine ⟨hset.idle, ⟨rfl, rfl, rfl, rfl⟩, ?_, .nil _⟩
  intro i _
  change contents a.sampler.data.stores i = none
  rw [hset.unread]
  rfl

/-- Every round comes to its end. -/
theorem sound_exec {s : Main} {a : Adc} {n : Nat}
    (hset : SetUp table.nchannels table.specs mask registers a)
    (hs : s.Sound E table mask registers n) (rounds : List Unit) :
    ∃ t, (roundMachine E table mask).exec s rounds = some t ∧
      t.printed.length = s.printed.length + rounds.length ∧
      t.Sound E table mask registers n := by
  induction rounds generalizing s with
  | nil => exact ⟨s, rfl, rfl, hs⟩
  | cons _ rounds ih =>
      obtain ⟨t, p, hround, hprinted, ht⟩ := round_spec hset hs
      obtain ⟨u, hexec, hlength, hu⟩ := ih ht
      refine ⟨u, (Machine.exec_cons_some hround).trans hexec, ?_, hu⟩
      rw [hlength, hprinted, List.length_append, List.length_singleton, List.length_cons]
      omega

theorem sound_of_reaches {a : Adc} {s : Main}
    (hset : SetUp table.nchannels table.specs mask registers a)
    (h : (roundMachine E table mask).Reaches (.start a) s) :
    s.Sound E table mask registers a.sampler.frames := by
  obtain ⟨rounds, hexec⟩ := h
  obtain ⟨t, hexec', -, ht⟩ := sound_exec (E := E) hset (sound_start hset) rounds
  obtain rfl : t = s := Option.some.inj (hexec'.symm.trans hexec)
  exact ht

/-- **Every line is the input it names.**  Once the loop over the table has ended without an
error, the device has for each channel the range of its node, and whatever the bus and
the inputs do from then on, every round comes to its end.  The reads of the rounds follow each
other on the bus from the first frame after the loop: each line is the input of its channel
during its own frame, in that range and with its sign, or the error of the frame that has
ended its read, or that of a read which the driver never lets through. -/
theorem adcDt_prints_inputs {writes : Nat → WriteOutcome} {device : Device} {spiReady : Bool}
    {a : Adc} (hsetup : setup E table writes device spiReady = some (some mask, a)) :
    ∃ registers, (∀ spec ∈ table.specs, ∃ c, Programmed table.nchannels registers spec c) ∧
      (∀ i, mask.getLsbD i = true ↔ ∃ spec ∈ table.specs, spec.channelId.toNat = i) ∧
      ∀ (E' : Bench) (rounds : List Unit), ∃ s,
        (roundMachine E' table mask).exec (.start a) rounds = some s ∧
          s.printed.length = rounds.length ∧
          Threaded (RoundSpec E' table mask registers) a.sampler.frames s.printed
            s.adc.sampler.frames := by
  obtain ⟨registers, hset⟩ := setUp_of_setup hsetup
  refine ⟨registers, hset.programmed, hset.mask, ?_⟩
  intro E' rounds
  obtain ⟨s, hexec, hlength, hs⟩ := sound_exec (E := E') hset (sound_start hset) rounds
  exact ⟨s, hexec, hlength.trans (Nat.zero_add _), hs.printed⟩

end Rounds

end DataLogger.AdcDt
