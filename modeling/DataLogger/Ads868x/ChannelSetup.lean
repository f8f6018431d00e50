import DataLogger.Ads868x.ReadChannels
import DataLogger.Foundation.KernelObjects

/-!
# The range cache of the ADS868x driver

`ads868x_channel_setup` programs the range register of a channel and notes the value in
`range[]`, which decides the sign of every later sample of the channel.  A register write
can fail after the device has latched the value, or be echoed wrongly; the cache is then
left as it was.
-/

namespace DataLogger.Ads868x

open DataLogger.Foundation
open DataLogger.Zephyr

/-! ## Channel configurations -/

inductive AdcGain where
  | gain2_5
  | gain4_5
  | other (code : Nat)
  deriving DecidableEq, Repr

inductive AdcReference where
  | internal
  | external0
  | other (code : Nat)
  deriving DecidableEq, Repr

/-- `struct adc_channel_cfg`, the fields the driver reads. -/
structure AdcChannelCfg where
  gain : AdcGain
  reference : AdcReference
  acquisitionTime : BitVec 16
  channelId : Byte
  differential : Bool
  deriving DecidableEq, Repr

def adcAcqTimeDefault : BitVec 16 := 0#16

def ads868xRangeBipolar2_5 : Byte := 0x00#8
def ads868xRangeBipolar1_25 : Byte := 0x01#8
def ads868xRangeUnipolar2_5 : Byte := 0x05#8
def ads868xRangeUnipolar1_25 : Byte := 0x06#8

/-- The range of a gain, if the gain is supported. -/
def rangeOfGain (gain : AdcGain) (differential : Bool) : Option Byte :=
  match gain with
  | .gain2_5 => some (if differential then ads868xRangeBipolar2_5 else ads868xRangeUnipolar2_5)
  | .gain4_5 => some (if differential then ads868xRangeBipolar1_25 else ads868xRangeUnipolar1_25)
  | .other _ => none

/-! ## Register writes -/

/-- How a register write ends: completed, with the byte the device echoed, or failed before
or after the device has latched the value. -/
inductive WriteOutcome where
  | done (echo : Byte)
  | error (e : Errno) (latched : Bool)
  deriving DecidableEq

def WriteOutcome.latched : WriteOutcome → Bool
  | .done _ => true
  | .error _ latched => latched

/-- The driver learns that `val` was written. -/
def WriteOutcome.confirms (val : Byte) : WriteOutcome → Bool
  | .done echo => echo = val
  | .error _ _ => false

def ads868xProgWrite : Byte := 0x01#8
def ads868xRegRange (ch : Nat) : Byte := BitVec.ofNat 8 (0x05 + ch)

/-- The device at the end of a 24-clock frame: address and write bit, data, and one byte for
the echo. -/
def Device.latch (tx : List Byte) (d : Device) : Device :=
  match tx with
  | [head, val, _] =>
      if head &&& ads868xProgWrite = ads868xProgWrite ∧ 0x05#8 ≤ head >>> 1 then
        { d with range := d.range.setIfInBounds ((head >>> 1).toNat - 0x05) val }
      else d
  | _ => d

/-- The driver with the lock of its context. -/
structure Driver extends Ads where
  lock : Semaphore 1
  deriving DecidableEq

/-- `ads868x_write_reg`. -/
def ads868xWriteReg (o : WriteOutcome) (reg val : Byte) (w : Ads) : Int × Ads :=
  let tx := [reg <<< 1 ||| ads868xProgWrite, val, 0#8]
  let w := { w with device := if o.latched then w.device.latch tx else w.device,
                    frames := w.frames + 1 }
  match o with
  | .error e _ => (e.code, w)
  | .done echo => if echo ≠ val then (eIo.code, w) else (0, w)

/-- `ads868x_channel_setup` between its lock and its release: the write, and the note of it. -/
def ads868xProgramRange (o : WriteOutcome) (ch : Nat) (range : Byte) (w : Ads) : Int × Ads :=
  let (ret, w) := ads868xWriteReg o (ads868xRegRange ch) range w
  if ret = 0 then
    (ret, { w with data := { w.data with range := w.data.range.setIfInBounds ch range } })
  else (ret, w)

/-- `ads868x_channel_setup`; `none` while the lock is held. -/
def ads868xChannelSetup (nchannels : Nat) (cfg : AdcChannelCfg) (o : WriteOutcome)
    (s : Driver) : Option (Int × Driver) :=
  if cfg.channelId.toNat ≥ nchannels then some (eNotSup.code, s)
  else if cfg.reference ≠ .internal ∧ cfg.reference ≠ .external0 then some (eNotSup.code, s)
  else if cfg.acquisitionTime ≠ adcAcqTimeDefault then some (eNotSup.code, s)
  else
    match rangeOfGain cfg.gain cfg.differential with
    | none => some (eNotSup.code, s)
    | some range =>
        s.lock.take.map fun lock =>
          let (ret, w) := ads868xProgramRange o cfg.channelId.toNat range s.toAds
          (ret, { toAds := w, lock := lock.give })

/-- The driver's memory at boot: static storage, so the cache is zero. -/
def Driver.boot (device : Device) : Driver where
  device := device
  frames := 0
  data := ⟨0, 0, Vector.replicate 8 0#8, []⟩
  lock := Semaphore.empty 1

/-- `ads868x_init`, up to the acquisition thread. -/
def ads868xInit (E : Bench) (spiReady : Bool) (s : Driver) : Int × Driver :=
  let s := { s with lock := Semaphore.empty 1 }
  if spiReady = false then (eNoDev.code, s)
  else
    let (ret, _, ads) := ads868xCommand E ads868xCmdRst s.toAds
    let s := { s with toAds := ads }
    if ret ≠ 0 then (ret, s)
    else (0, if s.lock.count = 0 then { s with lock := s.lock.give } else s)

/-! ## What a call does -/

/-- One of the checks before the register write turns the call down. -/
def AdcChannelCfg.Rejected (nchannels : Nat) (cfg : AdcChannelCfg) : Prop :=
  nchannels ≤ cfg.channelId.toNat ∨
    (cfg.reference ≠ .internal ∧ cfg.reference ≠ .external0) ∨
    cfg.acquisitionTime ≠ adcAcqTimeDefault ∨
    rangeOfGain cfg.gain cfg.differential = none

instance (nchannels : Nat) (cfg : AdcChannelCfg) : Decidable (cfg.Rejected nchannels) :=
  inferInstanceAs (Decidable (_ ∨ _))

variable {nchannels : Nat} {cfg : AdcChannelCfg} {o : WriteOutcome} {s : Driver}

theorem channelSetup_of_rejected (hrejected : cfg.Rejected nchannels) :
    ads868xChannelSetup nchannels cfg o s = some (eNotSup.code, s) := by
  rw [ads868xChannelSetup]
  split
  · rfl
  · rename_i hid
    split
    · rfl
    · rename_i href
      split
      · rfl
      · rename_i hacq
        have hgain : rangeOfGain cfg.gain cfg.differential = none := by
          rcases hrejected with h | h | h | h
          · exact absurd h hid
          · exact absurd h href
          · exact absurd h hacq
          · exact h
        rw [hgain]

theorem exists_range (haccepted : ¬ cfg.Rejected nchannels) :
    ∃ range, rangeOfGain cfg.gain cfg.differential = some range := by
  apply Option.ne_none_iff_exists'.1
  intro hgain
  exact haccepted (Or.inr (Or.inr (Or.inr hgain)))

theorem channelSetup_of_accepted {range : Byte} (haccepted : ¬ cfg.Rejected nchannels)
    (hgain : rangeOfGain cfg.gain cfg.differential = some range) :
    ads868xChannelSetup nchannels cfg o s = s.lock.take.map fun lock =>
      let (ret, w) := ads868xProgramRange o cfg.channelId.toNat range s.toAds
      (ret, { toAds := w, lock := lock.give }) := by
  simp only [AdcChannelCfg.Rejected, not_or] at haccepted
  obtain ⟨hid, href, hacq, -⟩ := haccepted
  rw [ads868xChannelSetup, if_neg hid, if_neg href, if_neg hacq, hgain]

theorem latch_regRange (d : Device) {ch : Nat} (hch : ch < 8) (val : Byte) :
    d.latch [ads868xRegRange ch <<< 1 ||| ads868xProgWrite, val, 0#8] =
      { d with range := d.range.setIfInBounds ch val } := by
  have hall : ∀ c : Fin 8,
      ((ads868xRegRange c <<< 1 ||| ads868xProgWrite) &&& ads868xProgWrite = ads868xProgWrite ∧
        0x05#8 ≤ (ads868xRegRange c <<< 1 ||| ads868xProgWrite) >>> 1) ∧
      ((ads868xRegRange c <<< 1 ||| ads868xProgWrite) >>> 1).toNat - 0x05 = c := by decide
  obtain ⟨hwrite, haddr⟩ := hall ⟨ch, hch⟩
  rw [Device.latch, if_pos hwrite, haddr]

/-- The registers and the cache after a write of `range` that ends in `o`. -/
def Ads.afterWrite (ch : Nat) (range : Byte) (o : WriteOutcome) (w : Ads) : Ads :=
  { device := { w.device with
      range := if o.latched then w.device.range.setIfInBounds ch range else w.device.range }
    frames := w.frames + 1
    data := { w.data with
      range := if o.confirms range then w.data.range.setIfInBounds ch range
        else w.data.range } }

theorem writeReg_code {ch : Nat} {range : Byte} {w : Ads} :
    (ads868xWriteReg o (ads868xRegRange ch) range w).1 = 0 ↔ o.confirms range = true := by
  cases o with
  | done echo =>
      rw [ads868xWriteReg]
      by_cases hecho : echo = range
      · simp [hecho, WriteOutcome.confirms]
      · simp [hecho, WriteOutcome.confirms, eIo.code_ne_zero]
  | error e latched => simp [ads868xWriteReg, WriteOutcome.confirms, e.code_ne_zero]

theorem writeReg_ads {ch : Nat} {range : Byte} {w : Ads} (hch : ch < 8) :
    (ads868xWriteReg o (ads868xRegRange ch) range w).2 =
      { w with
        device := { w.device with
          range := if o.latched then w.device.range.setIfInBounds ch range else w.device.range }
        frames := w.frames + 1 } := by
  cases o with
  | done echo =>
      rw [ads868xWriteReg, latch_regRange _ hch]
      split
      · rfl
      · rfl
  | error e latched =>
      rw [ads868xWriteReg, latch_regRange _ hch]
      cases latched with
      | false => rfl
      | true => rfl

theorem programRange_spec {ch : Nat} {range : Byte} {w : Ads} (hch : ch < 8) :
    (ads868xProgramRange o ch range w).2 = w.afterWrite ch range o := by
  rw [ads868xProgramRange]
  simp only [writeReg_code, writeReg_ads hch]
  by_cases hconfirms : o.confirms range = true
  · simp [Ads.afterWrite, hconfirms]
  · simp [Ads.afterWrite, hconfirms]

theorem take_give {lock : Semaphore 1} (hlock : lock.count = 1) :
    ∃ held, lock.take = some held ∧ held.give = lock := by
  refine ⟨Semaphore.empty 1, Semaphore.take_eq_some.2 hlock, ?_⟩
  ext
  rw [hlock]
  rfl

theorem channelId_lt (haccepted : ¬ cfg.Rejected nchannels) (hn : nchannels ≤ 8) :
    cfg.channelId.toNat < 8 := by
  simp only [AdcChannelCfg.Rejected, not_or] at haccepted
  omega

theorem channelSetup_spec {range : Byte} (haccepted : ¬ cfg.Rejected nchannels)
    (hgain : rangeOfGain cfg.gain cfg.differential = some range) (hn : nchannels ≤ 8)
    (hlock : s.lock.count = 1) :
    ∃ ret, ads868xChannelSetup nchannels cfg o s =
      some (ret, ⟨s.toAds.afterWrite cfg.channelId.toNat range o, s.lock⟩) := by
  obtain ⟨held, htake, hgive⟩ := take_give hlock
  rw [channelSetup_of_accepted haccepted hgain, htake, Option.map_some]
  simp only [programRange_spec (channelId_lt haccepted hn), hgive]
  exact ⟨_, rfl⟩

/-! ## Runs of calls -/

/-- A call with the configuration it is given and the end its register write has. -/
abbrev SetupCall := AdcChannelCfg × WriteOutcome

def setupMachine (nchannels : Nat) : Machine Driver SetupCall :=
  ⟨fun s call => (ads868xChannelSetup nchannels call.1 call.2 s).map Prod.snd⟩

/-- The write of the call is confirmed if it is latched, or finds its value already there. -/
def WriteTold (nchannels : Nat) (s : Driver) (call : SetupCall) : Prop :=
  ¬ call.1.Rejected nchannels → ∀ range ∈ rangeOfGain call.1.gain call.1.differential,
    call.2.latched = true → call.2.confirms range = false →
    s.device.range[call.1.channelId.toNat]? = some range

instance (nchannels : Nat) (s : Driver) (call : SetupCall) :
    Decidable (WriteTold nchannels s call) :=
  inferInstanceAs (Decidable (_ → ∀ range ∈ rangeOfGain _ _, _))

/-- Between calls: the lock is free, and the cache is the device's registers. -/
structure Driver.Settled (s : Driver) : Prop where
  lock : s.lock.count = 1
  ranges : s.RangesAgree

theorem confirms_latched {range : Byte} (hconfirms : o.confirms range = true) :
    o.latched = true := by
  cases o with
  | done echo => rfl
  | error e latched => cases hconfirms

theorem set_eq_self {n i : Nat} {registers : Vector Byte n} {val : Byte} (hi : i < n) :
    registers.setIfInBounds i val = registers ↔ registers[i]? = some val := by
  constructor
  · intro h
    rw [← h, Vector.getElem?_setIfInBounds, if_pos rfl, if_pos hi]
  · intro h
    apply Vector.ext
    intro j hj
    rw [Vector.getElem_setIfInBounds hj]
    split
    · rename_i hij
      subst hij
      rw [Vector.getElem?_eq_getElem hi, Option.some.injEq] at h
      exact h.symm
    · rfl

theorem afterWrite_agree {ch : Nat} {range : Byte} {w : Ads} (hch : ch < 8)
    (hw : w.RangesAgree) :
    (w.afterWrite ch range o).RangesAgree ↔
      (o.latched = true → o.confirms range = false → w.device.range[ch]? = some range) := by
  have hcache : w.data.range = w.device.range := hw
  rw [Ads.RangesAgree, Ads.afterWrite]
  cases hconfirms : o.confirms range with
  | true => simp [confirms_latched hconfirms, hcache]
  | false =>
      cases o.latched with
      | true =>
          simp only [if_true, Bool.false_eq_true, if_false, hcache, true_implies]
          rw [eq_comm, set_eq_self hch]
      | false => simp [hcache]

/-- With the lock free every call returns and frees it again; it keeps a true cache true
exactly when its write is told. -/
theorem setup_step (hn : nchannels ≤ 8) (hlock : s.lock.count = 1) (call : SetupCall) :
    ∃ t, (setupMachine nchannels).step s call = some t ∧ t.lock.count = 1 ∧
      (s.RangesAgree → (t.RangesAgree ↔ WriteTold nchannels s call)) := by
  by_cases hrejected : call.1.Rejected nchannels
  · refine ⟨s, ?_, hlock, ?_⟩
    · simp only [setupMachine, channelSetup_of_rejected hrejected]
      rfl
    · intro hs
      exact iff_of_true hs fun haccepted => absurd hrejected haccepted
  · obtain ⟨range, hgain⟩ := exists_range hrejected
    obtain ⟨ret, hcall⟩ := channelSetup_spec (o := call.2) hrejected hgain hn hlock
    have hch := channelId_lt hrejected hn
    refine ⟨⟨s.toAds.afterWrite call.1.channelId.toNat range call.2, s.lock⟩, ?_, hlock, ?_⟩
    · simp only [setupMachine, hcall]
      rfl
    · intro hs
      rw [afterWrite_agree hch hs, WriteTold]
      constructor
      · intro h _ range' hgain' hlatched hconfirms
        obtain rfl : range = range' := Option.some.inj (hgain.symm.trans hgain')
        exact h hlatched hconfirms
      · intro h hlatched hconfirms
        exact h hrejected range hgain hlatched hconfirms

theorem exec_setup (hn : nchannels ≤ 8) (hlock : s.lock.count = 1) (calls : List SetupCall) :
    ∃ t, (setupMachine nchannels).exec s calls = some t := by
  induction calls generalizing s with
  | nil => exact ⟨s, rfl⟩
  | cons call calls ih =>
      obtain ⟨t, hstep, hnext, -⟩ := setup_step hn hlock call
      rw [Machine.exec_cons_some hstep]
      exact ih hnext

theorem settled_step {t : Driver} (hn : nchannels ≤ 8) (hs : s.Settled) {call : SetupCall}
    (hstep : (setupMachine nchannels).step s call = some t) :
    t.lock.count = 1 ∧ (t.RangesAgree ↔ WriteTold nchannels s call) := by
  obtain ⟨t', hstep', hlock, hranges⟩ := setup_step hn hs.lock call
  obtain rfl : t' = t := Option.some.inj (hstep'.symm.trans hstep)
  exact ⟨hlock, hranges hs.ranges⟩

theorem throughout_rangesAgree_iff (hn : nchannels ≤ 8) (hs : s.Settled)
    (calls : List SetupCall) :
    (setupMachine nchannels).Throughout (fun t => t.RangesAgree) s calls ↔
      (setupMachine nchannels).Along (WriteTold nchannels) s calls := by
  obtain ⟨t, hexec⟩ := exec_setup hn hs.lock calls
  apply Machine.throughout_iff_along (I := Driver.Settled) (u := t)
  · intro s hs
    exact hs.ranges
  · intro s call t hs htold hstep
    obtain ⟨hlock, hranges⟩ := settled_step hn hs hstep
    exact ⟨hlock, hranges.2 htold⟩
  · intro s call t hs hstep ht
    exact (settled_step hn hs hstep).2.1 ht
  · exact hs
  · exact hexec

/-- A driver whose initialisation has returned 0 is settled. -/
theorem init_settled {E : Bench} {device : Device} {spiReady : Bool}
    (hinit : (ads868xInit E spiReady (Driver.boot device)).1 = 0) :
    (ads868xInit E spiReady (Driver.boot device)).2.Settled := by
  have hready : spiReady = true := by
    cases spiReady with
    | true => rfl
    | false => exact absurd hinit (by simp [ads868xInit, eNoDev.code_ne_zero])
  have hreset : E.outcome 0 = .ok := by
    cases hout : E.outcome 0 with
    | ok => rfl
    | error e reached =>
        exact absurd hinit (by
          simp [ads868xInit, hready, ads868xCommand, ads868xTransceive, Driver.boot, hout,
            e.code_ne_zero])
  have hcommand := command_ok (E := E) (w := (Driver.boot device).toAds) ads868xCmdRst hreset
  have hboot : ads868xInit E spiReady (Driver.boot device) =
      (0, { Driver.boot device with
        device := (Driver.boot device).device.accept ads868xCmdRst
        frames := (Driver.boot device).frames + 1
        lock := (Semaphore.empty 1).give }) := by
    rw [ads868xInit, hready]
    simp only [hcommand]
    rfl
  rw [hboot]
  exact ⟨rfl, rfl⟩

/-! ## What the cache is for -/

/-- The cache is the registers, and every read that returns 0 has stored, for each channel of
its mask, the count of the input to be taken with the sign of the channel's register. -/
structure Driver.CacheTrue (nchannels : Nat) (s : Driver) : Prop where
  ranges : ∀ c, s.data.range.get c = s.device.range.get c
  decodes : ∀ (E : Bench) (mask : BitVec 32) (w' : Ads), mask ≠ 0#32 →
    mask &&& ~~~(bitMask nchannels) = 0#32 → ads868xReadChannels E mask s.toAds = (0, w') →
    ∃ samples, w'.data.stores = s.data.stores ++ samples ∧ samples.length = popcount mask ∧
      ∀ k c, (channelsOf mask)[k]? = some c →
        ∃ x, samples[k]? = some (s.data.buffer + k, x) ∧
          sampleValue (s.device.range.get c) x =
            clip (s.device.range.get c)
              (E.level (s.frames + 1 + k) c (s.device.range.get c))

theorem rangesAgree_iff {w : Ads} :
    w.RangesAgree ↔ ∀ c, w.data.range.get c = w.device.range.get c := by
  rw [Ads.RangesAgree]
  constructor
  · intro h c
    rw [h]
  · intro h
    apply Vector.ext
    intro i hi
    exact h ⟨i, hi⟩

theorem cacheTrue_iff (hn : nchannels = 4 ∨ nchannels = 8) :
    s.CacheTrue nchannels ↔ s.RangesAgree := by
  constructor
  · intro h
    exact rangesAgree_iff.2 h.ranges
  · intro hs
    refine ⟨rangesAgree_iff.1 hs, ?_⟩
    intro E mask w' hne hwithin hread
    obtain ⟨first, rest, hcs, hbits, hcount⟩ := exists_channels hn hne hwithin
    have hmask : setBits mask = first.val :: rest.map Fin.val := hbits
    have hok := outcomes_of_readChannels hmask (congrArg Prod.fst hread)
    rw [List.length_map] at hok
    obtain ⟨w'', hread', -, -, hstores⟩ := readChannels_ok hbits hs hok
    obtain rfl : w'' = w' := congrArg Prod.snd (hread'.symm.trans hread)
    refine ⟨_, hstores, ?_, ?_⟩
    · rw [sampleStores, List.length_mapIdx, List.length_cons, hcount]
    · intro k c hk
      rw [hcs] at hk
      refine ⟨sampleAt E s.device.range (s.frames + 1 + k) c, ?_, sampleValue_ofInt_clip _ _⟩
      rw [sampleStores, List.getElem?_mapIdx, hk]
      rfl

/-- **The cache is true exactly as long as every latched write is told.**  After a successful
initialisation no sequence of setups blocks; the cache equals the registers in every state
on the way, and with it every later read is decoded as the device produced it, if and
only if each write that is latched but not confirmed finds its value already in the register;
and a call that is turned down by a check leaves everything as it was. -/
theorem channelSetup_cache_iff {E : Bench} {device : Device} {spiReady : Bool}
    (hn : nchannels = 4 ∨ nchannels = 8)
    (hinit : (ads868xInit E spiReady (Driver.boot device)).1 = 0) (calls : List SetupCall) :
    (∃ t, (setupMachine nchannels).exec (ads868xInit E spiReady (Driver.boot device)).2 calls =
      some t) ∧
    ((setupMachine nchannels).Throughout (Driver.CacheTrue nchannels)
        (ads868xInit E spiReady (Driver.boot device)).2 calls ↔
      (setupMachine nchannels).Along (WriteTold nchannels)
        (ads868xInit E spiReady (Driver.boot device)).2 calls) ∧
    ∀ (s : Driver) (cfg : AdcChannelCfg) (o : WriteOutcome), cfg.Rejected nchannels →
      ads868xChannelSetup nchannels cfg o s = some (eNotSup.code, s) := by
  have hsettled := init_settled hinit
  have hle : nchannels ≤ 8 := by omega
  refine ⟨exec_setup hle hsettled.lock calls, ?_, ?_⟩
  · rw [← throughout_rangesAgree_iff hle hsettled]
    constructor
    · exact Machine.Throughout.mono fun t ht => (cacheTrue_iff hn).1 ht
    · exact Machine.Throughout.mono fun t ht => (cacheTrue_iff hn).2 ht
  · intro s cfg o hrejected
    exact channelSetup_of_rejected hrejected

/-- All frames succeed, and all inputs are at 0 V. -/
def benchQuiet : Bench where
  level _ _ _ := 0
  head _ := 0#16
  outcome _ := .ok

def deviceBoot : Device := ⟨Fin.last 7, Vector.replicate 8 0x06#8⟩

/-- Channel `ch` single-ended from 0 to 1.25 Vref. -/
def cfgUnipolar (ch : Byte) : AdcChannelCfg where
  gain := .gain4_5
  reference := .internal
  acquisitionTime := adcAcqTimeDefault
  channelId := ch
  differential := false

theorem channelSetup_cache_iff_retry :
    (setupMachine 8).Throughout (Driver.CacheTrue 8)
      (ads868xInit benchQuiet true (Driver.boot deviceBoot)).2
      [(cfgUnipolar 3#8, .error eTimedOut false), (cfgUnipolar 3#8, .done 0x06#8),
        (cfgUnipolar 3#8, .done 0x00#8), (cfgUnipolar 9#8, .done 0x06#8)] :=
  (channelSetup_cache_iff (Or.inr rfl) (by decide) _).2.1.2 (by decide)

/-- A time-out after the device has latched 0..1.25 Vref: the cache still says bipolar, and
0 V reads as mid-scale. -/
theorem channelSetup_cache_latched :
    (ads868xInit benchQuiet true (Driver.boot deviceBoot)).1 = 0 ∧
    ∃ t, (setupMachine 8).exec (ads868xInit benchQuiet true (Driver.boot deviceBoot)).2
        [(cfgUnipolar 0#8, .error eTimedOut true)] = some t ∧
      t.data.range.get (Fin.ofNat 8 0) = 0x00#8 ∧
      t.device.range.get (Fin.ofNat 8 0) = 0x06#8 ∧
      ¬ t.CacheTrue 8 ∧
      sampleValue 0x06#8 (ads868xToSample t.data 0 (convert 0x06#8 0)) = 32768 := by
  refine ⟨by decide, _, rfl, by decide, by decide, ?_, by decide⟩
  intro ht
  exact absurd (ht.ranges (Fin.ofNat 8 0)) (by decide)

end DataLogger.Ads868x
