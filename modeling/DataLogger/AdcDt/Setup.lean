import DataLogger.AdcDt.Program

/-!
# The loop over the table

An error of one setup ends the program, so the rounds begin with every write confirmed: the
driver's cache is the device's registers, and each channel has the range of its node.
-/

namespace DataLogger.AdcDt

open DataLogger.Foundation
open DataLogger.Zephyr
open DataLogger.Ads868x

/-! ## One call -/

theorem unipolar_of_gain {gain : AdcGain} {differential : Bool} {range : Byte}
    (hgain : rangeOfGain gain differential = some range) : unipolar range = !differential := by
  cases gain with
  | gain2_5 =>
      cases differential with
      | true =>
          cases hgain
          decide
      | false =>
          cases hgain
          decide
  | gain4_5 =>
      cases differential with
      | true =>
          cases hgain
          decide
      | false =>
          cases hgain
          decide
  | other code => cases hgain

theorem writeReg_le (o : WriteOutcome) (reg val : Byte) (w : Ads) :
    (ads868xWriteReg o reg val w).1 ≤ 0 := by
  cases o with
  | done echo =>
      rw [ads868xWriteReg]
      split
      · exact Int.le_of_lt eIo.neg
      · exact Int.le_refl 0
  | error e latched => exact Int.le_of_lt e.neg

theorem programRange_code (o : WriteOutcome) (ch : Nat) (range : Byte) (w : Ads) :
    (ads868xProgramRange o ch range w).1 = (ads868xWriteReg o (ads868xRegRange ch) range w).1 := by
  simp only [ads868xProgramRange]
  split
  · rfl
  · rfl

/-- A call that does not return an error has written the range of its gain. -/
theorem channelSetup_done {nchannels : Nat} {cfg : AdcChannelCfg} {o : WriteOutcome}
    {s d : Driver} {ret : Int} (hn : nchannels ≤ 8) (hlock : s.lock.count = 1)
    (hcall : ads868xChannelSetup nchannels cfg o s = some (ret, d)) (hret : ¬ ret < 0) :
    cfg.channelId.toNat < nchannels ∧ ∃ range,
      rangeOfGain cfg.gain cfg.differential = some range ∧ o.confirms range = true ∧
      d = ⟨s.toAds.afterWrite cfg.channelId.toNat range o, s.lock⟩ := by
  by_cases hrejected : cfg.Rejected nchannels
  · rw [channelSetup_of_rejected hrejected] at hcall
    cases hcall
    exact absurd eNotSup.neg hret
  · obtain ⟨range, hgain⟩ := exists_range hrejected
    obtain ⟨held, htake, hgive⟩ := take_give hlock
    rw [channelSetup_of_accepted hrejected hgain, htake, Option.map_some] at hcall
    simp only [programRange_spec (channelId_lt hrejected hn), hgive] at hcall
    cases hcall
    rw [programRange_code] at hret
    have hzero : (ads868xWriteReg o (ads868xRegRange cfg.channelId.toNat) range s.toAds).1 = 0 :=
      Int.le_antisymm (writeReg_le o _ range s.toAds) (Int.not_lt.1 hret)
    have hlt : cfg.channelId.toNat < nchannels := by
      simp only [AdcChannelCfg.Rejected, not_or] at hrejected
      omega
    exact ⟨hlt, range, hgain, writeReg_code.1 hzero, rfl⟩

/-! ## The loop -/

/-- Channel `c` of the device has the range that the node of `spec` asks for. -/
structure Programmed (nchannels : Nat) (registers : Vector Byte 8) (spec : AdcDtSpec)
    (c : Fin 8) : Prop where
  id : spec.channelId.toNat = c
  lt : c.val < nchannels
  range : ∃ cfg, spec.channelCfg = some cfg ∧
    rangeOfGain cfg.gain cfg.differential = some (registers.get c)

/-- Between two calls, with the ranges in the registers and in the driver's cache. -/
structure Adc.Idle (registers : Vector Byte 8) (a : Adc) : Prop where
  lock : a.ctx.lock.count = 1
  sync : a.ctx.sync.count = 0
  device : a.sampler.device.range = registers
  cache : a.sampler.data.range = registers

theorem idle_boot {E : Bench} {device : Device} {spiReady : Bool}
    (hready : (ads868xInit E spiReady (Driver.boot device)).1 = 0) :
    (Adc.boot E device spiReady).Idle (Adc.boot E device spiReady).sampler.device.range := by
  have hsettled := init_settled hready
  exact ⟨hsettled.lock, rfl, rfl, hsettled.ranges⟩

theorem registers_afterWrite {registers : Vector Byte 8} {w : Ads} {c : Fin 8} {range : Byte}
    {o : WriteOutcome} (hconfirms : o.confirms range = true) (hdevice : w.device.range = registers)
    (hcache : w.data.range = registers) :
    (w.afterWrite c range o).device.range = registers.setIfInBounds c range ∧
      (w.afterWrite c range o).data.range = registers.setIfInBounds c range := by
  constructor
  · rw [Ads.afterWrite, ← hdevice]
    simp only [confirms_latched hconfirms, if_true]
  · rw [Ads.afterWrite, ← hcache]
    simp only [hconfirms, if_true]

/-- A channel that is set up keeps the ranges of the ones before, since a second entry for one
of them asks for the same. -/
theorem programmed_set {nchannels : Nat} {registers : Vector Byte 8} {spec other : AdcDtSpec}
    {c d : Fin 8} {range : Byte} {cfg : AdcChannelCfg} (hd : Programmed nchannels registers other d)
    (hsame : other.channelId = spec.channelId → other = spec) (hc : spec.channelId.toNat = c)
    (hcfg : spec.channelCfg = some cfg)
    (hgain : rangeOfGain cfg.gain cfg.differential = some range) :
    Programmed nchannels (registers.setIfInBounds c range) other d := by
  refine ⟨hd.id, hd.lt, ?_⟩
  rw [registers_get_set]
  by_cases hcd : c = d
  · have hspec : other = spec := by
      apply hsame
      apply BitVec.eq_of_toNat_eq
      rw [hd.id, hc, hcd]
    rw [if_pos hcd, hspec]
    exact ⟨cfg, hcfg, hgain⟩
  · rw [if_neg hcd]
    exact hd.range

/-- What the loop has done once it has set up the channels in `specs`. -/
structure SetUp (nchannels : Nat) (specs : List AdcDtSpec) (mask : BitVec 32)
    (registers : Vector Byte 8) (a : Adc) : Prop where
  idle : a.Idle registers
  unread : a.sampler.data.stores = []
  programmed : ∀ spec ∈ specs, ∃ c, Programmed nchannels registers spec c
  mask : ∀ i, mask.getLsbD i = true ↔ ∃ spec ∈ specs, spec.channelId.toNat = i

theorem setUp_step {nchannels : Nat} {before : List AdcDtSpec} {spec : AdcDtSpec}
    {mask : BitVec 32} {registers : Vector Byte 8} {a b : Adc} {o : WriteOutcome} {ret : Int}
    (hn : nchannels = 4 ∨ nchannels = 8) (ha : SetUp nchannels before mask registers a)
    (hown : ∀ cfg ∈ spec.channelCfg, cfg.channelId = spec.channelId)
    (hsame : ∀ other ∈ before, other.channelId = spec.channelId → other = spec)
    (hcall : adcChannelSetupDt nchannels spec o a = some (ret, b)) (hret : ¬ ret < 0) :
    ∃ registers', SetUp nchannels (before ++ [spec]) (mask ||| bit spec.channelId.toNat)
      registers' b := by
  rw [adcChannelSetupDt] at hcall
  cases hcfg : spec.channelCfg with
  | none =>
      rw [hcfg] at hcall
      cases hcall
      exact absurd eNotSup.neg hret
  | some cfg =>
      rw [hcfg] at hcall
      obtain ⟨⟨ret', d⟩, hsetup, hpair⟩ := Option.map_eq_some_iff.1 hcall
      cases hpair
      obtain ⟨hlt, range, hgain, hconfirms, rfl⟩ :=
        channelSetup_done (by omega) ha.idle.lock hsetup hret
      have hid : cfg.channelId = spec.channelId := hown cfg hcfg
      rw [hid] at hlt
      obtain ⟨c, hc⟩ : ∃ c : Fin 8, spec.channelId.toNat = c :=
        ⟨⟨spec.channelId.toNat, by omega⟩, rfl⟩
      have hwritten := registers_afterWrite (c := c) hconfirms ha.idle.device ha.idle.cache
      rw [hid, hc]
      refine ⟨registers.setIfInBounds c range, ?_, ?_, ?_, ?_⟩
      · exact ⟨ha.idle.lock, ha.idle.sync, hwritten.1, hwritten.2⟩
      · exact ha.unread
      · intro other hother
        rcases List.mem_append.1 hother with hold | hnew
        · obtain ⟨d, hd⟩ := ha.programmed other hold
          exact ⟨d, programmed_set hd (hsame other hold) hc hcfg hgain⟩
        · obtain rfl := List.mem_singleton.1 hnew
          refine ⟨c, hc, hc ▸ hlt, cfg, hcfg, ?_⟩
          rw [registers_get_set, if_pos rfl]
          exact hgain
      · intro i
        rw [BitVec.getLsbD_or, Bool.or_eq_true, ha.mask i, bit, BitVec.getLsbD_twoPow]
        simp only [List.mem_append, List.mem_singleton, or_and_right, exists_or, exists_eq_left,
          Bool.and_eq_true, decide_eq_true_eq]
        rw [hc]
        apply or_congr_right
        omega

theorem setUp_loop {nchannels : Nat} {ready : Bool} {writes : Nat → WriteOutcome}
    {before rest : List AdcDtSpec} {mask mask' : BitVec 32} {registers : Vector Byte 8} {a b : Adc}
    (hn : nchannels = 4 ∨ nchannels = 8) (ha : SetUp nchannels before mask registers a)
    (hown : ∀ spec ∈ rest, ∀ cfg ∈ spec.channelCfg, cfg.channelId = spec.channelId)
    (hsame : ∀ spec ∈ before ++ rest, ∀ other ∈ before ++ rest,
      spec.channelId = other.channelId → spec = other)
    (hloop : setupLoop nchannels ready writes rest mask a = some (some mask', b)) :
    ∃ registers', SetUp nchannels (before ++ rest) mask' registers' b := by
  induction rest generalizing before mask registers a with
  | nil =>
      cases hloop
      rw [List.append_nil]
      exact ⟨registers, ha⟩
  | cons spec rest ih =>
      rw [setupLoop] at hloop
      by_cases hready : ready = false
      · rw [if_pos hready] at hloop
        cases hloop
      · rw [if_neg hready] at hloop
        obtain ⟨⟨err, a'⟩, hcall, hnext⟩ := Option.bind_eq_some_iff.1 hloop
        by_cases herr : err < 0
        · simp only [if_pos herr] at hnext
          cases hnext
        · simp only [if_neg herr] at hnext
          have hmem : spec ∈ before ++ spec :: rest := by simp
          obtain ⟨registers', ha'⟩ := setUp_step hn ha (hown spec List.mem_cons_self)
            (fun other hother => hsame other (List.mem_append_left _ hother) spec hmem)
            hcall herr
          have hrest := ih ha' (fun other hother => hown other (List.mem_cons_of_mem _ hother))
            (by simpa using hsame) hnext
          simpa using hrest

theorem init_unread (E : Bench) (device : Device) (spiReady : Bool) :
    (ads868xInit E spiReady (Driver.boot device)).2.data.stores = [] := by
  cases spiReady with
  | false => rfl
  | true =>
      have hdata := command_data E ads868xCmdRst (Driver.boot device).toAds
      simp only [ads868xInit, Bool.true_eq_false, if_false]
      split
      · exact congrArg AdcData.stores hdata
      · split
        · exact congrArg AdcData.stores hdata
        · exact congrArg AdcData.stores hdata

/-- A loop that ends with a mask has set up the whole table. -/
theorem setUp_of_setup {E : Bench} {table : Table} {writes : Nat → WriteOutcome}
    {device : Device} {spiReady : Bool} {mask : BitVec 32} {a : Adc}
    (hsetup : setup E table writes device spiReady = some (some mask, a)) :
    ∃ registers, SetUp table.nchannels table.specs mask registers a := by
  have hready : (ads868xInit E spiReady (Driver.boot device)).1 = 0 := by
    obtain ⟨spec, rest, hspecs⟩ := List.exists_cons_of_ne_nil table.nonempty
    rw [setup, hspecs, setupLoop] at hsetup
    by_contra hnot
    rw [if_pos (decide_eq_false hnot)] at hsetup
    cases hsetup
  have hstart : SetUp table.nchannels [] 0#32 (Adc.boot E device spiReady).sampler.device.range
      (Adc.boot E device spiReady) := by
    refine ⟨idle_boot hready, init_unread E device spiReady, ?_, ?_⟩
    · intro spec hspec
      cases hspec
    · intro i
      simp
  exact setUp_loop table.size hstart table.own table.same hsetup

end DataLogger.AdcDt
