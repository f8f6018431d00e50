import DataLogger.AdcDt.Rounds

/-!
# What the check of the ADC driver compares

The line of the sequence lists the channels in their own order, so it agrees with the lines
of the single channels where the table does.
-/

namespace DataLogger.AdcDt

open DataLogger.Foundation
open DataLogger.Zephyr
open DataLogger.Ads868x

section Comparison

variable {E : Bench} {table : Table} {mask : BitVec 32} {registers : Vector Byte 8}

/-! ## The comparison -/

/-- What a line shows of `buf`. -/
def Line.cell : Line → Option (BitVec 16)
  | failed _ _ => none
  | reading _ raw _ => raw

/-- No read of the round has failed. -/
structure Printed.Complete (p : Printed) : Prop where
  each : ∀ line ∈ p.each, ∀ id err, line ≠ .failed id err
  all : ∀ err, p.all ≠ .failed err

/-- The two ways to read show the same, from left to right. -/
def Printed.Agrees (p : Printed) : Prop := p.all = .readings (p.each.map Line.cell)

/-- The inputs do not change. -/
def Steady (E : Bench) : Prop := ∀ n m c range, E.level n c range = E.level m c range

def Table.ids (table : Table) : List Nat := table.specs.map fun spec => spec.channelId.toNat

variable {n m : Nat} {p : Printed}

/-- The lines of a round, whatever the frames of their reads. -/
theorem RoundSpec.lines (hp : RoundSpec E table mask registers n p m) :
    List.Forall₂ (fun spec line => ∃ n m, LineSpec E registers spec n line m) table.specs
      p.each := by
  obtain ⟨k, hreads, -⟩ := hp.reads
  refine List.forall₂_iff_zip.2 ⟨hp.length.symm, fun hmem => ?_⟩
  exact hreads.exists_of_mem hmem

theorem RoundSpec.line (hp : RoundSpec E table mask registers n p m) {i : Nat}
    (hi : i < table.specs.length) (hi' : i < p.each.length) :
    ∃ n m, LineSpec E registers table.specs[i] n p.each[i] m :=
  (List.forall₂_iff_get.1 hp.lines).2 i hi hi'

theorem cell_of_complete (hp : RoundSpec E table mask registers n p m)
    (hcomplete : p.Complete) {i : Nat} (hi : i < table.specs.length)
    (hi' : i < p.each.length) :
    ∃ (c : Fin 8) (n : Nat), table.specs[i].channelId.toNat = c ∧ table.specs[i].Readable ∧
      p.each[i].cell = some (sampleAt E registers n c) := by
  obtain ⟨k, k', hline⟩ := hp.line hi hi'
  have hreading := hcomplete.each p.each[i] (List.getElem_mem hi')
  cases hshape : p.each[i] with
  | failed id err => exact absurd hshape (hreading id err)
  | reading id raw value =>
      rw [hshape] at hline
      cases hline with
      | reading c hid hreadable hok => exact ⟨c, k + 1, hid, hreadable, rfl⟩

theorem channelsOf_sorted {a : Adc}
    (hset : SetUp table.nchannels table.specs mask registers a) :
    setBits mask = (channelsOf mask).map Fin.val := by
  apply setBits_eq_channelsOf
  intro i hi
  cases hbit : mask.getLsbD i with
  | false => rfl
  | true =>
      obtain ⟨spec, hspec, hid⟩ := (hset.mask i).1 hbit
      obtain ⟨c, hc⟩ := hset.programmed spec hspec
      have hlt := hc.id
      omega

/-- A table in the order of its channels lists them as the sequence does. -/
theorem ids_eq {a : Adc} (hset : SetUp table.nchannels table.specs mask registers a)
    (hsorted : table.ids.Pairwise (· < ·)) : table.ids = (channelsOf mask).map Fin.val := by
  rw [← channelsOf_sorted hset]
  apply eq_setBits hsorted
  intro i
  rw [hset.mask i, Table.ids, List.mem_map]

theorem ids_getElem? {k : Nat} (hk : k < table.specs.length) :
    table.ids[k]? = some table.specs[k].channelId.toNat := by
  rw [Table.ids, List.getElem?_map, List.getElem?_eq_getElem hk]
  rfl

theorem agrees_of_sorted {a : Adc}
    (hset : SetUp table.nchannels table.specs mask registers a) (hsteady : Steady E)
    (hp : RoundSpec E table mask registers n p m) (hcomplete : p.Complete)
    (hsorted : table.ids.Pairwise (· < ·)) : p.Agrees := by
  have hids := ids_eq hset hsorted
  have hlength := hp.length
  obtain ⟨k₀, -, hall⟩ := hp.reads
  rw [Printed.Agrees]
  cases hshape : p.all with
  | failed err => exact absurd hshape (hcomplete.all err)
  | readings cells =>
      rw [hshape] at hall
      cases hall with
      | readings hok =>
          congr 1
          apply List.ext_getElem
          · simp [hlength]
          · intro k hk hk'
            rw [List.length_map, List.length_range] at hk
            rw [List.length_map] at hk'
            obtain ⟨c, j, hid, -, hcell⟩ := cell_of_complete hp hcomplete hk hk'
            have hchannel : (channelsOf mask)[k]? = some c := by
              have hnamed := ids_getElem? hk
              rw [hids, List.getElem?_map, hid] at hnamed
              obtain ⟨c', hc', hval⟩ := Option.map_eq_some_iff.1 hnamed
              rw [hc', Fin.ext hval]
            rw [List.getElem_map, List.getElem_map, List.getElem_range, hchannel, hcell,
              Option.map_some, sampleAt, sampleAt, hsteady (k₀ + 1 + k) j]

/-- All inputs at the number of their channel, and no failures. -/
def benchNumbered : Bench where
  level _ c _ := c.val
  head _ := 0#16
  outcome _ := .ok

theorem sampleAt_numbered (registers : Vector Byte 8) (n : Nat) (c : Fin 8) :
    sampleAt benchNumbered registers n c = BitVec.ofNat 16 c.val := by
  have hclip : clip (registers.get c) c.val = c.val := by
    rw [clip]
    split
    · omega
    · omega
  change BitVec.ofInt 16 (clip (registers.get c) c.val) = _
  rw [hclip]
  rfl

theorem complete_numbered (hp : RoundSpec benchNumbered table mask registers n p m)
    (hreadable : ∀ spec ∈ table.specs, spec.Readable) : p.Complete := by
  constructor
  · intro line hline id err heq
    obtain ⟨i, hi, rfl⟩ := List.getElem_of_mem hline
    obtain ⟨k, k', hline⟩ := hp.line (hp.length ▸ hi) hi
    rw [heq] at hline
    cases hline with
    | refused hunreadable => exact hunreadable (hreadable _ (List.getElem_mem _))
    | failed j err _ hj hfail => exact hfail.fails rfl
  · intro err heq
    obtain ⟨k, -, hall⟩ := hp.reads
    rw [heq] at hall
    cases hall with
    | failed j err hj hfail => exact hfail.fails rfl

/-- If the two ways to read agree on numbered inputs, the table names the channels in the
order of the mask. -/
theorem channel_of_agrees (hp : RoundSpec benchNumbered table mask registers n p m)
    (hcomplete : p.Complete) (hagrees : p.Agrees) {k : Nat} (hk : k < table.specs.length) :
    ∃ c, (channelsOf mask)[k]? = some c ∧ table.specs[k].channelId.toNat = c := by
  have hk' : k < p.each.length := hp.length.symm ▸ hk
  obtain ⟨c, j, hid, -, hcell⟩ := cell_of_complete hp hcomplete hk hk'
  obtain ⟨k₀, -, hall⟩ := hp.reads
  rw [hagrees] at hall
  generalize hcells : p.each.map Line.cell = cells at hall
  cases hall with
  | readings hok =>
      have hsame := congrArg (fun l => l[k]?) hcells
      simp only [List.getElem?_map, List.getElem?_eq_getElem hk', List.getElem?_range hk,
        Option.map_some, hcell, Option.some.injEq] at hsame
      obtain ⟨c', hc', hsample⟩ := Option.map_eq_some_iff.1 hsame.symm
      refine ⟨c', hc', ?_⟩
      rw [sampleAt_numbered, sampleAt_numbered] at hsample
      have hval := congrArg BitVec.toNat hsample
      rw [BitVec.toNat_ofNat, BitVec.toNat_ofNat] at hval
      rw [hid]
      omega

theorem sorted_of_channels {a : Adc}
    (hset : SetUp table.nchannels table.specs mask registers a)
    (hchannels : ∀ k (hk : k < table.specs.length),
      ∃ c, (channelsOf mask)[k]? = some c ∧ table.specs[k].channelId.toNat = c) :
    table.ids.Pairwise (· < ·) := by
  have hsorted : ((channelsOf mask).map Fin.val).Pairwise (· < ·) := by
    rw [← channelsOf_sorted hset]
    exact setBits_pairwise mask
  have hprefix : table.ids <+: (channelsOf mask).map Fin.val := by
    rw [List.prefix_iff_getElem?]
    intro k hk
    have hk' : k < table.specs.length := by rwa [Table.ids, List.length_map] at hk
    obtain ⟨c, hc, hid⟩ := hchannels k hk'
    rw [List.getElem?_map, hc, Option.map_some, ← hid, ← ids_getElem? hk',
      List.getElem?_eq_getElem hk]
  exact hsorted.sublist hprefix.sublist

/-- **What the comparison is worth.**  With inputs that do not change, the line of the sequence
shows in every complete round of every run what the lines of the single channels show, from
left to right, if and only if the table names its channels in increasing order, or a
channel of it can never be read. -/
theorem adcDt_compares_iff {writes : Nat → WriteOutcome} {device : Device} {spiReady : Bool}
    {a : Adc} (hsetup : setup E table writes device spiReady = some (some mask, a)) :
    (∀ (E' : Bench), Steady E' → ∀ s, (roundMachine E' table mask).Reaches (.start a) s →
      ∀ p ∈ s.printed, p.Complete → p.Agrees) ↔
    (∃ spec ∈ table.specs, ¬ spec.Readable) ∨ table.ids.Pairwise (· < ·) := by
  obtain ⟨registers, hset⟩ := setUp_of_setup hsetup
  constructor
  · intro hall
    rw [or_iff_not_imp_left]
    intro hreadable
    have hreadable : ∀ spec ∈ table.specs, spec.Readable := by simpa using hreadable
    obtain ⟨t, p, hround, hprinted, ht⟩ :=
      round_spec (E := benchNumbered) hset (sound_start hset)
    have hp : p ∈ t.printed := by simp [hprinted]
    obtain ⟨n, m, hspec⟩ := ht.printed.exists_of_mem hp
    have hcomplete := complete_numbered hspec hreadable
    have hreach : (roundMachine benchNumbered table mask).Reaches (.start a) t :=
      Machine.Reaches.of_step (a := ()) hround
    have hagrees := hall benchNumbered (fun _ _ _ _ => rfl) t hreach p hp hcomplete
    exact sorted_of_channels hset fun k hk => channel_of_agrees hspec hcomplete hagrees hk
  · intro htable E' hsteady s hs p hp hcomplete
    obtain ⟨n, m, hspec⟩ := (sound_of_reaches hset hs).printed.exists_of_mem hp
    rcases htable with ⟨spec, hmem, hunreadable⟩ | hsorted
    · obtain ⟨i, hi, rfl⟩ := List.getElem_of_mem hmem
      have hi' : i < p.each.length := hspec.length.symm ▸ hi
      obtain ⟨-, -, -, hreadable, -⟩ := cell_of_complete hspec hcomplete hi hi'
      exact absurd hreadable hunreadable
    · exact agrees_of_sorted hset hsteady hspec hcomplete hsorted

end Comparison

/-! ## The table of the board -/

/-- A channel of the overlay. -/
def channelNode (ch : Byte) (gain : AdcGain) (differential : Bool) : AdcDtSpec where
  channelId := ch
  channelCfg := some ⟨gain, .internal, adcAcqTimeDefault, ch, differential⟩
  resolution := 16#8
  oversampling := 0#8

def tableBoard : Table where
  nchannels := 8
  specs := [channelNode 0#8 .gain4_5 false, channelNode 1#8 .gain4_5 false,
    channelNode 2#8 .gain4_5 false, channelNode 3#8 .gain4_5 false,
    channelNode 4#8 .gain4_5 false, channelNode 5#8 .gain4_5 false,
    channelNode 6#8 .gain4_5 true, channelNode 7#8 .gain2_5 false]
  size := .inr rfl
  own := by decide
  same := by decide
  nonempty := by decide

/-- The device echoes every write. -/
def writesBoard (n : Nat) : WriteOutcome :=
  .done (if n = 7 then ads868xRangeBipolar1_25 else if n = 8 then ads868xRangeUnipolar2_5
    else ads868xRangeUnipolar1_25)

/-- Two rounds on the board, of 16 frames for the single channels and 9 for the sequence. -/
theorem adcDt_prints_inputs_board :
    ∃ a registers s, setup benchNumbered tableBoard writesBoard deviceBoot true =
        some (some 0xFF#32, a) ∧
      (roundMachine benchNumbered tableBoard 0xFF#32).exec (.start a) [(), ()] = some s ∧
      s.printed.length = 2 ∧
      Threaded (RoundSpec benchNumbered tableBoard 0xFF#32 registers) a.sampler.frames s.printed
        s.adc.sampler.frames ∧
      s.adc.sampler.frames = a.sampler.frames + 50 := by
  have hrun : ((setup benchNumbered tableBoard writesBoard deviceBoot true).bind fun out =>
      ((roundMachine benchNumbered tableBoard 0xFF#32).exec (.start out.2) [(), ()]).map fun s =>
        (out.1, decide (s.adc.sampler.frames = out.2.sampler.frames + 50))) =
      some (some 0xFF#32, true) := by decide +kernel
  obtain ⟨⟨mask, a⟩, hsetup, hround⟩ := Option.bind_eq_some_iff.1 hrun
  obtain ⟨s, hexec, hs⟩ := Option.map_eq_some_iff.1 hround
  obtain ⟨rfl, hframes⟩ := Prod.mk.inj hs
  obtain ⟨registers, -, -, hall⟩ := adcDt_prints_inputs hsetup
  obtain ⟨s', hexec', hlength, hprinted⟩ := hall benchNumbered [(), ()]
  obtain rfl : s' = s := Option.some.inj (hexec'.symm.trans hexec)
  exact ⟨a, registers, s', hsetup, hexec, hlength, hprinted, of_decide_eq_true hframes⟩

theorem adcDt_compares_iff_board :
    ∃ a, setup benchNumbered tableBoard writesBoard deviceBoot true = some (some 0xFF#32, a) ∧
      ∀ (E : Bench), Steady E → ∀ s, (roundMachine E tableBoard 0xFF#32).Reaches (.start a) s →
        ∀ p ∈ s.printed, p.Complete → p.Agrees := by
  have hrun : (setup benchNumbered tableBoard writesBoard deviceBoot true).map Prod.fst =
      some (some 0xFF#32) := by decide +kernel
  obtain ⟨⟨mask, a⟩, hsetup, rfl⟩ := Option.map_eq_some_iff.1 hrun
  exact ⟨a, hsetup, (adcDt_compares_iff hsetup).2 (.inr (by decide))⟩

end DataLogger.AdcDt
