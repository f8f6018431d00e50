import DataLogger.Ads868x.ChannelSetup
import DataLogger.Ads868x.Sequence

/-!
# The check of the ADC driver

`main` of `adc-dt`: it sets up the channels of its table and then, round after round, reads
each of them alone and all of them in one sequence, and prints both.  The two buffers are
`buf`, the 16-bit cell 0, and `all`, the cells from 1 on.
-/

namespace DataLogger.AdcDt

open DataLogger.Foundation
open DataLogger.Zephyr
open DataLogger.Ads868x

/-! ## Zephyr's calls -/

/-- `struct adc_dt_spec` but for the device; `channelCfg` is there if the channel has a node. -/
structure AdcDtSpec where
  channelId : Byte
  channelCfg : Option AdcChannelCfg
  resolution : Byte
  oversampling : Byte
  deriving DecidableEq

/-- The driver with the semaphore of its thread and its context. -/
structure Adc where
  sampler : Sampler
  ctx : AdcContext
  deriving DecidableEq

def Adc.driver (a : Adc) : Driver := ⟨a.sampler.toAds, a.ctx.lock⟩

def Adc.withDriver (a : Adc) (d : Driver) : Adc where
  sampler := { a.sampler with toAds := d.toAds }
  ctx := { a.ctx with lock := d.lock }

/-- `adc_channel_setup_dt`. -/
def adcChannelSetupDt (nchannels : Nat) (spec : AdcDtSpec) (o : WriteOutcome) (a : Adc) :
    Option (Int × Adc) :=
  match spec.channelCfg with
  | none => some (eNotSup.code, a)
  | some cfg =>
      (ads868xChannelSetup nchannels cfg o a.driver).map fun (ret, d) => (ret, a.withDriver d)

/-- `adc_sequence_init_dt`; its return code is not looked at. -/
def adcSequenceInitDt (spec : AdcDtSpec) (seq : AdcSequence) : AdcSequence :=
  if spec.channelCfg.isNone then seq
  else
    { seq with
      channels := bit spec.channelId.toNat
      resolution := spec.resolution
      oversampling := spec.oversampling }

/-- `adc_read` for a sequence without options: `ads868x_start_read` between the lock and its
release, with the one sampling of the acquisition thread. -/
def adcRead (E : Bench) (nchannels : Nat) (seq : AdcSequence) (a : Adc) : Option (Int × Adc) :=
  a.ctx.lock.take.bind fun lock =>
    let ret := ads868xCheckSequence nchannels seq
    if ret ≠ 0 then some (ret, { a with ctx := { a.ctx with lock := lock.give } })
    else
      ((ReadRun.start seq a.sampler { a.ctx with lock := lock }).step E .adcContinue).bind fun r =>
        r.ended.bind fun status =>
          let ctx := if status ≠ 0 then r.ctx.disableTimer else r.ctx.finishTimer
          let ctx := ctx.complete status
          ctx.sync.take.map fun sync =>
            (ctx.status, { sampler := r.sampler, ctx := { ctx with sync := sync,
                                                                   lock := lock.give } })

/-! ## The program -/

/-- `io-channels`: what is said about a channel is taken from its own node, so two entries for
one channel are equal. -/
structure Table where
  nchannels : Nat
  specs : List AdcDtSpec
  size : nchannels = 4 ∨ nchannels = 8
  own : ∀ spec ∈ specs, ∀ cfg ∈ spec.channelCfg, cfg.channelId = spec.channelId
  same : ∀ spec ∈ specs, ∀ other ∈ specs, spec.channelId = other.channelId → spec = other
  nonempty : specs ≠ []

def bufAt : Nat := 0
def allAt : Nat := 1

def toValue (spec : AdcDtSpec) (raw : BitVec 16) : Int :=
  if (spec.channelCfg.map AdcChannelCfg.differential).getD false then raw.toInt else raw.toNat

/-- The line for one channel; `raw` is what is in `buf`, if anything was ever put there. -/
inductive Line where
  | failed (channelId : Byte) (err : Int)
  | reading (channelId : Byte) (raw : Option (BitVec 16)) (value : Option Int)
  deriving DecidableEq

/-- The line for the sequence of all channels, with what is in `all`. -/
inductive AllLine where
  | failed (err : Int)
  | readings (cells : List (Option (BitVec 16)))
  deriving DecidableEq

/-- What a round prints. -/
structure Printed where
  each : List Line
  all : AllLine
  deriving DecidableEq

/-- The loop over the channels before the rounds, with the end of the register write that is
frame `n`; without a mask `main` has returned. -/
def setupLoop (nchannels : Nat) (ready : Bool) (writes : Nat → WriteOutcome) :
    List AdcDtSpec → BitVec 32 → Adc → Option (Option (BitVec 32) × Adc)
  | [], channels, a => some (some channels, a)
  | spec :: rest, channels, a =>
      if ready = false then some (none, a)
      else
        (adcChannelSetupDt nchannels spec (writes a.sampler.frames) a).bind fun (err, a) =>
          if err < 0 then some (none, a)
          else setupLoop nchannels ready writes rest (channels ||| bit spec.channelId.toNat) a

/-- The loop over the channels inside a round. -/
def readEach (E : Bench) (nchannels : Nat) :
    List AdcDtSpec → AdcSequence → Adc → Option (List Line × AdcSequence × Adc)
  | [], seq, a => some ([], seq, a)
  | spec :: rest, seq, a =>
      let seq := adcSequenceInitDt spec seq
      (adcRead E nchannels seq a).bind fun (err, a) =>
        let raw := contents a.sampler.data.stores bufAt
        let line := if err < 0 then Line.failed spec.channelId err
          else Line.reading spec.channelId raw (raw.map (toValue spec))
        (readEach E nchannels rest seq a).map fun (lines, out) => (line :: lines, out)

/-- `all_seq` for a mask and a table of `count` channels. -/
def allSeq (channels : BitVec 32) (count : Nat) : AdcSequence where
  options := none
  channels := channels
  buffer := allAt
  bufferSize := 2 * count
  resolution := 16#8
  oversampling := 0#8
  calibrate := false

/-- `sequence` before its first use. -/
def sequenceStart : AdcSequence where
  options := none
  channels := 0#32
  buffer := bufAt
  bufferSize := 2
  resolution := 0#8
  oversampling := 0#8
  calibrate := false

/-- `main` in its endless loop. -/
structure Main where
  sequence : AdcSequence
  adc : Adc
  printed : List Printed
  deriving DecidableEq

/-- A round. -/
def Main.round (E : Bench) (table : Table) (mask : BitVec 32) (s : Main) : Option Main :=
  (readEach E table.nchannels table.specs s.sequence s.adc).bind fun (lines, seq, a) =>
    (adcRead E table.nchannels (allSeq mask table.specs.length) a).map fun (err, a) =>
      let cells := (List.range table.specs.length).map fun i =>
        contents a.sampler.data.stores (allAt + i)
      let all := if err < 0 then AllLine.failed err else AllLine.readings cells
      { sequence := seq, adc := a, printed := s.printed ++ [⟨lines, all⟩] }

def roundMachine (E : Bench) (table : Table) (mask : BitVec 32) : Machine Main Unit :=
  ⟨fun s _ => s.round E table mask⟩

/-- The driver behind its initialisation, with nothing in the context but the lock. -/
def Adc.boot (E : Bench) (device : Device) (spiReady : Bool) : Adc where
  sampler := ⟨(ads868xInit E spiReady (Driver.boot device)).2.toAds, Semaphore.empty 1⟩
  ctx := {
    lock := (ads868xInit E spiReady (Driver.boot device)).2.lock
    sync := Semaphore.empty 1
    sequence := sequenceStart
    status := 0
    samplingIndex := 0
    samplingRequested := 0
    timer := false }

/-- From boot to the first round. -/
def setup (E : Bench) (table : Table) (writes : Nat → WriteOutcome) (device : Device)
    (spiReady : Bool) : Option (Option (BitVec 32) × Adc) :=
  setupLoop table.nchannels ((ads868xInit E spiReady (Driver.boot device)).1 = 0) writes
    table.specs 0#32 (Adc.boot E device spiReady)

end DataLogger.AdcDt
