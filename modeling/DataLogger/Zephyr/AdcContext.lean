import DataLogger.Foundation.Bytes
import DataLogger.Foundation.KernelObjects
import DataLogger.Zephyr.Can

/-!
# Zephyr's adc_context

The part of an ADC driver that Zephyr provides, built without asynchronous reads: a binary
lock around each call, a semaphore that says a read is over, and an interval timer whose
expiry asks for the next sampling.  Where a sampling is to be started the functions here
answer `true`; the driver's callback then does it.
-/

namespace DataLogger.Zephyr

open DataLogger.Foundation

/-! ## Sequences -/

/-- `struct adc_sequence_options`; `callback` says whether one is set. -/
structure AdcSequenceOptions where
  intervalUs : BitVec 32
  callback : Bool
  extraSamplings : BitVec 16
  deriving DecidableEq, Repr

/-- `struct adc_sequence`, with the buffer as a 16-bit index. -/
structure AdcSequence where
  options : Option AdcSequenceOptions
  channels : BitVec 32
  buffer : Nat
  bufferSize : Nat
  resolution : Byte
  oversampling : Byte
  calibrate : Bool
  deriving DecidableEq, Repr

/-- `enum adc_action`, the answer of the callback. -/
inductive AdcAction where
  | adcContinue
  | adcRepeat
  | adcFinish
  deriving DecidableEq, Repr

/-- The interval between samplings, 0 for none. -/
def AdcSequence.interval (seq : AdcSequence) : Nat :=
  match seq.options with
  | none => 0
  | some options => options.intervalUs.toNat

def AdcSequence.extraSamplings (seq : AdcSequence) : Nat :=
  match seq.options with
  | none => 0
  | some options => options.extraSamplings.toNat

/-! ## The context -/

/-- `struct adc_context`; `timer` says whether the interval timer runs. -/
structure AdcContext where
  lock : Semaphore 1
  sync : Semaphore 1
  sequence : AdcSequence
  status : Int
  samplingIndex : Nat
  samplingRequested : Int
  timer : Bool
  deriving DecidableEq

namespace AdcContext

/-- The number of the sampling in progress; a sequence without options has only one. -/
def currentSampling (ctx : AdcContext) : Nat :=
  match ctx.sequence.options with
  | none => 0
  | some _ => ctx.samplingIndex

/-- `adc_context_start_read`. -/
def startRead (seq : AdcSequence) (ctx : AdcContext) : Bool × AdcContext :=
  let ctx := { ctx with sequence := seq, status := 0 }
  match seq.options with
  | none => (true, ctx)
  | some options =>
      let ctx := { ctx with samplingIndex := 0 }
      if options.intervalUs.toNat ≠ 0 then
        (false, { ctx with samplingRequested := 0, timer := true })
      else (true, ctx)

/-- `adc_context_request_next_sampling`, the expiry of the timer. -/
def requestNextSampling (ctx : AdcContext) : Bool × AdcContext :=
  if ctx.samplingRequested = 0 then
    (true, { ctx with samplingRequested := ctx.samplingRequested + 1 })
  else
    (false, { ctx with samplingRequested := ctx.samplingRequested + 1, status := eBusy.code })

/-- What `adc_context_on_sampling_done` goes on to do. -/
inductive Next where
  | finish
  | again (repeatSampling : Bool)
  deriving DecidableEq

/-- `adc_context_on_sampling_done` up to the decision; `answer` is the callback's. -/
def samplingDone (answer : AdcAction) (ctx : AdcContext) : Next × AdcContext :=
  match ctx.sequence.options with
  | none => (.finish, ctx)
  | some options =>
      let action := if options.callback then answer else .adcContinue
      match action with
      | .adcRepeat => (.again true, ctx)
      | .adcFinish => (.finish, ctx)
      | .adcContinue =>
          if ctx.samplingIndex < options.extraSamplings.toNat then
            (.again false, { ctx with samplingIndex := ctx.samplingIndex + 1 })
          else (.finish, ctx)

/-- The end of `adc_context_on_sampling_done` where another sampling follows. -/
def rearm (ctx : AdcContext) : Bool × AdcContext :=
  if ctx.sequence.interval = 0 then (true, ctx)
  else
    (1 < ctx.samplingRequested, { ctx with samplingRequested := ctx.samplingRequested - 1 })

/-- `adc_context_disable_timer`. -/
def disableTimer (ctx : AdcContext) : AdcContext := { ctx with timer := false }

/-- The end of `adc_context_on_sampling_done` where the read is over, up to its completion. -/
def finishTimer (ctx : AdcContext) : AdcContext :=
  if ctx.sequence.interval ≠ 0 then ctx.disableTimer else ctx

/-- `adc_context_complete`. -/
def complete (status : Int) (ctx : AdcContext) : AdcContext :=
  { ctx with status := if status ≠ 0 then status else ctx.status, sync := ctx.sync.give }

/-! ## What the functions do -/

variable {ctx : AdcContext}

@[simp] theorem startRead_sequence (seq : AdcSequence) :
    (ctx.startRead seq).2.sequence = seq := by
  rw [startRead]
  split
  · rfl
  · split
    · rfl
    · rfl

@[simp] theorem startRead_currentSampling (seq : AdcSequence) :
    (ctx.startRead seq).2.currentSampling = 0 := by
  rw [currentSampling, startRead_sequence]
  cases hoptions : seq.options with
  | none => rfl
  | some options =>
      by_cases hinterval : options.intervalUs.toNat = 0
      · simp [startRead, hoptions, hinterval]
      · simp [startRead, hoptions, hinterval]

/-- The callback of `seq` has answered FINISH. -/
def FinishedBy (seq : AdcSequence) (answer : AdcAction) : Prop :=
  ∃ options, seq.options = some options ∧ options.callback = true ∧ answer = .adcFinish

theorem samplingDone_cases (answer : AdcAction) :
    (ctx.samplingDone answer = (.finish, ctx) ∧
      (FinishedBy ctx.sequence answer ∨ ctx.sequence.extraSamplings ≤ ctx.currentSampling)) ∨
    ctx.samplingDone answer = (.again true, ctx) ∨
    (ctx.samplingDone answer =
        (.again false, { ctx with samplingIndex := ctx.samplingIndex + 1 }) ∧
      ctx.currentSampling = ctx.samplingIndex ∧ ctx.sequence.options.isSome ∧
      ctx.samplingIndex < ctx.sequence.extraSamplings) := by
  rw [samplingDone, currentSampling, AdcSequence.extraSamplings, FinishedBy]
  cases hoptions : ctx.sequence.options with
  | none =>
      left
      exact ⟨rfl, Or.inr (Nat.le_refl 0)⟩
  | some options =>
      simp only
      cases haction : (if options.callback then answer else AdcAction.adcContinue) with
      | adcRepeat =>
          right
          left
          rfl
      | adcFinish =>
          left
          cases hcallback : options.callback with
          | false => simp [hcallback] at haction
          | true =>
              rw [hcallback, if_pos rfl] at haction
              exact ⟨rfl, Or.inl ⟨options, rfl, hcallback, haction⟩⟩
      | adcContinue =>
          by_cases hmore : ctx.samplingIndex < options.extraSamplings.toNat
          · right
            right
            simp [hmore]
          · left
            simp only [hmore, if_false, true_and]
            exact Or.inr (Nat.le_of_not_lt hmore)

end AdcContext

end DataLogger.Zephyr
