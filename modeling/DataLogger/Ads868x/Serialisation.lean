import DataLogger.Ads868x.Acquisition
import DataLogger.Ads868x.ChannelSetup
import DataLogger.Foundation.Machine
import DataLogger.Foundation.Threads

/-!
# Reads and setups exclude each other

Any number of threads call `ads868x_read` and `ads868x_channel_setup` while the acquisition
thread and the timer run.  The lock's token is in its semaphore or with one caller; the
read's token passes from its caller to the timer, the thread and back through `sem` and
`sync`, and a call leaves none of it behind.
-/

namespace DataLogger.Ads868x

open DataLogger.Foundation
open DataLogger.Zephyr

/-! ## The callers -/

/-- Where a caller is.  A read that waits knows its number; one that is about to release
the lock knows whether it was started and what it returns. -/
inductive CallerPc where
  | idle
  | setupLock (ch : Nat) (range : Byte)
  | setupWrite (ch : Nat) (range : Byte)
  | setupRelease (ret : Int)
  | readLock (seq : AdcSequence)
  | readStart (seq : AdcSequence)
  | readWait (read : Nat)
  | readRelease (own : Option Nat) (ret : Int)
  deriving DecidableEq

/-- Between the lock and the release. -/
def CallerPc.inCall : CallerPc → Bool
  | .setupWrite _ _ | .setupRelease _ | .readStart _ | .readWait _ | .readRelease _ _ => true
  | .idle | .setupLock _ _ | .readLock _ => false

def CallerPc.waits : CallerPc → Bool
  | .readWait _ => true
  | _ => false

inductive Request where
  | setup (cfg : AdcChannelCfg)
  | read (seq : AdcSequence)

/-- The driver and its callers. -/
structure Sys (ι : Type*) where
  core : Core
  caller : ι → CallerPc

inductive Act (ι : Type*) where
  | call (i : ι) (request : Request)
  | caller (i : ι) (o : WriteOutcome)
  | acquire (answer : AdcAction)
  | expire

variable {ι : Type*} [DecidableEq ι]

namespace Sys

/-- A call begins; a setup that a check turns down returns at once. -/
def begin (nchannels : Nat) (i : ι) (request : Request) (s : Sys ι) : Option (Sys ι) :=
  match s.caller i with
  | .idle =>
      match request with
      | .read seq => some { s with caller := Function.update s.caller i (.readLock seq) }
      | .setup cfg =>
          if cfg.Rejected nchannels then some s
          else
            (rangeOfGain cfg.gain cfg.differential).map fun range =>
              { s with caller :=
                  Function.update s.caller i (.setupLock cfg.channelId.toNat range) }
  | _ => none

def withLock (lock : Semaphore 1) (i : ι) (pc : CallerPc) (s : Sys ι) : Sys ι where
  core := { s.core with ctx := { s.core.ctx with lock := lock } }
  caller := Function.update s.caller i pc

/-- The register write of a setup. -/
def write (o : WriteOutcome) (i : ι) (ch : Nat) (range : Byte) (s : Sys ι) : Sys ι :=
  let (ret, w) := ads868xProgramRange o ch range s.core.sampler.toAds
  { core := { s.core with sampler := { s.core.sampler with toAds := w },
                          bus := s.core.bus ++ [.rangeWrite ch] }
    caller := Function.update s.caller i (.setupRelease ret) }

/-- A read that has passed the checks is started. -/
def startReading (i : ι) (seq : AdcSequence) (s : Sys ι) : Sys ι :=
  let sampler := { s.core.sampler with data := { s.core.sampler.data with buffer := seq.buffer } }
  let (now, ctx) := s.core.ctx.startRead seq
  { core := { s.core with sampler := if now then adcContextStartSampling sampler else sampler,
                          ctx := ctx, reads := s.core.reads + 1 }
    caller := Function.update s.caller i (.readWait (s.core.reads + 1)) }

/-- `ads868x_start_read` up to the wait. -/
def start (nchannels : Nat) (i : ι) (seq : AdcSequence) (s : Sys ι) : Sys ι :=
  let ret := ads868xCheckSequence nchannels seq
  if ret ≠ 0 then { s with caller := Function.update s.caller i (.readRelease none ret) }
  else s.startReading i seq

/-- The next step of caller `i`; `o` is how its register write ends, if it is at one. -/
def advance (nchannels : Nat) (i : ι) (o : WriteOutcome) (s : Sys ι) : Option (Sys ι) :=
  match s.caller i with
  | .idle => none
  | .setupLock ch range =>
      s.core.ctx.lock.take.map fun lock => s.withLock lock i (.setupWrite ch range)
  | .setupWrite ch range => some (s.write o i ch range)
  | .setupRelease _ => some (s.withLock s.core.ctx.lock.give i .idle)
  | .readLock seq => s.core.ctx.lock.take.map fun lock => s.withLock lock i (.readStart seq)
  | .readStart seq => some (s.start nchannels i seq)
  | .readWait read =>
      s.core.ctx.sync.take.map fun sync =>
        { core := { s.core with ctx := { s.core.ctx with sync := sync } }
          caller := Function.update s.caller i (.readRelease (some read) s.core.ctx.status) }
  | .readRelease _ _ => some (s.withLock s.core.ctx.lock.give i .idle)

def step (E : Bench) (nchannels : Nat) (s : Sys ι) : Act ι → Option (Sys ι)
  | .call i request => s.begin nchannels i request
  | .caller i o => s.advance nchannels i o
  | .acquire answer => (s.core.acquire E answer).map fun core => { s with core := core }
  | .expire => s.core.expire.map fun core => { s with core := core }

/-- After `ads868x_init`: the lock is free, the thread waits, and nobody calls yet. -/
def initial (w : Ads) (seq : AdcSequence) : Sys ι where
  core := { sampler := ⟨w, Semaphore.empty 1⟩
            ctx := ⟨(Semaphore.empty 1).give, Semaphore.empty 1, seq, 0, 0, 0, false⟩
            acq := .waiting
            reads := 0
            completions := 0
            bus := [] }
  caller _ := .idle

end Sys

def systemMachine (E : Bench) (nchannels : Nat) : Machine (Sys ι) (Act ι) :=
  ⟨Sys.step E nchannels⟩

/-! ## The invariant -/

variable [Fintype ι]

/-- The lock's token, and what the waiting read, if there is one, may rely on. -/
structure Sys.Serial (s : Sys ι) : Prop where
  token : OneToken s.core.ctx.lock CallerPc.inCall s.caller
  idle : (∀ i, (s.caller i).waits = false) → s.core.Quiet ∧ s.core.ctx.sync.count = 0
  busy : ∀ i read, s.caller i = .readWait read → read = s.core.reads ∧
    (s.core.Underway ∨ (s.core.Quiet ∧ s.core.ctx.sync.count = 1))
  returned : ∀ i read ret, s.caller i = .readRelease (some read) ret → read = s.core.reads
  bus : s.core.BusOk

variable {E : Bench} {nchannels : Nat} {s t : Sys ι} {i j : ι} {pc : CallerPc}

theorem waits_inCall {pc : CallerPc} (hwaits : pc.waits = true) : pc.inCall = true := by
  cases pc <;> first | rfl | cases hwaits

/-- While a caller that does not wait is in its call, nothing of a read is left. -/
theorem Sys.Serial.quiet (hs : s.Serial) (hcall : (s.caller i).inCall = true)
    (hwaits : (s.caller i).waits = false) :
    (∀ j, (s.caller j).waits = false) ∧ s.core.Quiet ∧ s.core.ctx.sync.count = 0 := by
  have hnone : ∀ j, (s.caller j).waits = false := by
    intro j
    by_contra hj
    rw [Bool.not_eq_false] at hj
    obtain rfl := hs.token.exclusive hcall (waits_inCall hj)
    rw [hj] at hwaits
    cases hwaits
  exact ⟨hnone, hs.idle hnone⟩

omit [DecidableEq ι] in
theorem serial_initial (w : Ads) (seq : AdcSequence) : (Sys.initial w seq : Sys ι).Serial := by
  refine ⟨?_, ?_, ?_, ?_, ?_⟩
  · rw [OneToken]
    have hnone : countAt CallerPc.inCall (Sys.initial w seq : Sys ι).caller = 0 :=
      countAt_eq_zero.2 fun _ => rfl
    rw [hnone]
    rfl
  · intro _
    exact ⟨⟨rfl, rfl, rfl, rfl⟩, rfl⟩
  · intro i read h
    cases h
  · intro i read ret h
    cases h
  · refine ⟨?_, ?_, contiguous_nil⟩
    · intro k hk
      cases hk
    · intro h
      exact absurd h.completions (by simp [Sys.initial])

/-! ## The lock does not touch the read -/

theorem quiet_withLock {c : Core} {lock : Semaphore 1} (h : c.Quiet) :
    Core.Quiet { c with ctx := { c.ctx with lock := lock } } :=
  ⟨h.sem, h.acq, h.timer, h.completions⟩

theorem Core.Underway.withLock {c : Core} (h : c.Underway) (lock : Semaphore 1) :
    Core.Underway { c with ctx := { c.ctx with lock := lock } } := by
  refine ⟨h.sync, h.completions, ?_⟩
  cases h.phase with
  | queued hsem hacq htimer => exact .queued hsem hacq htimer
  | sampling hsem hacq htimer => exact .sampling hsem hacq htimer
  | armed hsem hacq hinterval htimer hrequested =>
      exact .armed hsem hacq hinterval htimer hrequested
  | stopped hsem hacq htimer => exact .stopped hsem hacq htimer

theorem underway_withLock {c : Core} {lock : Semaphore 1} :
    Core.Underway { c with ctx := { c.ctx with lock := lock } } ↔ c.Underway :=
  ⟨fun h => h.withLock c.ctx.lock, fun h => h.withLock lock⟩

theorem busOk_withLock {c : Core} {lock : Semaphore 1} (hbus : c.BusOk) :
    Core.BusOk { c with ctx := { c.ctx with lock := lock } } :=
  ⟨hbus.le, fun h => hbus.opened (underway_withLock.1 h), hbus.contiguous⟩

/-! ## Steps of one caller -/

omit [Fintype ι] in
/-- A caller that moves between places where it does not wait changes nobody's waiting. -/
theorem waits_update (hold : (s.caller i).waits = false) (hnew : pc.waits = false) :
    (∀ j, (Function.update s.caller i pc j).waits = false) ↔
      ∀ j, (s.caller j).waits = false := by
  constructor
  · intro h j
    by_cases hj : j = i
    · rw [hj]
      exact hold
    · have := h j
      rwa [Function.update_of_ne hj] at this
  · intro h j
    by_cases hj : j = i
    · rw [hj, Function.update_self]
      exact hnew
    · rw [Function.update_of_ne hj]
      exact h j

/-- A caller moves with the lock's token conserved and without starting or ending a read. -/
theorem serial_withLock {lock : Semaphore 1} (hs : s.Serial)
    (htoken : OneToken lock CallerPc.inCall (Function.update s.caller i pc))
    (hold : (s.caller i).waits = false) (hnew : pc.waits = false)
    (hown : ∀ read ret, pc = .readRelease (some read) ret → read = s.core.reads) :
    (s.withLock lock i pc).Serial := by
  refine ⟨htoken, ?_, ?_, ?_, busOk_withLock hs.bus⟩
  · intro hnone
    obtain ⟨hquiet, hsync⟩ := hs.idle ((waits_update hold hnew).1 hnone)
    exact ⟨quiet_withLock hquiet, hsync⟩
  · intro j read hj
    rcases update_cases (f := s.caller) hj with ⟨-, rfl⟩ | ⟨-, hsame⟩
    · cases hnew
    · obtain ⟨hread, hphase⟩ := hs.busy j read hsame
      refine ⟨hread, ?_⟩
      rcases hphase with h | ⟨hquiet, hsync⟩
      · left
        exact underway_withLock.2 h
      · right
        exact ⟨quiet_withLock hquiet, hsync⟩
  · intro j read ret hj
    rcases update_cases (f := s.caller) hj with ⟨-, hpc⟩ | ⟨-, hsame⟩
    · exact hown read ret hpc
    · exact hs.returned j read ret hsame

theorem serial_lock {lock : Semaphore 1} (hs : s.Serial)
    (htake : s.core.ctx.lock.take = some lock) (hout : (s.caller i).inCall = false)
    (hin : pc.inCall = true) (hnew : pc.waits = false)
    (hown : ∀ read ret, pc ≠ .readRelease (some read) ret) :
    (s.withLock lock i pc).Serial := by
  have hold : (s.caller i).waits = false := by
    by_contra h
    rw [waits_inCall (by simpa using h)] at hout
    cases hout
  exact serial_withLock hs (hs.token.take htake hout hin).1 hold hnew
    fun read ret h => absurd h (hown read ret)

theorem serial_release (hs : s.Serial) (hin : (s.caller i).inCall = true)
    (hold : (s.caller i).waits = false) :
    (s.withLock s.core.ctx.lock.give i .idle).Serial :=
  serial_withLock hs (hs.token.give hin rfl) hold rfl fun _ _ h => nomatch h

theorem serial_begin {request : Request} (hs : s.Serial)
    (hstep : s.begin nchannels i request = some t) : t.Serial := by
  unfold Sys.begin at hstep
  split at hstep
  · rename_i hidle
    -- the lock is left as it is, so the move is one with the lock's own value put back
    have hmove (pc : CallerPc) (hin : pc.inCall = false) (hnew : pc.waits = false)
        (hown : ∀ read ret, pc ≠ .readRelease (some read) ret) :
        (s.withLock s.core.ctx.lock i pc).Serial := by
      have htoken : OneToken s.core.ctx.lock CallerPc.inCall (Function.update s.caller i pc) :=
        hs.token.move (by rw [hin, hidle]; rfl)
      exact serial_withLock hs htoken (by rw [hidle]; rfl) hnew
        fun read ret h => absurd h (hown read ret)
    split at hstep
    · rename_i seq
      cases hstep
      exact hmove (.readLock seq) rfl rfl fun _ _ h => nomatch h
    · rename_i cfg
      split at hstep
      · cases hstep
        exact hs
      · rw [Option.map_eq_some_iff] at hstep
        obtain ⟨range, -, rfl⟩ := hstep
        exact hmove (.setupLock cfg.channelId.toNat range) rfl rfl fun _ _ h => nomatch h
  · cases hstep

/-- The write of a setup meets a driver at rest. -/
theorem serial_write {o : WriteOutcome} {ch : Nat} {range : Byte} (hs : s.Serial)
    (hpc : s.caller i = .setupWrite ch range) : (s.write o i ch range).Serial := by
  have hin : (s.caller i).inCall = true := by rw [hpc]; rfl
  have hold : (s.caller i).waits = false := by rw [hpc]; rfl
  obtain ⟨hnone, hquiet, hsync⟩ := hs.quiet hin hold
  refine ⟨hs.token.move (by rw [hpc]; rfl), ?_, ?_, ?_, ?_, ?_, ?_⟩
  · intro _
    exact ⟨⟨hquiet.sem, hquiet.acq, hquiet.timer, hquiet.completions⟩, hsync⟩
  · intro j read hj
    rcases update_cases (f := s.caller) hj with ⟨-, h⟩ | ⟨-, hsame⟩
    · cases h
    · have hwaits := hnone j
      rw [hsame] at hwaits
      cases hwaits
  · intro j read ret hj
    rcases update_cases (f := s.caller) hj with ⟨-, h⟩ | ⟨-, hsame⟩
    · cases h
    · exact hs.returned j read ret hsame
  · intro k hk
    rcases List.mem_append.1 hk with h | h
    · exact hs.bus.le k h
    · cases List.mem_singleton.1 h
  · intro h
    have hreads : s.core.completions + 1 = s.core.reads := h.completions
    rw [hquiet.completions] at hreads
    omega
  · exact contiguous_append_other hs.bus.contiguous fun h => h

theorem startRead_cases (seq : AdcSequence) (ctx : AdcContext) :
    (ctx.startRead seq).2.sync = ctx.sync ∧ (ctx.startRead seq).2.lock = ctx.lock ∧
    ((seq.interval = 0 ∧ (ctx.startRead seq).1 = true ∧
        (ctx.startRead seq).2.timer = ctx.timer) ∨
      (seq.interval ≠ 0 ∧ (ctx.startRead seq).1 = false ∧
        (ctx.startRead seq).2.timer = true ∧ (ctx.startRead seq).2.samplingRequested = 0)) := by
  rw [AdcContext.startRead, AdcSequence.interval]
  cases seq.options with
  | none => exact ⟨rfl, rfl, Or.inl ⟨rfl, rfl, rfl⟩⟩
  | some options =>
      by_cases hinterval : options.intervalUs.toNat = 0
      · simp [hinterval]
      · simp [hinterval]

/-- A read that passes the checks is under way from its start on. -/
theorem underway_start {c : Core} {sampler : Sampler} (seq : AdcSequence) (hquiet : c.Quiet)
    (hsync : c.ctx.sync.count = 0) (hsem : sampler.sem.count = 0) :
    Core.Underway { c with
      sampler := if (c.ctx.startRead seq).1 then adcContextStartSampling sampler else sampler
      ctx := (c.ctx.startRead seq).2
      reads := c.reads + 1 } := by
  obtain ⟨hsame, -, hmode⟩ := startRead_cases seq c.ctx
  refine ⟨hsame ▸ hsync, congrArg (· + 1) hquiet.completions, ?_⟩
  rcases hmode with ⟨hinterval, hnow, htimer⟩ | ⟨hinterval, hlater, htimer, hrequested⟩
  · rw [hnow]
    refine .queued (give_of_zero hsem) hquiet.acq ?_
    apply (outstanding_immediate _).2
    · exact htimer.trans hquiet.timer
    · simpa using hinterval
  · rw [hlater]
    refine .armed hsem hquiet.acq ?_ htimer hrequested
    simpa using hinterval

theorem serial_startReading {seq : AdcSequence} (hs : s.Serial)
    (hpc : s.caller i = .readStart seq) : (s.startReading i seq).Serial := by
  have hin : (s.caller i).inCall = true := by rw [hpc]; rfl
  have hold : (s.caller i).waits = false := by rw [hpc]; rfl
  obtain ⟨hnone, hquiet, hsync⟩ := hs.quiet hin hold
  have hlock := (startRead_cases seq s.core.ctx).2.1
  have htoken : OneToken s.core.ctx.lock CallerPc.inCall
      (Function.update s.caller i (.readWait (s.core.reads + 1))) :=
    hs.token.move (by rw [hpc]; rfl)
  refine ⟨hlock ▸ htoken, ?_, ?_, ?_, ?_, ?_, hs.bus.contiguous⟩
  · intro hidle
    have hwaits : (Function.update s.caller i (.readWait (s.core.reads + 1)) i).waits = false :=
      hidle i
    rw [Function.update_self] at hwaits
    cases hwaits
  · intro j read hj
    rcases update_cases (f := s.caller) hj with ⟨-, h⟩ | ⟨-, hsame⟩
    · cases h
      exact ⟨rfl, Or.inl (underway_start seq hquiet hsync hquiet.sem)⟩
    · have hwaits := hnone j
      rw [hsame] at hwaits
      cases hwaits
  · intro j read ret hj
    rcases update_cases (f := s.caller) hj with ⟨-, h⟩ | ⟨hne, hsame⟩
    · cases h
    · exact absurd (hs.token.exclusive (by rw [hsame]; rfl) hin) hne
  · intro k hk
    exact Nat.le_succ_of_le (hs.bus.le k hk)
  · intro _
    refine ⟨s.core.bus, 0, (List.append_nil _).symm, ?_⟩
    intro hmem
    have hle : s.core.reads + 1 ≤ s.core.reads := hs.bus.le _ hmem
    omega

theorem serial_start {seq : AdcSequence} (hs : s.Serial)
    (hpc : s.caller i = .readStart seq) : (s.start nchannels i seq).Serial := by
  have hold : (s.caller i).waits = false := by rw [hpc]; rfl
  rw [Sys.start]
  split
  · exact serial_withLock hs (hs.token.move (by rw [hpc]; rfl)) hold rfl
      fun _ _ h => nomatch h
  · exact serial_startReading hs hpc

/-- The token of `sync` can only be that of the read that waits. -/
theorem serial_wait {read : Nat} {sync : Semaphore 1} (hs : s.Serial)
    (hpc : s.caller i = .readWait read) (htake : s.core.ctx.sync.take = some sync) :
    Sys.Serial
      { core := { s.core with ctx := { s.core.ctx with sync := sync } }
        caller := Function.update s.caller i (.readRelease (some read) s.core.ctx.status) } := by
  have hcount := Semaphore.take_eq_some.1 htake
  obtain ⟨hread, hphase⟩ := hs.busy i read hpc
  have hquiet : s.core.Quiet ∧ s.core.ctx.sync.count = 1 := by
    rcases hphase with h | h
    · have hzero := h.sync
      omega
    · exact h
  have hsync : sync.count = 0 := by omega
  have hin : (s.caller i).inCall = true := by rw [hpc]; rfl
  obtain ⟨⟨hsem, hacq, htimer, hcompletions⟩, -⟩ := hquiet
  refine ⟨hs.token.move (by rw [hpc]; rfl), ?_, ?_, ?_, hs.bus.le, ?_, hs.bus.contiguous⟩
  · intro _
    exact ⟨⟨hsem, hacq, htimer, hcompletions⟩, hsync⟩
  · intro j other hj
    rcases update_cases (f := s.caller) hj with ⟨-, h⟩ | ⟨hne, hsame⟩
    · cases h
    · exact absurd (hs.token.exclusive (by rw [hsame]; rfl) hin) hne
  · intro j other ret hj
    rcases update_cases (f := s.caller) hj with ⟨-, h⟩ | ⟨-, hsame⟩
    · cases h
      exact hread
    · exact hs.returned j other ret hsame
  · intro h
    have hreads : s.core.completions + 1 = s.core.reads := h.completions
    omega

theorem serial_advance {o : WriteOutcome} (hs : s.Serial)
    (hstep : s.advance nchannels i o = some t) : t.Serial := by
  rw [Sys.advance] at hstep
  cases hpc : s.caller i with
  | idle =>
      rw [hpc] at hstep
      cases hstep
  | setupLock ch range =>
      simp only [hpc, Option.map_eq_some_iff] at hstep
      obtain ⟨lock, htake, rfl⟩ := hstep
      exact serial_lock hs htake (by rw [hpc]; rfl) rfl rfl fun _ _ h => nomatch h
  | setupWrite ch range =>
      simp only [hpc, Option.some.injEq] at hstep
      subst hstep
      exact serial_write hs hpc
  | setupRelease ret =>
      simp only [hpc, Option.some.injEq] at hstep
      subst hstep
      exact serial_release hs (by rw [hpc]; rfl) (by rw [hpc]; rfl)
  | readLock seq =>
      simp only [hpc, Option.map_eq_some_iff] at hstep
      obtain ⟨lock, htake, rfl⟩ := hstep
      exact serial_lock hs htake (by rw [hpc]; rfl) rfl rfl fun _ _ h => nomatch h
  | readStart seq =>
      simp only [hpc, Option.some.injEq] at hstep
      subst hstep
      exact serial_start hs hpc
  | readWait read =>
      simp only [hpc, Option.map_eq_some_iff] at hstep
      obtain ⟨sync, htake, rfl⟩ := hstep
      exact serial_wait hs hpc htake
  | readRelease own ret =>
      simp only [hpc, Option.some.injEq] at hstep
      subst hstep
      exact serial_release hs (by rw [hpc]; rfl) (by rw [hpc]; rfl)

/-! ## Steps of the thread and of the timer -/

omit [DecidableEq ι] in
/-- Only while a read waits does the core move at all. -/
theorem Sys.Serial.waiting (hs : s.Serial) (hmoves : ¬ s.core.Quiet) :
    ∃ i read, s.caller i = .readWait read ∧ s.core.Underway := by
  have hexists : ∃ i, (s.caller i).waits = true := by
    by_contra hnone
    apply hmoves
    refine (hs.idle fun i => ?_).1
    by_contra hi
    exact hnone ⟨i, by simpa using hi⟩
  obtain ⟨i, hi⟩ := hexists
  cases hpc : s.caller i with
  | readWait read =>
      rcases (hs.busy i read hpc).2 with h | ⟨hquiet, -⟩
      · exact ⟨i, read, hpc, h⟩
      · exact absurd hquiet hmoves
  | _ =>
      rw [hpc] at hi
      cases hi

omit [DecidableEq ι] in
theorem serial_core {core : Core} {read : Nat} (hs : s.Serial) (hpc : s.caller i = .readWait read)
    (hreads : core.reads = s.core.reads) (hlock : core.ctx.lock = s.core.ctx.lock)
    (hphase : core.Underway ∨ (core.Quiet ∧ core.ctx.sync.count = 1)) (hbus : core.BusOk) :
    Sys.Serial { s with core := core } := by
  refine ⟨hlock ▸ hs.token, ?_, ?_, ?_, hbus⟩
  · intro hidle
    have hwaits : (s.caller i).waits = false := hidle i
    rw [hpc] at hwaits
    cases hwaits
  · intro j other hj
    exact ⟨hreads ▸ (hs.busy j other hj).1, hphase⟩
  · intro j other ret hj
    exact hreads ▸ hs.returned j other ret hj

theorem serial_step {a : Act ι} (hs : s.Serial) (hstep : s.step E nchannels a = some t) :
    t.Serial := by
  cases a with
  | call i request => exact serial_begin hs hstep
  | caller i o => exact serial_advance hs hstep
  | acquire answer =>
      rw [Sys.step, Option.map_eq_some_iff] at hstep
      obtain ⟨core, hcore, rfl⟩ := hstep
      have hmoves : ¬ s.core.Quiet := by
        intro hquiet
        rw [acquire_of_quiet hquiet] at hcore
        cases hcore
      obtain ⟨i, read, hpc, hunder⟩ := hs.waiting hmoves
      obtain ⟨hreads, hlock, -⟩ := acquire_frame hcore
      exact serial_core hs hpc hreads hlock (acquire_underway hunder hcore)
        (busOk_acquire hunder hs.bus hcore)
  | expire =>
      rw [Sys.step, Option.map_eq_some_iff] at hstep
      obtain ⟨core, hcore, rfl⟩ := hstep
      have hmoves : ¬ s.core.Quiet := by
        intro hquiet
        rw [expire_of_quiet hquiet] at hcore
        cases hcore
      obtain ⟨i, read, hpc, hunder⟩ := hs.waiting hmoves
      obtain ⟨hreads, hlock, -⟩ := expire_frame hcore
      exact serial_core hs hpc hreads hlock (Or.inl (expire_underway hunder hcore))
        (busOk_expire hunder hs.bus hcore)

theorem serial_reaches {w : Ads} {seq : AdcSequence}
    (hreach : (systemMachine E nchannels).Reaches (Sys.initial w seq) s) : s.Serial := by
  have hpres : (systemMachine (ι := ι) E nchannels).Preserves Sys.Serial := by
    intro s a t hs hstep
    exact serial_step hs hstep
  exact hpres.reaches (serial_initial w seq) hreach

/-! ## What serialisation means -/

/-- **Reads and setups are serialised.**  Whatever the callers, the thread, the timer and the
SPI bus do: at most one call is between its lock and its release; the thread works only
for the read that waits under the lock, and on the bus the frames of each read stand
together; a register write meets a driver with no sampling queued, running or armed; when
no call is in progress no token is left; and a read is handed the token of its own
completion. -/
theorem reads_setups_serialised {w : Ads} {seq : AdcSequence}
    (hreach : (systemMachine E nchannels).Reaches (Sys.initial w seq) s) :
    (∀ i j, (s.caller i).inCall = true → (s.caller j).inCall = true →
      i = j ∧ s.core.ctx.lock.count = 0) ∧
    (s.core.acq ≠ .waiting → s.core.sampler.sem.count = 0 ∧ s.core.ctx.sync.count = 0 ∧
      ∃ i, s.caller i = .readWait s.core.reads) ∧
    Contiguous BusFrame.IsConversion s.core.bus ∧
    (∀ i ch range, s.caller i = .setupWrite ch range →
      s.core.acq = .waiting ∧ s.core.sampler.sem.count = 0 ∧ s.core.ctx.timer = false) ∧
    ((∀ i, (s.caller i).inCall = false) →
      s.core.ctx.lock.count = 1 ∧ s.core.acq = .waiting ∧ s.core.sampler.sem.count = 0 ∧
      s.core.ctx.sync.count = 0 ∧ s.core.ctx.timer = false ∧
      s.core.completions = s.core.reads) ∧
    (∀ i read, s.caller i = .readWait read → read = s.core.reads ∧
      (s.core.ctx.sync.count = 1 ↔ s.core.completions = read)) ∧
    ∀ i read ret, s.caller i = .readRelease (some read) ret → s.core.completions = read := by
  have hs := serial_reaches hreach
  refine ⟨?_, ?_, hs.bus.contiguous, ?_, ?_, ?_, ?_⟩
  · intro i j hi hj
    exact ⟨hs.token.exclusive hi hj, hs.token.count_zero hi⟩
  · intro hacq
    obtain ⟨i, read, hpc, hunder⟩ := hs.waiting fun hquiet => hacq hquiet.acq
    refine ⟨?_, hunder.sync, i, (hs.busy i read hpc).1 ▸ hpc⟩
    cases hunder.phase with
    | queued hsem hwaiting htimer => exact absurd hwaiting hacq
    | sampling hsem hsampling htimer => exact hsem
    | armed hsem hwaiting hinterval htimer hrequested => exact absurd hwaiting hacq
    | stopped hsem hstopped htimer => exact hsem
  · intro i ch range hpc
    obtain ⟨-, hquiet, -⟩ := hs.quiet (i := i) (by rw [hpc]; rfl) (by rw [hpc]; rfl)
    exact ⟨hquiet.acq, hquiet.sem, hquiet.timer⟩
  · intro hnone
    have hidle : ∀ i, (s.caller i).waits = false := by
      intro i
      by_contra hi
      have hin := waits_inCall (by simpa using hi)
      rw [hnone i] at hin
      cases hin
    obtain ⟨hquiet, hsync⟩ := hs.idle hidle
    exact ⟨hs.token.count_one hnone, hquiet.acq, hquiet.sem, hsync, hquiet.timer,
      hquiet.completions⟩
  · intro i read hpc
    obtain ⟨hread, hphase⟩ := hs.busy i read hpc
    refine ⟨hread, ?_⟩
    rcases hphase with hunder | ⟨hquiet, hsync⟩
    · have hzero := hunder.sync
      have hcompletions := hunder.completions
      omega
    · have hcompletions := hquiet.completions
      omega
  · intro i read ret hpc
    obtain ⟨-, hquiet, -⟩ := hs.quiet (i := i) (by rw [hpc]; rfl) (by rw [hpc]; rfl)
    rw [hs.returned i read ret hpc]
    exact hquiet.completions

theorem reads_setups_serialised_two :
    ∃ s : Sys (Fin 2), (systemMachine benchQuiet 8).exec
        (Sys.initial adsExample sequenceExample)
        [.call (Fin.ofNat 2 1) (.setup (cfgUnipolar 3#8)),
          .call (Fin.ofNat 2 0) (.read sequenceExample),
          .caller (Fin.ofNat 2 0) (.done 0#8), .caller (Fin.ofNat 2 0) (.done 0#8),
          .acquire .adcContinue, .acquire .adcContinue] = some s ∧
      s.core.acq = .reading 0x04#32 (some 0) ∧
      ∃ i, s.caller i = .readWait s.core.reads := by
  have hrun : ((systemMachine benchQuiet 8).exec
      (Sys.initial adsExample sequenceExample : Sys (Fin 2))
      [.call (Fin.ofNat 2 1) (.setup (cfgUnipolar 3#8)),
        .call (Fin.ofNat 2 0) (.read sequenceExample),
        .caller (Fin.ofNat 2 0) (.done 0#8), .caller (Fin.ofNat 2 0) (.done 0#8),
        .acquire .adcContinue, .acquire .adcContinue]).map (fun s => s.core.acq) =
      some (.reading 0x04#32 (some 0)) := by decide +kernel
  obtain ⟨s, hexec, hacq⟩ := Option.map_eq_some_iff.1 hrun
  have hworks : s.core.acq ≠ .waiting := by
    rw [hacq]
    decide
  exact ⟨s, hexec, hacq, ((reads_setups_serialised ⟨_, hexec⟩).2.1 hworks).2.2⟩

end DataLogger.Ads868x
