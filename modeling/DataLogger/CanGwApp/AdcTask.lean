import DataLogger.CanGwApp.AutoScan
import DataLogger.Foundation.CyclicCounter
import Mathlib.Data.Fin.Tuple.Basic

/-!
# Which channel the can-gw firmware publishes

`ads8688_init` and `adc_task`.  The channel of a value is nowhere in the answer of the
device: it follows from how many words have arrived since the last AUTO_RST.  Each reading
therefore carries where it came from, and the scan is followed with the cyclic counter that
misses ticks.
-/

namespace DataLogger.CanGwApp

open DataLogger.Foundation
open DataLogger.Zephyr
open DataLogger.Ads868x

/-! ## The firmware -/

/-- The writes of the range registers; their return codes are ignored. -/
def writeRanges (E : Bench) : List (Fin 8) → Gw → Gw
  | [], w => w
  | ch :: chs, w => writeRanges E chs (ads8688ProgWrite E (rangeAddr ch) 0x06#8 w).2

def ads8688Init (E : Bench) (w : Gw) : Int × Gw :=
  let (ret, _, w) := ads8688Cmd E 0x8500#16 w
  if ret ≠ 0 then (ret, w)
  else
    let w := writeRanges E (List.finRange 8) w
    let (_, w) := ads8688ProgWrite E 0x01#8 0xFF#8 w
    let (ret, _, w) := ads8688Cmd E 0xA000#16 w
    (ret, w)

/-- `ads8688_init`, and again up to `retries` times while it fails. -/
def initRetry (E : Bench) : Nat → Gw → Int × Gw
  | 0, w => ads8688Init E w
  | retries + 1, w =>
      let (rc, w) := ads8688Init E w
      if rc ≠ 0 then initRetry E retries w else (rc, w)

/-- The conversion a word has brought: of which channel, in which range, in which frame. -/
structure Conversion where
  channel : Fin 8
  range : Byte
  frame : Nat
  deriving DecidableEq

def Conversion.count (E : Bench) (c : Conversion) : BitVec 16 :=
  convert c.range (E.level c.frame c.channel c.range)

/-- An element of `v[]`, and where it came from. -/
structure Reading where
  value : BitVec 16
  source : Option Conversion
  deriving DecidableEq

def Gw.conversion (w : Gw) : Conversion where
  channel := w.device.selected
  range := w.device.range.get w.device.selected
  frame := w.frames

/-- One pass of the loop body of `adc_task` over `ch`. -/
def sampleFrame (E : Bench) (ch : Fin 8) (w : Gw) : Reading × Gw :=
  let cmd := if ch.val = 7 then 0xA000#16 else 0x0000#16
  let (ret, out, next) := ads8688Cmd E cmd w
  if ret ≠ 0 then (⟨0xFFFF#16, none⟩, next) else (⟨out, some w.conversion⟩, next)

def sampleLoop (E : Bench) : List (Fin 8) → (Fin 8 → Reading) → Gw → (Fin 8 → Reading) × Gw
  | [], v, w => (v, w)
  | ch :: chs, v, w =>
      let (reading, w) := sampleFrame E ch w
      sampleLoop E chs (Function.update v ch reading) w

/-- What `kart_can_dl_700_pack` and `kart_can_dl_701_pack` are given in one round. -/
structure AdcFrames where
  m700 : Fin 4 → Reading
  m701 : Fin 4 → Reading

def packRound (v : Fin 8 → Reading) : AdcFrames where
  m700 k := v (Fin.castAdd 4 k)
  m701 k := v (Fin.natAdd 4 k)

/-- The first `rounds` rounds of the sampling loop; `v` keeps its values between them. -/
def sampleRounds (E : Bench) : Nat → (Fin 8 → Reading) → Gw → List AdcFrames
  | 0, _, _ => []
  | rounds + 1, v, w =>
      let (v, w) := sampleLoop E (List.finRange 8) v w
      packRound v :: sampleRounds E rounds v w

/-- `adc_task` up to its first `rounds` rounds: what it publishes. -/
def adcTask (E : Bench) (spiReady : Bool) (rounds : Nat) (v : Fin 8 → Reading) (w : Gw) :
    List AdcFrames :=
  if spiReady then
    let (rc, w) := initRetry E 5 w
    if rc ≠ 0 then [] else sampleRounds E rounds v w
  else []

/-! ## What a published value should be -/

/-- The failure marker, or the conversion of channel `ch` in the range 0..5.12 V. -/
def Genuine (E : Bench) (ch : Fin 8) (r : Reading) : Prop :=
  r = ⟨0xFFFF#16, none⟩ ∨
    ∃ n, r = ⟨(Conversion.mk ch 0x06#8 n).count E, some ⟨ch, 0x06#8, n⟩⟩

def AdcFrames.Genuine (E : Bench) (m : AdcFrames) : Prop :=
  (∀ k, CanGwApp.Genuine E (Fin.castAdd 4 k) (m.m700 k)) ∧
    ∀ k, CanGwApp.Genuine E (Fin.natAdd 4 k) (m.m701 k)

theorem Genuine.source_eq {E : Bench} {ch : Fin 8} {r : Reading} {c : Conversion}
    (hr : Genuine E ch r) (hsource : r.source = some c) :
    c.channel = ch ∧ c.range = 0x06#8 := by
  rcases hr with rfl | ⟨n, rfl⟩
  · cases hsource
  · cases hsource
    exact ⟨rfl, rfl⟩

theorem genuine_packRound {E : Bench} {v : Fin 8 → Reading} :
    (packRound v).Genuine E ↔ ∀ ch, Genuine E ch (v ch) := by
  constructor
  · intro h ch
    exact Fin.addCases (m := 4) (n := 4) (motive := fun ch => Genuine E ch (v ch)) h.1 h.2 ch
  · intro h
    exact ⟨fun k => h _, fun k => h _⟩

/-! ## When they are -/

/-- The attempt of `ads8688_init` that begins with word `n` succeeds. -/
def InitSucceeds (E : Bench) (n : Nat) : Prop :=
  E.outcome n = .ok ∧ E.outcome (n + 10) = .ok

instance (E : Bench) (n : Nat) : Decidable (InitSucceeds E n) :=
  inferInstanceAs (Decidable (_ ∧ _))

def initWords (E : Bench) (n : Nat) : Nat := if E.outcome n = .ok then 11 else 1

/-- The first word of the attempt that succeeds. -/
def initStart (E : Bench) : Nat → Nat → Option Nat
  | 0, n => if InitSucceeds E n then some n else none
  | retries + 1, n =>
      if InitSucceeds E n then some n else initStart E retries (n + initWords E n)

def scanArrived (E : Bench) (start i : Nat) : Bool := (E.outcome (start + 11 + i)).arrived

/-- Word `i` of the sampling loop, if it succeeds, meets a channel whose range register was
written, and a device that has lost whole rounds only since its last AUTO_RST. -/
def InStep (E : Bench) (start i : Nat) : Prop :=
  E.outcome (start + 11 + i) = .ok →
    (E.outcome (start + 1 + i % 8)).arrived = true ∧ drift 8 (scanArrived E start) i % 8 = 0

instance (E : Bench) (start i : Nat) : Decidable (InStep E start i) :=
  inferInstanceAs (Decidable (_ → _))

/-! ## The device after a successful init -/

variable {E : Bench} {start i : Nat} {w : Gw}

/-- What holds before word `i` of the sampling loop. -/
structure Scanning (E : Bench) (start i : Nat) (w : Gw) : Prop where
  frames : w.frames = start + 11 + i
  enabled : w.device.enabled = 0xFF#8
  selected : (w.device.selected : Nat) = position 8 (scanArrived E start) i
  range : ∀ c : Fin 8, w.device.range.get c =
    if (E.outcome (start + 1 + c)).arrived then 0x06#8 else 0#8

theorem writeRanges_frames (chs : List (Fin 8)) :
    (writeRanges E chs w).frames = w.frames + chs.length := by
  induction chs generalizing w with
  | nil => rfl
  | cons ch chs ih =>
      rw [writeRanges, ih, progWrite_world, after_frames, List.length_cons]
      omega

theorem after_writeRange_enabled (ch : Fin 8) :
    (w.after E (AutoScan.accept (progWriteCmd (rangeAddr ch) 0x06#8))).device.enabled =
      w.device.enabled := by
  rw [Gw.after]
  split
  · rw [accept_writeRange]
  · rfl

theorem writeRanges_enabled (chs : List (Fin 8)) :
    (writeRanges E chs w).device.enabled = w.device.enabled := by
  induction chs generalizing w with
  | nil => rfl
  | cons ch chs ih => rw [writeRanges, ih, progWrite_world, after_writeRange_enabled]

theorem after_writeRange_range (ch c : Fin 8) :
    (w.after E (AutoScan.accept (progWriteCmd (rangeAddr ch) 0x06#8))).device.range.get c =
      if ch = c ∧ (E.outcome w.frames).arrived = true then 0x06#8 else w.device.range.get c := by
  rw [Gw.after]
  by_cases harr : (E.outcome w.frames).arrived = true
  · rw [if_pos harr, accept_writeRange]
    simp only [registers_get_set, harr, and_true]
  · simp [harr]

/-- Writes to the channels from `a` on: each register is written if its own word arrives. -/
theorem writeRanges_range (chs : List (Fin 8)) {a : Nat} (base : Nat)
    (hchs : chs.map Fin.val = List.range' a chs.length) (hframes : w.frames = base + a)
    (c : Fin 8) :
    (writeRanges E chs w).device.range.get c =
      if a ≤ c.val ∧ c.val < a + chs.length ∧ (E.outcome (base + c)).arrived = true then 0x06#8
      else w.device.range.get c := by
  induction chs generalizing a w with
  | nil =>
      rw [writeRanges, if_neg]
      rintro ⟨hlow, hhigh, -⟩
      rw [List.length_nil] at hhigh
      omega
  | cons ch chs ih =>
      rw [List.map_cons, List.length_cons, List.range'_succ, List.cons.injEq] at hchs
      obtain ⟨hch, htail⟩ := hchs
      have hnext : (ads8688ProgWrite E (rangeAddr ch) 0x06#8 w).2.frames = base + (a + 1) := by
        rw [progWrite_world, after_frames, hframes]
        omega
      rw [writeRanges, ih htail hnext, progWrite_world, after_writeRange_range, hframes,
        List.length_cons]
      by_cases hc : ch = c
      · subst hc
        rw [if_neg (by omega), ← hch]
        apply if_congr _ rfl rfl
        simp
      · have hne : c.val ≠ a := by
          intro h
          exact hc (Fin.ext (hch.trans h.symm))
        rw [if_neg (c := ch = c ∧ _) (by simp [hc])]
        apply if_congr _ rfl rfl
        constructor
        · rintro ⟨hlow, hhigh, harr⟩
          exact ⟨by omega, by omega, harr⟩
        · rintro ⟨hlow, hhigh, harr⟩
          exact ⟨by omega, by omega, harr⟩

/-- Once RST has returned 0 the attempt goes through all of its words. -/
theorem init_of_rst (hrst : E.outcome w.frames = .ok) :
    ads8688Init E w = ((E.outcome (w.frames + 10)).code,
      ((writeRanges E (List.finRange 8) (w.after E (AutoScan.accept 0x8500#16))).after E
        (AutoScan.accept (progWriteCmd 0x01#8 0xFF#8))).after E (AutoScan.accept 0xA000#16)) := by
  rw [ads8688Init]
  simp only [cmd_code, cmd_world, progWrite_world, hrst]
  rw [if_neg (by simp [SpiOutcome.code]), after_frames, writeRanges_frames, after_frames,
    List.length_finRange]

theorem init_of_not_rst (hrst : E.outcome w.frames ≠ .ok) :
    ads8688Init E w =
      ((E.outcome w.frames).code, w.after E (AutoScan.accept 0x8500#16)) := by
  rw [ads8688Init]
  simp only [cmd_code, cmd_world]
  rw [if_pos (by simpa using hrst)]

theorem init_code : (ads8688Init E w).1 = 0 ↔ InitSucceeds E w.frames := by
  rw [InitSucceeds]
  by_cases hrst : E.outcome w.frames = .ok
  · rw [init_of_rst hrst]
    simp [hrst]
  · rw [init_of_not_rst hrst]
    simp [hrst]

theorem init_frames : (ads8688Init E w).2.frames = w.frames + initWords E w.frames := by
  rw [initWords]
  by_cases hrst : E.outcome w.frames = .ok
  · rw [init_of_rst hrst, if_pos hrst]
    simp [writeRanges_frames]
  · rw [init_of_not_rst hrst, if_neg hrst, after_frames]

theorem after_enableAll_enabled (henabled : w.device.enabled = 0xFF#8) :
    (w.after E (AutoScan.accept (progWriteCmd 0x01#8 0xFF#8))).device.enabled = 0xFF#8 := by
  rw [Gw.after]
  split
  · rw [accept_enableAll]
  · exact henabled

theorem after_enableAll_range :
    (w.after E (AutoScan.accept (progWriteCmd 0x01#8 0xFF#8))).device.range =
      w.device.range := by
  rw [Gw.after]
  split
  · rw [accept_enableAll]
  · rfl

theorem init_scanning (hinit : InitSucceeds E w.frames) :
    Scanning E w.frames 0 (ads8688Init E w).2 := by
  have hframes := init_frames (E := E) (w := w)
  obtain ⟨hrst, hautoRst⟩ := hinit
  have hreset : w.after E (AutoScan.accept 0x8500#16) =
      { device := { w.device with range := Vector.replicate 8 0#8, enabled := 0xFF#8 },
        frames := w.frames + 1 } := by
    rw [Gw.after, hrst]
    rfl
  have hconsecutive : (List.finRange 8).map Fin.val =
      List.range' 0 (List.finRange 8).length := by decide
  rw [init_of_rst hrst, hreset] at hframes ⊢
  generalize hwritten : writeRanges E (List.finRange 8) _ = written at hframes ⊢
  have hcount : written.frames = w.frames + 9 := by
    rw [← hwritten, writeRanges_frames]
    simp
  have henabled : written.device.enabled = 0xFF#8 := by
    rw [← hwritten, writeRanges_enabled]
  have hrange (c : Fin 8) : written.device.range.get c =
      if (E.outcome (w.frames + 1 + c)).arrived then 0x06#8 else 0#8 := by
    have hzero : (Vector.replicate 8 0#8).get c = 0#8 := by
      have hall : ∀ k : Fin 8, (Vector.replicate 8 0#8).get k = 0#8 := by decide
      exact hall c
    rw [← hwritten, writeRanges_range _ (w.frames + 1) hconsecutive rfl, hzero]
    apply if_congr _ rfl rfl
    simp [c.isLt]
  have harrived : (E.outcome (w.frames + 10)).arrived = true := by
    rw [hautoRst]
    rfl
  have hlast : (written.after E (AutoScan.accept (progWriteCmd 0x01#8 0xFF#8))).frames =
      w.frames + 10 := by
    rw [after_frames, hcount]
  constructor
  · rw [hframes, initWords, if_pos hrst, Nat.add_zero]
  · rw [Gw.after, hlast, if_pos harrived, accept_autoRst]
    exact after_enableAll_enabled henabled
  · rw [Gw.after, hlast, if_pos harrived, accept_autoRst, after_enableAll_enabled henabled,
      firstEnabled_all, position]
  · intro c
    rw [Gw.after, hlast, if_pos harrived, accept_autoRst, after_enableAll_range]
    exact hrange c

theorem initRetry_succ (retries : Nat) :
    initRetry E (retries + 1) w =
      if InitSucceeds E w.frames then ads8688Init E w
      else initRetry E retries (ads8688Init E w).2 := by
  by_cases hinit : InitSucceeds E w.frames
  · rw [if_pos hinit]
    exact if_neg (not_not.2 (init_code.2 hinit))
  · rw [if_neg hinit]
    exact if_pos fun hcode => hinit (init_code.1 hcode)

/-- The retries end in the attempt that the return codes point to, or in failure. -/
theorem initRetry_of_start {retries : Nat} (hstart : initStart E retries w.frames = some start) :
    (initRetry E retries w).1 = 0 ∧ Scanning E start 0 (initRetry E retries w).2 := by
  induction retries generalizing w with
  | zero =>
      rw [initStart, Option.ite_none_right_eq_some, Option.some.injEq] at hstart
      obtain ⟨hinit, rfl⟩ := hstart
      exact ⟨init_code.2 hinit, init_scanning hinit⟩
  | succ retries ih =>
      rw [initStart] at hstart
      rw [initRetry_succ]
      by_cases hinit : InitSucceeds E w.frames
      · rw [if_pos hinit, Option.some.injEq] at hstart
        subst hstart
        rw [if_pos hinit]
        exact ⟨init_code.2 hinit, init_scanning hinit⟩
      · rw [if_neg hinit, ← init_frames] at hstart
        rw [if_neg hinit]
        exact ih hstart

theorem initRetry_of_none {retries : Nat} (hstart : initStart E retries w.frames = none) :
    (initRetry E retries w).1 ≠ 0 := by
  induction retries generalizing w with
  | zero =>
      intro hcode
      rw [initStart, if_pos (init_code.1 hcode)] at hstart
      cases hstart
  | succ retries ih =>
      rw [initStart] at hstart
      by_cases hinit : InitSucceeds E w.frames
      · rw [if_pos hinit] at hstart
        cases hstart
      · rw [if_neg hinit, ← init_frames] at hstart
        rw [initRetry_succ, if_neg hinit]
        exact ih hstart

/-! ## The sampling loop -/

def scanCmd (ch : Fin 8) : BitVec 16 := if ch.val = 7 then 0xA000#16 else 0x0000#16

theorem sampleFrame_eq (ch : Fin 8) :
    sampleFrame E ch w =
      (if E.outcome w.frames = .ok then ⟨w.conversion.count E, some w.conversion⟩
        else ⟨0xFFFF#16, none⟩,
        w.after E (AutoScan.accept (scanCmd ch))) := by
  rw [sampleFrame, ← scanCmd, ← cmd_world (scanCmd ch)]
  by_cases hok : E.outcome w.frames = .ok
  · have hcode : (ads8688Cmd E (scanCmd ch) w).1 = 0 := by
      rw [cmd_code, hok]
      rfl
    rw [if_pos hok, ← show _ = w.conversion.count E from cmd_out (scanCmd ch) hok]
    exact if_neg (not_not.2 hcode)
  · have hcode : (ads8688Cmd E (scanCmd ch) w).1 ≠ 0 := by
      rw [cmd_code]
      simpa using hok
    rw [if_neg hok]
    exact if_pos hcode

theorem sampleFrame_genuine (ch : Fin 8) :
    Genuine E ch (sampleFrame E ch w).1 ↔ (E.outcome w.frames = .ok →
      w.device.selected = ch ∧ w.device.range.get w.device.selected = 0x06#8) := by
  rw [Genuine, sampleFrame_eq]
  by_cases hok : E.outcome w.frames = .ok
  · rw [if_pos hok]
    constructor
    · intro h _
      rcases h with h | ⟨n, h⟩
      · cases congrArg Reading.source h
      · have hsource : w.conversion = ⟨ch, 0x06#8, n⟩ :=
          Option.some.inj (congrArg Reading.source h)
        exact ⟨congrArg Conversion.channel hsource, congrArg Conversion.range hsource⟩
    · intro h
      obtain ⟨hselected, hrange⟩ := h hok
      have hsource : w.conversion = ⟨ch, 0x06#8, w.frames⟩ := by
        rw [Gw.conversion, hrange, hselected]
      right
      exact ⟨w.frames, by rw [hsource]⟩
  · simp [hok]

theorem accept_scanCmd (d : AutoScan) (ch : Fin 8) :
    d.accept (scanCmd ch) =
      { d with
        selected := if ch.val = 7 then firstEnabled d.enabled d.selected
          else nextEnabled d.enabled d.selected } := by
  rw [scanCmd]
  by_cases hlast : ch.val = 7
  · rw [if_pos hlast, if_pos hlast, accept_autoRst]
  · rw [if_neg hlast, if_neg hlast, accept_noOp]

theorem sampleFrame_scanning {ch : Fin 8} (hscan : Scanning E start i w)
    (hch : ch.val = i % 8) : Scanning E start (i + 1) (sampleFrame E ch w).2 := by
  have hworld : (sampleFrame E ch w).2 = w.after E (AutoScan.accept (scanCmd ch)) :=
    congrArg Prod.snd (sampleFrame_eq ch)
  have harrived : (E.outcome w.frames).arrived = scanArrived E start i := by
    rw [scanArrived, hscan.frames]
  rw [hworld, Gw.after, harrived, accept_scanCmd]
  cases hsent : scanArrived E start i with
  | false =>
      refine ⟨congrArg (· + 1) hscan.frames, hscan.enabled, ?_, hscan.range⟩
      rw [position, hsent]
      exact hscan.selected
  | true =>
      refine ⟨congrArg (· + 1) hscan.frames, hscan.enabled, ?_, hscan.range⟩
      rw [position, hsent, if_pos rfl, if_pos rfl]
      simp only [hscan.enabled]
      by_cases hlast : ch.val = 7
      · rw [if_pos hlast, if_pos (by omega), firstEnabled_all]
      · rw [if_neg hlast, if_neg (by omega), nextEnabled_all, hscan.selected]

theorem sampleFrame_inStep {ch : Fin 8} (hscan : Scanning E start i w) (hch : ch.val = i % 8) :
    Genuine E ch (sampleFrame E ch w).1 ↔ InStep E start i := by
  have hselected : w.device.selected = ch ↔ drift 8 (scanArrived E start) i % 8 = 0 := by
    rw [Fin.ext_iff, hscan.selected, hch]
    exact position_eq_iff (by omega) i
  have hrange : w.device.range.get ch = 0x06#8 ↔
      (E.outcome (start + 1 + i % 8)).arrived = true := by
    rw [hscan.range, hch]
    cases (E.outcome (start + 1 + i % 8)).arrived <;> decide
  rw [sampleFrame_genuine, InStep, hscan.frames, ← hselected, ← hrange]
  constructor
  · intro h hok
    obtain ⟨hsel, hreg⟩ := h hok
    exact ⟨hsel ▸ hreg, hsel⟩
  · intro h hok
    obtain ⟨hreg, hsel⟩ := h hok
    exact ⟨hsel, hsel.symm ▸ hreg⟩

theorem sampleLoop_scanning (chs : List (Fin 8)) {v : Fin 8 → Reading} {round a : Nat}
    (hchs : chs.map Fin.val = List.range' a chs.length)
    (hscan : Scanning E start (8 * round + a) w) :
    Scanning E start (8 * round + (a + chs.length)) (sampleLoop E chs v w).2 := by
  induction chs generalizing a v w with
  | nil => exact hscan
  | cons ch chs ih =>
      rw [List.map_cons, List.length_cons, List.range'_succ, List.cons.injEq] at hchs
      obtain ⟨hch, htail⟩ := hchs
      have hframe : Scanning E start (8 * round + (a + 1)) (sampleFrame E ch w).2 :=
        sampleFrame_scanning (i := 8 * round + a) hscan (by omega)
      rw [sampleLoop, List.length_cons, Nat.add_comm chs.length 1, ← Nat.add_assoc a]
      exact ih htail hframe

theorem sampleLoop_below (chs : List (Fin 8)) {v : Fin 8 → Reading} {a : Nat}
    (hchs : chs.map Fin.val = List.range' a chs.length) {c : Fin 8} (hc : c.val < a) :
    (sampleLoop E chs v w).1 c = v c := by
  induction chs generalizing a v w with
  | nil => rfl
  | cons ch chs ih =>
      rw [List.map_cons, List.length_cons, List.range'_succ, List.cons.injEq] at hchs
      obtain ⟨hch, htail⟩ := hchs
      have hne : c ≠ ch := by
        rintro rfl
        omega
      rw [sampleLoop, ih htail (by omega), Function.update_of_ne hne]

/-- The entries written by the rest of a round are all genuine exactly when its words are
in step. -/
theorem sampleLoop_inStep (chs : List (Fin 8)) {v : Fin 8 → Reading} {round a : Nat}
    (hchs : chs.map Fin.val = List.range' a chs.length)
    (hscan : Scanning E start (8 * round + a) w) :
    (∀ ch ∈ chs, Genuine E ch ((sampleLoop E chs v w).1 ch)) ↔
      ∀ k < chs.length, InStep E start (8 * round + (a + k)) := by
  induction chs generalizing a v w with
  | nil => simp
  | cons ch chs ih =>
      rw [List.map_cons, List.length_cons, List.range'_succ, List.cons.injEq] at hchs
      obtain ⟨hch, htail⟩ := hchs
      have hround : ch.val = (8 * round + a) % 8 := by omega
      have hkeep : (sampleLoop E (ch :: chs) v w).1 ch = (sampleFrame E ch w).1 := by
        rw [sampleLoop, sampleLoop_below chs htail (by omega), Function.update_self]
      have hhead := sampleFrame_inStep hscan hround
      have hrest := ih (v := Function.update v ch (sampleFrame E ch w).1) htail
        (sampleFrame_scanning hscan hround)
      rw [List.forall_mem_cons, hkeep, hhead, List.length_cons, Nat.forall_lt_succ_left]
      apply and_congr_right'
      rw [sampleLoop]
      simp only [← Nat.add_assoc, Nat.add_right_comm _ _ 1] at hrest ⊢
      exact hrest

theorem consecutive_channels :
    (List.finRange 8).map Fin.val = List.range' 0 (List.finRange 8).length := by decide

theorem sampleRounds_inStep (rounds round : Nat) {v : Fin 8 → Reading}
    (hscan : Scanning E start (8 * round) w) :
    (∀ m ∈ sampleRounds E rounds v w, m.Genuine E) ↔
      ∀ k < 8 * rounds, InStep E start (8 * round + k) := by
  induction rounds generalizing round v w with
  | zero => simp [sampleRounds]
  | succ rounds ih =>
      have hnext := sampleLoop_scanning (List.finRange 8) (v := v) consecutive_channels hscan
      have hfirst := sampleLoop_inStep (List.finRange 8) (v := v) consecutive_channels hscan
      have hrest := ih (round + 1) (v := (sampleLoop E (List.finRange 8) v w).1) hnext
      simp only [List.mem_finRange, true_implies, List.length_finRange, Nat.zero_add] at hfirst
      rw [sampleRounds, List.forall_mem_cons, genuine_packRound, hfirst, hrest]
      constructor
      · intro h k hk
        by_cases hk8 : k < 8
        · exact h.1 k hk8
        · have hlater := h.2 (k - 8) (by omega)
          rwa [show 8 * (round + 1) + (k - 8) = 8 * round + k by omega] at hlater
      · intro h
        constructor
        · intro k hk
          exact h k (by omega)
        · intro k hk
          rw [show 8 * (round + 1) + k = 8 * round + (8 + k) by omega]
          exact h (8 + k) (by omega)

/-- **Every published value is its channel's exactly when the words stay in step.**  If the
firmware gets past `ads8688_init`, all values of its first `rounds` rounds are genuine if
and only if every word of the sampling loop that succeeds finds the range register of its
own channel written, and whole rounds only lost since the last AUTO_RST that arrived. -/
theorem adcTask_genuine_iff (E : Bench) (spiReady : Bool) (rounds : Nat)
    (v : Fin 8 → Reading) (w : Gw) :
    (∀ m ∈ adcTask E spiReady rounds v w, m.Genuine E) ↔
      (spiReady = true → ∀ start, initStart E 5 w.frames = some start →
        ∀ i < 8 * rounds, InStep E start i) := by
  rw [adcTask]
  cases spiReady with
  | false => simp
  | true =>
      cases hstart : initStart E 5 w.frames with
      | none => simp [initRetry_of_none hstart]
      | some start =>
          obtain ⟨hcode, hscan⟩ := initRetry_of_start hstart
          have hrounds := sampleRounds_inStep rounds 0 (v := v) hscan
          simpa [hcode] using hrounds

/-- Word `k` is lost on its way to the device, with the time-out the comments report. -/
def benchLost (k : Nat) : Bench where
  level _ c _ := 100 * (c.val + 1)
  head _ := 0#16
  outcome n := if n = k then .error eTimedOut false else .ok

def gwBoot : Gw where
  device := ⟨⟨Fin.last 7, Vector.replicate 8 0#8⟩, 0xFF#8⟩
  frames := 0

def readingsBoot : Fin 8 → Reading := fun _ => ⟨0#16, none⟩

/-- A NO_OP lost in the first frame of a round puts channel 0 under channel 1; a lost write of
channel 2's range register puts an offset-binary count of the default range under it. -/
theorem adcTask_lost_words :
    (∃ m ∈ adcTask (benchLost 11) true 1 readingsBoot gwBoot,
      m.m700 (Fin.ofNat 4 1) = ⟨100#16, some ⟨Fin.ofNat 8 0, 0x06#8, 12⟩⟩ ∧
        ¬ m.Genuine (benchLost 11)) ∧
    ∃ m ∈ adcTask (benchLost 3) true 1 readingsBoot gwBoot,
      m.m700 (Fin.ofNat 4 2) = ⟨33068#16, some ⟨Fin.ofNat 8 2, 0x00#8, 13⟩⟩ ∧
        ¬ m.Genuine (benchLost 3) := by
  constructor
  · refine ⟨_, List.mem_cons_self, by decide +kernel, ?_⟩
    intro hm
    have hch := (hm.1 (Fin.ofNat 4 1)).source_eq (c := ⟨Fin.ofNat 8 0, 0x06#8, 12⟩)
      (by decide +kernel)
    exact absurd hch.1 (by decide)
  · refine ⟨_, List.mem_cons_self, by decide +kernel, ?_⟩
    intro hm
    have hch := (hm.1 (Fin.ofNat 4 2)).source_eq (c := ⟨Fin.ofNat 8 2, 0x00#8, 13⟩)
      (by decide +kernel)
    exact absurd hch.2 (by decide)

end DataLogger.CanGwApp
