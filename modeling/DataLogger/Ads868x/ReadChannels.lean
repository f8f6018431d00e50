import DataLogger.Ads868x.Driver
import DataLogger.Foundation.Machine

/-!
# The pipelined read

`ads868x_read_channels`: the results lag the commands by one frame, so the loop over the
mask selects each channel while it collects the one before, and a trailing NO_OP collects
the last.  The loop is followed over the increasing list of the channels still to select.
-/

namespace DataLogger.Ads868x

open DataLogger.Foundation
open DataLogger.Zephyr

/-! ## The driver's loop -/

/-- `find_lsb_set`: the lowest set bit, counted from 1; 0 if there is none. -/
def findLsbSet (x : BitVec 32) : Nat :=
  match (setBits x).head? with
  | none => 0
  | some i => i + 1

def bit (n : Nat) : BitVec 32 := BitVec.twoPow 32 n

theorem findLsbSet_sub_one {x : BitVec 32} {c : Nat} {cs : List Nat} (hx : setBits x = c :: cs) :
    findLsbSet x - 1 = c := by
  rw [findLsbSet, hx]
  rfl

theorem setBits_clear_lsb {x : BitVec 32} {c : Nat} {cs : List Nat} (hx : setBits x = c :: cs) :
    setBits (x &&& ~~~(bit c)) = cs :=
  setBits_clear_lowest hx

theorem popcount_clear_lsb {x : BitVec 32} (hx : x ≠ 0#32) :
    popcount (x &&& ~~~(bit (findLsbSet x - 1))) < popcount x := by
  cases hbits : setBits x with
  | nil => exact absurd (setBits_eq_nil.1 hbits) hx
  | cons c cs =>
      rw [findLsbSet_sub_one hbits]
      exact popcount_clear_lowest hbits

/-- The loop over the channels still to select, and the NO_OP frame behind it; `channel`
is the one selected last. -/
def readLoop (E : Bench) (channels : BitVec 32) (channel : Nat) (w : Ads) : Int × Ads :=
  if channels ≠ 0#32 then
    let next := findLsbSet channels - 1
    let (ret, raw, w) := ads868xCommand E (ads868xCmdManCh next) w
    if ret ≠ 0 then (ret, w)
    else
      let w := w.store (ads868xToSample w.data channel raw)
      readLoop E (channels &&& ~~~(bit next)) next w
  else
    let (ret, raw, w) := ads868xCommand E ads868xCmdNoOp w
    if ret ≠ 0 then (ret, w)
    else (0, w.store (ads868xToSample w.data channel raw))
termination_by popcount channels
decreasing_by exact popcount_clear_lsb ‹_›

/-- `ads868x_read_channels` for the mask of the current sequence. -/
def ads868xReadChannels (E : Bench) (channels : BitVec 32) (w : Ads) : Int × Ads :=
  let channel := findLsbSet channels - 1
  let (ret, _, w) := ads868xCommand E (ads868xCmdManCh channel) w
  if ret ≠ 0 then (ret, w)
  else readLoop E (channels &&& ~~~(bit channel)) channel w

variable {E : Bench} {w : Ads}

theorem readLoop_nil {channels : BitVec 32} (hbits : setBits channels = []) (channel : Nat) :
    readLoop E channels channel w =
      if (ads868xCommand E ads868xCmdNoOp w).1 ≠ 0 then
        ((ads868xCommand E ads868xCmdNoOp w).1, (ads868xCommand E ads868xCmdNoOp w).2.2)
      else
        (0, (ads868xCommand E ads868xCmdNoOp w).2.2.store
          (ads868xToSample (ads868xCommand E ads868xCmdNoOp w).2.2.data channel
            (ads868xCommand E ads868xCmdNoOp w).2.1)) := by
  rw [readLoop, if_neg (by simp [setBits_eq_nil.1 hbits])]

theorem readLoop_cons {channels : BitVec 32} {next : Nat} {rest : List Nat}
    (hbits : setBits channels = next :: rest) (channel : Nat) :
    readLoop E channels channel w =
      if (ads868xCommand E (ads868xCmdManCh next) w).1 ≠ 0 then
        ((ads868xCommand E (ads868xCmdManCh next) w).1,
          (ads868xCommand E (ads868xCmdManCh next) w).2.2)
      else
        readLoop E (channels &&& ~~~(bit next)) next
          ((ads868xCommand E (ads868xCmdManCh next) w).2.2.store
            (ads868xToSample (ads868xCommand E (ads868xCmdManCh next) w).2.2.data channel
              (ads868xCommand E (ads868xCmdManCh next) w).2.1)) := by
  have hne : channels ≠ 0#32 := by
    rw [ne_eq, ← setBits_eq_nil, hbits]
    simp
  rw [readLoop, if_pos hne, findLsbSet_sub_one hbits]

theorem readChannels_eq {channels : BitVec 32} {first : Nat} {rest : List Nat}
    (hbits : setBits channels = first :: rest) :
    ads868xReadChannels E channels w =
      if (ads868xCommand E (ads868xCmdManCh first) w).1 ≠ 0 then
        ((ads868xCommand E (ads868xCmdManCh first) w).1,
          (ads868xCommand E (ads868xCmdManCh first) w).2.2)
      else
        readLoop E (channels &&& ~~~(bit first)) first
          (ads868xCommand E (ads868xCmdManCh first) w).2.2 := by
  rw [ads868xReadChannels, findLsbSet_sub_one hbits]

/-! ## The ranges stay -/

def Ads.RangesAgree (w : Ads) : Prop := w.data.range = w.device.range

theorem rangesAgree_command {cmd : BitVec 16}
    (hcmd : (w.device.accept cmd).range = w.device.range) (hw : w.RangesAgree) :
    (ads868xCommand E cmd w).2.2.RangesAgree := by
  rw [Ads.RangesAgree, command_data]
  rcases command_device E cmd w with h | h
  · rw [h]
    exact hw
  · rw [h, hcmd]
    exact hw

theorem rangesAgree_readLoop (rest : List Nat) {channels : BitVec 32} {channel : Nat}
    (hbits : setBits channels = rest) (hw : w.RangesAgree) :
    (readLoop E channels channel w).2.RangesAgree := by
  induction rest generalizing channels channel w with
  | nil =>
      have hframe := rangesAgree_command (E := E) (congrArg Device.range (accept_noOp w.device)) hw
      rw [readLoop_nil hbits]
      split
      · exact hframe
      · exact hframe
  | cons next rest ih =>
      have hframe := rangesAgree_command (E := E) (range_accept_manCh w.device next) hw
      rw [readLoop_cons hbits]
      split
      · exact hframe
      · apply ih (setBits_clear_lsb hbits)
        exact hframe

theorem rangesAgree_readChannels {channels : BitVec 32} (hne : channels ≠ 0#32)
    (hw : w.RangesAgree) : (ads868xReadChannels E channels w).2.RangesAgree := by
  cases hbits : setBits channels with
  | nil => exact absurd (setBits_eq_nil.1 hbits) hne
  | cons first rest =>
      have hframe := rangesAgree_command (E := E) (range_accept_manCh w.device first) hw
      rw [readChannels_eq hbits]
      split
      · exact hframe
      · exact rangesAgree_readLoop rest (setBits_clear_lsb hbits) hframe

/-! ## Reads that succeed -/

/-- What the driver should store for the input of channel `c` during frame `n`. -/
def sampleAt (E : Bench) (range : Vector Byte 8) (n : Nat) (c : Fin 8) : BitVec 16 :=
  BitVec.ofInt 16 (clip (range.get c) (E.level n c (range.get c)))

/-- The stores for the channels in `cs`, the first of them at `index` and with the input of
frame `n`. -/
def sampleStores (E : Bench) (range : Vector Byte 8) (n index : Nat) (cs : List (Fin 8)) :
    List (Nat × BitVec 16) :=
  cs.mapIdx fun k c => (index + k, sampleAt E range (n + k) c)

theorem sampleStores_cons (range : Vector Byte 8) (n index : Nat) (c : Fin 8)
    (cs : List (Fin 8)) :
    sampleStores E range n index (c :: cs) =
      (index, sampleAt E range n c) :: sampleStores E range (n + 1) (index + 1) cs := by
  have hshift : (fun k c => (index + (k + 1), sampleAt E range (n + (k + 1)) c)) =
      fun k c => (index + 1 + k, sampleAt E range (n + 1 + k) c) := by
    funext k c
    rw [show index + (k + 1) = index + 1 + k by omega, show n + (k + 1) = n + 1 + k by omega]
  rw [sampleStores, sampleStores, List.mapIdx_cons, hshift]
  rfl

theorem toSample_result (hw : w.RangesAgree) {c : Fin 8} (hsel : w.device.selected = c)
    (n : Nat) :
    ads868xToSample w.data c (w.device.result E n) = sampleAt E w.device.range n c := by
  subst hsel
  have hcache : w.data.range[(w.device.selected : Nat)]?.getD 0#8 =
      w.device.range.get w.device.selected := by
    rw [hw]
    simp
    rfl
  rw [Device.result, sampleAt]
  exact toSample_convert hcache _

/-- The loop stores the channel selected before it and every channel it selects. -/
theorem readLoop_ok (rest : List (Fin 8)) {channels : BitVec 32} {channel : Fin 8}
    (hbits : setBits channels = rest.map Fin.val) (hw : w.RangesAgree)
    (hsel : w.device.selected = channel)
    (hok : ∀ n, w.frames ≤ n → n ≤ w.frames + rest.length → E.outcome n = .ok) :
    ∃ w', readLoop E channels channel w = (0, w') ∧
      w'.frames = w.frames + (rest.length + 1) ∧
      w'.data.buffer = w.data.buffer + (rest.length + 1) ∧
      w'.data.stores = w.data.stores ++
        sampleStores E w.device.range w.frames w.data.buffer (channel :: rest) := by
  induction rest generalizing channels channel w with
  | nil =>
      have hfirst : E.outcome w.frames = .ok := hok _ (Nat.le_refl _) (Nat.le_add_right _ _)
      rw [readLoop_nil hbits, command_ok _ hfirst]
      refine ⟨_, rfl, rfl, rfl, ?_⟩
      rw [sampleStores_cons]
      simp only [Ads.store, toSample_result hw hsel]
      rfl
  | cons next rest ih =>
      have hfirst : E.outcome w.frames = .ok := hok _ (Nat.le_refl _) (Nat.le_add_right _ _)
      rw [readLoop_cons hbits, command_ok _ hfirst]
      simp only [ne_eq, not_true_eq_false, if_false, toSample_result hw hsel, accept_manCh]
      have hrest : ∀ n, w.frames + 1 ≤ n → n ≤ w.frames + 1 + rest.length →
          E.outcome n = .ok := by
        intro n hlow hhigh
        apply hok
        · omega
        · rw [List.length_cons]
          omega
      obtain ⟨w', hloop, hframes, hbuffer, hstores⟩ := ih (setBits_clear_lsb hbits)
        (w := Ads.store (sampleAt E w.device.range w.frames channel)
          { w with device := { w.device with selected := next }, frames := w.frames + 1 })
        hw rfl hrest
      refine ⟨w', hloop, ?_, ?_, ?_⟩
      · rw [hframes, List.length_cons]
        simp only [Ads.store]
        omega
      · rw [hbuffer, List.length_cons]
        simp only [Ads.store]
        omega
      · rw [hstores, sampleStores_cons _ _ _ channel]
        exact (List.append_cons _ _ _).symm

theorem readChannels_ok {first : Fin 8} {rest : List (Fin 8)} {channels : BitVec 32}
    (hbits : setBits channels = (first :: rest).map Fin.val) (hw : w.RangesAgree)
    (hok : ∀ n, w.frames ≤ n → n ≤ w.frames + (rest.length + 1) → E.outcome n = .ok) :
    ∃ w', ads868xReadChannels E channels w = (0, w') ∧
      w'.frames = w.frames + (rest.length + 2) ∧
      w'.data.buffer = w.data.buffer + (rest.length + 1) ∧
      w'.data.stores = w.data.stores ++
        sampleStores E w.device.range (w.frames + 1) w.data.buffer (first :: rest) := by
  have hfirst : E.outcome w.frames = .ok := hok _ (Nat.le_refl _) (Nat.le_add_right _ _)
  have hrest : ∀ n, w.frames + 1 ≤ n → n ≤ w.frames + 1 + rest.length → E.outcome n = .ok := by
    intro n hlow hhigh
    apply hok <;> omega
  rw [readChannels_eq hbits, command_ok _ hfirst]
  simp only [ne_eq, not_true_eq_false, if_false, accept_manCh]
  obtain ⟨w', hloop, hframes, hbuffer, hstores⟩ :=
    readLoop_ok rest (setBits_clear_lsb hbits)
      (w := { w with device := { w.device with selected := first }, frames := w.frames + 1 })
      hw rfl hrest
  refine ⟨w', hloop, ?_, hbuffer, hstores⟩
  rw [hframes]
  simp only
  omega

/-! ## Reads that return 0 -/

/-- A function that returns the code of a failed command and goes on otherwise. -/
theorem outcome_of_guard {cmd : BitVec 16} {failed next : Int × Ads}
    (hfailed : failed.1 = (ads868xCommand E cmd w).1)
    (hzero : (if (ads868xCommand E cmd w).1 ≠ 0 then failed else next).1 = 0) :
    E.outcome w.frames = .ok := by
  rw [← command_eq_zero cmd]
  by_contra hfail
  rw [if_pos hfail, hfailed] at hzero
  exact hfail hzero

theorem outcomes_cons {first count : Nat} (hfirst : E.outcome first = .ok)
    (hrest : ∀ n, first + 1 ≤ n → n ≤ first + 1 + count → E.outcome n = .ok) :
    ∀ n, first ≤ n → n ≤ first + (count + 1) → E.outcome n = .ok := by
  intro n hlow hhigh
  by_cases hn : n = first
  · rwa [hn]
  · apply hrest <;> omega

theorem outcomes_of_readLoop (rest : List Nat) {channels : BitVec 32} {channel : Nat}
    (hbits : setBits channels = rest) (hzero : (readLoop E channels channel w).1 = 0) :
    ∀ n, w.frames ≤ n → n ≤ w.frames + rest.length → E.outcome n = .ok := by
  induction rest generalizing channels channel w with
  | nil =>
      rw [readLoop_nil hbits] at hzero
      have hfirst := outcome_of_guard rfl hzero
      intro n hlow hhigh
      rw [List.length_nil] at hhigh
      rwa [show n = w.frames by omega]
  | cons next rest ih =>
      rw [readLoop_cons hbits] at hzero
      have hfirst := outcome_of_guard rfl hzero
      rw [command_ok _ hfirst, if_neg (by simp)] at hzero
      have hrest := ih (setBits_clear_lsb hbits) hzero
      exact outcomes_cons hfirst hrest

/-- A read that returns 0 has had all of its frames succeed. -/
theorem outcomes_of_readChannels {first : Nat} {rest : List Nat} {channels : BitVec 32}
    (hbits : setBits channels = first :: rest)
    (hzero : (ads868xReadChannels E channels w).1 = 0) :
    ∀ n, w.frames ≤ n → n ≤ w.frames + (rest.length + 1) → E.outcome n = .ok := by
  rw [readChannels_eq hbits] at hzero
  have hfirst := outcome_of_guard rfl hzero
  rw [command_ok _ hfirst, if_neg (by simp)] at hzero
  have hrest := outcomes_of_readLoop rest (setBits_clear_lsb hbits) hzero
  exact outcomes_cons hfirst hrest

/-! ## Reads that fail -/

/-- Frame `n + k` is the first from `n` on to fail, and `err` is its code. -/
structure FailsAt (E : Bench) (n k : Nat) (err : Int) : Prop where
  before : ∀ j, j < k → E.outcome (n + j) = .ok
  fails : E.outcome (n + k) ≠ .ok
  code : err = (E.outcome (n + k)).code

theorem FailsAt.neg {n k : Nat} {err : Int} (h : FailsAt E n k err) : err < 0 := by
  have hfails := h.fails
  rw [h.code]
  cases hout : E.outcome (n + k) with
  | ok => exact absurd hout hfails
  | error e reached => exact e.neg

theorem FailsAt.succ {n k : Nat} {err : Int} (hfirst : E.outcome n = .ok)
    (h : FailsAt E (n + 1) k err) : FailsAt E n (k + 1) err := by
  have hshift : ∀ j, n + (j + 1) = n + 1 + j := fun j => by omega
  refine ⟨?_, hshift k ▸ h.fails, hshift k ▸ h.code⟩
  intro j hj
  cases j with
  | zero => exact hfirst
  | succ j =>
      rw [hshift j]
      exact h.before j (Nat.lt_of_succ_lt_succ hj)

theorem failsAt_of_command {cmd : BitVec 16} (hfail : E.outcome w.frames ≠ .ok) :
    FailsAt E w.frames 0 (ads868xCommand E cmd w).1 :=
  ⟨fun _ hj => absurd hj (Nat.not_lt_zero _), hfail, command_code E cmd w⟩

theorem failsAt_of_readLoop (rest : List Nat) {channels : BitVec 32} {channel : Nat}
    (hbits : setBits channels = rest) (hret : (readLoop E channels channel w).1 ≠ 0) :
    ∃ k, k ≤ rest.length ∧ FailsAt E w.frames k (readLoop E channels channel w).1 ∧
      (readLoop E channels channel w).2.frames = w.frames + k + 1 := by
  induction rest generalizing channels channel w with
  | nil =>
      rw [readLoop_nil hbits] at hret ⊢
      by_cases hok : E.outcome w.frames = .ok
      · rw [if_neg (not_not.2 ((command_eq_zero _).2 hok))] at hret
        exact absurd rfl hret
      · rw [if_pos (fun h => hok ((command_eq_zero _).1 h))]
        exact ⟨0, Nat.le_refl 0, failsAt_of_command hok, command_frames E _ w⟩
  | cons next rest ih =>
      rw [readLoop_cons hbits] at hret ⊢
      by_cases hok : E.outcome w.frames = .ok
      · rw [if_neg (not_not.2 ((command_eq_zero _).2 hok))] at hret ⊢
        obtain ⟨k, hk, hfail, hframes⟩ := ih (setBits_clear_lsb hbits) hret
        simp only [Ads.store, command_frames] at hfail hframes ⊢
        refine ⟨k + 1, Nat.succ_le_succ hk, hfail.succ hok, ?_⟩
        rw [hframes]
        omega
      · rw [if_pos (fun h => hok ((command_eq_zero _).1 h))]
        exact ⟨0, Nat.zero_le _, failsAt_of_command hok, command_frames E _ w⟩

/-- A read that does not return 0 has ended with its first frame that failed. -/
theorem failsAt_of_readChannels {channels : BitVec 32} (hne : channels ≠ 0#32)
    (hret : (ads868xReadChannels E channels w).1 ≠ 0) :
    ∃ k, k ≤ popcount channels ∧ FailsAt E w.frames k (ads868xReadChannels E channels w).1 ∧
      (ads868xReadChannels E channels w).2.frames = w.frames + k + 1 := by
  cases hbits : setBits channels with
  | nil => exact absurd (setBits_eq_nil.1 hbits) hne
  | cons first rest =>
      rw [popcount, hbits]
      rw [readChannels_eq hbits] at hret ⊢
      by_cases hok : E.outcome w.frames = .ok
      · rw [if_neg (not_not.2 ((command_eq_zero _).2 hok))] at hret ⊢
        obtain ⟨k, hk, hfail, hframes⟩ :=
          failsAt_of_readLoop rest (setBits_clear_lsb hbits) hret
        rw [command_frames] at hfail hframes
        refine ⟨k + 1, Nat.succ_le_succ hk, hfail.succ hok, ?_⟩
        rw [hframes]
        omega
      · rw [if_pos (fun h => hok ((command_eq_zero _).1 h))]
        exact ⟨0, Nat.zero_le _, failsAt_of_command hok, command_frames E _ w⟩

/-! ## Masks of channels -/

def bitMask (n : Nat) : BitVec 32 := BitVec.ofNat 32 (2 ^ n - 1)

def channelsOf (mask : BitVec 32) : List (Fin 8) :=
  (List.finRange 8).filter fun c => mask.getLsbD c

theorem getLsbD_of_within {mask : BitVec 32} {nchannels : Nat}
    (hwithin : mask &&& ~~~(bitMask nchannels) = 0#32) {i : Nat} (hi : nchannels ≤ i) :
    mask.getLsbD i = false := by
  by_cases hlt : i < 32
  · have hbit := congrArg (fun x : BitVec 32 => x.getLsbD i) hwithin
    simp only [BitVec.getLsbD_and, BitVec.getLsbD_not, bitMask, BitVec.getLsbD_ofNat,
      Nat.testBit_two_pow_sub_one, hlt, Nat.not_lt.2 hi] at hbit
    simpa using hbit
  · exact BitVec.getLsbD_of_ge _ _ (Nat.not_lt.1 hlt)

theorem setBits_eq_channelsOf {mask : BitVec 32} (hmask : ∀ i, 8 ≤ i → mask.getLsbD i = false) :
    setBits mask = (channelsOf mask).map Fin.val := by
  have hlow : (channelsOf mask).map Fin.val = (List.range 8).filter fun i => mask.getLsbD i := by
    rw [channelsOf, ← List.map_coe_finRange_eq_range, List.filter_map]
    rfl
  have hhigh : (((List.range 24).map (8 + ·)).filter fun i => mask.getLsbD i) = [] := by
    rw [List.filter_eq_nil_iff]
    intro i hi
    obtain ⟨k, -, rfl⟩ := List.mem_map.1 hi
    rw [hmask _ (Nat.le_add_right 8 k)]
    decide
  have hsplit : List.range 32 = List.range 8 ++ (List.range 24).map (8 + ·) :=
    List.range_add (n := 8) (m := 24)
  rw [setBits, hlow, hsplit, List.filter_append, hhigh, List.append_nil]

/-- A mask that `ads868x_start_read` lets through, as the list of its channels. -/
theorem exists_channels {mask : BitVec 32} {nchannels : Nat} (hn : nchannels = 4 ∨ nchannels = 8)
    (hne : mask ≠ 0#32) (hwithin : mask &&& ~~~(bitMask nchannels) = 0#32) :
    ∃ first rest, channelsOf mask = first :: rest ∧
      setBits mask = (first :: rest).map Fin.val ∧ popcount mask = rest.length + 1 := by
  have hbits : setBits mask = (channelsOf mask).map Fin.val := by
    apply setBits_eq_channelsOf
    intro i hi
    exact getLsbD_of_within hwithin (by omega)
  cases hcs : channelsOf mask with
  | nil =>
      rw [hcs] at hbits
      exact absurd (setBits_eq_nil.1 hbits) hne
  | cons first rest =>
      rw [hcs] at hbits
      refine ⟨first, rest, rfl, hbits, ?_⟩
      rw [popcount, hbits, List.length_map, List.length_cons]

theorem readChannels_single {c : Fin 8} (hw : w.RangesAgree)
    (hok : ∀ n, w.frames ≤ n → n ≤ w.frames + 1 → E.outcome n = .ok) :
    ∃ w', ads868xReadChannels E (bit c) w = (0, w') ∧
      w'.data.stores = w.data.stores ++
        [(w.data.buffer, sampleAt E w.device.range (w.frames + 1) c)] := by
  have hbits : setBits (bit c) = [c].map Fin.val := setBits_twoPow (by omega)
  obtain ⟨w', hread, -, -, hstores⟩ := readChannels_ok hbits hw hok
  exact ⟨w', hread, hstores⟩

/-! ## Histories of reads -/

/-- A read as `ads868x_start_read` passes it on: where the samples go, and the mask. -/
structure ReadRequest where
  buffer : Nat
  channels : BitVec 32
  deriving DecidableEq

/-- One read after the other, each with the outcomes its frames happen to have. -/
def readMachine (E : Bench) : Machine Ads ReadRequest :=
  ⟨fun w r =>
    if r.channels = 0#32 then none
    else some (ads868xReadChannels E r.channels
      { w with data := { w.data with buffer := r.buffer } }).2⟩

theorem preserves_rangesAgree (E : Bench) : (readMachine E).Preserves Ads.RangesAgree := by
  intro w r t hw hstep
  simp only [readMachine] at hstep
  split at hstep
  · cases hstep
  · rename_i hne
    cases hstep
    exact rangesAgree_readChannels hne hw

/-- **The pipelined read is a read of each channel alone.**  After any history of reads,
failed ones among them, a read all of whose frames succeed takes one frame more than the
mask has channels, advances the buffer by one index for each, and stores in mask order
what a read of that channel alone, begun one frame earlier, would store: the count of the
input, to be taken with the sign of the channel's own range. -/
theorem readChannels_pipelined {w0 : Ads} {nchannels : Nat} {mask : BitVec 32}
    (hw0 : w0.RangesAgree) (hreach : (readMachine E).Reaches w0 w)
    (hn : nchannels = 4 ∨ nchannels = 8) (hne : mask ≠ 0#32)
    (hwithin : mask &&& ~~~(bitMask nchannels) = 0#32)
    (hok : ∀ n, w.frames ≤ n → n ≤ w.frames + popcount mask → E.outcome n = .ok) :
    ∃ w', ads868xReadChannels E mask w = (0, w') ∧
      w'.frames = w.frames + (popcount mask + 1) ∧
      w'.data.buffer = w.data.buffer + popcount mask ∧
      (channelsOf mask).map Fin.val = setBits mask ∧
      w'.data.stores = w.data.stores ++ (channelsOf mask).mapIdx (fun k c =>
        (w.data.buffer + k, sampleAt E w.device.range (w.frames + 1 + k) c)) ∧
      ∀ k c, (channelsOf mask)[k]? = some c →
        sampleValue (w.device.range.get c) (sampleAt E w.device.range (w.frames + 1 + k) c) =
          clip (w.device.range.get c)
            (E.level (w.frames + 1 + k) c (w.device.range.get c)) ∧
        ∀ v : Ads, v.RangesAgree → v.device.range = w.device.range → v.frames = w.frames + k →
          ∃ v', ads868xReadChannels E (bit c) v = (0, v') ∧
            v'.data.stores = v.data.stores ++
              [(v.data.buffer, sampleAt E w.device.range (w.frames + 1 + k) c)] := by
  have hw : w.RangesAgree := (preserves_rangesAgree E).reaches hw0 hreach
  obtain ⟨first, rest, hcs, hbits, hcount⟩ := exists_channels hn hne hwithin
  obtain ⟨w', hread, hframes, hbuffer, hstores⟩ := readChannels_ok hbits hw (hcount ▸ hok)
  refine ⟨w', hread, ?_, ?_, ?_, ?_, ?_⟩
  · rw [hframes, hcount]
  · rw [hbuffer, hcount]
  · rw [hcs, hbits]
  · rw [hcs]
    exact hstores
  · intro k c hk
    have hlt : k < rest.length + 1 := by
      rw [hcs] at hk
      exact (List.getElem?_eq_some_iff.1 hk).1
    refine ⟨sampleValue_ofInt_clip _ _, ?_⟩
    intro v hv hrange hframe
    have hokv : ∀ n, v.frames ≤ n → n ≤ v.frames + 1 → E.outcome n = .ok := by
      intro n hlow hhigh
      apply hok <;> omega
    obtain ⟨v', hsingle, hstore⟩ := readChannels_single (c := c) hv hokv
    refine ⟨v', hsingle, ?_⟩
    rw [hstore, hrange, hframe, Nat.add_right_comm]

/-- Channel 0 at -200 LSBs, the others at 300; the last frame of an earlier read failed. -/
def benchExample : Bench where
  level _ c _ := if c.val = 0 then -200 else 300
  head _ := 0#16
  outcome n := if n = 6 then .error eIo true else .ok

/-- Channel 0 in a bipolar range, the others in a unipolar one, and a stale selection. -/
def adsExample : Ads where
  device := ⟨Fin.last 7, #v[0x00#8, 0x06#8, 0x06#8, 0x06#8, 0x06#8, 0x06#8, 0x06#8, 0x06#8]⟩
  frames := 7
  data := ⟨3, 3, #v[0x00#8, 0x06#8, 0x06#8, 0x06#8, 0x06#8, 0x06#8, 0x06#8, 0x06#8], []⟩

theorem readChannels_pipelined_two :
    ∃ w', ads868xReadChannels benchExample 0x05#32 adsExample = (0, w') ∧
      w'.data.stores = [(3, BitVec.ofInt 16 (-200)), (4, 300#16)] := by
  have hw : adsExample.RangesAgree := rfl
  have hok : ∀ n, adsExample.frames ≤ n → n ≤ adsExample.frames + popcount 0x05#32 →
      benchExample.outcome n = .ok := by
    intro n hlow _
    have hne : n ≠ 6 := by
      rintro rfl
      exact absurd hlow (by decide)
    simp [benchExample, hne]
  obtain ⟨w', hread, -, -, -, hstores, -⟩ := readChannels_pipelined hw
    (Machine.Reaches.refl _ _) (Or.inr rfl) (by decide) (by decide) hok
  exact ⟨w', hread, hstores.trans (by decide)⟩

end DataLogger.Ads868x
