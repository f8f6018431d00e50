import DataLogger.Foundation.Bytes
import DataLogger.Foundation.RingBuffer
import Mathlib.Data.List.TakeWhile

/-!
# The console tee

`console_tee_init` takes the RAM console's buffer over from Zephyr and finds out by `strnlen`
where to go on.  From then on `console_tee_out` stores every character and passes it to the
UART, if there is one.  `size` is `CONFIG_RAM_CONSOLE_BUFFER_SIZE`.
-/

namespace DataLogger.Console

open DataLogger.Foundation

/-- `(char)c` of an `int`. -/
def toChar (c : BitVec 32) : Byte := c.setWidth 8

def strnlen (bytes : List Byte) (maxlen : Nat) : Nat :=
  ((bytes.take maxlen).takeWhile (· != 0#8)).length

/-! ## Zephyr's RAM console -/

/-- `ram_console_buf` and the position of the RAM console in it. -/
structure RamConsole where
  buf : List Byte
  pos : Nat
  deriving DecidableEq, Repr

def RamConsole.boot (size : Nat) : RamConsole := ⟨List.replicate size 0#8, 0⟩

def ramConsoleOut (size : Nat) (s : RamConsole) (c : BitVec 32) : RamConsole where
  buf := s.buf.set s.pos (toChar c)
  pos := (s.pos + 1) % (size - 1)

/-- The RAM console after `cs` has been printed. -/
def ramConsole (size : Nat) (cs : List (BitVec 32)) : RamConsole :=
  cs.foldl (ramConsoleOut size) (RamConsole.boot size)

/-! ## The tee -/

/-- `ram_console_buf`, `tee_pos`, and what has gone out on `tee_uart` if that is not NULL. -/
structure Tee where
  ramConsoleBuf : List Byte
  teePos : Nat
  teeUart : Option (List Byte)
  deriving DecidableEq, Repr

/-- `console_tee_out`; the hook's return value is `c`. -/
def consoleTeeOut (size : Nat) (s : Tee) (c : BitVec 32) : Tee where
  ramConsoleBuf := s.ramConsoleBuf.set s.teePos (toChar c)
  teePos := (s.teePos + 1) % (size - 1)
  teeUart := s.teeUart.map (· ++ [toChar c])

/-- `console_tee_init`; `ready` is the answer of `device_is_ready`. -/
def consoleTeeInit (size : Nat) (ready : Bool) (s : RamConsole) : Tee where
  ramConsoleBuf := s.buf
  teePos := strnlen s.buf (size - 1)
  teeUart := if ready then some [] else none

/-- `u` is printed before `console_tee_init`, `v` after it. -/
def consoleTee (size : Nat) (ready : Bool) (u v : List (BitVec 32)) : Tee :=
  v.foldl (consoleTeeOut size) (consoleTeeInit size ready (ramConsole size u))

/-! ## The RAM console is a ring -/

variable {n : Nat}

/-- A ring, with the NUL behind it. -/
def RamConsole.ofRing (r : RingBuffer Byte n) : RamConsole := ⟨r.cells ++ [0#8], r.pos⟩

theorem ramConsoleOut_ofRing (r : RingBuffer Byte n) (c : BitVec 32) :
    ramConsoleOut (n + 1) (.ofRing r) c = .ofRing (r.push (toChar c)) := by
  have hpos : r.pos < r.cells.length := r.length_cells.symm ▸ r.pos_lt
  simp [ramConsoleOut, RamConsole.ofRing, RingBuffer.push, List.set_append_left _ _ hpos]

theorem foldl_ramConsoleOut (r : RingBuffer Byte n) (cs : List (BitVec 32)) :
    cs.foldl (ramConsoleOut (n + 1)) (.ofRing r) = .ofRing (r.pushAll (cs.map toChar)) := by
  induction cs generalizing r with
  | nil => rfl
  | cons c cs ih =>
      rw [List.foldl_cons, ramConsoleOut_ofRing, ih]
      rfl

/-- The RAM console is a ring of all but its last byte. -/
theorem ramConsole_eq (hn : 0 < n) (cs : List (BitVec 32)) :
    ramConsole (n + 1) cs =
      .ofRing ((RingBuffer.blank 0#8 hn).pushAll (cs.map toChar)) := by
  rw [← foldl_ramConsoleOut, ramConsole]
  congr 1
  simp [RamConsole.boot, RamConsole.ofRing, RingBuffer.blank, List.replicate_succ']

theorem take_ofRing (r : RingBuffer Byte n) : (RamConsole.ofRing r).buf.take n = r.cells :=
  List.take_left' r.length_cells

/-! ## Where the tee goes on -/

theorem strnlen_ofRing (r : RingBuffer Byte n) :
    strnlen (RamConsole.ofRing r).buf n = (r.cells.takeWhile (· != 0#8)).length := by
  rw [strnlen, take_ofRing]

variable {u v : List (BitVec 32)}

/-- As long as the ring has not filled up, its first NUL is the RAM console's position. -/
theorem strnlen_short (hu : ∀ c ∈ u, toChar c ≠ 0#8) (hlength : u.length < n) :
    strnlen (ramConsole (n + 1) u).buf n = u.length := by
  have hn : 0 < n := Nat.zero_lt_of_lt hlength
  have hchars : ∀ b ∈ u.map toChar, (b != 0#8) = true := by
    intro b hb
    obtain ⟨c, hc, rfl⟩ := List.mem_map.1 hb
    exact bne_iff_ne.2 (hu c hc)
  obtain ⟨k, hk⟩ : ∃ k, n - (u.map toChar).length = k + 1 :=
    ⟨n - u.length - 1, by rw [List.length_map]; omega⟩
  rw [ramConsole_eq hn, strnlen_ofRing, RingBuffer.cells_blank hn (by rwa [List.length_map]),
    List.takeWhile_append_of_pos hchars, hk, List.replicate_succ,
    List.takeWhile_cons_of_neg (by simp), List.append_nil, List.length_map]

/-- A ring that has filled up has no NUL, and `strnlen` runs to its end. -/
theorem strnlen_full (hn : 0 < n) (hu : ∀ c ∈ u, toChar c ≠ 0#8) (hlength : n ≤ u.length) :
    strnlen (ramConsole (n + 1) u).buf n = n := by
  rw [ramConsole_eq hn, strnlen_ofRing, List.takeWhile_eq_self_iff.2,
    RingBuffer.length_cells]
  intro b hb
  obtain ⟨c, hc, rfl⟩ := List.mem_map.1
    (RingBuffer.mem_cells_blank hn (by rwa [List.length_map]) hb)
  exact bne_iff_ne.2 (hu c hc)

theorem pos_ramConsole (hn : 0 < n) (cs : List (BitVec 32)) :
    (ramConsole (n + 1) cs).pos = cs.length % n := by
  rw [ramConsole_eq hn, RamConsole.ofRing, RingBuffer.pos_pushAll, List.length_map,
    RingBuffer.blank, Nat.zero_add]

/-! ## No seam -/

/-- The tee is where one RAM console would be that had printed all of `cs` itself. -/
structure Tee.Continues (size : Nat) (cs : List (BitVec 32)) (s : Tee) : Prop where
  buf : s.ramConsoleBuf = (ramConsole size cs).buf
  pos : s.teePos = (ramConsole size cs).pos
  pos_le : s.teePos ≤ size - 2
  nul : s.ramConsoleBuf.getLast? = some 0#8
  window : (s.ramConsoleBuf.take (size - 1)).rotate s.teePos =
    List.replicate (size - 1 - cs.length) 0#8 ++
      (cs.map toChar).drop (cs.length - (size - 1))

theorem continues_of_eq {s : Tee} {cs : List (BitVec 32)} (hn : 0 < n)
    (hbuf : s.ramConsoleBuf = (ramConsole (n + 1) cs).buf)
    (hpos : s.teePos = (ramConsole (n + 1) cs).pos) : s.Continues (n + 1) cs := by
  have hring := ramConsole_eq hn cs
  refine ⟨hbuf, hpos, ?_, ?_, ?_⟩
  · rw [hpos, hring]
    exact Nat.le_sub_one_of_lt (RingBuffer.pos_lt _)
  · rw [hbuf, hring, RamConsole.ofRing, List.getLast?_concat]
  · rw [hbuf, hpos, hring, Nat.add_sub_cancel, take_ofRing]
    have hwindow := @RingBuffer.window_blank _ _ 0#8 (cs.map toChar) hn
    rwa [List.length_map] at hwindow

/-- The tee stores as the RAM console does. -/
theorem foldl_consoleTeeOut {size : Nat} {s : Tee} {r : RamConsole}
    (hbuf : s.ramConsoleBuf = r.buf) (hpos : s.teePos = r.pos) (v : List (BitVec 32)) :
    (v.foldl (consoleTeeOut size) s).ramConsoleBuf = (v.foldl (ramConsoleOut size) r).buf ∧
      (v.foldl (consoleTeeOut size) s).teePos = (v.foldl (ramConsoleOut size) r).pos := by
  induction v generalizing s r with
  | nil => exact ⟨hbuf, hpos⟩
  | cons c v ih =>
      apply ih
      · rw [consoleTeeOut, ramConsoleOut, hbuf, hpos]
      · rw [consoleTeeOut, ramConsoleOut, hpos]

/-- The tee goes on without a seam exactly when the RAM console's buffer was not full. -/
theorem consoleTee_seamless_iff {size : Nat} (hsize : 2 ≤ size) (ready : Bool)
    (hu : ∀ c ∈ u, toChar c ≠ 0#8) :
    (∀ w, w <+: v → (consoleTee size ready u w).Continues size (u ++ w)) ↔
      u.length < size - 1 := by
  obtain ⟨n, rfl⟩ := Nat.exists_eq_add_of_le' (Nat.le_of_succ_le hsize)
  have hn : 0 < n := Nat.lt_of_succ_lt_succ hsize
  rw [Nat.add_sub_cancel]
  constructor
  · intro hseamless
    by_contra hfull
    have hpos := (hseamless [] List.nil_prefix).pos_le
    have hinit : (consoleTee (n + 1) ready u []).teePos = n :=
      strnlen_full hn hu (Nat.le_of_not_lt hfull)
    omega
  · intro hshort w _
    have hstart : (consoleTeeInit (n + 1) ready (ramConsole (n + 1) u)).teePos =
        (ramConsole (n + 1) u).pos := by
      rw [pos_ramConsole hn, Nat.mod_eq_of_lt hshort]
      exact strnlen_short hu hshort
    obtain ⟨hbuf, hpos⟩ := @foldl_consoleTeeOut (n + 1) _ _ rfl hstart w
    have happend : w.foldl (ramConsoleOut (n + 1)) (ramConsole (n + 1) u) =
        ramConsole (n + 1) (u ++ w) := List.foldl_append.symm
    rw [happend] at hbuf hpos
    exact continues_of_eq hn hbuf hpos

/-- One character before the tee and four after it, in a ring of three. -/
theorem consoleTee_seamless_wrap :
    (∀ w, w <+: [0x62#32, 0x63#32, 0x64#32, 0x65#32] →
      (consoleTee 4 true [0x61#32] w).Continues 4 ([0x61#32] ++ w)) ∧
    consoleTee 4 true [0x61#32] [0x62#32, 0x63#32, 0x64#32, 0x65#32] =
      ⟨[0x64#8, 0x65#8, 0x63#8, 0x00#8], 2, some [0x62#8, 0x63#8, 0x64#8, 0x65#8]⟩ := by
  have hu : ∀ c ∈ [0x61#32], toChar c ≠ 0#8 := by
    intro c hc
    rw [List.mem_singleton.1 hc]
    decide
  constructor
  · exact (consoleTee_seamless_iff (by decide) true hu).2 (by decide)
  · decide

/-- The first character after a full buffer goes where the NUL should stay. -/
theorem consoleTee_full (hn : 0 < n) (ready : Bool) (hu : ∀ c ∈ u, toChar c ≠ 0#8)
    (hfull : n ≤ u.length) (c : BitVec 32) :
    (consoleTee (n + 1) ready u [c]).ramConsoleBuf.getLast? = some (toChar c) := by
  have hset : (consoleTee (n + 1) ready u [c]).ramConsoleBuf =
      (ramConsole (n + 1) u).buf.set (strnlen (ramConsole (n + 1) u).buf n) (toChar c) := rfl
  rw [hset, strnlen_full hn hu hfull, ramConsole_eq hn, RamConsole.ofRing,
    List.set_append_right _ _ (Nat.le_of_eq (RingBuffer.length_cells _)),
    RingBuffer.length_cells, Nat.sub_self, List.set_cons_zero, List.getLast?_concat]

/-- The configured 8192 bytes, filled up before the tee. -/
theorem consoleTee_seam :
    ¬ (∀ w, w <+: [0x79#32] →
      (consoleTee 8192 true (List.replicate 8191 0x78#32) w).Continues 8192
        (List.replicate 8191 0x78#32 ++ w)) ∧
    (consoleTee 8192 true (List.replicate 8191 0x78#32) [0x79#32]).ramConsoleBuf.getLast? =
      some 0x79#8 := by
  have hu : ∀ c ∈ List.replicate 8191 0x78#32, toChar c ≠ 0#8 := by
    intro c hc
    rw [List.eq_of_mem_replicate hc]
    decide
  have hlast := consoleTee_full (n := 8191) (Nat.succ_pos 8190) true hu
    (Nat.le_of_eq List.length_replicate.symm) 0x79#32
  refine ⟨fun hseamless => ?_, hlast⟩
  have hnul := (hseamless [0x79#32] List.prefix_rfl).nul
  rw [hlast] at hnul
  cases hnul

end DataLogger.Console
