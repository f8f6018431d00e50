import Mathlib.Algebra.Ring.Nat
import Mathlib.Data.List.Basic

/-!
# Little- and big-endian byte strings

Numbers of a fixed byte width as lists of bytes.  A number that fits comes back from its
bytes; the big-endian versions are the same functions on the reversed list.
-/

namespace DataLogger.Foundation

abbrev Byte := BitVec 8

/-- The number whose base-256 digits, lowest first, are `bs`. -/
def readLE : List Byte → Nat
  | [] => 0
  | b :: bs => b.toNat + 256 * readLE bs

/-- The `n` lowest base-256 digits of `v`, lowest first. -/
def leBytes : Nat → Nat → List Byte
  | 0, _ => []
  | n + 1, v => BitVec.ofNat 8 v :: leBytes n (v / 256)

def readBE (bs : List Byte) : Nat := readLE bs.reverse

def beBytes (n v : Nat) : List Byte := (leBytes n v).reverse

@[simp] theorem length_leBytes (n v : Nat) : (leBytes n v).length = n := by
  induction n generalizing v with
  | zero => rfl
  | succ n ih => simp [leBytes, ih]

theorem readLE_leBytes {n v : Nat} (hv : v < 256 ^ n) : readLE (leBytes n v) = v := by
  induction n generalizing v with
  | zero =>
      have hzero : v = 0 := by simpa using hv
      rw [hzero]
      rfl
  | succ n ih =>
      have hdiv : v / 256 < 256 ^ n := by
        rw [Nat.div_lt_iff_lt_mul (by omega), ← Nat.pow_succ]
        exact hv
      have hmod : (BitVec.ofNat 8 v).toNat = v % 256 := by simp
      rw [leBytes, readLE, ih hdiv, hmod]
      exact Nat.mod_add_div v 256

@[simp] theorem length_beBytes (n v : Nat) : (beBytes n v).length = n := by
  simp [beBytes]

theorem readBE_beBytes {n v : Nat} (hv : v < 256 ^ n) : readBE (beBytes n v) = v := by
  rw [readBE, beBytes, List.reverse_reverse, readLE_leBytes hv]

/-! ## Machine words -/

/-- A 32-bit word stored in memory order by a little-endian core. -/
def le32 (bs : List Byte) : BitVec 32 := BitVec.ofNat 32 (readLE bs)

def le32Bytes (x : BitVec 32) : List Byte := leBytes 4 x.toNat

@[simp] theorem length_le32Bytes (x : BitVec 32) : (le32Bytes x).length = 4 :=
  length_leBytes 4 x.toNat

@[simp] theorem le32_le32Bytes (x : BitVec 32) : le32 (le32Bytes x) = x := by
  have hx : x.toNat < 256 ^ 4 := x.isLt
  rw [le32, le32Bytes, readLE_leBytes hx, BitVec.ofNat_toNat, BitVec.setWidth_eq]

def be16 (bs : List Byte) : BitVec 16 := BitVec.ofNat 16 (readBE bs)

def be16Bytes (x : BitVec 16) : List Byte := beBytes 2 x.toNat

@[simp] theorem length_be16Bytes (x : BitVec 16) : (be16Bytes x).length = 2 :=
  length_beBytes 2 x.toNat

@[simp] theorem be16_be16Bytes (x : BitVec 16) : be16 (be16Bytes x) = x := by
  have hx : x.toNat < 256 ^ 2 := x.isLt
  rw [be16, be16Bytes, readBE_beBytes hx, BitVec.ofNat_toNat, BitVec.setWidth_eq]

end DataLogger.Foundation
