import DataLogger.Foundation.KernelObjects
import Mathlib.Algebra.BigOperators.Group.Finset.Basic
import Mathlib.Algebra.Order.BigOperators.Group.Finset
import Mathlib.Data.Fintype.Basic

/-!
# Threads around a binary semaphore

A finite set of threads, each at its own place in the same code.  Counting the threads at
some places turns "the token is in the semaphore or with one thread" into an equation that
every take, give and ordinary move keeps.
-/

namespace DataLogger.Foundation

variable {ι PC : Type*} [Fintype ι] [DecidableEq ι]

/-- The weights of the places where the threads are, added up. -/
def sumAt (f : PC → Nat) (pc : ι → PC) : Nat := ∑ i, f (pc i)

variable {pc : ι → PC} {i j : ι} {x : PC}

theorem sumAt_split (f : PC → Nat) (pc : ι → PC) (i : ι) :
    sumAt f pc = f (pc i) + ∑ j ∈ Finset.univ.erase i, f (pc j) :=
  (Finset.add_sum_erase _ _ (Finset.mem_univ i)).symm

theorem sumAt_update (f : PC → Nat) (pc : ι → PC) (i : ι) (x : PC) :
    sumAt f (Function.update pc i x) + f (pc i) = sumAt f pc + f x := by
  have hothers : ∑ j ∈ Finset.univ.erase i, f (Function.update pc i x j) =
      ∑ j ∈ Finset.univ.erase i, f (pc j) := by
    apply Finset.sum_congr rfl
    intro j hj
    rw [Function.update_of_ne (Finset.ne_of_mem_erase hj)]
  rw [sumAt_split f _ i, sumAt_split f pc i, hothers, Function.update_self]
  omega

omit [DecidableEq ι] in
theorem sumAt_le {f : PC → Nat} {m : Nat} (hf : ∀ x, f x ≤ m) (pc : ι → PC) :
    sumAt f pc ≤ Fintype.card ι * m := by
  exact Finset.sum_le_card_nsmul _ _ _ fun i _ => hf (pc i)

/-- The number of threads at places where `p` holds. -/
def countAt (p : PC → Bool) (pc : ι → PC) : Nat := ∑ i, (p (pc i)).toNat

variable {p : PC → Bool}

theorem countAt_split (p : PC → Bool) (pc : ι → PC) (i : ι) :
    countAt p pc = (p (pc i)).toNat + ∑ j ∈ Finset.univ.erase i, (p (pc j)).toNat :=
  sumAt_split (fun x => (p x).toNat) pc i

theorem countAt_update (p : PC → Bool) (pc : ι → PC) (i : ι) (x : PC) :
    countAt p (Function.update pc i x) + (p (pc i)).toNat = countAt p pc + (p x).toNat :=
  sumAt_update (fun x => (p x).toNat) pc i x

theorem countAt_pos (hi : p (pc i) = true) : 0 < countAt p pc := by
  rw [countAt_split p pc i, hi, Bool.toNat_true]
  omega

omit [DecidableEq ι] in
theorem countAt_eq_zero : countAt p pc = 0 ↔ ∀ i, p (pc i) = false := by
  rw [countAt, Finset.sum_eq_zero_iff]
  simp

omit [DecidableEq ι] in
theorem exists_of_countAt_pos (hpos : 0 < countAt p pc) : ∃ i, p (pc i) = true := by
  by_contra hnone
  have hall : ∀ i, p (pc i) = false := by
    intro i
    by_contra hi
    exact hnone ⟨i, by simpa using hi⟩
  rw [countAt_eq_zero.2 hall] at hpos
  omega

theorem eq_of_countAt_le_one (hone : countAt p pc ≤ 1) (hi : p (pc i) = true)
    (hj : p (pc j) = true) : i = j := by
  by_contra hne
  have hmem : j ∈ Finset.univ.erase i := Finset.mem_erase.2 ⟨Ne.symm hne, Finset.mem_univ j⟩
  have hother : (p (pc j)).toNat ≤ ∑ k ∈ Finset.univ.erase i, (p (pc k)).toNat :=
    Finset.single_le_sum (f := fun k => (p (pc k)).toNat) (fun k _ => Nat.zero_le _) hmem
  rw [countAt_split p pc i, hi, Bool.toNat_true] at hone
  rw [hj, Bool.toNat_true] at hother
  omega

omit [Fintype ι] in
theorem update_cases {f : ι → PC} {y : PC} (h : Function.update f i x j = y) :
    (j = i ∧ x = y) ∨ (j ≠ i ∧ f j = y) := by
  by_cases hj : j = i
  · left
    rw [hj, Function.update_self] at h
    exact ⟨hj, h⟩
  · right
    rw [Function.update_of_ne hj] at h
    exact ⟨hj, h⟩

/-! ## The token of a binary semaphore -/

/-- One token: in the semaphore, or with the one thread at a place where `p` holds. -/
def OneToken (sem : Semaphore 1) (p : PC → Bool) (pc : ι → PC) : Prop :=
  sem.count + countAt p pc = 1

namespace OneToken

variable {sem next : Semaphore 1}

theorem exclusive (h : OneToken sem p pc) (hi : p (pc i) = true) (hj : p (pc j) = true) :
    i = j := by
  apply eq_of_countAt_le_one _ hi hj
  rw [OneToken] at h
  omega

theorem count_zero (h : OneToken sem p pc) (hi : p (pc i) = true) : sem.count = 0 := by
  have hpos := countAt_pos hi
  rw [OneToken] at h
  omega

omit [DecidableEq ι] in
theorem count_one (h : OneToken sem p pc) (hnone : ∀ i, p (pc i) = false) : sem.count = 1 := by
  rw [OneToken, countAt_eq_zero.2 hnone] at h
  exact h

theorem take (h : OneToken sem p pc) (htake : sem.take = some next)
    (hout : p (pc i) = false) (hin : p x = true) :
    OneToken next p (Function.update pc i x) ∧ ∀ j, p (pc j) = false := by
  have hcount := Semaphore.take_eq_some.1 htake
  have hmove := countAt_update p pc i x
  rw [OneToken] at h
  rw [hout, hin, Bool.toNat_false, Bool.toNat_true] at hmove
  constructor
  · rw [OneToken]
    omega
  · apply countAt_eq_zero.1
    omega

/-- The give of the thread that has the token is not lost. -/
theorem give (h : OneToken sem p pc) (hin : p (pc i) = true) (hout : p x = false) :
    OneToken sem.give p (Function.update pc i x) := by
  have hzero := h.count_zero hin
  have hmove := countAt_update p pc i x
  rw [hin, hout, Bool.toNat_true, Bool.toNat_false] at hmove
  rw [OneToken] at h
  rw [OneToken, Semaphore.give_count]
  omega

theorem move (h : OneToken sem p pc) (hsame : p x = p (pc i)) :
    OneToken sem p (Function.update pc i x) := by
  have hmove := countAt_update p pc i x
  rw [hsame] at hmove
  rw [OneToken] at h
  rw [OneToken]
  omega

end OneToken

end DataLogger.Foundation
