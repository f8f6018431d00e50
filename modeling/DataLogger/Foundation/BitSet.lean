import Mathlib.Data.List.Basic
import Mathlib.Data.List.Sort

/-!
# Bit masks as ordered sets

A mask is read as the increasing list of its set bits.  Clearing the lowest set bit
drops the head of that list, so a loop "take the lowest bit, clear it, go on until
the mask is zero" is an induction on the list.
-/

namespace DataLogger.Foundation

variable {w : Nat}

/-- The positions of the set bits, in increasing order. -/
def setBits (x : BitVec w) : List Nat := (List.range w).filter fun i => x.getLsbD i

def popcount (x : BitVec w) : Nat := (setBits x).length

theorem mem_setBits {x : BitVec w} {i : Nat} : i ∈ setBits x ↔ x.getLsbD i = true := by
  rw [setBits, List.mem_filter, List.mem_range]
  constructor
  · exact fun h => h.2
  · exact fun h => ⟨BitVec.lt_of_getLsbD h, h⟩

theorem setBits_pairwise (x : BitVec w) : (setBits x).Pairwise (· < ·) :=
  List.Pairwise.filter _ List.pairwise_lt_range

theorem setBits_eq_nil {x : BitVec w} : setBits x = [] ↔ x = 0#w := by
  constructor
  · intro h
    apply BitVec.eq_of_getLsbD_eq
    intro i _
    have hnot : i ∉ setBits x := by simp [h]
    rw [mem_setBits] at hnot
    simpa using hnot
  · rintro rfl
    simp [setBits]

theorem setBits_clear (x : BitVec w) (c : Nat) :
    setBits (x &&& ~~~(BitVec.twoPow w c)) = (setBits x).filter fun i => i ≠ c := by
  rw [setBits, setBits, List.filter_filter]
  apply List.filter_congr
  intro i hi
  have hlt : i < w := List.mem_range.1 hi
  by_cases hic : i = c
  · subst hic
    simp [hlt]
  · simp [hlt, hic]

theorem setBits_clear_lowest {x : BitVec w} {c : Nat} {cs : List Nat}
    (hx : setBits x = c :: cs) :
    setBits (x &&& ~~~(BitVec.twoPow w c)) = cs := by
  have hsorted := setBits_pairwise x
  rw [hx, List.pairwise_cons] at hsorted
  rw [setBits_clear, hx, List.filter_cons_of_neg (by simp), List.filter_eq_self]
  intro i hi
  have hlt : c < i := hsorted.1 i hi
  simp only [decide_eq_true_eq]
  omega

theorem popcount_clear_lowest {x : BitVec w} {c : Nat} {cs : List Nat}
    (hx : setBits x = c :: cs) :
    popcount (x &&& ~~~(BitVec.twoPow w c)) < popcount x := by
  rw [popcount, popcount, setBits_clear_lowest hx, hx]
  exact Nat.lt_succ_self _

theorem setBits_twoPow {c : Nat} (hc : c < w) : setBits (BitVec.twoPow w c) = [c] := by
  have hmem : ∀ i, i ∈ setBits (BitVec.twoPow w c) ↔ i = c := by
    intro i
    rw [mem_setBits, BitVec.getLsbD_twoPow]
    simp only [Bool.and_eq_true, decide_eq_true_eq]
    omega
  apply @List.Perm.eq_of_pairwise _ (· < ·)
  · intro a b _ _ hab hba
    omega
  · exact setBits_pairwise _
  · exact List.pairwise_singleton _ _
  · rw [List.perm_ext_iff_of_nodup]
    · simpa using hmem
    · exact (setBits_pairwise _).imp fun h => by omega
    · exact List.nodup_singleton c

/-- An increasing list is that of the bits it names. -/
theorem eq_setBits {x : BitVec w} {l : List Nat} (hsorted : l.Pairwise (· < ·))
    (hmem : ∀ i, i ∈ l ↔ x.getLsbD i = true) : l = setBits x := by
  have hperm : l.Perm (setBits x) := by
    rw [List.perm_ext_iff_of_nodup]
    · intro i
      rw [hmem, mem_setBits]
    · exact hsorted.imp fun h => by omega
    · exact (setBits_pairwise x).imp fun h => by omega
  apply hperm.eq_of_pairwise _ hsorted (setBits_pairwise x)
  intro a b _ _ hab hba
  omega

end DataLogger.Foundation
