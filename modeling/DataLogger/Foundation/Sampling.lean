import Mathlib.Data.List.Basic

/-!
# Sampling a register

One side overwrites a register, another side reads it now and then.  What is read follows
the history of the register in order: values may be skipped and read twice, but the reader
never goes back.
-/

namespace DataLogger.Foundation

variable {α : Type*} {hist hist' samples : List α} {x : α}

/-- Every sample is an entry of the history, at positions that never decrease. -/
def SampledInOrder (hist samples : List α) : Prop :=
  ∃ positions : List Nat, positions.Pairwise (· ≤ ·) ∧
    samples.map some = positions.map fun i => hist[i]?

namespace SampledInOrder

theorem nil (hist : List α) : SampledInOrder hist [] :=
  ⟨[], List.Pairwise.nil, rfl⟩

theorem position_lt {positions : List Nat}
    (h : samples.map some = positions.map fun i => hist[i]?) :
    ∀ i ∈ positions, i < hist.length := by
  intro i hi
  have hmem : hist[i]? ∈ samples.map some := by
    rw [h]
    exact List.mem_map_of_mem hi
  obtain ⟨y, -, hy⟩ := List.mem_map.1 hmem
  exact (List.getElem?_eq_some_iff.1 hy.symm).1

/-- Writing the register leaves the samples taken so far in order. -/
theorem mono (h : SampledInOrder hist samples) (hgrow : hist <+: hist') :
    SampledInOrder hist' samples := by
  obtain ⟨positions, hsorted, hsamples⟩ := h
  obtain ⟨rest, rfl⟩ := hgrow
  refine ⟨positions, hsorted, ?_⟩
  rw [hsamples]
  apply List.map_congr_left
  intro i hi
  rw [List.getElem?_append_left (position_lt hsamples i hi)]

/-- Reading the register appends its latest value. -/
theorem read (h : SampledInOrder (hist ++ [x]) samples) :
    SampledInOrder (hist ++ [x]) (samples ++ [x]) := by
  obtain ⟨positions, hsorted, hsamples⟩ := h
  refine ⟨positions ++ [hist.length], ?_, ?_⟩
  · rw [List.pairwise_append]
    refine ⟨hsorted, List.pairwise_singleton _ _, ?_⟩
    intro i hi j hj
    have hlt := position_lt hsamples i hi
    rw [List.mem_singleton] at hj
    rw [List.length_append, List.length_singleton] at hlt
    omega
  · rw [List.map_append, List.map_append, hsamples]
    simp

end SampledInOrder

end DataLogger.Foundation
