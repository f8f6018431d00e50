import Mathlib.Data.List.Basic

/-!
# Sessions on a shared bus

A trace in which each session's entries stand next to each other: between two entries of a
session there is nothing else.
-/

namespace DataLogger.Foundation

variable {α : Type*}

/-- Between two occurrences of an `x` of a session, the trace has only `x`. -/
def Contiguous (session : α → Prop) (trace : List α) : Prop :=
  ∀ x before between after, session x → trace = before ++ x :: (between ++ x :: after) →
    ∀ y ∈ between, y = x

variable {session : α → Prop} {trace : List α} {x : α}

theorem contiguous_nil : Contiguous session [] := by
  intro x before between after _ htrace
  simp at htrace

/-- Adding an entry: only sessions that end with it have to be looked at. -/
theorem contiguous_append (htrace : Contiguous session trace)
    (hlast : session x → ∀ before between, trace = before ++ x :: between →
      ∀ y ∈ between, y = x) :
    Contiguous session (trace ++ [x]) := by
  intro z before between after hz happend
  rcases List.eq_nil_or_concat after with rfl | ⟨rest, last, rfl⟩
  · have hsplit : trace ++ [x] = (before ++ z :: between) ++ [z] := by
      rw [happend]
      simp
    obtain ⟨hfront, hx⟩ := List.append_inj' hsplit rfl
    obtain rfl : x = z := List.singleton_inj.1 hx
    exact hlast hz before between hfront
  · have hsplit : trace ++ [x] = (before ++ z :: (between ++ z :: rest)) ++ [last] := by
      rw [happend]
      simp
    exact htrace z before between rest hz (List.append_inj' hsplit rfl).1

theorem contiguous_append_other (htrace : Contiguous session trace) (hx : ¬ session x) :
    Contiguous session (trace ++ [x]) :=
  contiguous_append htrace fun h => absurd h hx

/-- The session that is open may go on. -/
theorem contiguous_append_open {older : List α} {n : Nat}
    (htrace : Contiguous session (older ++ List.replicate n x)) (hfresh : x ∉ older) :
    Contiguous session (older ++ List.replicate n x ++ [x]) := by
  apply contiguous_append htrace
  intro _ before between hsplit y hy
  rcases List.append_eq_append_iff.1 hsplit with ⟨rest, rfl, hopen⟩ | ⟨rest, holder, htail⟩
  · -- the first occurrence lies in the open session, and so does all that follows
    have hmem : y ∈ List.replicate n x := by
      rw [hopen]
      simp [hy]
    exact List.eq_of_mem_replicate hmem
  · cases rest with
    | nil =>
        have hmem : y ∈ List.replicate n x := by
          rw [List.nil_append] at htail
          rw [← htail]
          exact List.mem_cons_of_mem x hy
        exact List.eq_of_mem_replicate hmem
    | cons z rest =>
        rw [List.cons_append, List.cons.injEq] at htail
        exact absurd (by rw [holder, htail.1]; simp) hfresh

end DataLogger.Foundation
