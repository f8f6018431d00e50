import Mathlib.Data.List.Basic

/-!
# Deadlines at fixed distances

Events on a schedule that starts at `t0` with a fixed period: the k-th may be late, however
late the ones before it were, but never before its own deadline.  Their number is then
bounded by the time that has passed.
-/

namespace DataLogger.Foundation

variable {t0 period now u : Nat} {times : List Nat}

/-- The k-th of `times`, counted from 1, is not before `t0 + period * k`. -/
def OnSchedule (t0 period : Nat) (times : List Nat) : Prop :=
  ∀ k u, times[k]? = some u → t0 + period * (k + 1) ≤ u

theorem onSchedule_nil : OnSchedule t0 period [] := by
  intro k u hk
  simp at hk

/-- An entry of a list that has grown at its end is an old one or the new one. -/
theorem getElem?_concat_cases {α : Type*} {as : List α} {a b : α} {i : Nat}
    (h : (as ++ [a])[i]? = some b) : as[i]? = some b ∨ (i = as.length ∧ b = a) := by
  by_cases hlt : i < as.length
  · left
    rwa [List.getElem?_append_left hlt] at h
  · right
    rw [List.getElem?_append_right (Nat.le_of_not_lt hlt)] at h
    obtain ⟨hlast, rfl⟩ := List.getElem?_eq_some_iff.1 h
    rw [List.length_singleton] at hlast
    refine ⟨by omega, ?_⟩
    simp

theorem OnSchedule.append (h : OnSchedule t0 period times)
    (hu : t0 + period * (times.length + 1) ≤ u) : OnSchedule t0 period (times ++ [u]) := by
  intro k v hk
  rcases getElem?_concat_cases hk with hold | ⟨rfl, rfl⟩
  · exact h k v hold
  · exact hu

/-- The deadline of the last event has passed by `now`. -/
theorem OnSchedule.deadline_le (h : OnSchedule t0 period times) (hpos : 0 < times.length)
    (hnow : ∀ u ∈ times, u ≤ now) : t0 + period * times.length ≤ now := by
  have hlt : times.length - 1 < times.length := Nat.sub_one_lt_of_lt hpos
  have hlast : times[times.length - 1]? = some (times.get ⟨times.length - 1, hlt⟩) :=
    List.getElem?_eq_getElem hlt
  have hdeadline := h (times.length - 1) _ hlast
  rw [Nat.sub_add_cancel hpos] at hdeadline
  exact Nat.le_trans hdeadline (hnow _ (List.get_mem times _))

/-- By `now` there have been no more events than whole periods. -/
theorem OnSchedule.length_le (h : OnSchedule t0 period times) (hperiod : 0 < period)
    (hnow : ∀ u ∈ times, u ≤ now) : times.length ≤ (now - t0) / period := by
  rcases Nat.eq_zero_or_pos times.length with hzero | hpos
  · rw [hzero]
    exact Nat.zero_le _
  · have hdeadline := h.deadline_le hpos hnow
    rw [Nat.le_div_iff_mul_le hperiod, Nat.mul_comm]
    omega

end DataLogger.Foundation
