import Mathlib.Data.Nat.ModEq

/-!
# A remote cyclic counter that misses ticks

A counter modulo `period` is advanced by one tick for each slot and rewound by the last
slot of each round.  The two ends agree on the slot only as long as no tick is lost;
`drift` counts the ticks lost since the last rewind that arrived.
-/

namespace DataLogger.Foundation

variable (period : Nat) (arrived : Nat → Bool)

/-- Where the counter stands before tick `i`. -/
def position : Nat → Nat
  | 0 => 0
  | i + 1 =>
      if arrived i then
        if i % period + 1 = period then 0 else (position i + 1) % period
      else position i

/-- The ticks lost since the last rewind that arrived, before tick `i`. -/
def drift : Nat → Nat
  | 0 => 0
  | i + 1 =>
      if arrived i then
        if i % period + 1 = period then 0 else drift i
      else drift i + 1

variable {period : Nat} {arrived : Nat → Bool}

theorem position_lt (hperiod : 0 < period) (i : Nat) : position period arrived i < period := by
  induction i with
  | zero => exact hperiod
  | succ i ih =>
      rw [position]
      split
      · split
        · exact hperiod
        · exact Nat.mod_lt _ hperiod
      · exact ih

theorem position_add_drift (i : Nat) :
    position period arrived i + drift period arrived i ≡ i [MOD period] := by
  induction i with
  | zero => rfl
  | succ i ih =>
      rw [position, drift]
      split
      · split
        · rename_i hlast
          -- the rewind: both counts restart, and slot `i + 1` begins a round
          have hround : i + 1 ≡ 0 [MOD period] := by
            calc i + 1
                ≡ i % period + 1 [MOD period] := (Nat.mod_modEq i period).symm.add_right 1
              _ = period := hlast
              _ ≡ 0 [MOD period] := by simp [Nat.ModEq]
          exact hround.symm
        · calc (position period arrived i + 1) % period + drift period arrived i
              ≡ position period arrived i + 1 + drift period arrived i [MOD period] :=
                (Nat.mod_modEq _ _).add_right _
            _ = position period arrived i + drift period arrived i + 1 := by omega
            _ ≡ i + 1 [MOD period] := ih.add_right 1
      · rw [← Nat.add_assoc]
        exact ih.add_right 1

/-- The counter stands at its slot exactly when the lost ticks make whole rounds. -/
theorem position_eq_iff (hperiod : 0 < period) (i : Nat) :
    position period arrived i = i % period ↔ drift period arrived i % period = 0 := by
  have hsum : (position period arrived i + drift period arrived i) % period = i % period :=
    position_add_drift i
  have hself : position period arrived i % period = position period arrived i :=
    Nat.mod_eq_of_lt (position_lt hperiod i)
  constructor
  · intro hpos
    have hshift : position period arrived i + drift period arrived i ≡
        position period arrived i + 0 [MOD period] := by
      rw [Nat.ModEq, hsum, Nat.add_zero, hself, hpos]
    exact Nat.ModEq.add_left_cancel' _ hshift
  · intro hdrift
    have hshift : position period arrived i + drift period arrived i ≡
        position period arrived i + 0 [MOD period] :=
      Nat.ModEq.add_left _ (show _ ≡ 0 [MOD period] by rw [Nat.ModEq, hdrift, Nat.zero_mod])
    rw [← hself, ← hsum]
    exact hshift.symm

end DataLogger.Foundation
