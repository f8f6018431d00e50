import Mathlib.Data.List.Basic

/-!
# Operations one after another

A relation `R s x t` says that an operation with result `x` leads from `s` to `t`.  `Threaded`
is the same for a list of results: each operation begins where the one before it has ended.
-/

namespace DataLogger.Foundation

variable {σ α : Type*} {R : σ → α → σ → Prop} {s t u : σ} {x : α} {xs : List α}

inductive Threaded (R : σ → α → σ → Prop) : σ → List α → σ → Prop where
  | nil (s : σ) : Threaded R s [] s
  | cons {s t u : σ} {x : α} {xs : List α} (head : R s x t) (tail : Threaded R t xs u) :
      Threaded R s (x :: xs) u

namespace Threaded

theorem concat (h : Threaded R s xs t) (hx : R t x u) : Threaded R s (xs ++ [x]) u := by
  induction h with
  | nil s => exact .cons hx (.nil u)
  | cons head tail ih => exact .cons head (ih hx)

theorem exists_of_mem (h : Threaded R s xs t) (hx : x ∈ xs) : ∃ u v, R u x v := by
  induction h with
  | nil s => cases hx
  | cons head tail ih =>
      rcases List.mem_cons.1 hx with rfl | hrest
      · exact ⟨_, _, head⟩
      · exact ih hrest

end Threaded

end DataLogger.Foundation
