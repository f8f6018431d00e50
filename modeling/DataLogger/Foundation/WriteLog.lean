import Mathlib.Data.List.Basic

/-!
# Memory as the list of the writes to it

What a cell holds is the last value written to it.  Writes elsewhere do not matter, and
writes to consecutive cells are read back in order.
-/

namespace DataLogger.Foundation

variable {α : Type*}

/-- What the cell `i` holds after the writes in `writes`, oldest first. -/
def contents (writes : List (Nat × α)) (i : Nat) : Option α := writes.reverse.lookup i

theorem contents_append (xs ys : List (Nat × α)) (i : Nat) :
    contents (xs ++ ys) i = (contents ys i).or (contents xs i) := by
  rw [contents, List.reverse_append, List.lookup_append]
  rfl

theorem contents_eq_none {writes : List (Nat × α)} {i : Nat} :
    contents writes i = none ↔ i ∉ writes.map Prod.fst := by
  rw [contents, List.lookup_eq_none_iff]
  simp only [List.mem_reverse, List.mem_map, bne_iff_ne, not_exists, not_and]
  constructor
  · intro h x hx hxi
    exact h x hx hxi.symm
  · intro h x hx hxi
    exact h x hx hxi.symm

theorem contents_append_of_notMem {xs ys : List (Nat × α)} {i : Nat}
    (hi : i ∉ ys.map Prod.fst) : contents (xs ++ ys) i = contents xs i := by
  rw [contents_append, contents_eq_none.2 hi, Option.none_or]

/-- Writes to consecutive cells: each holds its own value. -/
theorem contents_consecutive {writes : List (Nat × α)} {start : Nat}
    (hcells : writes.map Prod.fst = List.range' start writes.length) {k : Nat}
    (hk : k < writes.length) : contents writes (start + k) = (writes[k]?).map Prod.snd := by
  induction writes generalizing start k with
  | nil => simp at hk
  | cons x xs ih =>
      rw [List.map_cons, List.length_cons, List.range'_succ, List.cons.injEq] at hcells
      obtain ⟨hx, hxs⟩ := hcells
      have hsplit : contents (x :: xs) (start + k) =
          (contents xs (start + k)).or (contents [x] (start + k)) := contents_append [x] xs _
      rw [hsplit]
      cases k with
      | zero =>
          have hrest : contents xs (start + 0) = none := by
            rw [contents_eq_none, hxs, List.mem_range'_1]
            omega
          obtain ⟨cell, value⟩ := x
          rw [hrest, ← hx]
          simp [contents]
      | succ k =>
          have hrest := ih hxs (k := k) (Nat.lt_of_succ_lt_succ hk)
          rw [← Nat.add_assoc, Nat.add_right_comm, hrest]
          have hlt : k < xs.length := Nat.lt_of_succ_lt_succ hk
          simp [List.getElem?_eq_getElem hlt]

end DataLogger.Foundation
