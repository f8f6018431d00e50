import Mathlib.Data.List.Rotate

/-!
# Overwriting ring buffers

A ring of `n` cells with a write position.  A push overwrites the oldest cell, so the ring,
read from the position on, is a window that slides over everything pushed.
-/

namespace DataLogger.Foundation

variable {α : Type*} {n : Nat}

/-- A ring of `n` cells; the next push goes to `pos`. -/
structure RingBuffer (α : Type*) (n : Nat) where
  cells : List α
  pos : Nat
  length_cells : cells.length = n
  pos_lt : pos < n

namespace RingBuffer

/-- The ring that holds `a` in every cell. -/
def blank (a : α) (hn : 0 < n) : RingBuffer α n where
  cells := List.replicate n a
  pos := 0
  length_cells := List.length_replicate
  pos_lt := hn

def push (r : RingBuffer α n) (a : α) : RingBuffer α n where
  cells := r.cells.set r.pos a
  pos := (r.pos + 1) % n
  length_cells := List.length_set.trans r.length_cells
  pos_lt := Nat.mod_lt _ (Nat.zero_lt_of_lt r.pos_lt)

def pushAll (r : RingBuffer α n) (as : List α) : RingBuffer α n := as.foldl push r

/-- The cells from the oldest to the newest. -/
def window (r : RingBuffer α n) : List α := r.cells.rotate r.pos

variable {r : RingBuffer α n} {a : α} {as : List α}

@[simp] theorem length_window : r.window.length = n := by
  rw [window, List.length_rotate, r.length_cells]

theorem mem_window : a ∈ r.window ↔ a ∈ r.cells := List.mem_rotate

/-! ## The sliding window -/

theorem rotate_set {cells : List α} {pos : Nat} (hpos : pos < cells.length) :
    (cells.set pos a).rotate (pos + 1) = (cells.rotate pos).tail ++ [a] := by
  have hsplit : cells = cells.take pos ++ cells.get ⟨pos, hpos⟩ :: cells.drop (pos + 1) := by
    rw [List.get_eq_getElem, List.cons_getElem_drop_succ, List.take_append_drop]
  have hlength : (cells.take pos).length = pos := List.length_take_of_le (Nat.le_of_lt hpos)
  generalize cells.take pos = before, cells.get ⟨pos, hpos⟩ = old,
    cells.drop (pos + 1) = after at hsplit hlength
  subst hlength
  rw [hsplit, List.set_append_right _ _ (Nat.le_refl _), Nat.sub_self, List.set_cons_zero,
    List.rotate_append_length_eq, List.cons_append, List.tail_cons, List.append_assoc]
  have hafter : before ++ a :: after = (before ++ [a]) ++ after := by simp
  have hlast : before.length + 1 = (before ++ [a]).length := by simp
  rw [hafter, hlast, List.rotate_append_length_eq]

/-- A push drops the oldest element of the window. -/
theorem window_push : (r.push a).window = r.window.tail ++ [a] := by
  have hpos : r.pos < r.cells.length := r.length_cells.symm ▸ r.pos_lt
  have hmod : (r.pos + 1) % n = (r.pos + 1) % (r.cells.set r.pos a).length := by
    rw [List.length_set, r.length_cells]
  calc (r.push a).window = (r.cells.set r.pos a).rotate ((r.pos + 1) % n) := rfl
    _ = (r.cells.set r.pos a).rotate (r.pos + 1) := by rw [hmod, List.rotate_mod]
    _ = r.window.tail ++ [a] := rotate_set hpos

theorem window_pushAll : (r.pushAll as).window = (r.window ++ as).drop as.length := by
  induction as generalizing r with
  | nil => simp [pushAll]
  | cons a as ih =>
      have hwindow : r.window ≠ [] := by
        intro hnil
        have hlength := length_window (r := r)
        have hpos := r.pos_lt
        rw [hnil, List.length_nil] at hlength
        omega
      calc (r.pushAll (a :: as)).window = ((r.push a).pushAll as).window := rfl
        _ = (r.window.tail ++ [a] ++ as).drop as.length := by rw [ih, window_push]
        _ = ((r.window ++ a :: as).tail).drop as.length := by
            rw [List.tail_append_of_ne_nil hwindow, List.append_assoc, List.singleton_append]
        _ = (r.window ++ a :: as).drop (a :: as).length := by
            rw [List.drop_tail, List.length_cons]

theorem pos_pushAll : (r.pushAll as).pos = (r.pos + as.length) % n := by
  induction as generalizing r with
  | nil => exact (Nat.mod_eq_of_lt r.pos_lt).symm
  | cons a as ih =>
      have hstep : (r.pushAll (a :: as)).pos = ((r.push a).pushAll as).pos := rfl
      rw [hstep, ih, push, Nat.mod_add_mod, List.length_cons]
      congr 1
      omega

/-! ## From a blank ring -/

variable (hn : 0 < n)

/-- The ring holds the last `n` of what was pushed, after what is left of the blanks. -/
theorem window_blank :
    ((blank a hn).pushAll as).window =
      List.replicate (n - as.length) a ++ as.drop (as.length - n) := by
  rw [window_pushAll, window, blank, List.rotate_zero, List.drop_append, List.drop_replicate,
    List.length_replicate]

/-- A ring that has not wrapped yet still has its elements in front. -/
theorem cells_blank (hlength : as.length < n) :
    ((blank a hn).pushAll as).cells = as ++ List.replicate (n - as.length) a := by
  have hpos : ((blank a hn).pushAll as).pos = as.length := by
    rw [pos_pushAll, blank, Nat.zero_add, Nat.mod_eq_of_lt hlength]
  have hwindow := @window_blank _ _ a as hn
  rw [window, hpos, Nat.sub_eq_zero_of_le (Nat.le_of_lt hlength), List.drop_zero,
    ← List.rotate_append_length_eq as] at hwindow
  exact List.rotate_injective _ hwindow

/-- A ring that has wrapped or filled up holds nothing but what was pushed. -/
theorem mem_cells_blank {b : α} (hfull : n ≤ as.length)
    (hb : b ∈ ((blank a hn).pushAll as).cells) : b ∈ as := by
  rw [← mem_window, window_blank, Nat.sub_eq_zero_of_le hfull, List.replicate_zero,
    List.nil_append] at hb
  exact List.mem_of_mem_drop hb

end RingBuffer

end DataLogger.Foundation
