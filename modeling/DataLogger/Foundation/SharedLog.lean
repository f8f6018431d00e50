import Mathlib.Data.List.Basic

/-!
# A log with several writers

Each entry carries who has written it.  What one writer has written is the log restricted to
its entries; a reader who cannot see the writers recovers that list with any test that
tells them apart.
-/

namespace DataLogger.Foundation

variable {W M : Type*} [DecidableEq W]

/-- What `w` has written, in order. -/
def writtenBy (w : W) : List (W × M) → List M
  | [] => []
  | e :: log => if e.1 = w then e.2 :: writtenBy w log else writtenBy w log

variable {v w : W} {log rest : List (W × M)} {x : M}

@[simp] theorem writtenBy_nil : writtenBy w ([] : List (W × M)) = [] := rfl

theorem writtenBy_append (w : W) (log rest : List (W × M)) :
    writtenBy w (log ++ rest) = writtenBy w log ++ writtenBy w rest := by
  induction log with
  | nil => rfl
  | cons e log ih =>
      rw [List.cons_append, writtenBy, writtenBy, ih]
      split <;> rfl

theorem writtenBy_tagged (w : W) (xs : List M) : writtenBy w (xs.map fun x => (w, x)) = xs := by
  induction xs with
  | nil => rfl
  | cons x xs ih => rw [List.map_cons, writtenBy, if_pos rfl, ih]

theorem writtenBy_tagged_other (h : v ≠ w) (xs : List M) :
    writtenBy w (xs.map fun x => (v, x)) = [] := by
  induction xs with
  | nil => rfl
  | cons x xs ih => rw [List.map_cons, writtenBy, if_neg h, ih]

theorem mem_writtenBy : x ∈ writtenBy w log ↔ (w, x) ∈ log := by
  induction log with
  | nil => simp
  | cons e log ih =>
      obtain ⟨v, y⟩ := e
      rw [writtenBy]
      split
      · rename_i hv
        obtain rfl : v = w := hv
        simp [ih]
      · rename_i hv
        have hne : w ≠ v := fun h => hv h.symm
        simp [ih, hne]

/-- A writer's own list has grown from `before` to `after`. -/
def record (w : W) (before after : List M) (log : List (W × M)) : List (W × M) :=
  log ++ (after.drop before.length).map fun x => (w, x)

theorem writtenBy_record {before after : List M} (hlog : writtenBy w log = before)
    (hgrows : before <+: after) : writtenBy w (record w before after log) = after := by
  obtain ⟨new, rfl⟩ := hgrows
  rw [record, writtenBy_append, hlog, List.drop_left, writtenBy_tagged]

theorem writtenBy_record_other (h : v ≠ w) (before after : List M) (log : List (W × M)) :
    writtenBy w (record v before after log) = writtenBy w log := by
  rw [record, writtenBy_append, writtenBy_tagged_other h, List.append_nil]

omit [DecidableEq W] in
theorem mem_record {before after : List M} {e : W × M} (he : e ∈ record w before after log) :
    e ∈ log ∨ (e.1 = w ∧ e.2 ∈ after) := by
  rcases List.mem_append.1 he with hold | hnew
  · exact .inl hold
  · obtain ⟨x, hx, rfl⟩ := List.mem_map.1 hnew
    exact .inr ⟨rfl, List.mem_of_mem_drop hx⟩

omit [DecidableEq W] in
theorem record_self (w : W) (before : List M) (log : List (W × M)) :
    record w before before log = log := by
  rw [record, List.drop_length, List.map_nil, List.append_nil]

omit [DecidableEq W] in
theorem record_concat (w : W) (before : List M) (x : M) (log : List (W × M)) :
    record w before (before ++ [x]) log = log ++ [(w, x)] := by
  rw [record, List.drop_left, List.map_singleton]

omit [DecidableEq W] in
theorem map_snd_record {before after : List M} (hlog : log.map Prod.snd = before)
    (hgrows : before <+: after) : (record w before after log).map Prod.snd = after := by
  obtain ⟨new, rfl⟩ := hgrows
  rw [record, List.map_append, hlog, List.drop_left, List.map_map]
  exact congrArg (before ++ ·) (List.map_id new)

/-! ## Reading without the writers -/

/-- A test that holds of the entries of `w` and of no others finds exactly what `w` has
written, in order. -/
theorem filter_eq_writtenBy {p : M → Bool}
    (hp : ∀ v x, (v, x) ∈ log → (p x = true ↔ v = w)) :
    (log.map Prod.snd).filter p = writtenBy w log := by
  induction log with
  | nil => rfl
  | cons e log ih =>
      obtain ⟨v, x⟩ := e
      have hrest : (log.map Prod.snd).filter p = writtenBy w log := by
        apply ih
        intro v x hx
        exact hp v x (List.mem_cons_of_mem _ hx)
      have hhead : p x = true ↔ v = w := hp v x List.mem_cons_self
      rw [List.map_cons, List.filter_cons, writtenBy, hrest]
      exact if_congr hhead rfl rfl

/-- Leaving out other writers does not change what `w` has written. -/
theorem writtenBy_filter {p : W × M → Bool} (hp : ∀ x, p (w, x) = true) :
    writtenBy w (log.filter p) = writtenBy w log := by
  induction log with
  | nil => rfl
  | cons e log ih =>
      obtain ⟨v, x⟩ := e
      rw [List.filter_cons]
      split
      · rw [writtenBy, writtenBy, ih]
      · rename_i hout
        have hne : v ≠ w := by
          rintro rfl
          exact hout (hp x)
        rw [writtenBy, if_neg hne, ih]

end DataLogger.Foundation
