import Mathlib.Data.List.Basic

/-!
# Counting semaphores and bounded queues

The two blocking objects of a small kernel, with their bound as a field: a
semaphore whose gives saturate at `limit`, and a first-in first-out queue whose
non-blocking put fails exactly when it is full.
-/

namespace DataLogger.Foundation

/-- A semaphore that counts up to `limit`. -/
structure Semaphore (limit : Nat) where
  count : Nat
  count_le : count ≤ limit
  deriving DecidableEq

namespace Semaphore

variable {limit : Nat}

@[ext] theorem ext {a b : Semaphore limit} (h : a.count = b.count) : a = b := by
  cases a
  cases b
  cases h
  rfl

def empty (limit : Nat) : Semaphore limit := ⟨0, Nat.zero_le limit⟩

/-- A give at the limit is lost. -/
def give (sem : Semaphore limit) : Semaphore limit :=
  ⟨min (sem.count + 1) limit, Nat.min_le_right _ _⟩

def take (sem : Semaphore limit) : Option (Semaphore limit) :=
  if sem.count = 0 then none
  else some ⟨sem.count - 1, Nat.le_trans (Nat.sub_le _ _) sem.count_le⟩

@[simp] theorem give_count (sem : Semaphore limit) :
    sem.give.count = min (sem.count + 1) limit := rfl

theorem give_pos (sem : Semaphore limit) (hlimit : 0 < limit) : 0 < sem.give.count := by
  rw [give_count]
  omega

theorem take_eq_some {sem next : Semaphore limit} :
    sem.take = some next ↔ sem.count = next.count + 1 := by
  unfold take
  split
  · rename_i hzero
    simp [hzero]
  · rename_i hpos
    rw [Option.some.injEq]
    constructor
    · rintro rfl
      simp only
      omega
    · intro h
      ext
      simp only
      omega

end Semaphore

/-- A first-in first-out queue of at most `capacity` items, oldest first. -/
structure BoundedQueue (α : Type*) (capacity : Nat) where
  items : List α
  length_le : items.length ≤ capacity

namespace BoundedQueue

variable {α : Type*} {capacity : Nat}

@[ext] theorem ext {a b : BoundedQueue α capacity} (h : a.items = b.items) : a = b := by
  cases a
  cases b
  cases h
  rfl

def empty (α : Type*) (capacity : Nat) : BoundedQueue α capacity := ⟨[], Nat.zero_le _⟩

/-- Non-blocking put: `none` when the queue is full. -/
def put (q : BoundedQueue α capacity) (x : α) : Option (BoundedQueue α capacity) :=
  if h : q.items.length < capacity then
    some ⟨q.items ++ [x], by rw [List.length_append]; exact h⟩
  else none

def get : BoundedQueue α capacity → Option (α × BoundedQueue α capacity)
  | ⟨[], _⟩ => none
  | ⟨x :: xs, h⟩ => some (x, ⟨xs, by rw [List.length_cons] at h; omega⟩)

theorem put_eq_some {q r : BoundedQueue α capacity} {x : α} :
    q.put x = some r ↔ q.items.length < capacity ∧ r.items = q.items ++ [x] := by
  unfold put
  split
  · rename_i hroom
    rw [Option.some.injEq]
    constructor
    · rintro rfl
      exact ⟨hroom, rfl⟩
    · rintro ⟨-, h⟩
      ext1
      exact h.symm
  · rename_i hfull
    simp [hfull]

theorem put_eq_none {q : BoundedQueue α capacity} {x : α} :
    q.put x = none ↔ capacity ≤ q.items.length := by
  unfold put
  split
  · rename_i hroom
    simp only [reduceCtorEq, false_iff]
    omega
  · rename_i hfull
    simp only [true_iff]
    omega

theorem get_eq_some {q r : BoundedQueue α capacity} {x : α} :
    q.get = some (x, r) ↔ q.items = x :: r.items := by
  obtain ⟨items, hle⟩ := q
  cases items with
  | nil => simp [get]
  | cons y ys =>
      rw [get, Option.some.injEq, Prod.mk.injEq, List.cons.injEq, BoundedQueue.ext_iff]

theorem exists_get {q : BoundedQueue α capacity} {x : α} {xs : List α}
    (hq : q.items = x :: xs) : ∃ r, q.get = some (x, r) ∧ r.items = xs := by
  have hle : xs.length ≤ capacity := by
    have hlen := q.length_le
    rw [hq, List.length_cons] at hlen
    omega
  exact ⟨⟨xs, hle⟩, get_eq_some.2 hq, rfl⟩

end BoundedQueue

end DataLogger.Foundation
