import DataLogger.Foundation.Machine

/-!
# Parts of a composed machine

A machine that is composed of several parts shows each of them through a function of its
state, while that part is running.  If every step of the whole leaves the part alone, moves it by
one step of its own, starts it or ends it, then the part is reachable in every
reachable state of the whole.
-/

namespace DataLogger.Foundation

/-- A part, seen in the state of the whole; `none` while it is not running. -/
structure Component (State PartState PartAction : Type*) where
  machine : Machine PartState PartAction
  starts : PartState → Prop
  view : State → Option PartState

namespace Component

variable {State Action PartState PartAction : Type*}
variable {c : Component State PartState PartAction} {s t : State}

/-- What one step of the whole may do to the part. -/
inductive Follows (c : Component State PartState PartAction) (s t : State) : Prop where
  | idle (h : c.view t = c.view s)
  | moved (x y : PartState) (b : PartAction) (hx : c.view s = some x) (hy : c.view t = some y)
      (hstep : c.machine.step x b = some y)
  | started (y : PartState) (hy : c.view t = some y) (h : c.starts y)
  | ended (h : c.view t = none)

/-- The part, if it is running, has come there from one of its starts. -/
def Reached (c : Component State PartState PartAction) (s : State) : Prop :=
  ∀ x, c.view s = some x → ∃ x0, c.starts x0 ∧ c.machine.Reaches x0 x

theorem Reached.of_start {x0 : PartState} (hview : c.view s = some x0) (hstart : c.starts x0) :
    c.Reached s := by
  intro x hx
  obtain rfl : x0 = x := Option.some.inj (hview.symm.trans hx)
  exact ⟨x0, hstart, Machine.Reaches.refl _ _⟩

theorem Reached.of_none (hview : c.view s = none) : c.Reached s := by
  intro x hx
  rw [hview] at hx
  cases hx

theorem Reached.follow (hs : c.Reached s) (h : c.Follows s t) : c.Reached t := by
  cases h with
  | idle h =>
      intro x hx
      exact hs x (h ▸ hx)
  | moved x y b hx hy hstep =>
      intro z hz
      obtain rfl : y = z := Option.some.inj (hy.symm.trans hz)
      obtain ⟨x0, hstart, hreach⟩ := hs x hx
      exact ⟨x0, hstart, hreach.trans (Machine.Reaches.of_step hstep)⟩
  | started y hy h => exact .of_start hy h
  | ended h => exact .of_none h

/-- The rule for the whole: under an invariant of it, every step of `m` follows the part. -/
theorem reached_of_reaches {m : Machine State Action} {I : State → Prop} (hs : c.Reached s)
    (hI : I s) (hpres : m.Preserves I)
    (hstep : ∀ ⦃s a t⦄, I s → m.step s a = some t → c.Follows s t) (hreach : m.Reaches s t) :
    c.Reached t := by
  have hboth : m.Preserves fun s => I s ∧ c.Reached s := by
    intro s a t hs h
    exact ⟨hpres hs.1 h, hs.2.follow (hstep hs.1 h)⟩
  exact (hboth.reaches ⟨hI, hs⟩ hreach).2

end Component

end DataLogger.Foundation
