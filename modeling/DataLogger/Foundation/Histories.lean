import DataLogger.Foundation.Machine
import Mathlib.Logic.Function.Basic

/-!
# Histories of calls on a shared object

Callers call an object and get results back; a history lists both kinds of event in the
order in which they happen.  An atomic object serves each call whole, at one point between
the call and its return.  Here that point is the return itself, so the calls take effect in
the order in which they return, and a call that begins after another has returned takes
effect after it.  A machine that emits such events is simulated by the atomic object if each
of its steps is.
-/

namespace DataLogger.Foundation

inductive CallEvent (ι C R : Type*) where
  | call (i : ι) (c : C)
  | ret (i : ι) (r : R)
  deriving DecidableEq

/-! ## Events of a run -/

namespace Machine

variable {State Action Event : Type*}

/-- What the steps of a run emit; `out` is read in the state before the step. -/
def history (m : Machine State Action) (out : State → Action → List Event) :
    State → List Action → List Event
  | _, [] => []
  | s, a :: as => out s a ++ ((m.step s a).elim [] fun t => m.history out t as)

variable {m : Machine State Action} {out : State → Action → List Event} {s t : State}
  {a : Action} {as : List Action}

theorem history_cons (hstep : m.step s a = some t) :
    m.history out s (a :: as) = out s a ++ m.history out t as := by
  rw [history, hstep, Option.elim_some]

end Machine

/-! ## The atomic object -/

section Atomic

variable {ι C R W : Type*} [DecidableEq ι]

/-- The events `es` are those of an atomic object: `serves c v r v'` says that `c`, run on its
own from `v`, can return `r` and leave `v'`.  `p` and `q` are the calls in progress. -/
inductive Performs (serves : C → W → R → W → Prop) :
    (ι → Option C) → W → List (CallEvent ι C R) → (ι → Option C) → W → Prop where
  | nil (p : ι → Option C) (v : W) : Performs serves p v [] p v
  | call {p q : ι → Option C} {v u : W} {i : ι} {c : C} {es : List (CallEvent ι C R)}
      (hidle : p i = none) (hrest : Performs serves (Function.update p i (some c)) v es q u) :
      Performs serves p v (.call i c :: es) q u
  | ret {p q : ι → Option C} {v v' u : W} {i : ι} {c : C} {r : R}
      {es : List (CallEvent ι C R)} (hcalled : p i = some c) (hserves : serves c v r v')
      (hrest : Performs serves (Function.update p i none) v' es q u) :
      Performs serves p v (.ret i r :: es) q u

variable {serves : C → W → R → W → Prop} {p q o : ι → Option C} {v u z : W}
  {es fs : List (CallEvent ι C R)}

theorem Performs.append (hes : Performs serves p v es q u) (hfs : Performs serves q u fs o z) :
    Performs serves p v (es ++ fs) o z := by
  induction hes with
  | nil p v => exact hfs
  | call hidle hrest ih => exact .call hidle (ih hfs)
  | ret hcalled hserves hrest ih => exact .ret hcalled hserves (ih hfs)

theorem Performs.of_call {i : ι} {c : C} (hidle : p i = none) :
    Performs serves p v [.call i c] (Function.update p i (some c)) v :=
  .call hidle (.nil _ _)

theorem Performs.of_ret {i : ι} {c : C} {r : R} (hcalled : p i = some c)
    (hserves : serves c v r u) :
    Performs serves p v [.ret i r] (Function.update p i none) u :=
  .ret hcalled hserves (.nil _ _)

/-- A call that returns at once. -/
theorem Performs.of_pair {i : ι} {c : C} {r : R} (hidle : p i = none)
    (hserves : serves c v r u) : Performs serves p v [.call i c, .ret i r] p u := by
  have hback : Function.update (Function.update p i (some c)) i none = p := by
    rw [Function.update_idem, ← hidle, Function.update_eq_self]
  have hrest : Performs serves (Function.update p i (some c)) v [.ret i r]
      (Function.update (Function.update p i (some c)) i none) u :=
    .of_ret (Function.update_self i (some c) p) hserves
  rw [hback] at hrest
  exact .call hidle hrest

/-- The simulation rule: `Sim` relates a state of the machine to the calls in progress and
the state of the object. -/
theorem performs_history {State Action : Type*} {m : Machine State Action}
    (serves : C → W → R → W → Prop) (out : State → Action → List (CallEvent ι C R))
    (Sim : State → (ι → Option C) → W → Prop)
    (hsim : ∀ ⦃s a t p v⦄, Sim s p v → m.step s a = some t →
      ∃ q u, Performs serves p v (out s a) q u ∧ Sim t q u)
    {s t : State} {as : List Action} (hs : Sim s p v) (hexec : m.exec s as = some t) :
    ∃ q u, Performs serves p v (m.history out s as) q u ∧ Sim t q u := by
  induction as generalizing s p v with
  | nil =>
      cases hexec
      exact ⟨p, v, .nil p v, hs⟩
  | cons a as ih =>
      obtain ⟨s', hstep, hrest⟩ := Machine.exec_cons_eq_some.1 hexec
      obtain ⟨q, u, hfirst, hs'⟩ := hsim hs hstep
      obtain ⟨o, z, hlater, ht⟩ := ih hs' hrest
      rw [Machine.history_cons hstep]
      exact ⟨o, z, hfirst.append hlater, ht⟩

end Atomic

end DataLogger.Foundation
