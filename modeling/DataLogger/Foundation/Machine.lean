import Mathlib.Data.List.Induction

/-!
# Partial step machines and their finite runs

A machine is a partial step function.  Every choice the environment has (which
thread moves next, what a call returns) is part of the action, so a run is a list
of actions and `exec` replays it.  Two ways of speaking about a run are used
throughout: `Throughout` (a property of every state on the way) and `Along` (a
condition on every step, read in the state before it).  `throughout_iff_along`
relates the two and is the rule behind every exact condition on runs.
-/

namespace DataLogger.Foundation

/-- A partial step function; `none` marks an action that is not enabled. -/
structure Machine (State Action : Type*) where
  step : State → Action → Option State

namespace Machine

variable {State Action : Type*}

/-- Replay a list of actions, failing at the first one that is not enabled. -/
def exec (m : Machine State Action) : State → List Action → Option State
  | s, [] => some s
  | s, a :: as => (m.step s a).bind fun t => exec m t as

def ofTotal (f : State → Action → State) : Machine State Action :=
  ⟨fun s a => some (f s a)⟩

variable {m : Machine State Action} {s t u : State} {a : Action} {as bs : List Action}

@[simp] theorem exec_nil : m.exec s [] = some s := rfl

theorem exec_cons : m.exec s (a :: as) = (m.step s a).bind fun t => m.exec t as := rfl

theorem exec_cons_some (hstep : m.step s a = some t) :
    m.exec s (a :: as) = m.exec t as := by
  rw [exec_cons, hstep, Option.bind_some]

theorem exec_cons_eq_some :
    m.exec s (a :: as) = some u ↔ ∃ t, m.step s a = some t ∧ m.exec t as = some u := by
  rw [exec_cons, Option.bind_eq_some_iff]

theorem exec_singleton : m.exec s [a] = m.step s a := by
  rw [exec_cons]
  cases m.step s a <;> rfl

theorem exec_append :
    m.exec s (as ++ bs) = (m.exec s as).bind fun t => m.exec t bs := by
  induction as generalizing s with
  | nil => rfl
  | cons a as ih =>
      rw [List.cons_append, exec_cons, exec_cons, Option.bind_assoc]
      congr 1
      funext t
      exact ih

theorem exec_append_some (hexec : m.exec s as = some t) :
    m.exec s (as ++ bs) = m.exec t bs := by
  rw [exec_append, hexec, Option.bind_some]

@[simp] theorem exec_ofTotal (f : State → Action → State) (s : State) (as : List Action) :
    (ofTotal f).exec s as = some (as.foldl f s) := by
  induction as generalizing s with
  | nil => rfl
  | cons a as ih => exact ih (f s a)

/-! ## Reachability -/

/-- `t` lies at the end of some run from `s`. -/
def Reaches (m : Machine State Action) (s t : State) : Prop :=
  ∃ as, m.exec s as = some t

theorem Reaches.refl (m : Machine State Action) (s : State) : m.Reaches s s :=
  ⟨[], rfl⟩

theorem Reaches.trans (hst : m.Reaches s t) (htu : m.Reaches t u) : m.Reaches s u := by
  obtain ⟨as, has⟩ := hst
  obtain ⟨bs, hbs⟩ := htu
  exact ⟨as ++ bs, (exec_append_some has).trans hbs⟩

theorem Reaches.of_step (hstep : m.step s a = some t) : m.Reaches s t :=
  ⟨[a], exec_singleton.trans hstep⟩

def restrict (m : Machine State Action) (p : Action → Prop) [DecidablePred p] :
    Machine State Action :=
  ⟨fun s a => if p a then m.step s a else none⟩

theorem restrict_step {p : Action → Prop} [DecidablePred p] :
    (m.restrict p).step s a = some t ↔ p a ∧ m.step s a = some t := by
  unfold restrict
  by_cases hp : p a <;> simp [hp]

/-! ## Invariants -/

/-- No step leaves `I`. -/
def Preserves (m : Machine State Action) (I : State → Prop) : Prop :=
  ∀ ⦃s a t⦄, I s → m.step s a = some t → I t

theorem Preserves.exec {I : State → Prop} (hpres : m.Preserves I)
    (hs : I s) (hexec : m.exec s as = some t) : I t := by
  induction as generalizing s with
  | nil =>
      cases hexec
      exact hs
  | cons a as ih =>
      obtain ⟨s', hstep, hrest⟩ := exec_cons_eq_some.1 hexec
      exact ih (hpres hs hstep) hrest

theorem Preserves.reaches {I : State → Prop} (hpres : m.Preserves I)
    (hs : I s) (hreach : m.Reaches s t) : I t := by
  obtain ⟨as, has⟩ := hreach
  exact hpres.exec hs has

/-- An invariant that relates a state to the run that has led to it. -/
theorem exec_history {R : State → List Action → Prop} (hs : R s [])
    (hR : ∀ ⦃t bs a u⦄, R t bs → m.step t a = some u → R u (bs ++ [a]))
    (hexec : m.exec s as = some t) : R t as := by
  induction as using List.reverseRecOn generalizing t with
  | nil =>
      cases hexec
      exact hs
  | append_singleton bs a ih =>
      rw [exec_append, Option.bind_eq_some_iff] at hexec
      obtain ⟨u, hinit, hlast⟩ := hexec
      rw [exec_singleton] at hlast
      exact hR (ih hinit) hlast

/-! ## Properties of whole runs -/

/-- `P` holds in every state the run passes through, its two ends included. -/
def Throughout (m : Machine State Action) (P : State → Prop) (s : State)
    (as : List Action) : Prop :=
  ∀ pre t, pre <+: as → m.exec s pre = some t → P t

/-- Every step of the run meets `ok` in the state it is taken from. -/
def Along (m : Machine State Action) (ok : State → Action → Prop) (s : State)
    (as : List Action) : Prop :=
  ∀ pre a t, pre ++ [a] <+: as → m.exec s pre = some t → ok t a

theorem throughout_nil {P : State → Prop} : m.Throughout P s [] ↔ P s := by
  constructor
  · intro h
    exact h [] s List.prefix_rfl rfl
  · intro hs pre t hpre hexec
    rw [List.prefix_nil.1 hpre] at hexec
    cases hexec
    exact hs

theorem throughout_cons {P : State → Prop} (hstep : m.step s a = some t) :
    m.Throughout P s (a :: as) ↔ P s ∧ m.Throughout P t as := by
  constructor
  · intro h
    refine ⟨h [] s (List.nil_prefix) rfl, fun pre u hpre hexec => ?_⟩
    refine h (a :: pre) u (List.cons_prefix_cons.2 ⟨rfl, hpre⟩) ?_
    rw [exec_cons_some hstep, hexec]
  · rintro ⟨hs, hrest⟩ pre u hpre hexec
    cases pre with
    | nil =>
        cases hexec
        exact hs
    | cons b pre =>
        obtain ⟨rfl, hpre'⟩ := List.cons_prefix_cons.1 hpre
        rw [exec_cons_some hstep] at hexec
        exact hrest pre u hpre' hexec

theorem along_nil {ok : State → Action → Prop} : m.Along ok s [] := by
  intro pre a t hpre _
  exact absurd (List.prefix_nil.1 hpre) (by simp)

theorem along_cons {ok : State → Action → Prop} (hstep : m.step s a = some t) :
    m.Along ok s (a :: as) ↔ ok s a ∧ m.Along ok t as := by
  constructor
  · intro h
    refine ⟨h [] a s (List.cons_prefix_cons.2 ⟨rfl, List.nil_prefix⟩) rfl, ?_⟩
    intro pre b u hpre hexec
    refine h (a :: pre) b u (List.cons_prefix_cons.2 ⟨rfl, hpre⟩) ?_
    rw [exec_cons_some hstep, hexec]
  · rintro ⟨hs, hrest⟩ pre b u hpre hexec
    cases pre with
    | nil =>
        obtain ⟨rfl, -⟩ := List.cons_prefix_cons.1 hpre
        cases hexec
        exact hs
    | cons c pre =>
        obtain ⟨rfl, hpre'⟩ := List.cons_prefix_cons.1 hpre
        rw [exec_cons_some hstep] at hexec
        exact hrest pre b u hpre' hexec

theorem along_cons_of_none {ok : State → Action → Prop} (hstep : m.step s a = none) :
    m.Along ok s (a :: as) ↔ ok s a := by
  constructor
  · intro h
    exact h [] a s (List.cons_prefix_cons.2 ⟨rfl, List.nil_prefix⟩) rfl
  · intro hs pre b u hpre hexec
    cases pre with
    | nil =>
        obtain ⟨rfl, -⟩ := List.cons_prefix_cons.1 hpre
        cases hexec
        exact hs
    | cons c pre =>
        obtain ⟨rfl, -⟩ := List.cons_prefix_cons.1 hpre
        rw [exec_cons, hstep] at hexec
        cases hexec

instance decidableAlong (m : Machine State Action) (ok : State → Action → Prop)
    [∀ s a, Decidable (ok s a)] (s : State) : (as : List Action) → Decidable (m.Along ok s as)
  | [] => isTrue along_nil
  | a :: as =>
      match hstep : m.step s a with
      | some t =>
          haveI := decidableAlong m ok t as
          decidable_of_iff (ok s a ∧ m.Along ok t as) (along_cons hstep).symm
      | none => decidable_of_iff (ok s a) (along_cons_of_none hstep).symm

theorem Throughout.start {P : State → Prop} (h : m.Throughout P s as) : P s :=
  h [] s List.nil_prefix rfl

theorem Throughout.finish {P : State → Prop} (h : m.Throughout P s as)
    (hexec : m.exec s as = some t) : P t :=
  h as t List.prefix_rfl hexec

theorem Throughout.mono {P Q : State → Prop} (hPQ : ∀ s, P s → Q s)
    (h : m.Throughout P s as) : m.Throughout Q s as :=
  fun pre t hpre hexec => hPQ t (h pre t hpre hexec)

/-- An invariant that only the steps meeting `ok` preserve holds along every run
all of whose steps do. -/
theorem Along.throughout {I : State → Prop} {ok : State → Action → Prop}
    (hok : ∀ ⦃s a t⦄, I s → ok s a → m.step s a = some t → I t)
    (hs : I s) (hexec : m.exec s as = some u) (halong : m.Along ok s as) :
    m.Throughout I s as := by
  induction as generalizing s with
  | nil => exact throughout_nil.2 hs
  | cons a as ih =>
      obtain ⟨t, hstep, hrest⟩ := exec_cons_eq_some.1 hexec
      obtain ⟨hhead, htail⟩ := (along_cons hstep).1 halong
      exact (throughout_cons hstep).2 ⟨hs, ih (hok hs hhead hstep) hrest htail⟩

/-- The exactness rule.  `I` survives a step that meets `ok`; a step that does not
meet `ok` leads to a state without `P`.  Then `P` holds throughout a run exactly when
every step of the run meets `ok`. -/
theorem throughout_iff_along {I P : State → Prop} {ok : State → Action → Prop}
    (hP : ∀ ⦃s⦄, I s → P s)
    (hok : ∀ ⦃s a t⦄, I s → ok s a → m.step s a = some t → I t)
    (hbad : ∀ ⦃s a t⦄, I s → m.step s a = some t → P t → ok s a)
    (hs : I s) (hexec : m.exec s as = some u) :
    m.Throughout P s as ↔ m.Along ok s as := by
  constructor
  · intro h
    induction as generalizing s with
    | nil => exact along_nil
    | cons a as ih =>
        obtain ⟨t, hstep, hrest⟩ := exec_cons_eq_some.1 hexec
        have htail := ((throughout_cons hstep).1 h).2
        have hhead : ok s a := hbad hs hstep htail.start
        exact (along_cons hstep).2 ⟨hhead, ih (hok hs hhead hstep) hrest htail⟩
  · intro halong
    exact (halong.throughout hok hs hexec).mono fun _ h => hP h

/-- The rule for final states.  A step that meets `ok` keeps `G`, any other step leads
to `B`, and `B` is never left again: a run ends in `G` exactly when every step of
it meets `ok`. -/
theorem finish_iff_along {G B : State → Prop} {ok : State → Action → Prop}
    (hok : ∀ ⦃s a t⦄, G s → ok s a → m.step s a = some t → G t)
    (hbad : ∀ ⦃s a t⦄, G s → ¬ ok s a → m.step s a = some t → B t)
    (habsorb : m.Preserves B) (hdisj : ∀ ⦃s⦄, G s → ¬ B s)
    (hs : G s) (hexec : m.exec s as = some u) :
    G u ↔ m.Along ok s as := by
  constructor
  · intro hgood
    induction as generalizing s with
    | nil => exact along_nil
    | cons a as ih =>
        obtain ⟨t, hstep, hrest⟩ := exec_cons_eq_some.1 hexec
        have hhead : ok s a := by
          by_contra hnot
          exact hdisj hgood (habsorb.exec (hbad hs hnot hstep) hrest)
        exact (along_cons hstep).2 ⟨hhead, ih (hok hs hhead hstep) hrest⟩
  · intro halong
    exact (halong.throughout hok hs hexec).finish hexec

/-! ## Progress -/

/-- Steps that keep `I` and take from the measure `f` are soon over. -/
theorem length_le_of_decreasing {I : State → Prop} {p : Action → Prop} {f : State → Nat}
    (hstep : ∀ ⦃s a t⦄, I s → p a → m.step s a = some t → I t ∧ f t < f s)
    (hs : I s) (has : ∀ a ∈ as, p a) (hexec : m.exec s as = some t) :
    I t ∧ f t + as.length ≤ f s := by
  induction as generalizing s with
  | nil =>
      cases hexec
      exact ⟨hs, Nat.le_refl _⟩
  | cons a as ih =>
      obtain ⟨s', hfirst, hrest⟩ := exec_cons_eq_some.1 hexec
      obtain ⟨hs', hless⟩ := hstep hs (has a List.mem_cons_self) hfirst
      obtain ⟨ht, hle⟩ := ih hs' (fun b hb => has b (List.mem_cons_of_mem a hb)) hrest
      refine ⟨ht, ?_⟩
      rw [List.length_cons]
      omega

end Machine

end DataLogger.Foundation
