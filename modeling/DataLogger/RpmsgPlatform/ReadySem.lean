import DataLogger.Foundation.Machine
import DataLogger.Foundation.Threads

/-!
# Waiting for the platform

`rpmsg_mng_task` gives `ready_sem` once, whether the platform has come up or not, and every
caller of `rpmsg_platform_wait` takes it and gives it back.  The one token goes from the
task through all callers, in any order and whenever they arrive.
-/

namespace DataLogger.RpmsgPlatform

open DataLogger.Foundation

/-! ## The task and the callers -/

/-- `rpmsg_mng_task`: `giveUp` is the give after a failed `platform_init`, `check` the test of
`rpdev` behind the other give. -/
inductive MngPc where
  | platformInit
  | giveUp
  | createVdev
  | give
  | check
  | returned
  | polling
  deriving DecidableEq, Repr

/-- The task has given `ready_sem`. -/
def MngPc.given : MngPc → Bool
  | .check | .returned | .polling => true
  | _ => false

/-- A call of `rpmsg_platform_wait`; `away` is before the call. -/
inductive WaitPc (Dev : Type*) where
  | away
  | take
  | give
  | read
  | returned (rpdev : Option Dev)
  deriving DecidableEq

/-- Between the take and the give. -/
def WaitPc.holds {Dev : Type*} : WaitPc Dev → Bool
  | .give => true
  | _ => false

/-- The call has got past `k_sem_take`. -/
def WaitPc.passed {Dev : Type*} : WaitPc Dev → Bool
  | .away | .take => false
  | _ => true

structure Startup (ι Dev : Type*) where
  readySem : Semaphore 1
  rpdev : Option Dev
  mng : MngPc
  caller : ι → WaitPc Dev

/-- `platformInit` and `createVdev` are the steps of the task that can fail, with what they
return; `mng` is any other step of it. -/
inductive StartupAct (ι Dev : Type*) where
  | platformInit (ok : Bool)
  | createVdev (rdev : Option Dev)
  | mng
  | wait (i : ι)

def StartupAct.fails {ι Dev : Type*} : StartupAct ι Dev → Bool
  | .platformInit ok => !ok
  | .createVdev rdev => rdev.isNone
  | _ => false

variable {ι Dev : Type*}

namespace Startup

/-- At boot: nothing is given, and `rpdev` is NULL. -/
def initial : Startup ι Dev where
  readySem := Semaphore.empty 1
  rpdev := none
  mng := .platformInit
  caller _ := .away

def rpmsgMngTask (s : Startup ι Dev) : Option (Startup ι Dev) :=
  match s.mng with
  | .giveUp => some { s with readySem := s.readySem.give, mng := .returned }
  | .give => some { s with readySem := s.readySem.give, mng := .check }
  | .check => some { s with mng := if s.rpdev.isNone then .returned else .polling }
  | _ => none

variable [DecidableEq ι]

def rpmsgPlatformWait (i : ι) (s : Startup ι Dev) : Option (Startup ι Dev) :=
  match s.caller i with
  | .away => some { s with caller := Function.update s.caller i .take }
  | .take =>
      s.readySem.take.map fun sem =>
        { s with readySem := sem, caller := Function.update s.caller i .give }
  | .give =>
      some { s with readySem := s.readySem.give, caller := Function.update s.caller i .read }
  | .read => some { s with caller := Function.update s.caller i (.returned s.rpdev) }
  | .returned _ => none

def step (s : Startup ι Dev) : StartupAct ι Dev → Option (Startup ι Dev)
  | .platformInit ok =>
      if s.mng = .platformInit then some { s with mng := if ok then .createVdev else .giveUp }
      else none
  | .createVdev rdev =>
      if s.mng = .createVdev then some { s with rpdev := rdev, mng := .give } else none
  | .mng => s.rpmsgMngTask
  | .wait i => s.rpmsgPlatformWait i

end Startup

def startupMachine (ι Dev : Type*) [DecidableEq ι] :
    Machine (Startup ι Dev) (StartupAct ι Dev) := ⟨Startup.step⟩

/-! ## The invariant -/

variable [Fintype ι]

/-- How far the task is, against what has failed on the way. -/
def Startup.Outcome (s : Startup ι Dev) (as : List (StartupAct ι Dev)) : Prop :=
  match s.mng with
  | .platformInit | .createVdev => s.rpdev = none ∧ ∀ a ∈ as, a.fails = false
  | _ => s.rpdev = none ↔ ∃ a ∈ as, a.fails = true

/-- Before the give of the task no call gets past its take; afterwards the token is in the
semaphore or with one caller. -/
structure Startup.Sound (s : Startup ι Dev) (as : List (StartupAct ι Dev)) : Prop where
  closed : s.mng.given = false →
    s.readySem.count = 0 ∧ ∀ i, (s.caller i).passed = false
  token : s.mng.given = true → OneToken s.readySem WaitPc.holds s.caller
  returned : ∀ i rpdev, s.caller i = .returned rpdev → rpdev = s.rpdev
  outcome : s.Outcome as

variable {s t : Startup ι Dev} {as : List (StartupAct ι Dev)} {i : ι}

namespace Startup.Sound

theorem given_of_passed (hs : s.Sound as) (hi : (s.caller i).passed = true) :
    s.mng.given = true := by
  by_contra hnot
  have hclosed := (hs.closed (by simpa using hnot)).2 i
  rw [hi] at hclosed
  cases hclosed

/-- Whoever is about to give finds the semaphore empty. -/
theorem give_not_lost [DecidableEq ι] (hs : s.Sound as)
    (hgive : s.mng = .giveUp ∨ s.mng = .give ∨ ∃ i, s.caller i = .give) :
    s.readySem.give.count = s.readySem.count + 1 := by
  have hzero : s.readySem.count = 0 := by
    rcases hgive with h | h | ⟨i, h⟩
    · exact (hs.closed (by rw [h]; rfl)).1
    · exact (hs.closed (by rw [h]; rfl)).1
    · have hgiven := hs.given_of_passed (i := i) (by rw [h]; rfl)
      exact (hs.token hgiven).count_zero (i := i) (by rw [h]; rfl)
  rw [Semaphore.give_count, hzero]
  rfl

theorem null_iff (hs : s.Sound as) (hgiven : s.mng.given = true) :
    s.rpdev = none ↔ ∃ a ∈ as, a.fails = true := by
  have houtcome := hs.outcome
  unfold Startup.Outcome at houtcome
  cases hpc : s.mng with
  | platformInit | giveUp | createVdev | give =>
      rw [hpc] at hgiven
      cases hgiven
  | check | returned | polling =>
      rw [hpc] at houtcome
      exact houtcome

end Startup.Sound

theorem sound_initial : (Startup.initial : Startup ι Dev).Sound [] := by
  refine ⟨fun _ => ⟨rfl, fun _ => rfl⟩, (fun h => nomatch h), (fun _ _ h => nomatch h), rfl, ?_⟩
  intro a ha
  cases ha

omit [Fintype ι] in
theorem outcome_append {a : StartupAct ι Dev} (hs : s.Outcome as) (ha : a.fails = false) :
    s.Outcome (as ++ [a]) := by
  have hall : (∀ b ∈ as ++ [a], b.fails = false) ↔ ∀ b ∈ as, b.fails = false := by
    simp [or_imp, forall_and, ha]
  have hany : (∃ b ∈ as ++ [a], b.fails = true) ↔ ∃ b ∈ as, b.fails = true := by
    simp [or_and_right, exists_or, ha]
  unfold Startup.Outcome at hs ⊢
  rw [hall, hany]
  exact hs

omit [Fintype ι] in
theorem outcome_of_early (hs : s.Outcome as)
    (hearly : s.mng = .platformInit ∨ s.mng = .createVdev) :
    s.rpdev = none ∧ ∀ a ∈ as, a.fails = false := by
  unfold Startup.Outcome at hs
  rcases hearly with h | h <;> rw [h] at hs <;> exact hs

/-! ## The task's steps -/

/-- The task moves on without a give. -/
theorem sound_mng (hs : s.Sound as) (pc : MngPc) {bs : List (StartupAct ι Dev)}
    (hgiven : pc.given = s.mng.given) (houtcome : Startup.Outcome { s with mng := pc } bs) :
    Startup.Sound { s with mng := pc } bs :=
  ⟨fun h => hs.closed (hgiven ▸ h), fun h => hs.token (hgiven ▸ h), hs.returned, houtcome⟩

/-- The one give of the task. -/
theorem sound_mng_give (hs : s.Sound as) {pc : MngPc} {bs : List (StartupAct ι Dev)}
    (hclosed : s.mng.given = false) (hgiven : pc.given = true)
    (houtcome : Startup.Outcome { s with readySem := s.readySem.give, mng := pc } bs) :
    Startup.Sound { s with readySem := s.readySem.give, mng := pc } bs := by
  obtain ⟨hzero, hcallers⟩ := hs.closed hclosed
  refine ⟨fun h => ?_, fun _ => ?_, hs.returned, houtcome⟩
  · change pc.given = false at h
    rw [hgiven] at h
    cases h
  · have hnone : countAt WaitPc.holds s.caller = 0 := by
      apply countAt_eq_zero.2
      intro i
      have hi := hcallers i
      cases hpc : s.caller i <;> rw [hpc] at hi <;> first | rfl | cases hi
    rw [OneToken, Semaphore.give_count, hzero, hnone]
    rfl

theorem sound_platformInit (hs : s.Sound as) (hpc : s.mng = .platformInit) (ok : Bool) :
    Startup.Sound { s with mng := if ok then .createVdev else .giveUp }
      (as ++ [.platformInit ok]) := by
  obtain ⟨hnone, hfails⟩ := outcome_of_early hs.outcome (.inl hpc)
  cases ok with
  | true =>
      refine sound_mng hs .createVdev (by rw [hpc]; rfl) ⟨hnone, ?_⟩
      intro a ha
      rcases List.mem_append.1 ha with h | h
      · exact hfails a h
      · rw [List.mem_singleton.1 h]
        rfl
  | false =>
      refine sound_mng hs .giveUp (by rw [hpc]; rfl) ⟨fun _ => ?_, fun _ => hnone⟩
      exact ⟨.platformInit false, by simp, rfl⟩

theorem sound_createVdev (hs : s.Sound as) (hpc : s.mng = .createVdev) (rdev : Option Dev) :
    Startup.Sound { s with rpdev := rdev, mng := .give } (as ++ [.createVdev rdev]) := by
  obtain ⟨-, hfails⟩ := outcome_of_early hs.outcome (.inr hpc)
  have hclosed := hs.closed (by rw [hpc]; rfl)
  refine ⟨fun _ => hclosed, (fun h => nomatch h), ?_, ?_, ?_⟩
  · intro i rpdev hi
    have hpassed := hclosed.2 i
    change s.caller i = _ at hi
    rw [hi] at hpassed
    cases hpassed
  · rintro rfl
    exact ⟨.createVdev none, by simp, rfl⟩
  · rintro ⟨a, ha, hfail⟩
    rcases List.mem_append.1 ha with h | h
    · rw [hfails a h] at hfail
      cases hfail
    · rw [List.mem_singleton.1 h] at hfail
      exact Option.isNone_iff_eq_none.1 hfail

theorem sound_rpmsgMngTask (hs : s.Sound as) (hstep : s.rpmsgMngTask = some t) :
    t.Sound (as ++ [.mng]) := by
  have houtcome := outcome_append hs.outcome (a := .mng) rfl
  unfold Startup.Outcome at houtcome
  unfold Startup.rpmsgMngTask at hstep
  cases hpc : s.mng with
  | giveUp =>
      rw [hpc] at hstep houtcome
      cases hstep
      exact sound_mng_give hs (by rw [hpc]; rfl) rfl houtcome
  | give =>
      rw [hpc] at hstep houtcome
      cases hstep
      exact sound_mng_give hs (by rw [hpc]; rfl) rfl houtcome
  | check =>
      rw [hpc] at hstep houtcome
      cases hstep
      cases hrpdev : s.rpdev.isNone with
      | true => exact sound_mng hs .returned (by rw [hpc]; rfl) houtcome
      | false => exact sound_mng hs .polling (by rw [hpc]; rfl) houtcome
  | platformInit | createVdev | returned | polling =>
      rw [hpc] at hstep
      cases hstep

/-! ## The callers' steps -/

variable [DecidableEq ι]

/-- A call moves on, with the token conserved. -/
theorem sound_wait (hs : s.Sound as) {sem : Semaphore 1} {pc : WaitPc Dev}
    (hclosed : s.mng.given = false → sem.count = 0 ∧ pc.passed = false)
    (htoken : s.mng.given = true →
      OneToken sem WaitPc.holds (Function.update s.caller i pc))
    (hreturned : ∀ rpdev, pc = .returned rpdev → rpdev = s.rpdev) :
    Startup.Sound { s with readySem := sem, caller := Function.update s.caller i pc }
      (as ++ [.wait i]) := by
  refine ⟨fun hnot => ⟨(hclosed hnot).1, fun j => ?_⟩, htoken, ?_,
    outcome_append hs.outcome rfl⟩
  · by_cases hj : j = i
    · rw [hj]
      simpa using (hclosed hnot).2
    · simpa [Function.update_of_ne hj] using (hs.closed hnot).2 j
  · intro j rpdev hj
    rcases update_cases (f := s.caller) hj with ⟨-, hpc⟩ | ⟨-, hsame⟩
    · exact hreturned rpdev hpc
    · exact hs.returned j rpdev hsame

theorem sound_rpmsgPlatformWait (hs : s.Sound as) (hstep : s.rpmsgPlatformWait i = some t) :
    t.Sound (as ++ [.wait i]) := by
  unfold Startup.rpmsgPlatformWait at hstep
  cases hpc : s.caller i with
  | away =>
      rw [hpc] at hstep
      cases hstep
      refine sound_wait hs (fun h => ⟨(hs.closed h).1, rfl⟩) (fun h => ?_)
        fun _ h => nomatch h
      exact (hs.token h).move (by rw [hpc]; rfl)
  | take =>
      rw [hpc] at hstep
      obtain ⟨sem, htake, hnext⟩ := Option.map_eq_some_iff.1 hstep
      cases hnext
      have hcount := Semaphore.take_eq_some.1 htake
      refine sound_wait hs (fun h => ?_) (fun h => ?_) fun _ h => nomatch h
      · have hzero := (hs.closed h).1
        omega
      · exact ((hs.token h).take htake (by rw [hpc]; rfl) rfl).1
  | give =>
      have hgiven := hs.given_of_passed (i := i) (by rw [hpc]; rfl)
      rw [hpc] at hstep
      cases hstep
      refine sound_wait hs (fun h => ?_) (fun h => ?_) fun _ h => nomatch h
      · rw [hgiven] at h
        cases h
      · exact (hs.token h).give (by rw [hpc]; rfl) rfl
  | read =>
      have hgiven := hs.given_of_passed (i := i) (by rw [hpc]; rfl)
      rw [hpc] at hstep
      cases hstep
      refine sound_wait hs (fun h => ?_) (fun h => ?_) fun rpdev h => ?_
      · rw [hgiven] at h
        cases h
      · exact (hs.token h).move (by rw [hpc]; rfl)
      · cases h
        rfl
  | returned rpdev =>
      rw [hpc] at hstep
      cases hstep

theorem sound_of_exec (hexec : (startupMachine ι Dev).exec Startup.initial as = some s) :
    s.Sound as := by
  refine Machine.exec_history (R := Startup.Sound) sound_initial ?_ hexec
  intro t bs a u hs hstep
  cases a with
  | platformInit ok =>
      obtain ⟨hpc, hnext⟩ := Option.ite_none_right_eq_some.1 hstep
      cases hnext
      exact sound_platformInit hs hpc ok
  | createVdev rdev =>
      obtain ⟨hpc, hnext⟩ := Option.ite_none_right_eq_some.1 hstep
      cases hnext
      exact sound_createVdev hs hpc rdev
  | mng => exact sound_rpmsgMngTask hs hstep
  | wait i => exact sound_rpmsgPlatformWait hs hstep

/-! ## The broadcast -/

omit [Fintype ι] in
/-- Once the semaphore is given, `rpdev` stays as it is. -/
theorem preserves_rpdev (rpdev : Option Dev) :
    (startupMachine ι Dev).Preserves fun s => s.mng.given = true ∧ s.rpdev = rpdev := by
  rintro s a t ⟨hgiven, hrpdev⟩ hstep
  cases a with
  | platformInit ok =>
      obtain ⟨hpc, -⟩ := Option.ite_none_right_eq_some.1 hstep
      rw [hpc] at hgiven
      cases hgiven
  | createVdev rdev =>
      obtain ⟨hpc, -⟩ := Option.ite_none_right_eq_some.1 hstep
      rw [hpc] at hgiven
      cases hgiven
  | mng =>
      change s.rpmsgMngTask = some t at hstep
      unfold Startup.rpmsgMngTask at hstep
      cases hpc : s.mng with
      | check =>
          rw [hpc] at hstep
          cases hstep
          refine ⟨?_, hrpdev⟩
          cases hnull : s.rpdev.isNone <;> simp [MngPc.given]
      | platformInit | giveUp | createVdev | give =>
          rw [hpc] at hgiven
          cases hgiven
      | returned | polling =>
          rw [hpc] at hstep
          cases hstep
  | wait i =>
      change s.rpmsgPlatformWait i = some t at hstep
      unfold Startup.rpmsgPlatformWait at hstep
      cases hpc : s.caller i with
      | away | give | read =>
          rw [hpc] at hstep
          cases hstep
          exact ⟨hgiven, hrpdev⟩
      | take =>
          rw [hpc] at hstep
          obtain ⟨sem, -, hnext⟩ := Option.map_eq_some_iff.1 hstep
          cases hnext
          exact ⟨hgiven, hrpdev⟩
      | returned rpdev =>
          rw [hpc] at hstep
          cases hstep

omit [DecidableEq ι] in
/-- A call that waits after the give waits for the semaphore's token or for a caller that
has it. -/
theorem token_of_waiting (hs : s.Sound as) (hgiven : s.mng.given = true) :
    s.readySem.count = 1 ∨ ∃ j, s.caller j = .give := by
  by_cases hone : s.readySem.count = 1
  · exact .inl hone
  · have htoken := hs.token hgiven
    have hle := s.readySem.count_le
    rw [OneToken] at htoken
    have hpos : 0 < countAt WaitPc.holds s.caller := by omega
    obtain ⟨j, hj⟩ := exists_of_countAt_pos hpos
    refine .inr ⟨j, ?_⟩
    cases hpc : s.caller j <;> rw [hpc] at hj <;> first | rfl | cases hj

/-- `rpmsg_platform_wait` is a one-shot broadcast to any number of callers. -/
theorem rpmsgPlatformWait_broadcast
    (hexec : (startupMachine ι Dev).exec Startup.initial as = some s) :
    (∀ i rpdev, s.caller i = .returned rpdev →
      s.mng.given = true ∧ rpdev = s.rpdev ∧ (rpdev = none ↔ ∃ a ∈ as, a.fails = true)) ∧
    (s.mng.given = true →
      ∀ bs t, (startupMachine ι Dev).exec s bs = some t → t.rpdev = s.rpdev) ∧
    (s.mng.given = true → s.readySem.count + countAt WaitPc.holds s.caller = 1) ∧
    (s.mng = .giveUp ∨ s.mng = .give ∨ (∃ i, s.caller i = .give) →
      s.readySem.give.count = s.readySem.count + 1) ∧
    (s.mng.given = true →
      ∀ i, s.caller i = .take → s.readySem.count = 1 ∨ ∃ j, s.caller j = .give) := by
  have hs := sound_of_exec hexec
  refine ⟨?_, ?_, hs.token, hs.give_not_lost, fun hgiven _ _ => token_of_waiting hs hgiven⟩
  · intro i rpdev hi
    have hgiven := hs.given_of_passed (i := i) (by rw [hi]; rfl)
    have hvalue := hs.returned i rpdev hi
    refine ⟨hgiven, hvalue, ?_⟩
    rw [hvalue]
    exact hs.null_iff hgiven
  · intro hgiven bs t ht
    exact ((preserves_rpdev s.rpdev).exec ⟨hgiven, rfl⟩ ht).2

/-- One caller is there before the task has begun, the other comes while the first has the
token. -/
theorem rpmsgPlatformWait_broadcast_two :
    ∃ s, (startupMachine Bool Nat).exec Startup.initial
        [.wait false, .platformInit true, .createVdev (some 7), .mng, .wait false, .wait true,
          .mng, .wait false, .wait true, .wait false, .wait true, .wait true] = some s ∧
      s.caller false = .returned (some 7) ∧ s.caller true = .returned (some 7) ∧
      s.readySem.count + countAt WaitPc.holds s.caller = 1 := by
  have hrun : ((startupMachine Bool Nat).exec Startup.initial
      [.wait false, .platformInit true, .createVdev (some 7), .mng, .wait false, .wait true,
        .mng, .wait false, .wait true, .wait false, .wait true, .wait true]).map
          (fun s => (s.caller false, s.caller true)) =
      some (.returned (some 7), .returned (some 7)) := by decide +kernel
  obtain ⟨s, hexec, hs⟩ := Option.map_eq_some_iff.1 hrun
  obtain ⟨hfalse, htrue⟩ := Prod.mk.inj hs
  have hbroadcast := rpmsgPlatformWait_broadcast hexec
  have hgiven := (hbroadcast.1 false _ hfalse).1
  exact ⟨s, hexec, hfalse, htrue, hbroadcast.2.2.1 hgiven⟩

/-! ## No caller is left behind -/

/-- The steps of a call up to its return. -/
def WaitPc.stepsLeft : WaitPc Dev → Nat
  | .away => 4
  | .take => 3
  | .give => 2
  | .read => 1
  | .returned _ => 0

def MngPc.stepsLeft : MngPc → Nat
  | .check => 1
  | _ => 0

/-- The steps that the task and the callers have left, once the task has given. -/
def Startup.stepsLeft (s : Startup ι Dev) : Nat :=
  s.mng.stepsLeft + sumAt WaitPc.stepsLeft s.caller

omit [DecidableEq ι] in
theorem stepsLeft_le (s : Startup ι Dev) : s.stepsLeft ≤ 4 * Fintype.card ι + 1 := by
  have hmng : s.mng.stepsLeft ≤ 1 := by
    cases s.mng <;> decide
  have hcalls : sumAt WaitPc.stepsLeft s.caller ≤ Fintype.card ι * 4 := by
    apply sumAt_le
    intro pc
    cases pc <;> simp [WaitPc.stepsLeft]
  rw [Startup.stepsLeft]
  omega

/-- A call that takes a step has one less to take. -/
theorem stepsLeft_move {sem : Semaphore 1} {pc : WaitPc Dev}
    (h : pc.stepsLeft + 1 = (s.caller i).stepsLeft) :
    Startup.stepsLeft { s with readySem := sem, caller := Function.update s.caller i pc } + 1 =
      s.stepsLeft := by
  have hsum := sumAt_update WaitPc.stepsLeft s.caller i pc
  simp only [Startup.stepsLeft]
  omega

theorem stepsLeft_wait (hstep : s.rpmsgPlatformWait i = some t) :
    t.stepsLeft + 1 = s.stepsLeft := by
  unfold Startup.rpmsgPlatformWait at hstep
  cases hpc : s.caller i with
  | away | give | read =>
      rw [hpc] at hstep
      cases hstep
      exact stepsLeft_move (by rw [hpc]; rfl)
  | take =>
      rw [hpc] at hstep
      obtain ⟨sem, -, hnext⟩ := Option.map_eq_some_iff.1 hstep
      cases hnext
      exact stepsLeft_move (by rw [hpc]; rfl)
  | returned rpdev =>
      rw [hpc] at hstep
      cases hstep

/-- After the give, every step is one of those that were left. -/
theorem stepsLeft_step {a : StartupAct ι Dev} (hgiven : s.mng.given = true)
    (hstep : (startupMachine ι Dev).step s a = some t) : t.stepsLeft + 1 = s.stepsLeft := by
  cases a with
  | platformInit ok =>
      obtain ⟨hpc, -⟩ := Option.ite_none_right_eq_some.1 hstep
      rw [hpc] at hgiven
      cases hgiven
  | createVdev rdev =>
      obtain ⟨hpc, -⟩ := Option.ite_none_right_eq_some.1 hstep
      rw [hpc] at hgiven
      cases hgiven
  | mng =>
      change s.rpmsgMngTask = some t at hstep
      unfold Startup.rpmsgMngTask at hstep
      cases hpc : s.mng with
      | check =>
          rw [hpc] at hstep
          cases hstep
          rw [Startup.stepsLeft, Startup.stepsLeft, hpc]
          cases s.rpdev <;> simp [MngPc.stepsLeft, Nat.add_comm]
      | platformInit | giveUp | createVdev | give =>
          rw [hpc] at hgiven
          cases hgiven
      | returned | polling =>
          rw [hpc] at hstep
          cases hstep
  | wait i => exact stepsLeft_wait hstep

/-- As long as a call has not returned, it or the caller that has the token can move. -/
theorem exists_wait (hs : s.Sound as) (hgiven : s.mng.given = true)
    (hi : ∀ rpdev, s.caller i ≠ .returned rpdev) :
    ∃ j, (startupMachine ι Dev).step s (.wait j) ≠ none := by
  cases hpc : s.caller i with
  | away => exact ⟨i, by simp [startupMachine, Startup.step, Startup.rpmsgPlatformWait, hpc]⟩
  | take =>
      rcases token_of_waiting hs hgiven with hcount | ⟨j, hj⟩
      · refine ⟨i, ?_⟩
        simp [startupMachine, Startup.step, Startup.rpmsgPlatformWait, hpc, Semaphore.take, hcount]
      · exact ⟨j, by simp [startupMachine, Startup.step, Startup.rpmsgPlatformWait, hj]⟩
  | give => exact ⟨i, by simp [startupMachine, Startup.step, Startup.rpmsgPlatformWait, hpc]⟩
  | read => exact ⟨i, by simp [startupMachine, Startup.step, Startup.rpmsgPlatformWait, hpc]⟩
  | returned rpdev => exact absurd hpc (hi rpdev)

/-- **Every call returns.**  Once the task has given, whatever the order in which the callers come
and go, soon no step is left, and when no caller can move every call has returned the
device that the task has published. -/
theorem rpmsgPlatformWait_returns {bs : List (StartupAct ι Dev)}
    (hexec : (startupMachine ι Dev).exec Startup.initial as = some s)
    (hgiven : s.mng.given = true) (hrun : (startupMachine ι Dev).exec s bs = some t) :
    bs.length ≤ 4 * Fintype.card ι + 1 ∧
      ((∀ i, (startupMachine ι Dev).step t (.wait i) = none) →
        ∀ i, t.caller i = .returned s.rpdev) := by
  have hkept := (preserves_rpdev s.rpdev).exec ⟨hgiven, rfl⟩ hrun
  have hs : t.Sound (as ++ bs) := sound_of_exec ((Machine.exec_append_some hexec).trans hrun)
  constructor
  · have hdecreasing : ∀ ⦃v : Startup ι Dev⦄ ⦃a u⦄, v.mng.given = true ∧ v.rpdev = s.rpdev →
        True → (startupMachine ι Dev).step v a = some u →
        (u.mng.given = true ∧ u.rpdev = s.rpdev) ∧ u.stepsLeft < v.stepsLeft := by
      intro v a u hv _ hstep
      have hone := stepsLeft_step hv.1 hstep
      exact ⟨preserves_rpdev s.rpdev hv hstep, by omega⟩
    have hless := (Machine.length_le_of_decreasing hdecreasing ⟨hgiven, rfl⟩
      (fun _ _ => trivial) hrun).2
    have hbound := stepsLeft_le s
    omega
  · intro hstuck i
    by_contra hnot
    have hi : ∀ rpdev, t.caller i ≠ .returned rpdev := by
      rintro rpdev hreturned
      rw [hs.returned i rpdev hreturned, hkept.2] at hreturned
      exact hnot hreturned
    obtain ⟨j, hj⟩ := exists_wait hs hkept.1 hi
    exact hj (hstuck j)

/-- Two calls after a failed `platform_init`; the second waits for the token of the first. -/
theorem rpmsgPlatformWait_returns_failed :
    ∃ s t, (startupMachine Bool Nat).exec Startup.initial
        [.wait false, .wait true, .platformInit false, .mng] = some s ∧
      (startupMachine Bool Nat).exec s
        [.wait true, .wait true, .wait false, .wait true, .wait false, .wait false] = some t ∧
      ∀ i, t.caller i = .returned none := by
  have hfirst : ((startupMachine Bool Nat).exec Startup.initial
      [.wait false, .wait true, .platformInit false, .mng]).map
        (fun s => (s.mng.given, s.rpdev)) = some (true, none) := by decide +kernel
  obtain ⟨s, hexec, hs⟩ := Option.map_eq_some_iff.1 hfirst
  obtain ⟨hgiven, hrpdev⟩ := Prod.mk.inj hs
  have hall : ((startupMachine Bool Nat).exec Startup.initial
      ([.wait false, .wait true, .platformInit false, .mng] ++
        [.wait true, .wait true, .wait false, .wait true, .wait false, .wait false])).map
        (fun s => (((startupMachine Bool Nat).step s (.wait false)).isNone,
          ((startupMachine Bool Nat).step s (.wait true)).isNone)) = some (true, true) := by
    decide +kernel
  rw [Machine.exec_append_some hexec] at hall
  obtain ⟨t, hrun, ht⟩ := Option.map_eq_some_iff.1 hall
  obtain ⟨hfalse, htrue⟩ := Prod.mk.inj ht
  refine ⟨s, t, hexec, hrun, ?_⟩
  rw [← hrpdev]
  apply (rpmsgPlatformWait_returns hexec hgiven hrun).2
  intro i
  cases i with
  | false => exact Option.isNone_iff_eq_none.1 hfalse
  | true => exact Option.isNone_iff_eq_none.1 htrue

end DataLogger.RpmsgPlatform
