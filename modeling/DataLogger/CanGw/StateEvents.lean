import DataLogger.CanGw.Control
import DataLogger.Foundation.KernelObjects
import DataLogger.Foundation.Sampling
import DataLogger.OpenAmp.Rpmsg

/-!
# State changes on their way to Linux

`can_state_change_cb` overwrites `pending_state` and gives a binary semaphore, in driver
context and at any moment; the control task takes the semaphore, reads the state and the
peer address and sends an EVT_STATE.  `callbacks` counts the callbacks between their two
steps; `reported` and `accepted` only record what has happened.
-/

namespace DataLogger.CanGw

open DataLogger.Foundation
open DataLogger.Zephyr
open DataLogger.OpenAmp

/-! ## The state -/

/-- `enum can_state`, with the values that Zephyr and Linux share. -/
inductive CanState where
  | errorActive
  | errorWarning
  | errorPassive
  | busOff
  | stopped
  | sleeping
  deriving DecidableEq, Repr

def CanState.code : CanState → Nat
  | errorActive => 0
  | errorWarning => 1
  | errorPassive => 2
  | busOff => 3
  | stopped => 4
  | sleeping => 5

/-- The EVT_STATE message for the value `st` of `pending_state`. -/
def evtState (st : Int) : RpmsgCanCtrl :=
  .request .evtState 0#8 (BitVec.ofInt 32 st)

def evtStateData (st : CanState) : List Byte := (evtState st.code).toBytes

/-- Where `can_gw_ctl_task` stands in its loop. -/
inductive CtlTask where
  | waiting
  | woken
  | read (st : Int)
  | addressed (st : Int) (peer : BitVec 32)
  deriving DecidableEq

/-- The value of `pending_state` in the task's hands. -/
def CtlTask.held : CtlTask → Option Int
  | waiting => none
  | woken => none
  | read st => some st
  | addressed st _ => some st

structure EvtPath where
  pendingState : Int
  stateSem : Semaphore 1
  peerAddr : BitVec 32
  callbacks : Nat
  task : CtlTask
  reported : List CanState
  accepted : List RpmsgMessage
  deriving DecidableEq

def EvtPath.atBoot : EvtPath := ⟨-1, .empty 1, peerUnknown, 0, .waiting, [], []⟩

/-! ## The steps -/

/-- `report` and `give`: the two steps of `can_state_change_cb`.  `recv`: a message from
Linux arrives.  The others are the steps of `can_gw_ctl_task`; after a `timeout` it prints
the statistics and waits again. -/
inductive EvtAction where
  | report (st : CanState)
  | give
  | recv (src : BitVec 32)
  | take
  | timeout
  | readState
  | readPeer
  | send (r : Reply)
  deriving DecidableEq

def EvtPath.step (s : EvtPath) : EvtAction → Option EvtPath
  | .report st =>
      some { s with pendingState := st.code, callbacks := s.callbacks + 1,
                    reported := s.reported ++ [st] }
  | .give =>
      if s.callbacks = 0 then none
      else some { s with callbacks := s.callbacks - 1, stateSem := s.stateSem.give }
  | .recv src => if src = peerUnknown then none else some { s with peerAddr := src }
  | .take =>
      match s.task, s.stateSem.take with
      | .waiting, some sem => some { s with stateSem := sem, task := .woken }
      | _, _ => none
  | .timeout => if s.task = .waiting ∧ s.stateSem.count = 0 then some s else none
  | .readState =>
      match s.task with
      | .woken => some { s with task := .read s.pendingState }
      | _ => none
  | .readPeer =>
      match s.task with
      | .read st =>
          let peer := s.peerAddr
          if 0 ≤ st ∧ peer ≠ peerUnknown then some { s with task := .addressed st peer }
          else some { s with task := .waiting }
      | _ => none
  | .send r =>
      match s.task with
      | .addressed st peer =>
          -- the return code is not looked at
          let (_, accepted) := rpmsgTrysendto r ⟨(evtState st).toBytes, peer⟩ s.accepted
          some { s with accepted := accepted, task := .waiting }
      | _ => none

def evtMachine : Machine EvtPath EvtAction := ⟨EvtPath.step⟩

/-- Every way a step changes the state, with what it found there. -/
inductive EvtPath.Step (s : EvtPath) : EvtAction → EvtPath → Prop where
  | reported (st : CanState) :
      Step s (.report st)
        { s with pendingState := st.code, callbacks := s.callbacks + 1,
                 reported := s.reported ++ [st] }
  | given (hcb : s.callbacks ≠ 0) :
      Step s .give { s with callbacks := s.callbacks - 1, stateSem := s.stateSem.give }
  | recv (src : BitVec 32) (hsrc : src ≠ peerUnknown) :
      Step s (.recv src) { s with peerAddr := src }
  | taken (sem : Semaphore 1) (htask : s.task = .waiting)
      (hsem : s.stateSem.count = sem.count + 1) :
      Step s .take { s with stateSem := sem, task := .woken }
  | timeout (htask : s.task = .waiting) (hsem : s.stateSem.count = 0) : Step s .timeout s
  | readState (htask : s.task = .woken) :
      Step s .readState { s with task := .read s.pendingState }
  | addressed (st : Int) (htask : s.task = .read st) (hst : 0 ≤ st)
      (hpeer : s.peerAddr ≠ peerUnknown) :
      Step s .readPeer { s with task := .addressed st s.peerAddr }
  | skipped (st : Int) (htask : s.task = .read st)
      (hskip : ¬ (0 ≤ st ∧ s.peerAddr ≠ peerUnknown)) :
      Step s .readPeer { s with task := .waiting }
  | accepted (st : Int) (peer : BitVec 32) (htask : s.task = .addressed st peer) :
      Step s (.send .ok)
        { s with accepted := s.accepted ++ [⟨(evtState st).toBytes, peer⟩],
                 task := .waiting }
  | refused (st : Int) (peer : BitVec 32) (e : Errno) (htask : s.task = .addressed st peer) :
      Step s (.send (.fail e)) { s with task := .waiting }

variable {s t : EvtPath} {a : EvtAction}

theorem EvtPath.step_cases (hstep : evtMachine.step s a = some t) : s.Step a t := by
  change s.step a = some t at hstep
  cases a with
  | report st =>
      cases hstep
      exact .reported st
  | give =>
      rw [EvtPath.step] at hstep
      split at hstep
      · cases hstep
      · rename_i hcb
        cases hstep
        exact .given hcb
  | recv src =>
      rw [EvtPath.step] at hstep
      split at hstep
      · cases hstep
      · rename_i hsrc
        cases hstep
        exact .recv src hsrc
  | take =>
      rw [EvtPath.step] at hstep
      split at hstep
      · rename_i sem htask hsem
        cases hstep
        exact .taken sem htask (Semaphore.take_eq_some.1 hsem)
      · cases hstep
  | timeout =>
      rw [EvtPath.step] at hstep
      split at hstep
      · rename_i hwait
        cases hstep
        exact .timeout hwait.1 hwait.2
      · cases hstep
  | readState =>
      rw [EvtPath.step] at hstep
      split at hstep
      · rename_i htask
        cases hstep
        exact .readState htask
      · cases hstep
  | readPeer =>
      rw [EvtPath.step] at hstep
      split at hstep
      · rename_i st htask
        simp only at hstep
        split at hstep
        · rename_i hgo
          cases hstep
          exact .addressed st htask hgo.1 hgo.2
        · rename_i hskip
          cases hstep
          exact .skipped st htask hskip
      · cases hstep
  | send r =>
      rw [EvtPath.step] at hstep
      split at hstep
      · rename_i st peer htask
        cases r with
        | ok =>
            cases hstep
            exact .accepted st peer htask
        | fail e =>
            cases hstep
            exact .refused st peer e htask
      · cases hstep

/-! ## Order and freshness -/

/-- Command and argument of an accepted message, as Linux decodes them. -/
def eventOf (data : List Byte) : Byte × BitVec 32 :=
  ((RpmsgCanCtrl.ofBytes data).cmd, (RpmsgCanCtrl.ofBytes data).arg)

/-- Command and argument that report `st`. -/
def CanState.event (st : CanState) : Byte × BitVec 32 :=
  (RpmsgCanCmd.evtState.code, BitVec.ofNat 32 st.code)

/-- The accepted messages, decoded. -/
def EvtPath.events (s : EvtPath) : List (Byte × BitVec 32) :=
  s.accepted.map fun m => eventOf m.data

/-- The accepted events carry states in the order of their reports, with repetitions. -/
def EvtPath.InOrder (s : EvtPath) : Prop :=
  ∃ sent, s.accepted.map RpmsgMessage.data = sent.map evtStateData ∧
    s.events = sent.map CanState.event ∧ SampledInOrder s.reported sent

/-- No callback between its steps, the task waiting and no wake-up due. -/
def EvtPath.Quiescent (s : EvtPath) : Prop :=
  s.callbacks = 0 ∧ s.task = .waiting ∧ s.stateSem.count = 0

/-- The last event that rpmsg accepted carries the last reported state. -/
def EvtPath.Delivered (s : EvtPath) : Prop :=
  (s.accepted.map RpmsgMessage.data).getLast? = s.reported.getLast?.map evtStateData ∧
    s.events.getLast? = s.reported.getLast?.map CanState.event

def EvtPath.UpToDate (s : EvtPath) : Prop :=
  s.Quiescent → s.peerAddr ≠ peerUnknown → s.reported ≠ [] → s.Delivered

/-- The steps after which a reported state is not lost.  An event that rpmsg refuses is
followed by another wake-up, or Linux has its state already; and no state has been
consumed when the peer becomes known.  `Delivered`, read before the step, is there only to
make the condition exact: a state that is read before its wake-up is sent twice, and the
second message may be refused.  `Rearmed` does without it. -/
def EvtPath.Covered (s : EvtPath) : EvtAction → Prop
  | .send (.fail _) => s.callbacks ≠ 0 ∨ s.stateSem.count ≠ 0 ∨ s.Delivered
  | .recv _ => s.Quiescent → s.peerAddr = peerUnknown → s.reported = []
  | _ => True

/-- The same, read off the pending wake-ups alone. -/
def EvtPath.Rearmed (s : EvtPath) : EvtAction → Prop
  | .send (.fail _) => s.callbacks ≠ 0 ∨ s.stateSem.count ≠ 0
  | .recv _ => s.Quiescent → s.peerAddr = peerUnknown → s.reported = []
  | _ => True

theorem EvtPath.Rearmed.covered {s : EvtPath} {a : EvtAction} (h : s.Rearmed a) :
    s.Covered a := by
  cases a with
  | send r =>
      cases r with
      | ok => trivial
      | fail e => exact h.imp_right Or.inl
  | recv src => exact h
  | report | give | take | timeout | readState | readPeer => trivial

instance (s : EvtPath) : Decidable s.Quiescent :=
  inferInstanceAs (Decidable (s.callbacks = 0 ∧ s.task = .waiting ∧ s.stateSem.count = 0))

instance (s : EvtPath) : Decidable s.Delivered :=
  inferInstanceAs (Decidable (_ ∧ _))

instance (s : EvtPath) (a : EvtAction) : Decidable (s.Covered a) := by
  unfold EvtPath.Covered
  split <;> infer_instance

/-! ## Decoding -/

@[simp] theorem eventOf_evtStateData (st : CanState) : eventOf (evtStateData st) = st.event := by
  cases st <;> decide

/-- Messages that carry states are decoded to these states. -/
theorem decode_events {accepted : List RpmsgMessage} {sent : List CanState}
    (hdata : accepted.map RpmsgMessage.data = sent.map evtStateData) :
    (accepted.map fun m => eventOf m.data) = sent.map CanState.event := by
  calc (accepted.map fun m => eventOf m.data)
      = (accepted.map RpmsgMessage.data).map eventOf := by
        rw [List.map_map]
        rfl
    _ = sent.map CanState.event := by
        rw [hdata, List.map_map]
        apply List.map_congr_left
        intro st _
        exact eventOf_evtStateData st

theorem delivered_of_data
    (hdata : (s.accepted.map RpmsgMessage.data).getLast? =
      s.reported.getLast?.map evtStateData) : s.Delivered := by
  refine ⟨hdata, ?_⟩
  have hevents : s.events = (s.accepted.map RpmsgMessage.data).map eventOf := by
    rw [List.map_map]
    rfl
  rw [hevents, List.getLast?_map, hdata, Option.map_map]
  congr 1
  funext st
  exact eventOf_evtStateData st

/-! ## The invariant -/

/-- `pending_state` after a history of reports. -/
def latest (reported : List CanState) : Int :=
  match reported.getLast? with
  | none => -1
  | some st => st.code

@[simp] theorem latest_snoc (reported : List CanState) (st : CanState) :
    latest (reported ++ [st]) = st.code := by
  simp [latest]

theorem exists_of_latest {reported : List CanState} (h : 0 ≤ latest reported) :
    ∃ before st, reported = before ++ [st] ∧ latest reported = st.code := by
  rcases List.eq_nil_or_concat reported with rfl | ⟨before, st, rfl⟩
  · exact absurd h (by decide)
  · rw [List.concat_eq_append]
    exact ⟨before, st, rfl, latest_snoc before st⟩

/-- The part of the history the task has seen bounds what it holds and what it has sent;
what it holds is current unless another wake-up is due. -/
structure EvtPath.Sound (s : EvtPath) : Prop where
  pending : s.pendingState = latest s.reported
  unknown : s.peerAddr = peerUnknown → s.accepted = []
  addressed : ∀ st peer, s.task = .addressed st peer → 0 ≤ st ∧ s.peerAddr ≠ peerUnknown
  fresh : ∀ st, s.task.held = some st →
    st = s.pendingState ∨ s.callbacks ≠ 0 ∨ s.stateSem.count ≠ 0
  order : ∃ seen sent, seen <+: s.reported ∧ SampledInOrder seen sent ∧
    s.accepted.map RpmsgMessage.data = sent.map evtStateData ∧
    ∀ st, s.task.held = some st → st = latest seen

theorem EvtPath.Sound.inOrder (hs : s.Sound) : s.InOrder := by
  obtain ⟨seen, sent, hseen, hsampled, hdata, -⟩ := hs.order
  exact ⟨sent, hdata, decode_events hdata, hsampled.mono hseen⟩

theorem EvtPath.sound_atBoot : EvtPath.atBoot.Sound where
  pending := rfl
  unknown := fun _ => rfl
  addressed := fun _ _ h => by cases h
  fresh := fun _ h => by cases h
  order := ⟨[], [], List.nil_prefix, SampledInOrder.nil [], rfl, fun _ h => by cases h⟩

theorem preserves_sound : evtMachine.Preserves EvtPath.Sound := by
  rintro s a t ⟨hpending, hunknown, haddr, hfresh, hord⟩ hstep
  obtain ⟨seen, sent, hseen, hsampled, hdata, hheld⟩ := hord
  cases EvtPath.step_cases hstep with
  | reported st =>
      refine ⟨(latest_snoc s.reported st).symm, hunknown, haddr, ?_, ?_⟩
      · intro _ _
        exact Or.inr (Or.inl (Nat.succ_ne_zero _))
      · exact ⟨seen, sent, hseen.trans (List.prefix_append _ _), hsampled, hdata, hheld⟩
  | given hcb =>
      refine ⟨hpending, hunknown, haddr, ?_, ⟨seen, sent, hseen, hsampled, hdata, hheld⟩⟩
      intro _ _
      have hpos := s.stateSem.give_pos Nat.one_pos
      exact Or.inr (Or.inr (by simp only; omega))
  | recv src hsrc =>
      refine ⟨hpending, fun h => absurd h hsrc, ?_, hfresh, ?_⟩
      · intro st peer htask
        exact ⟨(haddr st peer htask).1, hsrc⟩
      · exact ⟨seen, sent, hseen, hsampled, hdata, hheld⟩
  | taken sem htask hsem =>
      refine ⟨hpending, hunknown, by simp, by simp [CtlTask.held], ?_⟩
      exact ⟨seen, sent, hseen, hsampled, hdata, by simp [CtlTask.held]⟩
  | timeout htask hsem =>
      exact ⟨hpending, hunknown, haddr, hfresh, seen, sent, hseen, hsampled, hdata, hheld⟩
  | readState htask =>
      refine ⟨hpending, hunknown, by simp, ?_, ?_⟩
      · intro st hst
        exact Or.inl (Option.some.inj hst).symm
      · refine ⟨s.reported, sent, List.prefix_rfl, hsampled.mono hseen, hdata, ?_⟩
        intro st hst
        rw [← Option.some.inj hst, hpending]
  | addressed st htask hst hpeer =>
      rw [htask] at hfresh hheld
      refine ⟨hpending, hunknown, ?_, hfresh, seen, sent, hseen, hsampled, hdata, hheld⟩
      intro st' peer' htask'
      cases htask'
      exact ⟨hst, hpeer⟩
  | skipped st htask hskip =>
      refine ⟨hpending, hunknown, by simp, by simp [CtlTask.held], ?_⟩
      exact ⟨seen, sent, hseen, hsampled, hdata, by simp [CtlTask.held]⟩
  | accepted st peer htask =>
      obtain ⟨hst, hpeer⟩ := haddr st peer htask
      have hseenLast : st = latest seen := hheld st (by rw [htask, CtlTask.held])
      obtain ⟨before, x, rfl, hx⟩ := exists_of_latest (hseenLast ▸ hst)
      refine ⟨hpending, fun h => absurd h hpeer, by simp, by simp [CtlTask.held], ?_⟩
      refine ⟨before ++ [x], sent ++ [x], hseen, hsampled.read, ?_, by simp [CtlTask.held]⟩
      rw [List.map_append, List.map_append, hdata, hseenLast, hx]
      rfl
  | refused st peer e htask =>
      refine ⟨hpending, hunknown, by simp, by simp [CtlTask.held], ?_⟩
      exact ⟨seen, sent, hseen, hsampled, hdata, by simp [CtlTask.held]⟩

/-! ## Which steps lose a state -/

theorem not_delivered_of_nil (haccepted : s.accepted = []) (hreported : s.reported ≠ []) :
    ¬ s.Delivered := by
  rintro ⟨h, -⟩
  rw [haccepted, List.map_nil, List.getLast?_nil, eq_comm, Option.map_eq_none_iff] at h
  exact hreported (List.getLast?_eq_none_iff.1 h)

theorem held_eq_latest (hs : s.Sound) {st : Int} (hheld : s.task.held = some st)
    (hcb : s.callbacks = 0) (hsem : s.stateSem.count = 0) : st = latest s.reported := by
  rcases hs.fresh st hheld with hst | hne | hne
  · exact hst.trans hs.pending
  · exact absurd hcb hne
  · exact absurd hsem hne

theorem upToDate_skipped (hs : s.Sound) {st : Int} (htask : s.task = .read st)
    (hskip : ¬ (0 ≤ st ∧ s.peerAddr ≠ peerUnknown)) :
    EvtPath.UpToDate { s with task := .waiting } := by
  rintro ⟨hcb, -, hsem⟩ hpeer hreported
  have hlatest : st = latest s.reported :=
    held_eq_latest hs (by rw [htask, CtlTask.held]) hcb hsem
  obtain ⟨before, x, hx⟩ := List.eq_nil_or_concat s.reported |>.resolve_left hreported
  rw [List.concat_eq_append] at hx
  rw [hx, latest_snoc] at hlatest
  exact absurd ⟨by omega, hpeer⟩ hskip

theorem upToDate_accepted (hs : s.Sound) {st : Int} {peer : BitVec 32}
    (htask : s.task = .addressed st peer) :
    EvtPath.UpToDate { s with accepted := s.accepted ++ [⟨(evtState st).toBytes, peer⟩],
                              task := .waiting } := by
  rintro ⟨hcb, -, hsem⟩ hpeer hreported
  have hlatest : st = latest s.reported :=
    held_eq_latest hs (by rw [htask, CtlTask.held]) hcb hsem
  obtain ⟨before, x, hx⟩ := List.eq_nil_or_concat s.reported |>.resolve_left hreported
  rw [List.concat_eq_append] at hx
  rw [hx, latest_snoc] at hlatest
  apply delivered_of_data
  simp [hx, hlatest, evtStateData]

theorem upToDate_refused_iff (hs : s.Sound) {st : Int} {peer : BitVec 32}
    (htask : s.task = .addressed st peer) :
    EvtPath.UpToDate { s with task := .waiting } ↔
      s.callbacks ≠ 0 ∨ s.stateSem.count ≠ 0 ∨ s.Delivered := by
  constructor
  · intro hup
    by_cases hcb : s.callbacks = 0
    · by_cases hsem : s.stateSem.count = 0
      · obtain ⟨hst, hpeer⟩ := hs.addressed st peer htask
        have hlatest : st = latest s.reported :=
          held_eq_latest hs (by rw [htask, CtlTask.held]) hcb hsem
        have hreported : s.reported ≠ [] := by
          intro hnil
          rw [hlatest, hnil] at hst
          exact absurd hst (by decide)
        exact Or.inr (Or.inr (hup ⟨hcb, rfl, hsem⟩ hpeer hreported))
      · exact Or.inr (Or.inl hsem)
    · exact Or.inl hcb
  · rintro (hcb | hsem | hdelivered) ⟨hcb0, -, hsem0⟩ _ _
    · exact absurd hcb0 hcb
    · exact absurd hsem0 hsem
    · exact hdelivered

/-- A peer that becomes known finds out only about states reported from then on. -/
theorem upToDate_recv_iff (hs : s.Sound) (hup : s.UpToDate) {src : BitVec 32}
    (hsrc : src ≠ peerUnknown) :
    EvtPath.UpToDate { s with peerAddr := src } ↔
      (s.Quiescent → s.peerAddr = peerUnknown → s.reported = []) := by
  constructor
  · intro hup' hquiet hunknown
    by_contra hreported
    exact not_delivered_of_nil (hs.unknown hunknown) hreported (hup' hquiet hsrc hreported)
  · intro hcovered hquiet _ hreported
    by_cases hunknown : s.peerAddr = peerUnknown
    · exact absurd (hcovered hquiet hunknown) hreported
    · exact hup hquiet hunknown hreported

theorem upToDate_iff_covered (hs : s.Sound) (hup : s.UpToDate)
    (hstep : evtMachine.step s a = some t) : t.UpToDate ↔ s.Covered a := by
  cases EvtPath.step_cases hstep with
  | reported st => exact iff_of_true (fun hquiet => absurd hquiet.1 (Nat.succ_ne_zero _)) trivial
  | given hcb =>
      have hpos := s.stateSem.give_pos Nat.one_pos
      refine iff_of_true (fun hquiet => ?_) trivial
      have hzero : s.stateSem.give.count = 0 := hquiet.2.2
      omega
  | recv src hsrc => exact upToDate_recv_iff hs hup hsrc
  | taken => exact iff_of_true (fun hquiet => nomatch hquiet.2.1) trivial
  | timeout => exact iff_of_true hup trivial
  | readState => exact iff_of_true (fun hquiet => nomatch hquiet.2.1) trivial
  | addressed => exact iff_of_true (fun hquiet => nomatch hquiet.2.1) trivial
  | skipped st htask hskip => exact iff_of_true (upToDate_skipped hs htask hskip) trivial
  | accepted st peer htask => exact iff_of_true (upToDate_accepted hs htask) trivial
  | refused st peer e htask => exact upToDate_refused_iff hs htask

/-! ## Whole runs -/

def EvtPath.Current (s : EvtPath) : Prop := s.Sound ∧ s.UpToDate

theorem EvtPath.current_atBoot : EvtPath.atBoot.Current :=
  ⟨EvtPath.sound_atBoot, fun _ _ h => absurd rfl h⟩

theorem EvtPath.Current.step (hs : s.Current) (hcovered : s.Covered a)
    (hstep : evtMachine.step s a = some t) : t.Current :=
  ⟨preserves_sound hs.1 hstep, (upToDate_iff_covered hs.1 hs.2 hstep).2 hcovered⟩

/-- **Linux is left with a stale state exactly by two kinds of steps.**  Along every run,
the events keep the order of the reports, and every quiescent state with a known peer has
delivered the last report, if and only if no event is refused with no other wake-up due
and no peer becomes known after a report was consumed. -/
theorem stateEvents_current_iff {as : List EvtAction} {u : EvtPath}
    (hexec : evtMachine.exec .atBoot as = some u) :
    evtMachine.Throughout (fun s => s.InOrder ∧ s.UpToDate) .atBoot as ↔
      evtMachine.Along EvtPath.Covered .atBoot as := by
  apply Machine.throughout_iff_along (I := EvtPath.Current)
  · intro s hs
    exact ⟨hs.1.inOrder, hs.2⟩
  · intro s a t hs hcovered hstep
    exact hs.step hcovered hstep
  · intro s a t hs hstep ht
    exact (upToDate_iff_covered hs.1 hs.2 hstep).1 ht.2
  · exact EvtPath.current_atBoot
  · exact hexec

/-- Enough wake-ups keep Linux up to date, whatever it has got already. -/
theorem stateEvents_current {as : List EvtAction} {u : EvtPath}
    (hexec : evtMachine.exec .atBoot as = some u)
    (hrearmed : evtMachine.Along EvtPath.Rearmed .atBoot as) :
    evtMachine.Throughout (fun s => s.InOrder ∧ s.UpToDate) .atBoot as := by
  have hcurrent : evtMachine.Throughout EvtPath.Current .atBoot as :=
    hrearmed.throughout (fun _ _ _ hs hok hstep => hs.step hok.covered hstep)
      EvtPath.current_atBoot hexec
  exact hcurrent.mono fun s hs => ⟨hs.1.inOrder, hs.2⟩

/-- A refused warning is made good by the bus-off that is reported meanwhile. -/
theorem stateEvents_current_busOff :
    evtMachine.Throughout (fun s => s.InOrder ∧ s.UpToDate) .atBoot
      [.recv 1024#32, .report .errorWarning, .give, .take, .readState, .readPeer,
        .report .busOff, .send (.fail rpmsgErrNoBuff), .give, .take, .readState, .readPeer,
        .send .ok] := by
  exact (stateEvents_current_iff rfl).2 (by decide)

/-- Bus-off is reported, rpmsg has no buffer, and Linux never hears of it. -/
theorem stateEvents_stale :
    ¬ evtMachine.Throughout (fun s => s.InOrder ∧ s.UpToDate) .atBoot
      [.recv 1024#32, .report .busOff, .give, .take, .readState, .readPeer,
        .send (.fail rpmsgErrNoBuff)] := by
  intro h
  have hup := (h.finish rfl).2 ⟨rfl, rfl, rfl⟩ (by decide) (by decide)
  exact not_delivered_of_nil rfl (by decide) hup

end DataLogger.CanGw
