import DataLogger.MainApp.Parts

/-!
# What the firmware sends, where and when

`can_gw_ctl_task` does not wait for the platform, and none of the three senders looks at its
endpoint: each relies on the peer address.  That is enough, because an address can only
be known once a message has come in on the endpoint, and messages come in only through a
platform that is up.
-/

namespace DataLogger.MainApp

open DataLogger.Foundation
open DataLogger.Zephyr
open DataLogger.OpenAmp
open DataLogger.CanGw
open DataLogger.Keepalive
open DataLogger.RpmsgPlatform

variable {cfg : Config} {region : RscTable} {s t : System} {a : Action} {f : Feature}

/-! ## The platform and the management thread -/

/-- How far the core is says how far `rpmsg_mng_task` is. -/
def LinkedAt (st : Startup Feature Unit) : CorePc → Prop
  | .off | .metalInit | .checkVersion | .publish | .ipmReady =>
      st.mng = .platformInit ∧ st.rpdev = none
  | .createVdev | .waitRemoteReady | .initVring0 | .initVring1 _ | .initRpmsg _ _ =>
      st.mng = .createVdev ∧ st.rpdev = none
  | .running _ _ => st.rpdev = some () ∧ (st.mng = .give ∨ st.mng = .check ∨ st.mng = .polling)
  | .failed =>
      st.rpdev = none ∧ (st.mng = .giveUp ∨ st.mng = .give ∨ st.mng = .check ∨ st.mng = .returned)

def System.Linked (s : System) : Prop := LinkedAt s.startup s.platform.core

theorem linkedAt_core {L : LinkedTable} {ok : Bool} {p q : Platform} {st : Startup Feature Unit}
    (hlinked : LinkedAt st p.core) (hstep : p.coreStep L ok = some q)
    (hreturned : returned p.core q.core = none) : LinkedAt st q.core := by
  rw [Platform.coreStep] at hstep
  cases hpc : p.core with
  | off | failed =>
      rw [hpc] at hstep
      cases hstep
  | running da0 da1 =>
      simp only [hpc, Option.some.injEq] at hstep
      rwa [← hstep]
  | publish | checkVersion =>
      simp only [hpc, Option.some.injEq] at hstep
      rw [hpc] at hlinked
      subst hstep
      first
        | exact hlinked
        | (split <;> exact hlinked)
  | waitRemoteReady =>
      simp only [hpc] at hstep
      obtain ⟨-, hnext⟩ := Option.ite_none_right_eq_some.1 hstep
      rw [hpc] at hlinked
      cases hnext
      exact hlinked
  | metalInit | createVdev | initVring0 | initVring1 | ipmReady | initRpmsg =>
      simp only [hpc, Option.some.injEq] at hstep
      rw [hpc] at hlinked hreturned
      subst hstep
      cases ok with
      | true => first | exact hlinked | cases hreturned
      | false => cases hreturned

theorem linkedAt_returned {before after : CorePc} {b : StartupAct Feature Unit}
    {st st' : Startup Feature Unit} (hlinked : LinkedAt st before)
    (hreturned : returned before after = some b) (hst : st.step b = some st') :
    LinkedAt st' after := by
  cases before <;> cases after <;> cases hreturned <;>
    obtain ⟨-, hnext⟩ := Option.ite_none_right_eq_some.1 hst <;> cases hnext
  all_goals simp [LinkedAt, hlinked.2]

theorem linkedAt_mng {core : CorePc} {st st' : Startup Feature Unit}
    (hlinked : LinkedAt st core) (hst : st.step .mng = some st') : LinkedAt st' core := by
  change st.rpmsgMngTask = some st' at hst
  rw [Startup.rpmsgMngTask] at hst
  cases hmng : st.mng with
  | giveUp | give | check =>
      simp only [hmng, Option.some.injEq] at hst
      subst hst
      cases core <;> simp_all [LinkedAt]
  | platformInit | createVdev | returned | polling =>
      simp only [hmng, reduceCtorEq] at hst

theorem linkedAt_wait {core : CorePc} {st st' : Startup Feature Unit}
    (hlinked : LinkedAt st core) (hst : st.step (.wait f) = some st') : LinkedAt st' core := by
  have hkeeps : st'.mng = st.mng ∧ st'.rpdev = st.rpdev := by
    change st.rpmsgPlatformWait f = some st' at hst
    rw [Startup.rpmsgPlatformWait] at hst
    cases hpc : st.caller f with
    | take =>
        rw [hpc] at hst
        obtain ⟨sem, -, hnext⟩ := Option.map_eq_some_iff.1 hst
        cases hnext
        exact ⟨rfl, rfl⟩
    | away | give | read =>
        rw [hpc] at hst
        cases hst
        exact ⟨rfl, rfl⟩
    | returned rpdev =>
        rw [hpc] at hst
        cases hst
  unfold LinkedAt at hlinked ⊢
  rw [hkeeps.1, hkeeps.2]
  exact hlinked

theorem preserves_linked : (systemMachine cfg).Preserves System.Linked := by
  intro s a t hs hstep
  cases System.step_cases hstep with
  | start kind =>
      cases kind with
      | load | attach => exact ⟨rfl, rfl⟩
  | rings da0 da1 p hp =>
      obtain ⟨-, hnext⟩ := Option.ite_none_right_eq_some.1 hp
      cases hnext
      exact hs
  | driverOk p hp =>
      obtain ⟨-, hnext⟩ := Option.ite_none_right_eq_some.1 hp
      cases hnext
      exact hs
  | core ok p hmain hp hreturned => exact linkedAt_core hs hp hreturned
  | coreReturned ok p b st hmain hp hreturned hst => exact linkedAt_returned hs hreturned hst
  | mng st hst => exact linkedAt_mng hs hst
  | waited f st hthread hst => exact linkedAt_wait hs hst
  | platformStarted | keepaliveStarted | canGwStarted | canGwAbsent | created | gaveUp | passed
  | recvKa | recvCan | recvCanEnd | rx | evt | kaEnter | ka => exact hs

/-! ## The threads of the features -/

/-- A feature is behind its endpoint only with the device that `rpmsg_platform_wait` has
returned; `main` creates each thread once. -/
structure System.Threaded (s : System) : Prop where
  caller : ∀ f, s.thread f = .running → s.startup.caller f = .returned (some ())
  keepalive : s.main = .rpmsgPlatformStart ∨ s.main = .keepaliveStart →
    s.thread .keepalive = .absent
  canGw : s.main ≠ .returned → s.thread .canGw = .absent

theorem threaded_boot (cfg : Config) (p : Platform) : (System.boot cfg p).Threaded :=
  ⟨(fun _ h => nomatch h), fun _ => rfl, fun _ => rfl⟩

/-- A call that has returned is over. -/
theorem caller_of_step {st st' : Startup Feature Unit} {b : StartupAct Feature Unit}
    {rpdev : Option Unit} (hst : st.step b = some st') (hf : st.caller f = .returned rpdev) :
    st'.caller f = .returned rpdev := by
  cases b with
  | platformInit ok =>
      obtain ⟨-, hnext⟩ := Option.ite_none_right_eq_some.1 hst
      cases hnext
      exact hf
  | createVdev rdev =>
      obtain ⟨-, hnext⟩ := Option.ite_none_right_eq_some.1 hst
      cases hnext
      exact hf
  | mng =>
      change st.rpmsgMngTask = some st' at hst
      rw [Startup.rpmsgMngTask] at hst
      cases hmng : st.mng with
      | giveUp | give | check =>
          rw [hmng] at hst
          cases hst
          exact hf
      | platformInit | createVdev | returned | polling =>
          rw [hmng] at hst
          cases hst
  | wait i =>
      change st.rpmsgPlatformWait i = some st' at hst
      rw [Startup.rpmsgPlatformWait] at hst
      have hother : ∀ pc, (∀ x, st.caller i ≠ .returned x) →
          Function.update st.caller i pc f = .returned rpdev := by
        intro pc hi
        have hne : f ≠ i := by
          rintro rfl
          exact hi rpdev hf
        rw [Function.update_of_ne hne, hf]
      cases hpc : st.caller i with
      | away | give | read =>
          rw [hpc] at hst
          cases hst
          exact hother _ (by simp [hpc])
      | take =>
          rw [hpc] at hst
          obtain ⟨sem, -, hnext⟩ := Option.map_eq_some_iff.1 hst
          cases hnext
          exact hother _ (by simp [hpc])
      | returned rpdev =>
          rw [hpc] at hst
          cases hst

theorem threaded_startup {st : Startup Feature Unit} {p : Platform} {b : StartupAct Feature Unit}
    (hs : s.Threaded) (hst : s.startup.step b = some st) :
    System.Threaded { s with platform := p, startup := st } :=
  ⟨fun f hf => caller_of_step hst (hs.caller f hf), hs.keepalive, hs.canGw⟩

/-- A feature goes on from `rpmsg_platform_wait`. -/
theorem threaded_endpoint {x : FeatureThread} (hs : s.Threaded) (hthread : s.thread f = .waiting)
    (hx : x = .running → s.startup.caller f = .returned (some ())) :
    System.Threaded { s with thread := Function.update s.thread f x } := by
  have hother : ∀ g, s.thread g = .absent → Function.update s.thread f x g = .absent := by
    intro g hg
    have hne : g ≠ f := by
      rintro rfl
      rw [hthread] at hg
      cases hg
    rw [Function.update_of_ne hne, hg]
  refine ⟨fun g hg => ?_, fun h => hother _ (hs.keepalive h), fun h => hother _ (hs.canGw h)⟩
  rcases update_cases hg with ⟨rfl, h⟩ | ⟨-, h⟩
  · exact hx h
  · exact hs.caller g h

theorem preserves_threaded : (systemMachine cfg).Preserves System.Threaded := by
  intro s a t hs hstep
  cases System.step_cases hstep with
  | start kind => exact threaded_boot cfg _
  | platformStarted canReady hon hmain =>
      exact ⟨hs.caller, fun _ => hs.keepalive (.inl hmain), fun _ => hs.canGw (by simp [hmain])⟩
  | keepaliveStarted canReady hmain =>
      refine ⟨fun f hf => ?_, by simp, fun _ => ?_⟩
      · rcases update_cases hf with ⟨-, h⟩ | ⟨-, h⟩
        · cases h
        · exact hs.caller f h
      · have hne : Feature.canGw ≠ .keepalive := by decide
        exact (Function.update_of_ne hne .waiting s.thread).trans (hs.canGw (by simp [hmain]))
  | canGwStarted hmain =>
      refine ⟨fun f hf => ?_, by simp, by simp⟩
      rcases update_cases hf with ⟨-, h⟩ | ⟨-, h⟩
      · cases h
      · exact hs.caller f h
  | canGwAbsent hmain => exact ⟨hs.caller, by simp, by simp⟩
  | coreReturned ok p b st hmain hp hreturned hst => exact threaded_startup hs hst
  | mng st hst => exact threaded_startup hs hst
  | waited f st hthread hst => exact threaded_startup hs hst
  | created f hthread hcaller => exact threaded_endpoint hs hthread fun _ => hcaller
  | gaveUp f ok hthread => exact threaded_endpoint hs hthread fun h => nomatch h
  | rings | driverOk | core | passed | recvKa | recvCan | recvCanEnd | rx | evt | kaEnter | ka =>
      exact ⟨hs.caller, hs.keepalive, hs.canGw⟩

/-- Until the next restart an endpoint stays. -/
theorem running_of_step (hs : s.Threaded) (hstep : (systemMachine cfg).step s a = some t)
    (hstart : ∀ kind, a ≠ .start kind) (hf : s.thread f = .running) : t.thread f = .running := by
  have hupdate : ∀ g x, s.thread g ≠ .running → Function.update s.thread g x f = .running := by
    intro g x hg
    have hne : f ≠ g := by
      rintro rfl
      exact hg hf
    rw [Function.update_of_ne hne, hf]
  cases System.step_cases hstep with
  | start kind => exact absurd rfl (hstart kind)
  | keepaliveStarted canReady hmain =>
      exact hupdate _ _ (by rw [hs.keepalive (.inr hmain)]; decide)
  | canGwStarted hmain => exact hupdate _ _ (by rw [hs.canGw (by simp [hmain])]; decide)
  | created g hthread hcaller => exact hupdate _ _ (by rw [hthread]; decide)
  | gaveUp g ok hthread => exact hupdate _ _ (by rw [hthread]; decide)
  | rings | driverOk | platformStarted | canGwAbsent | core | coreReturned | mng | waited
  | passed | recvKa | recvCan | recvCanEnd | rx | evt | kaEnter | ka => exact hf

/-! ## Destinations -/

/-- The address in a thread's hands, read and not yet used. -/
def txDest : TxTask → Option (BitVec 32)
  | .addressed _ peer => some peer
  | _ => none

def ctlDest : CtlTask → Option (BitVec 32)
  | .addressed _ peer => some peer
  | _ => none

def kaDest : KaPc → Option (BitVec 32)
  | .stamping peer => some peer
  | .sending peer _ => some peer
  | _ => none

def System.dest (s : System) : Sender → Option (BitVec 32)
  | .tx => txDest s.tx.task
  | .ctl => ctlDest s.ctl.task
  | .ka => s.kaLoop.bind fun v => kaDest v.pc

/-- The address that is known on an endpoint. -/
def System.peer (s : System) : Feature → BitVec 32
  | .keepalive => s.kaPeer
  | .canGw => s.node.peerAddr

/-- What a step of a sending thread does with addresses: what is newly accepted goes to the
address in its hands, and what it takes into its hands is the known one. -/
structure SendStep (peer : BitVec 32) (dest dest' : Option (BitVec 32))
    (old new : List RpmsgMessage) : Prop where
  sent : ∀ m ∈ new, m ∈ old ∨ dest = some m.dst
  held : ∀ x, dest' = some x → dest = some x ∨ (x = peer ∧ peer ≠ noPeer)

section SendStep

variable {peer : BitVec 32} {dest dest' : Option (BitVec 32)} {old : List RpmsgMessage}

theorem sendStep_keeps (hdest : ∀ x, dest' = some x → dest = some x) :
    SendStep peer dest dest' old old :=
  ⟨fun _ hm => .inl hm, fun x hx => .inl (hdest x hx)⟩

theorem sendStep_idle : SendStep peer dest none old old :=
  ⟨fun _ hm => .inl hm, by simp⟩

theorem sendStep_read (hpeer : peer ≠ noPeer) : SendStep peer dest (some peer) old old :=
  ⟨fun _ hm => .inl hm, fun _ hx => .inr ⟨(Option.some.inj hx).symm, hpeer⟩⟩

theorem sendStep_accepted {m : RpmsgMessage} (hdest : dest = some m.dst) :
    SendStep peer dest none old (old ++ [m]) := by
  refine ⟨fun n hn => ?_, by simp⟩
  rcases List.mem_append.1 hn with hold | hnew
  · exact .inl hold
  · rw [List.mem_singleton.1 hnew]
    exact .inr hdest

end SendStep

theorem rx_sendStep {p q : RxPath} {b : RxAction} (hstep : p.step b = some q) :
    SendStep p.peerAddr (txDest p.task) (txDest q.task) p.accepted q.accepted := by
  cases RxPath.step_cases hstep with
  | queued | dropped | recv => exact sendStep_keeps fun _ h => h
  | dequeued | discarded | refused | counted | countedDrop =>
      exact sendStep_idle
  | addressed frame htask hpeer => exact sendStep_read hpeer
  | accepted frame peer htask => exact sendStep_accepted (by rw [htask]; rfl)

theorem evt_sendStep {p q : EvtPath} {b : EvtAction} (hstep : p.step b = some q) :
    SendStep p.peerAddr (ctlDest p.task) (ctlDest q.task) p.accepted q.accepted := by
  cases EvtPath.step_cases hstep with
  | reported | given | recv | timeout => exact sendStep_keeps fun _ h => h
  | taken | readState | skipped | refused => exact sendStep_idle
  | addressed st htask hst hpeer => exact sendStep_read hpeer
  | accepted st peer htask => exact sendStep_accepted (by rw [htask]; rfl)

theorem ka_sendStep {tp : TestPause} {r : Reply} {k l : Ka} (hrun : k.run tp r = some l) :
    SendStep k.peer (kaDest k.pc) (kaDest l.pc) k.accepted l.accepted := by
  rw [Ka.run] at hrun
  cases hpc : k.pc with
  | sleeping =>
      simp only [hpc] at hrun
      obtain ⟨-, hnext⟩ := Option.ite_none_right_eq_some.1 hrun
      cases hnext
      exact sendStep_idle
  | awake =>
      rw [hpc] at hrun
      cases hrun
      rw [Ka.check]
      split
      · exact sendStep_idle
      · rename_i hpeer
        split
        · exact sendStep_idle
        · exact sendStep_read hpeer
  | stamping peer =>
      rw [hpc] at hrun
      cases hrun
      exact sendStep_keeps fun _ h => h
  | sending peer uptime =>
      rw [hpc] at hrun
      cases hrun
      cases r with
      | ok => exact sendStep_accepted rfl
      | fail e =>
          rw [send_fail]
          exact sendStep_idle

/-! ## Only to who has been heard -/

/-- Every address in use on an endpoint is one that a message came from there. -/
structure System.Addressed (s : System) : Prop where
  running : ∀ f, s.heard f ≠ [] → s.thread f = .running
  real : ∀ f, ∀ src ∈ s.heard f, src ≠ noPeer
  peer : ∀ f, s.peer f ≠ noPeer → s.peer f ∈ s.heard f
  dest : ∀ w x, s.dest w = some x → x ∈ s.heard w.feature
  wire : ∀ e ∈ s.wire, e.2.dst ∈ s.heard e.1.feature

theorem addressed_boot (cfg : Config) (p : Platform) : (System.boot cfg p).Addressed where
  running := fun _ h => absurd rfl h
  real := fun _ _ h => nomatch h
  peer := fun f h => by cases f <;> exact absurd rfl h
  dest := fun w _ h => by cases w <;> cases h
  wire := fun _ h => nomatch h

/-- A step that changes neither addresses nor messages. -/
theorem addressed_keeps (hs : s.Addressed) (hheard : t.heard = s.heard) (hpeer : t.peer = s.peer)
    (hdest : t.dest = s.dest) (hwire : t.wire = s.wire)
    (hrunning : ∀ f, s.thread f = .running → t.thread f = .running) : t.Addressed where
  running := fun f h => hrunning f (hs.running f (hheard ▸ h))
  real := by rw [hheard]; exact hs.real
  peer := by rw [hheard, hpeer]; exact hs.peer
  dest := by rw [hheard, hdest]; exact hs.dest
  wire := by rw [hheard, hwire]; exact hs.wire

/-- A step of a sending thread. -/
theorem addressed_send {w : Sender} {new : List RpmsgMessage} (hs : s.Addressed)
    (hsend : SendStep (s.peer w.feature) (s.dest w) (t.dest w) (s.accepted w) new)
    (hheard : t.heard = s.heard) (hthread : t.thread = s.thread) (hpeer : t.peer = s.peer)
    (hdest : ∀ v, v ≠ w → t.dest v = s.dest v)
    (hwire : t.wire = record w (s.accepted w) new s.wire) : t.Addressed where
  running := by rw [hheard, hthread]; exact hs.running
  real := by rw [hheard]; exact hs.real
  peer := by rw [hheard, hpeer]; exact hs.peer
  dest := by
    intro v x hx
    rw [hheard]
    by_cases hv : v = w
    · subst hv
      rcases hsend.held x hx with hold | ⟨rfl, hreal⟩
      · exact hs.dest v x hold
      · exact hs.peer v.feature hreal
    · exact hs.dest v x (hdest v hv ▸ hx)
  wire := by
    rintro ⟨v, m⟩ he
    rw [hwire] at he
    rw [hheard]
    rcases mem_record he with hold | ⟨rfl, hm⟩
    · exact hs.wire _ hold
    · rcases hsend.sent m hm with hold | hdst
      · exact hs.wire _ (mem_writtenBy.1 hold)
      · exact hs.dest v m.dst hdst

theorem mem_hear {src x : BitVec 32} {g : Feature} (hx : x ∈ s.heard g) :
    x ∈ (s.hear f src).heard g := by
  by_cases hg : g = f
  · subst hg
    simp [System.hear, hx]
  · simpa [System.hear, Function.update_of_ne hg] using hx

theorem hear_cases {src x : BitVec 32} {g : Feature} (hx : x ∈ (s.hear f src).heard g) :
    x ∈ s.heard g ∨ (g = f ∧ x = src) := by
  by_cases hg : g = f
  · subst hg
    simpa [System.hear] using hx
  · left
    simpa [System.hear, Function.update_of_ne hg] using hx

/-- A message comes in on the endpoint of `f`, and its source becomes the known address. -/
theorem addressed_hear {src : BitVec 32} (hs : s.Addressed) (hthread : s.thread f = .running)
    (hsrc : src ≠ noPeer) (hheard : t.heard = s.heard) (hsame : t.thread = s.thread)
    (hpeer : t.peer f = src) (hother : ∀ g, g ≠ f → t.peer g = s.peer g)
    (hdest : t.dest = s.dest) (hwire : t.wire = s.wire) : (t.hear f src).Addressed where
  running := by
    intro g hg
    change t.thread g = .running
    rw [hsame]
    obtain ⟨x, hx⟩ := List.exists_mem_of_ne_nil _ hg
    rcases hear_cases hx with hold | ⟨rfl, -⟩
    · exact hs.running g (List.ne_nil_of_mem (hheard ▸ hold))
    · exact hthread
  real := by
    intro g x hx
    rcases hear_cases hx with hold | ⟨-, rfl⟩
    · exact hs.real g x (hheard ▸ hold)
    · exact hsrc
  peer := by
    intro g hg
    change t.peer g ≠ noPeer at hg
    change t.peer g ∈ _
    by_cases hgf : g = f
    · subst hgf
      rw [hpeer]
      simp [System.hear]
    · rw [hother g hgf] at hg ⊢
      exact mem_hear (hheard ▸ hs.peer g hg)
  dest := by
    intro w x hx
    change t.dest w = some x at hx
    rw [hdest] at hx
    exact mem_hear (hheard ▸ hs.dest w x hx)
  wire := by
    intro e he
    change e ∈ t.wire at he
    rw [hwire] at he
    exact mem_hear (hheard ▸ hs.wire e he)

theorem peer_recvCanEnd {d : Delivery} (hs : s.Consistent) (hd : s.callback = some d) :
    System.peer { s with node := rpmsgRecvCanCallback s.node d, callback := none } = s.peer := by
  funext g
  cases g with
  | keepalive => rfl
  | canGw => exact (peerAddr_callback s.node d).trans (hs.callback d hd).symm

theorem addressed_step (hs : s.Addressed) (hthreaded : s.Threaded) (hconsistent : s.Consistent)
    (hstep : (systemMachine cfg).step s a = some t) : t.Addressed := by
  cases System.step_cases hstep with
  | start kind => exact addressed_boot cfg _
  | recvKa src hdelivers hsrc =>
      refine addressed_hear hs hdelivers.2.2 hsrc rfl rfl rfl (fun g hg => ?_) ?_ rfl
      · cases g with
        | keepalive => exact absurd rfl hg
        | canGw => rfl
      · funext w
        cases w <;> rfl
  | recvCan d hdelivers hsrc =>
      refine addressed_hear hs hdelivers.2.2 hsrc rfl rfl rfl (fun g hg => ?_) ?_ rfl
      · cases g with
        | keepalive => rfl
        | canGw => exact absurd rfl hg
      · funext w
        cases w <;> rfl
  | recvCanEnd d hd =>
      refine addressed_keeps hs rfl (peer_recvCanEnd hconsistent hd) ?_ rfl fun _ h => h
      funext w
      cases w <;> rfl
  | rx b p henabled hp =>
      refine addressed_send (w := .tx) hs (rx_sendStep hp) rfl rfl rfl (fun v hv => ?_) rfl
      cases v with
      | tx => exact absurd rfl hv
      | ctl | ka => rfl
  | evt b p henabled hp =>
      refine addressed_send (w := .ctl) hs (evt_sendStep hp) rfl rfl rfl (fun v hv => ?_) rfl
      cases v with
      | ctl => exact absurd rfl hv
      | tx | ka => rfl
  | ka r v k hv hk =>
      have hdest : s.dest .ka = kaDest (s.ka v).pc := by
        simp [System.dest, hv, System.ka, KaLoop.path]
      have hsend := ka_sendStep hk
      rw [← hdest] at hsend
      refine addressed_send (w := .ka) hs hsend rfl rfl rfl (fun u hu => ?_) rfl
      cases u with
      | ka => exact absurd rfl hu
      | tx | ctl => rfl
  | kaEnter hthread hloop =>
      refine addressed_keeps hs rfl rfl ?_ rfl fun _ h => h
      funext w
      cases w with
      | tx | ctl => rfl
      | ka => simp [System.dest, hloop, kaVars, Ka.enter, Ka.loopHead, kaDest]
  | rings | driverOk | platformStarted | keepaliveStarted | canGwStarted | canGwAbsent | core
  | coreReturned | mng | waited | created | gaveUp | passed =>
      refine addressed_keeps hs rfl rfl ?_ rfl fun _ h =>
        running_of_step hthreaded hstep (by simp) h
      funext w
      cases w <;> rfl

/-! ## Every reachable state -/

/-- The invariants of this module, together. -/
structure System.Sound (s : System) : Prop where
  consistent : s.Consistent
  linked : s.Linked
  threaded : s.Threaded
  addressed : s.Addressed

theorem preserves_sound : (systemMachine cfg).Preserves System.Sound := by
  intro s a t hs hstep
  exact ⟨preserves_consistent hs.consistent hstep, preserves_linked hs.linked hstep,
    preserves_threaded hs.threaded hstep,
    addressed_step hs.addressed hs.threaded hs.consistent hstep⟩

theorem sound_initial (cfg : Config) (region : RscTable) : (System.initial cfg region).Sound :=
  ⟨consistent_boot cfg _, ⟨rfl, rfl⟩, threaded_boot cfg _, addressed_boot cfg _⟩

theorem sound_of_reaches (h : (systemMachine cfg).Reaches (.initial cfg region) s) : s.Sound :=
  preserves_sound.reaches (sound_initial cfg region) h

/-- An endpoint is there only on a platform that is up. -/
theorem up_of_running (h : (systemMachine cfg).Reaches (.initial cfg region) s)
    (hf : s.thread f = .running) :
    s.startup.rpdev = some () ∧ ∃ da0 da1, s.platform.core = .running da0 da1 := by
  have hs := sound_of_reaches h
  obtain ⟨as, hexec⟩ := startup_of_reaches h
  have hrpdev : s.startup.rpdev = some () :=
    ((sound_of_exec hexec).returned f _ (hs.threaded.caller f hf)).symm
  refine ⟨hrpdev, ?_⟩
  have hlinked := hs.linked
  rw [System.Linked] at hlinked
  cases hpc : s.platform.core with
  | running da0 da1 => exact ⟨da0, da1, rfl⟩
  | off | metalInit | checkVersion | publish | ipmReady | createVdev | waitRemoteReady
  | initVring0 | initVring1 | initRpmsg =>
      rw [hpc] at hlinked
      exact nomatch hlinked.2.symm.trans hrpdev
  | failed =>
      rw [hpc] at hlinked
      exact nomatch hlinked.1.symm.trans hrpdev

/-- An address in use: it was heard on the sender's own endpoint, and everything below the
endpoint is up. -/
def System.CanReach (s : System) (f : Feature) (dst : BitVec 32) : Prop :=
  dst ∈ s.heard f ∧ dst ≠ noPeer ∧ s.thread f = .running ∧ s.startup.rpdev = some () ∧
    ∃ da0 da1, s.platform.core = .running da0 da1

theorem canReach_of_heard (h : (systemMachine cfg).Reaches (.initial cfg region) s)
    {dst : BitVec 32} (hdst : dst ∈ s.heard f) : s.CanReach f dst := by
  have haddressed := (sound_of_reaches h).addressed
  have hrunning := haddressed.running f (List.ne_nil_of_mem hdst)
  exact ⟨hdst, haddressed.real f dst hdst, hrunning, up_of_running h hrunning⟩

/-- **Nobody sends into the void.**  Whatever the interleaving of boot, threads, callbacks
and restarts, a thread that holds an address, and so may call `rpmsg_trysendto`, has an
endpoint on a platform that is up and an address that Linux has used on that endpoint;
and rpmsg has taken messages for such addresses only. -/
theorem firmware_sends_heard (h : (systemMachine cfg).Reaches (.initial cfg region) s) :
    (∀ w dst, s.dest w = some dst → s.CanReach w.feature dst) ∧
      ∀ e ∈ s.wire, s.CanReach e.1.feature e.2.dst := by
  have haddressed := (sound_of_reaches h).addressed
  constructor
  · intro w dst hdst
    exact canReach_of_heard h (haddressed.dest w dst hdst)
  · intro e he
    exact canReach_of_heard h (haddressed.wire e he)

/-- The keepalive and the control thread, each about to send to its own peer. -/
def twoSenders : List Action :=
  [.recvKa 9#32, .recvCan ⟨[0x68#8, 0x69#8], 1024#32, .allOk⟩, .recvCanEnd,
    .evt (.report .busOff), .evt .give, .evt .take, .evt .readState, .evt .readPeer,
    .pass 1000, .ka .ok, .ka .ok, .ka .ok]

theorem firmware_sends_heard_two :
    ∃ s, afterBringUp twoSenders = some s ∧ s.CanReach .keepalive 9#32 ∧
      s.CanReach .canGw 1024#32 := by
  have hrun : (afterBringUp twoSenders).map (fun s => (s.dest .ka, s.dest .ctl)) =
      some (some 9#32, some 1024#32) := by decide +kernel
  obtain ⟨s, hexec, hs⟩ := Option.map_eq_some_iff.1 hrun
  obtain ⟨hka, hctl⟩ := Prod.mk.inj hs
  obtain ⟨hdest, -⟩ := firmware_sends_heard ⟨_, hexec⟩
  exact ⟨s, hexec, hdest .ka _ hka, hdest .ctl _ hctl⟩

/-! ## In the present session -/

/-- No ATTACH session begins over a table that looks complete. -/
def System.NoLeftover (s : System) : Action → Prop
  | .start kind => s.platform.NoLeftover (.start kind)
  | _ => True

instance (s : System) (a : Action) : Decidable (s.NoLeftover a) := by
  unfold System.NoLeftover
  split <;> infer_instance

theorem platform_clean_step (hs : s.platform.Clean) (hok : s.NoLeftover a)
    (hstep : (systemMachine cfg).step s a = some t) : t.platform.Clean := by
  cases System.step_cases hstep with
  | start kind => exact hs.step (L := cfg.linked) (a := .start kind) hok rfl
  | rings da0 da1 p hp => exact hs.step (L := cfg.linked) (a := .writeRings da0 da1) trivial hp
  | driverOk p hp => exact hs.step (L := cfg.linked) (a := .writeDriverOk) trivial hp
  | core ok p hmain hp hreturned => exact hs.step (L := cfg.linked) (a := .core ok) trivial hp
  | coreReturned ok p b st hmain hp hreturned hst =>
      exact hs.step (L := cfg.linked) (a := .core ok) trivial hp
  | platformStarted | keepaliveStarted | canGwStarted | canGwAbsent | mng | waited | created
  | gaveUp | passed | recvKa | recvCan | recvCanEnd | rx | evt | kaEnter | ka => exact hs

theorem platform_clean_of_along {as : List Action}
    (hexec : (systemMachine cfg).exec (.initial cfg region) as = some s)
    (halong : (systemMachine cfg).Along System.NoLeftover (.initial cfg region) as) :
    s.platform.Clean := by
  have hthroughout : (systemMachine cfg).Throughout (fun s => s.platform.Clean)
      (.initial cfg region) as :=
    halong.throughout (fun _ _ _ hs hok hstep => platform_clean_step hs hok hstep)
      (Platform.clean_initial region) hexec
  exact hthroughout.finish hexec

/-- The vrings in use are those that Linux has written in the present session, into a table
of this session that it has since marked complete. -/
structure UsesCurrent (p : Platform) : Prop where
  core : p.core = .running p.region.vring0.da p.region.vring1.da
  table : p.tableBy = some p.session
  rings : p.ringsBy = some p.session
  ready : p.readyBy = some p.session

/-- **No message of one session goes through the vrings of another.**  Along every run whose
ATTACH sessions find no leftover table, a thread that may send and every message that rpmsg
has taken since the last restart use the vrings of the present session. -/
theorem firmware_sends_current {as : List Action}
    (hexec : (systemMachine cfg).exec (.initial cfg region) as = some s)
    (halong : (systemMachine cfg).Along System.NoLeftover (.initial cfg region) as)
    (hsends : s.wire ≠ [] ∨ ∃ w dst, s.dest w = some dst) : UsesCurrent s.platform := by
  have haddressed := (sound_of_reaches ⟨_, hexec⟩).addressed
  have hheard : ∃ f, s.heard f ≠ [] := by
    rcases hsends with hwire | ⟨w, dst, hdst⟩
    · obtain ⟨e, he⟩ := List.exists_mem_of_ne_nil _ hwire
      exact ⟨_, List.ne_nil_of_mem (haddressed.wire e he)⟩
    · exact ⟨_, List.ne_nil_of_mem (haddressed.dest w dst hdst)⟩
  obtain ⟨f, hf⟩ := hheard
  obtain ⟨-, da0, da1, hcore⟩ := up_of_running ⟨_, hexec⟩ (haddressed.running f hf)
  have hacts := (platform_clean_of_along hexec halong).actsOnCurrent
  have hpassed : s.platform.core.passed = true := by
    rw [hcore]
    rfl
  have hring0 := hacts.ring0 da0 (by rw [hcore, CorePc.ring0])
  have hring1 := hacts.ring1 da1 (by rw [hcore, CorePc.ring1])
  exact ⟨by rw [hcore, hring0, hring1], hacts.table hpassed, hacts.rings hpassed,
    hacts.ready hpassed⟩

/-- The first session is followed by a LOAD, which gets as far as a keepalive. -/
def secondSession : List Action :=
  [.start .load, .main true, .main true, .main true, .wait .keepalive,
    .core true, .core true, .core true, .core true,
    .writeRings 0xB8010000#32 0xB8018000#32, .writeDriverOk, .core true, .core true,
    .core true, .core true, .mng, .wait .keepalive, .mng, .wait .keepalive,
    .wait .keepalive, .endpoint .keepalive true, .kaEnter, .recvKa 9#32, .pass 1000,
    .ka .ok, .ka .ok, .ka .ok, .ka .ok]

theorem firmware_sends_current_second :
    ∃ s, afterBringUp secondSession = some s ∧ UsesCurrent s.platform ∧
      s.platform.session = 2 := by
  have hrun : (afterBringUp secondSession).map
      (fun s => (s.wire.length, s.platform.session)) = some (1, 2) := by decide +kernel
  obtain ⟨s, hexec, hs⟩ := Option.map_eq_some_iff.1 hrun
  obtain ⟨hlength, hsession⟩ := Prod.mk.inj hs
  refine ⟨s, hexec, firmware_sends_current hexec (by decide +kernel) (.inl ?_), hsession⟩
  intro hnil
  rw [hnil] at hlength
  cases hlength

end DataLogger.MainApp
