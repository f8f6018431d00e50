import DataLogger.Foundation.Bytes
import DataLogger.Foundation.Machine

/-!
# The live resource table

`platform_init` decides by the first word of the region at `RSC_TABLE_ADDR` whether Linux
has written the table (LOAD) or the core must publish its own (ATTACH), and
`platform_create_rpmsg_vdev` then waits in it for Linux.  The region keeps its content
across a restart of the core.  For each part of the table the model records the session
in which it was last written.
-/

namespace DataLogger.RpmsgPlatform

open DataLogger.Foundation

/-! ## The table -/

structure VringRsc where
  da : BitVec 32
  align : BitVec 32
  num : BitVec 32
  notifyid : BitVec 32
  deriving DecidableEq, Repr

/-- The resource table, as far as the core reads it: the first word, the status of the
virtio device and its two vrings. -/
structure RscTable where
  version : BitVec 32
  status : Byte
  vring0 : VringRsc
  vring1 : VringRsc
  deriving DecidableEq, Repr

def virtioConfigStatusDriverOk : Byte := 0x04#8

def RscTable.driverOk (t : RscTable) : Bool := t.status &&& virtioConfigStatusDriverOk != 0#8

/-- The table linked into the image: version 1, and Linux has not touched it. -/
structure LinkedTable where
  table : RscTable
  version : table.version = 1#32
  fresh : table.driverOk = false

/-! ## The platform -/

inductive SessionKind where
  | load
  | attach
  deriving DecidableEq, Repr

/-- Where `rpmsg_mng_task` stands.  Behind the wait it carries the vring addresses it has
read. -/
inductive CorePc where
  | off
  | metalInit
  | checkVersion
  | publish
  | ipmReady
  | createVdev
  | waitRemoteReady
  | initVring0
  | initVring1 (da0 : BitVec 32)
  | initRpmsg (da0 da1 : BitVec 32)
  | running (da0 da1 : BitVec 32)
  | failed
  deriving DecidableEq, Repr

inductive LinuxPhase where
  | idle
  | ringsWritten
  | driverOk
  deriving DecidableEq, Repr

/-- The region, the core and Linux.  `published`: the core has published its table in this
session.  `tableBy`, `ringsBy`, `readyBy`: the session in which a fresh table, the vring
addresses and DRIVER_OK were last written; a fresh table wipes the other two. -/
structure Platform where
  region : RscTable
  session : Nat
  kind : SessionKind
  core : CorePc
  linux : LinuxPhase
  published : Bool
  tableBy : Option Nat
  ringsBy : Option Nat
  readyBy : Option Nat
  deriving DecidableEq

/-- Before the first session the region may hold anything. -/
def Platform.initial (region : RscTable) : Platform :=
  ⟨region, 0, .attach, .off, .idle, false, none, none, none⟩

/-- `start`: the core is restarted.  `core`: it takes its next step; `ok` is the outcome of
the call it makes there, if that call can fail.  The others are Linux's writes. -/
inductive PlatformAction where
  | start (kind : SessionKind)
  | core (ok : Bool)
  | writeRings (da0 da1 : BitVec 32)
  | writeDriverOk
  deriving DecidableEq

def Platform.writeTable (L : LinkedTable) (s : Platform) : Platform :=
  { s with region := L.table, tableBy := some s.session, ringsBy := none, readyBy := none }

/-- A session begins.  Before a LOAD Linux writes the table, before an ATTACH nobody
does. -/
def Platform.start (L : LinkedTable) (kind : SessionKind) (s : Platform) : Platform :=
  let s := { s with session := s.session + 1, kind := kind, core := .metalInit,
                    linux := .idle, published := false }
  match kind with
  | .load => s.writeTable L
  | .attach => s

/-- `platform_init`, `platform_create_rpmsg_vdev` and the loop of `rpmsg_mng_task`, one
access to the region or one fallible call at a time. -/
def Platform.coreStep (L : LinkedTable) (ok : Bool) (s : Platform) : Option Platform :=
  match s.core with
  | .off => none
  | .metalInit => some { s with core := if ok then .checkVersion else .failed }
  | .checkVersion =>
      some { s with core := if s.region.version ≠ 1#32 then .publish else .ipmReady }
  | .publish => some { s.writeTable L with published := true, core := .ipmReady }
  | .ipmReady => some { s with core := if ok then .createVdev else .failed }
  | .createVdev => some { s with core := if ok then .waitRemoteReady else .failed }
  | .waitRemoteReady =>
      if s.region.driverOk then some { s with core := .initVring0 } else none
  | .initVring0 =>
      some { s with core := if ok then .initVring1 s.region.vring0.da else .failed }
  | .initVring1 da0 =>
      some { s with core := if ok then .initRpmsg da0 s.region.vring1.da else .failed }
  | .initRpmsg da0 da1 => some { s with core := if ok then .running da0 da1 else .failed }
  | .running _ _ => some s
  | .failed => none

def Platform.step (L : LinkedTable) (s : Platform) : PlatformAction → Option Platform
  | .start kind => some (s.start L kind)
  | .core ok => s.coreStep L ok
  | .writeRings da0 da1 =>
      -- in an ATTACH session Linux reads the table first, so it waits for the publication
      if (s.kind = .load ∨ s.published = true) ∧ s.linux ≠ .driverOk then
        some { s with
          region := { s.region with
            vring0 := { s.region.vring0 with da := da0 }
            vring1 := { s.region.vring1 with da := da1 } }
          ringsBy := some s.session
          linux := .ringsWritten }
      else none
  | .writeDriverOk =>
      if s.linux = .ringsWritten then
        some { s with
          region := { s.region with
            status := s.region.status ||| virtioConfigStatusDriverOk }
          readyBy := some s.session
          linux := .driverOk }
      else none

def platformMachine (L : LinkedTable) : Machine Platform PlatformAction := ⟨Platform.step L⟩

/-! ## Acting on the present session -/

/-- The core has passed `rproc_virtio_wait_remote_ready`. -/
def CorePc.passed : CorePc → Bool
  | .initVring0 | .initVring1 _ | .initRpmsg _ _ | .running _ _ => true
  | _ => false

def CorePc.ring0 : CorePc → Option (BitVec 32)
  | .initVring1 da0 | .initRpmsg da0 _ | .running da0 _ => some da0
  | _ => none

def CorePc.ring1 : CorePc → Option (BitVec 32)
  | .initRpmsg _ da1 | .running _ da1 => some da1
  | _ => none

/-- A core behind the wait has a table, a DRIVER_OK and vring addresses of the present
session before it, and uses those addresses. -/
structure Platform.ActsOnCurrent (s : Platform) : Prop where
  table : s.core.passed = true → s.tableBy = some s.session
  ready : s.core.passed = true → s.readyBy = some s.session
  rings : s.core.passed = true → s.ringsBy = some s.session
  ring0 : ∀ da, s.core.ring0 = some da → da = s.region.vring0.da
  ring1 : ∀ da, s.core.ring1 = some da → da = s.region.vring1.da

/-- No ATTACH session in which the core has not published its table gets past the wait. -/
def Platform.PassesOwn (s : Platform) : PlatformAction → Prop
  | .core _ =>
      s.core = .waitRemoteReady ∧ s.region.driverOk = true →
        s.kind = .load ∨ s.published = true
  | _ => True

/-- The version check of an ATTACH session does not find a complete table. -/
def Platform.ChecksFresh (s : Platform) : PlatformAction → Prop
  | .core _ =>
      s.core = .checkVersion ∧ s.kind = .attach →
        ¬ (s.region.version = 1#32 ∧ s.region.driverOk = true)
  | _ => True

/-- No ATTACH session begins over a table that looks complete. -/
def Platform.NoLeftover (s : Platform) : PlatformAction → Prop
  | .start .attach => ¬ (s.region.version = 1#32 ∧ s.region.driverOk = true)
  | _ => True

instance (s : Platform) (a : PlatformAction) : Decidable (s.PassesOwn a) := by
  unfold Platform.PassesOwn
  split <;> infer_instance

instance (s : Platform) (a : PlatformAction) : Decidable (s.ChecksFresh a) := by
  unfold Platform.ChecksFresh
  split <;> infer_instance

instance (s : Platform) (a : PlatformAction) : Decidable (s.NoLeftover a) := by
  unfold Platform.NoLeftover
  split <;> infer_instance

/-! ## The invariant -/

/-- Somebody has written the table in this session: Linux before a LOAD, the core by
publishing. -/
def Platform.Owned (s : Platform) : Prop := s.kind = .load ∨ s.published = true

/-- A valid table of this session, whose DRIVER_OK, if set, is of this session too. -/
structure Platform.Trusted (s : Platform) : Prop where
  table : s.tableBy = some s.session
  version : s.region.version = 1#32
  ready : s.region.driverOk = true →
    s.readyBy = some s.session ∧ s.ringsBy = some s.session ∧ s.linux = .driverOk

/-- What the place the core has reached says about the table. -/
def Platform.CoreSound (s : Platform) : Prop :=
  match s.core with
  | .metalInit | .checkVersion => s.published = false
  | .publish => ¬ s.Owned
  | .ipmReady | .createVdev | .waitRemoteReady => ¬ s.Owned → s.region.version = 1#32
  | .initVring0 | .initVring1 _ | .initRpmsg _ _ | .running _ _ =>
      s.Owned → s.region.driverOk = true
  | _ => True

structure Platform.Sound (s : Platform) : Prop where
  owned : s.Owned → s.Trusted
  foreign : ¬ s.Owned → s.tableBy ≠ some s.session
  idle : ¬ s.Owned → s.linux = .idle
  rings : s.linux ≠ .idle → s.ringsBy = some s.session
  past : ∀ k, s.tableBy = some k → k ≤ s.session
  core : s.CoreSound
  ring0 : ∀ da, s.core.ring0 = some da → da = s.region.vring0.da
  ring1 : ∀ da, s.core.ring1 = some da → da = s.region.vring1.da

variable {L : LinkedTable} {s t : Platform} {a : PlatformAction}

theorem Platform.sound_initial (region : RscTable) : (Platform.initial region).Sound := by
  have howned : ¬ (Platform.initial region).Owned := by
    rintro (h | h) <;> cases h
  exact {
    owned := fun h => absurd h howned
    foreign := fun _ h => by cases h
    idle := fun _ => rfl
    rings := fun h => absurd rfl h
    past := fun _ h => by cases h
    core := trivial
    ring0 := fun _ h => by cases h
    ring1 := fun _ h => by cases h }

theorem trusted_writeTable (L : LinkedTable) (s : Platform) : (s.writeTable L).Trusted where
  table := rfl
  version := L.version
  ready := fun h => by
    have hfresh : (s.writeTable L).region.driverOk = false := L.fresh
    rw [hfresh] at h
    cases h

theorem Platform.Sound.start (hs : s.Sound) (kind : SessionKind) : (s.start L kind).Sound := by
  cases kind with
  | load =>
      have howned : (s.start L .load).Owned := Or.inl rfl
      exact {
        owned := fun _ => trusted_writeTable L _
        foreign := fun h => absurd howned h
        idle := fun h => absurd howned h
        rings := fun h => absurd rfl h
        past := fun _ h => Nat.le_of_eq (Option.some.inj h).symm
        core := rfl
        ring0 := fun _ h => by cases h
        ring1 := fun _ h => by cases h }
  | attach =>
      have howned : ¬ (s.start L .attach).Owned := by
        rintro (h | h) <;> cases h
      exact {
        owned := fun h => absurd h howned
        foreign := fun _ h => Nat.not_succ_le_self s.session (hs.past _ h)
        idle := fun _ => rfl
        rings := fun h => absurd rfl h
        past := fun k hk => Nat.le_succ_of_le (hs.past k hk)
        core := rfl
        ring0 := fun _ h => by cases h
        ring1 := fun _ h => by cases h }

theorem passed_of_ring0 {pc : CorePc} {da : BitVec 32} (h : pc.ring0 = some da) :
    pc.passed = true := by
  cases pc <;> first | rfl | cases h

theorem passed_of_ring1 {pc : CorePc} {da : BitVec 32} (h : pc.ring1 = some da) :
    pc.passed = true := by
  cases pc <;> first | rfl | cases h

theorem Platform.Sound.ready_of_passed (hs : s.Sound) (howned : s.Owned)
    (h : s.core.passed = true) : s.region.driverOk = true := by
  have hcore := hs.core
  unfold Platform.CoreSound at hcore
  cases hpc : s.core <;> rw [hpc] at h hcore <;>
    first
      | exact hcore howned
      | cases h

/-- Behind the wait the core acts on the present session if somebody has written the table in
it. -/
theorem Platform.Sound.actsOnCurrent_iff (hs : s.Sound) :
    s.ActsOnCurrent ↔ (s.core.passed = true → s.Owned) := by
  constructor
  · intro hacts hpassed
    by_contra hnot
    exact hs.foreign hnot (hacts.table hpassed)
  · intro howned
    have hready : s.core.passed = true →
        s.readyBy = some s.session ∧ s.ringsBy = some s.session ∧ s.linux = .driverOk :=
      fun h => (hs.owned (howned h)).ready (hs.ready_of_passed (howned h) h)
    exact {
      table := fun h => (hs.owned (howned h)).table
      ready := fun h => (hready h).1
      rings := fun h => (hready h).2.1
      ring0 := hs.ring0
      ring1 := hs.ring1 }

theorem Platform.Sound.not_passed (hs : s.Sound) (howned : s.Owned) (h : s.linux ≠ .driverOk) :
    s.core.passed = false := by
  by_contra hpassed
  rw [Bool.not_eq_false] at hpassed
  exact h ((hs.owned howned).ready (hs.ready_of_passed howned hpassed)).2.2

theorem Platform.CoreSound.of_not_passed (hs : s.CoreSound) (hpassed : s.core.passed = false)
    (hcore : t.core = s.core) (hkind : t.kind = s.kind) (hpublished : t.published = s.published)
    (hversion : t.region.version = s.region.version) : t.CoreSound := by
  unfold Platform.CoreSound Platform.Owned at hs ⊢
  rw [hcore, hkind, hpublished, hversion]
  cases hpc : s.core <;> rw [hpc] at hs hpassed <;>
    first
      | exact hs
      | cases hpassed

theorem Platform.Sound.writeRings (hs : s.Sound) {da0 da1 : BitVec 32}
    (hstep : s.step L (.writeRings da0 da1) = some t) : t.Sound := by
  rw [Platform.step] at hstep
  split at hstep
  · rename_i hguard
    obtain ⟨howned, hlinux⟩ := hguard
    have htrusted := hs.owned howned
    have hready : s.region.driverOk ≠ true := fun h => hlinux (htrusted.ready h).2.2
    have hpassed := hs.not_passed howned hlinux
    cases hstep
    exact {
      owned := fun _ => ⟨htrusted.table, htrusted.version, fun h => absurd h hready⟩
      foreign := fun h => absurd howned h
      idle := fun h => absurd howned h
      rings := fun _ => rfl
      past := hs.past
      core := hs.core.of_not_passed hpassed rfl rfl rfl rfl
      ring0 := fun _ h => by
        rw [passed_of_ring0 h] at hpassed
        cases hpassed
      ring1 := fun _ h => by
        rw [passed_of_ring1 h] at hpassed
        cases hpassed }
  · cases hstep

theorem Platform.Sound.writeDriverOk (hs : s.Sound)
    (hstep : s.step L .writeDriverOk = some t) : t.Sound := by
  rw [Platform.step] at hstep
  split at hstep
  · rename_i hlinux
    have hactive : s.linux ≠ .idle := by
      rw [hlinux]
      decide
    have howned : s.Owned := by
      by_contra hnot
      exact hactive (hs.idle hnot)
    have htrusted := hs.owned howned
    have hpassed := hs.not_passed howned (by rw [hlinux]; decide)
    cases hstep
    exact {
      owned := fun _ => ⟨htrusted.table, htrusted.version,
        fun _ => ⟨rfl, hs.rings hactive, rfl⟩⟩
      foreign := fun h => absurd howned h
      idle := fun h => absurd howned h
      rings := fun _ => hs.rings hactive
      past := hs.past
      core := hs.core.of_not_passed hpassed rfl rfl rfl rfl
      ring0 := hs.ring0
      ring1 := hs.ring1 }
  · cases hstep

/-- A step of the core that leaves region and Linux alone keeps everything but what the
new place says. -/
theorem Platform.Sound.move (hs : s.Sound) {pc : CorePc}
    (hcore : Platform.CoreSound { s with core := pc })
    (hring0 : ∀ da, pc.ring0 = some da → da = s.region.vring0.da)
    (hring1 : ∀ da, pc.ring1 = some da → da = s.region.vring1.da) :
    Platform.Sound { s with core := pc } where
  owned := fun h => ⟨(hs.owned h).table, (hs.owned h).version, (hs.owned h).ready⟩
  foreign := hs.foreign
  idle := hs.idle
  rings := hs.rings
  past := hs.past
  core := hcore
  ring0 := hring0
  ring1 := hring1

theorem Platform.Sound.moveBefore (hs : s.Sound) {pc : CorePc}
    (hpassed : pc.passed = false) (hcore : Platform.CoreSound { s with core := pc }) :
    Platform.Sound { s with core := pc } := by
  apply hs.move hcore
  · intro da hring
    rw [passed_of_ring0 hring] at hpassed
    cases hpassed
  · intro da hring
    rw [passed_of_ring1 hring] at hpassed
    cases hpassed

theorem Platform.Sound.call (hs : s.Sound) (pc : CorePc) (ok : Bool)
    (hnext : Platform.Sound { s with core := pc }) :
    Platform.Sound { s with core := if ok then pc else .failed } := by
  cases ok with
  | false => exact hs.moveBefore rfl trivial
  | true => exact hnext

theorem Platform.Sound.publish (hs : s.Sound) (hpc : s.core = .publish) :
    Platform.Sound { s.writeTable L with published := true, core := .ipmReady } := by
  have hnot : ¬ s.Owned := by
    have hcore := hs.core
    rw [Platform.CoreSound, hpc] at hcore
    exact hcore
  have howned : Platform.Owned { s.writeTable L with published := true, core := .ipmReady } :=
    Or.inr rfl
  have htrusted := trusted_writeTable L s
  exact {
    owned := fun _ => ⟨htrusted.table, htrusted.version, htrusted.ready⟩
    foreign := fun h => absurd howned h
    idle := fun h => absurd howned h
    rings := fun h => absurd (hs.idle hnot) h
    past := fun _ h => Nat.le_of_eq (Option.some.inj h).symm
    core := fun h => absurd howned h
    ring0 := fun _ h => by cases h
    ring1 := fun _ h => by cases h }

theorem Platform.Sound.coreStep (hs : s.Sound) {ok : Bool}
    (hstep : s.coreStep L ok = some t) : t.Sound := by
  have hcore := hs.core
  rw [Platform.CoreSound] at hcore
  rw [Platform.coreStep] at hstep
  cases hpc : s.core with
  | off => simp [hpc] at hstep
  | failed => simp [hpc] at hstep
  | running da0 da1 =>
      simp only [hpc, Option.some.injEq] at hstep
      exact hstep ▸ hs
  | publish =>
      simp only [hpc, Option.some.injEq] at hstep
      exact hstep ▸ hs.publish hpc
  | metalInit =>
      simp only [hpc, Option.some.injEq] at hstep
      subst hstep
      rw [hpc] at hcore
      exact hs.call .checkVersion ok (hs.moveBefore rfl hcore)
  | checkVersion =>
      simp only [hpc, Option.some.injEq] at hstep
      subst hstep
      by_cases hversion : s.region.version = 1#32
      · rw [if_neg (not_not_intro hversion)]
        exact hs.moveBefore rfl fun _ => hversion
      · rw [if_pos hversion]
        exact hs.moveBefore rfl fun h => hversion (hs.owned h).version
  | ipmReady =>
      rw [hpc] at hcore
      simp only [hpc, Option.some.injEq] at hstep
      subst hstep
      exact hs.call .createVdev ok (hs.moveBefore rfl hcore)
  | createVdev =>
      rw [hpc] at hcore
      simp only [hpc, Option.some.injEq] at hstep
      subst hstep
      exact hs.call .waitRemoteReady ok (hs.moveBefore rfl hcore)
  | waitRemoteReady =>
      rw [hpc] at hcore
      simp only [hpc] at hstep
      split at hstep
      · rename_i hready
        cases hstep
        exact hs.move (fun _ => hready) (fun _ h => by cases h) (fun _ h => by cases h)
      · cases hstep
  | initVring0 =>
      rw [hpc] at hcore
      simp only [hpc, Option.some.injEq] at hstep
      subst hstep
      refine hs.call (.initVring1 s.region.vring0.da) ok (hs.move hcore ?_ ?_)
      · exact fun _ h => (Option.some.inj h).symm
      · exact fun _ h => by cases h
  | initVring1 da0 =>
      rw [hpc] at hcore
      simp only [hpc, Option.some.injEq] at hstep
      have hring0 := hs.ring0 da0 (by rw [hpc, CorePc.ring0])
      subst hstep
      refine hs.call (.initRpmsg da0 s.region.vring1.da) ok (hs.move hcore ?_ ?_)
      · exact fun _ h => Option.some.inj h ▸ hring0
      · exact fun _ h => (Option.some.inj h).symm
  | initRpmsg da0 da1 =>
      rw [hpc] at hcore
      simp only [hpc, Option.some.injEq] at hstep
      have hring0 := hs.ring0 da0 (by rw [hpc, CorePc.ring0])
      have hring1 := hs.ring1 da1 (by rw [hpc, CorePc.ring1])
      subst hstep
      refine hs.call (.running da0 da1) ok (hs.move hcore ?_ ?_)
      · exact fun _ h => Option.some.inj h ▸ hring0
      · exact fun _ h => Option.some.inj h ▸ hring1

theorem preserves_sound : (platformMachine L).Preserves Platform.Sound := by
  intro s a t hs hstep
  cases a with
  | start kind =>
      cases hstep
      exact hs.start kind
  | core ok => exact hs.coreStep hstep
  | writeRings da0 da1 => exact hs.writeRings (L := L) hstep
  | writeDriverOk => exact hs.writeDriverOk (L := L) hstep

/-! ## The places of the core -/

/-- The core has been started. -/
def CorePc.started : CorePc → Bool
  | .off => false
  | _ => true

/-- The core is behind the version check and has not passed the wait. -/
def CorePc.checked : CorePc → Bool
  | .ipmReady | .createVdev | .waitRemoteReady => true
  | _ => false

theorem started_of_coreStep {ok : Bool} (hstep : s.coreStep L ok = some t) :
    s.core.started = true := by
  cases hpc : s.core <;> first | rfl | simp [Platform.coreStep, hpc] at hstep

theorem passed_of_coreStep {ok : Bool} (hstep : s.coreStep L ok = some t)
    (hpassed : t.core.passed = true) :
    s.core.passed = true ∨ s.core = .waitRemoteReady ∧ s.region.driverOk = true := by
  rw [Platform.coreStep] at hstep
  cases hpc : s.core with
  | waitRemoteReady =>
      simp only [hpc, Option.ite_none_right_eq_some] at hstep
      exact .inr ⟨rfl, hstep.1⟩
  | initVring0 | initVring1 | initRpmsg | running => exact .inl rfl
  | off | failed => simp [hpc] at hstep
  | metalInit | publish | ipmReady | createVdev =>
      simp only [hpc, Option.some.injEq] at hstep
      subst hstep
      cases ok <;> cases hpassed
  | checkVersion =>
      simp only [hpc, Option.some.injEq] at hstep
      subst hstep
      by_cases hversion : s.region.version = 1#32 <;> simp [hversion, CorePc.passed] at hpassed

theorem checked_of_coreStep {ok : Bool} (hstep : s.coreStep L ok = some t)
    (hchecked : t.core.checked = true) :
    s.core.checked = true ∨ s.core = .checkVersion ∨ t.Owned := by
  rw [Platform.coreStep] at hstep
  cases hpc : s.core with
  | ipmReady | createVdev | waitRemoteReady => exact .inl rfl
  | checkVersion => exact .inr (.inl rfl)
  | publish =>
      simp only [hpc, Option.some.injEq] at hstep
      subst hstep
      exact .inr (.inr (.inr rfl))
  | off | failed => simp [hpc] at hstep
  | metalInit | initVring0 | initVring1 | initRpmsg | running =>
      simp only [hpc, Option.some.injEq] at hstep
      subst hstep
      cases ok <;> simp [hpc, CorePc.checked] at hchecked

/-- In an ATTACH session the table stays as it is until the core publishes its own. -/
theorem Platform.Sound.unowned_step (hs : s.Sound)
    (hstep : (platformMachine L).step s a = some t) (hnot : ¬ t.Owned) :
    a = .start .attach ∧ t = s.start L .attach ∨
      ∃ ok, s.coreStep L ok = some t ∧ a = .core ok ∧ ¬ s.Owned ∧ t.region = s.region := by
  cases a with
  | start kind =>
      cases hstep
      cases kind with
      | load => exact absurd (Or.inl rfl) hnot
      | attach => exact .inl ⟨rfl, rfl⟩
  | core ok =>
      change s.coreStep L ok = some t at hstep
      refine .inr ⟨ok, hstep, rfl, ?_⟩
      rw [Platform.coreStep] at hstep
      cases hpc : s.core with
      | publish =>
          simp only [hpc, Option.some.injEq] at hstep
          subst hstep
          exact absurd (Or.inr rfl) hnot
      | waitRemoteReady =>
          simp only [hpc, Option.ite_none_right_eq_some] at hstep
          obtain ⟨-, hnext⟩ := hstep
          cases hnext
          exact ⟨hnot, rfl⟩
      | off | failed => simp [hpc] at hstep
      | metalInit | checkVersion | ipmReady | createVdev | initVring0 | initVring1 | initRpmsg
      | running =>
          simp only [hpc, Option.some.injEq] at hstep
          subst hstep
          exact ⟨hnot, rfl⟩
  | writeRings da0 da1 =>
      obtain ⟨⟨howned, -⟩, hnext⟩ := Option.ite_none_right_eq_some.1 hstep
      cases hnext
      exact absurd howned hnot
  | writeDriverOk =>
      obtain ⟨hlinux, hnext⟩ := Option.ite_none_right_eq_some.1 hstep
      cases hnext
      have hidle := hs.idle hnot
      rw [hlinux] at hidle
      cases hidle

/-! ## Past the wait -/

/-- Only one step goes wrong: past the wait, in a session that does not own the table. -/
theorem owned_of_passed_step (hs : s.Sound) (hown : s.core.passed = true → s.Owned)
    (hpass : s.PassesOwn a) (hstep : (platformMachine L).step s a = some t)
    (hpassed : t.core.passed = true) : t.Owned := by
  by_contra hnot
  rcases hs.unowned_step hstep hnot with ⟨-, rfl⟩ | ⟨ok, hcore, rfl, hnot', -⟩
  · cases hpassed
  · rcases passed_of_coreStep hcore hpassed with h | hwait
    · exact hnot' (hown h)
    · exact hnot' (hpass hwait)

theorem passesOwn_of_actsOnCurrent (hs : s.Sound)
    (hstep : (platformMachine L).step s a = some t) (hacts : t.ActsOnCurrent) :
    s.PassesOwn a := by
  cases a with
  | core ok =>
      rintro ⟨hpc, hready⟩
      have hnext : t = { s with core := .initVring0 } := by
        change s.coreStep L ok = some t at hstep
        simp only [Platform.coreStep, hpc, if_pos hready, Option.some.injEq] at hstep
        exact hstep.symm
      subst hnext
      exact (preserves_sound hs hstep).actsOnCurrent_iff.1 hacts rfl
  | start kind => trivial
  | writeRings da0 da1 => trivial
  | writeDriverOk => trivial

/-- At these places of the core an ATTACH session that has not published its table has no
complete one before it. -/
def Platform.CleanAt (places : CorePc → Bool) (s : Platform) : Prop :=
  places s.core = true → ¬ s.Owned → ¬ (s.region.version = 1#32 ∧ s.region.driverOk = true)

theorem Platform.CleanAt.passesOwn {places : CorePc → Bool} (hs : s.Sound)
    (hclean : s.CleanAt places) (hwait : places .waitRemoteReady = true) : s.PassesOwn a := by
  cases a with
  | core ok =>
      rintro ⟨hpc, hready⟩
      by_contra hnot
      have hcore := hs.core
      rw [Platform.CoreSound, hpc] at hcore
      exact hclean (hpc ▸ hwait) hnot ⟨hcore hnot, hready⟩
  | start kind => trivial
  | writeRings da0 da1 => trivial
  | writeDriverOk => trivial

theorem cleanAt_started_step (hs : s.Sound) (hclean : s.CleanAt CorePc.started)
    (hok : s.NoLeftover a) (hstep : (platformMachine L).step s a = some t) :
    t.CleanAt CorePc.started := by
  intro _ hnot
  rcases hs.unowned_step hstep hnot with ⟨rfl, rfl⟩ | ⟨ok, hcore, rfl, hnot', hregion⟩
  · exact hok
  · rw [hregion]
    exact hclean (started_of_coreStep hcore) hnot'

theorem cleanAt_checked_step (hs : s.Sound) (hclean : s.CleanAt CorePc.checked)
    (hfresh : s.ChecksFresh a) (hstep : (platformMachine L).step s a = some t) :
    t.CleanAt CorePc.checked := by
  intro hplace hnot
  rcases hs.unowned_step hstep hnot with ⟨rfl, rfl⟩ | ⟨ok, hcore, rfl, hnot', hregion⟩
  · cases hplace
  · rw [hregion]
    rcases checked_of_coreStep hcore hplace with h | hcheck | howned
    · exact hclean h hnot'
    · have hattach : s.kind = .attach := by
        cases hkind : s.kind with
        | load => exact absurd (Or.inl hkind) hnot'
        | attach => rfl
      exact hfresh ⟨hcheck, hattach⟩
    · exact absurd howned hnot

/-- What a run keeps whose ATTACH sessions begin over no leftover table. -/
structure Platform.Clean (s : Platform) : Prop where
  sound : s.Sound
  started : s.CleanAt CorePc.started
  owned : s.core.passed = true → s.Owned

theorem Platform.clean_initial (region : RscTable) : (Platform.initial region).Clean where
  sound := Platform.sound_initial region
  started := fun h => by cases h
  owned := fun h => by cases h

theorem Platform.Clean.step (hs : s.Clean) (hok : s.NoLeftover a)
    (hstep : (platformMachine L).step s a = some t) : t.Clean where
  sound := preserves_sound hs.sound hstep
  started := cleanAt_started_step hs.sound hs.started hok hstep
  owned := owned_of_passed_step hs.sound hs.owned (hs.started.passesOwn hs.sound rfl) hstep

theorem Platform.Clean.actsOnCurrent (hs : s.Clean) : s.ActsOnCurrent :=
  hs.sound.actsOnCurrent_iff.2 hs.owned

/-- A version check that finds a leftover table leads past the wait, if the two calls between
them succeed. -/
theorem stale_check_acts (hs : s.Sound) (hstale : ¬ s.ChecksFresh (.core true)) :
    ∃ t, (platformMachine L).exec s (List.replicate 4 (.core true)) = some t ∧
      ¬ t.ActsOnCurrent := by
  rw [Platform.ChecksFresh, Classical.not_imp, not_not] at hstale
  obtain ⟨⟨hpc, hkind⟩, hversion, hready⟩ := hstale
  have hexec : (platformMachine L).exec s (List.replicate 4 (.core true)) =
      some { s with core := .initVring0 } := by
    simp [List.replicate, Machine.exec_cons, platformMachine, Platform.step,
      Platform.coreStep, hpc, hversion, hready]
  refine ⟨_, hexec, fun hacts => ?_⟩
  have hunpublished : s.published = false := by
    have hcore := hs.core
    rw [Platform.CoreSound, hpc] at hcore
    exact hcore
  have howned : s.kind = .load ∨ s.published = true :=
    (preserves_sound.exec hs hexec).actsOnCurrent_iff.1 hacts rfl
  rw [hkind, hunpublished] at howned
  rcases howned with h | h <;> cases h

theorem platform_sound_of_exec {region : RscTable} {as : List PlatformAction}
    (hexec : (platformMachine L).exec (.initial region) as = some s) : s.Sound :=
  preserves_sound.exec (Platform.sound_initial region) hexec

theorem throughout_actsOnCurrent_iff {region : RscTable} {as : List PlatformAction}
    (hexec : (platformMachine L).exec (.initial region) as = some t) :
    (platformMachine L).Throughout Platform.ActsOnCurrent (.initial region) as ↔
      (platformMachine L).Along Platform.PassesOwn (.initial region) as := by
  apply Machine.throughout_iff_along
    (I := fun s => s.Sound ∧ (s.core.passed = true → s.Owned))
  · rintro s ⟨hs, hown⟩
    exact hs.actsOnCurrent_iff.2 hown
  · rintro s a t ⟨hs, hown⟩ hpass hstep
    exact ⟨preserves_sound hs hstep, owned_of_passed_step hs hown hpass hstep⟩
  · rintro s a t ⟨hs, -⟩ hstep hacts
    exact passesOwn_of_actsOnCurrent hs hstep hacts
  · exact ⟨Platform.sound_initial region, fun h => by cases h⟩
  · exact hexec

theorem along_passesOwn_of_fresh {region : RscTable} {as : List PlatformAction}
    (hexec : (platformMachine L).exec (.initial region) as = some t)
    (hfresh : (platformMachine L).Along Platform.ChecksFresh (.initial region) as) :
    (platformMachine L).Along Platform.PassesOwn (.initial region) as := by
  have hclean : (platformMachine L).Throughout
      (fun s => s.Sound ∧ s.CleanAt CorePc.checked) (.initial region) as := by
    refine hfresh.throughout ?_ ⟨Platform.sound_initial region, fun h => by cases h⟩ hexec
    rintro s a t ⟨hs, hclean⟩ hok hstep
    exact ⟨preserves_sound hs hstep, cleanAt_checked_step hs hclean hok hstep⟩
  intro pre a s hpre hs
  obtain ⟨hsound, hat⟩ := hclean pre s ((List.prefix_append pre [a]).trans hpre) hs
  exact hat.passesOwn hsound rfl

/-- **The core acts on the present session exactly when no ATTACH session that has not
published its table gets past the wait.**  Whatever the region held at first, whatever
sessions follow each other and however Linux's writes fall between the core's steps.  It is
enough that no version check of an ATTACH session finds a complete table; one that does goes
wrong as soon as the two calls before the wait succeed. -/
theorem resourceTable_current_iff {region : RscTable} {as : List PlatformAction}
    {u : Platform} (hexec : (platformMachine L).exec (.initial region) as = some u) :
    ((platformMachine L).Throughout Platform.ActsOnCurrent (.initial region) as ↔
        (platformMachine L).Along Platform.PassesOwn (.initial region) as) ∧
      ((platformMachine L).Along Platform.ChecksFresh (.initial region) as →
        (platformMachine L).Throughout Platform.ActsOnCurrent (.initial region) as) ∧
      (¬ u.ChecksFresh (.core true) →
        ∃ t, (platformMachine L).exec u (List.replicate 4 (.core true)) = some t ∧
          ¬ t.ActsOnCurrent) := by
  have hiff := throughout_actsOnCurrent_iff hexec
  refine ⟨hiff, ?_, ?_⟩
  · intro hfresh
    exact hiff.2 (along_passesOwn_of_fresh hexec hfresh)
  · intro hstale
    exact stale_check_acts (platform_sound_of_exec hexec) hstale

def linkedExample : LinkedTable where
  table := ⟨1#32, 0#8, ⟨0xFFFFFFFF#32, 16#32, 8#32, 0#32⟩, ⟨0xFFFFFFFF#32, 16#32, 8#32, 1#32⟩⟩
  version := rfl
  fresh := rfl

def regionZero : RscTable := ⟨0#32, 0#8, ⟨0#32, 0#32, 0#32, 0#32⟩, ⟨0#32, 0#32, 0#32, 0#32⟩⟩

theorem resourceTable_current_cold :
    (platformMachine linkedExample).Throughout Platform.ActsOnCurrent (.initial regionZero)
      [.start .attach, .core true, .core true, .core true, .core true, .core true,
        .writeRings 0xB8000000#32 0xB8008000#32, .writeDriverOk, .core true, .core true,
        .core true, .core true, .start .load, .core true,
        .writeRings 0xB8000000#32 0xB8008000#32, .core true, .writeDriverOk] := by
  exact (resourceTable_current_iff rfl).2.1 (by decide)

/-- After a LOAD session the core is restarted before Linux: the table of that session
still says DRIVER_OK, and the core goes on with its rings. -/
theorem resourceTable_leftover :
    ¬ (platformMachine linkedExample).Throughout Platform.ActsOnCurrent (.initial regionZero)
      [.start .load, .writeRings 0xB8000000#32 0xB8008000#32, .writeDriverOk,
        .start .attach, .core true, .core true, .core true, .core true, .core true] := by
  intro h
  have hend := h.finish rfl
  exact absurd (hend.ready rfl) (by decide)

end DataLogger.RpmsgPlatform
