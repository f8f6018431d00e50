import DataLogger.Foundation.Components
import DataLogger.RpmsgEcho.Client
import DataLogger.RpmsgEcho.Tty

/-!
# The rpmsg-echo firmware

Linux puts messages for any endpoint into one vring and kicks; the interrupt gives `data_sem`,
and `rpmsg_mng_task` takes the messages out of the vring one after the other and calls the
callbacks of the endpoints.  The two responders run beside it, each as it does alone.  A
buffer that a responder holds is not one that Linux could fill.
-/

namespace DataLogger.RpmsgEcho

open DataLogger.Foundation
open DataLogger.Zephyr

/-! ## The state -/

inductive Endpoint where
  | tty
  | client
  | other
  deriving DecidableEq

/-- A message in the vring. -/
structure Post where
  dst : Endpoint
  buf : Buffer
  deriving DecidableEq

/-- Where `rpmsg_mng_task` stands; `notified` is inside `rproc_virtio_notified`. -/
inductive MngPc where
  | starting
  | waiting
  | notified
  | ended
  deriving DecidableEq

/-- `ring` is what Linux has put and nobody has taken.  `unkicked` and `posted` only record: the
messages put since the last kick, and all of them. -/
structure Echo where
  ring : List Post
  dataSem : Semaphore 1
  mng : MngPc
  tty : Tty
  client : Client
  unkicked : Nat
  posted : List Post

def Echo.initial : Echo := ⟨[], .empty 1, .starting, .initial, .initial, 0, []⟩

/-! ## The steps -/

/-- `ready`: the management task has brought the platform up, or has failed.  `post`: Linux puts
a message into the vring.  `kick`: Linux kicks, and the interrupt is enabled.  `take`,
`deliver`, `drained`: the loop of the management task.  `tty`, `client`: a step of a
responder. -/
inductive EchoAction where
  | ready (ok : Bool)
  | post (m : Post)
  | kick
  | take
  | deliver
  | drained
  | tty (a : TtyAction)
  | client (a : ClientAction)
  deriving DecidableEq

def TtyAction.ofResponder : TtyAction → Bool
  | .create _ | .wake | .sent _ => true
  | .ready | .recv _ | .other _ => false

def ClientAction.ofResponder : ClientAction → Bool
  | .create _ | .wake | .sent _ | .destroyed => true
  | .ready | .recv _ => false

namespace Echo

/-- The callback of the endpoint; a message for an endpoint that is not there is dropped. -/
def hand (m : Post) (s : Echo) : Echo :=
  match m.dst with
  | .tty => if s.tty.pc.up then { s with tty := s.tty.rpmsgRecvTtyCallback m.buf } else s
  | .client =>
      if s.client.pc.up then { s with client := s.client.rpmsgRecvCsCallback m.buf.msg } else s
  | .other => s

/-- Behind an overrun of `rx_sc_msg` nothing can be said. -/
def step (cfg : TtyConfig) (s : Echo) (a : EchoAction) : Option Echo :=
  if s.client.overrun then none
  else
    match a with
    | .ready ok =>
        if s.mng = .starting then
          if ok then
            -- the two gives that start the responders
            (clientMachine.step s.client .ready).bind fun client =>
              ((ttyMachine cfg).step s.tty .ready).map fun tty =>
                { s with mng := .waiting, client := client, tty := tty }
          else some { s with mng := .ended }
        else none
    | .post m =>
        if cfg.Fills s.tty m.buf ∧ ∀ other ∈ s.ring, other.buf.id ≠ m.buf.id then
          some { s with ring := s.ring ++ [m], unkicked := s.unkicked + 1,
                        posted := s.posted ++ [m] }
        else none
    | .kick => some { s with dataSem := s.dataSem.give, unkicked := 0 }
    | .take =>
        if s.mng = .waiting then
          s.dataSem.take.map fun sem => { s with dataSem := sem, mng := .notified }
        else none
    | .deliver =>
        match s.mng, s.ring with
        | .notified, m :: rest => some ({ s with ring := rest }.hand m)
        | _, _ => none
    | .drained =>
        if s.mng = .notified ∧ s.ring = [] then some { s with mng := .waiting } else none
    | .tty a =>
        if a.ofResponder then ((ttyMachine cfg).step s.tty a).map fun tty => { s with tty := tty }
        else none
    | .client a =>
        if a.ofResponder then
          (clientMachine.step s.client a).map fun client => { s with client := client }
        else none

/-- The messages of `posts` for one endpoint. -/
def messages (e : Endpoint) (posts : List Post) : List (List Byte) :=
  (posts.filter (·.dst = e)).map (·.buf.msg)

end Echo

def echoMachine (cfg : TtyConfig) : Machine Echo EchoAction := ⟨Echo.step cfg⟩

/-! ## What a step can do -/

/-- Every way a step changes the state, with what it found there. -/
inductive Echo.Step (cfg : TtyConfig) (s : Echo) : EchoAction → Echo → Prop where
  | ready (client : Client) (tty : Tty) (hmng : s.mng = .starting)
      (hclient : clientMachine.step s.client .ready = some client)
      (htty : (ttyMachine cfg).step s.tty .ready = some tty) :
      Step cfg s (.ready true) { s with mng := .waiting, client := client, tty := tty }
  | failed (hmng : s.mng = .starting) : Step cfg s (.ready false) { s with mng := .ended }
  | posted (m : Post) (hfills : cfg.Fills s.tty m.buf)
      (hfree : ∀ other ∈ s.ring, other.buf.id ≠ m.buf.id) :
      Step cfg s (.post m)
        { s with ring := s.ring ++ [m], unkicked := s.unkicked + 1, posted := s.posted ++ [m] }
  | kicked : Step cfg s .kick { s with dataSem := s.dataSem.give, unkicked := 0 }
  | taken (sem : Semaphore 1) (hmng : s.mng = .waiting)
      (hsem : s.dataSem.count = sem.count + 1) :
      Step cfg s .take { s with dataSem := sem, mng := .notified }
  | delivered (m : Post) (rest : List Post) (hmng : s.mng = .notified)
      (hring : s.ring = m :: rest) :
      Step cfg s .deliver (Echo.hand m { s with ring := rest })
  | drained (hmng : s.mng = .notified) (hring : s.ring = []) :
      Step cfg s .drained { s with mng := .waiting }
  | tty (a : TtyAction) (tty : Tty) (ha : a.ofResponder = true)
      (htty : (ttyMachine cfg).step s.tty a = some tty) : Step cfg s (.tty a) { s with tty := tty }
  | client (a : ClientAction) (client : Client) (ha : a.ofResponder = true)
      (hclient : clientMachine.step s.client a = some client) :
      Step cfg s (.client a) { s with client := client }

variable {cfg : TtyConfig} {s t : Echo} {a : EchoAction}

theorem Echo.step_cases (hstep : (echoMachine cfg).step s a = some t) :
    s.client.overrun = false ∧ s.Step cfg a t := by
  obtain ⟨hrun, hstep⟩ := Option.ite_none_left_eq_some.1
    (show (if s.client.overrun then none else _) = some t from hstep)
  refine ⟨by simpa using hrun, ?_⟩
  cases a with
  | ready ok =>
      obtain ⟨hmng, hnext⟩ := Option.ite_none_right_eq_some.1 hstep
      cases ok with
      | true =>
          obtain ⟨client, hclient, hnext⟩ := Option.bind_eq_some_iff.1 hnext
          obtain ⟨tty, htty, hnext⟩ := Option.map_eq_some_iff.1 hnext
          cases hnext
          exact .ready client tty hmng hclient htty
      | false =>
          cases hnext
          exact .failed hmng
  | post m =>
      obtain ⟨⟨hfills, hfree⟩, hnext⟩ := Option.ite_none_right_eq_some.1 hstep
      cases hnext
      exact .posted m hfills hfree
  | kick =>
      cases hstep
      exact .kicked
  | take =>
      obtain ⟨hmng, hnext⟩ := Option.ite_none_right_eq_some.1 hstep
      obtain ⟨sem, htake, hnext⟩ := Option.map_eq_some_iff.1 hnext
      cases hnext
      exact .taken sem hmng (Semaphore.take_eq_some.1 htake)
  | deliver =>
      simp only at hstep
      split at hstep
      · rename_i m rest hmng hring
        cases hstep
        exact .delivered m rest hmng hring
      · cases hstep
  | drained =>
      obtain ⟨⟨hmng, hring⟩, hnext⟩ := Option.ite_none_right_eq_some.1 hstep
      cases hnext
      exact .drained hmng hring
  | tty a =>
      obtain ⟨ha, hnext⟩ := Option.ite_none_right_eq_some.1 hstep
      obtain ⟨tty, htty, hnext⟩ := Option.map_eq_some_iff.1 hnext
      cases hnext
      exact .tty a tty ha htty
  | client a =>
      obtain ⟨ha, hnext⟩ := Option.ite_none_right_eq_some.1 hstep
      obtain ⟨client, hclient, hnext⟩ := Option.map_eq_some_iff.1 hnext
      cases hnext
      exact .client a client ha hclient

/-! ## The responders as parts -/

/-- The messages in the vring are in buffers of their own that no responder holds. -/
structure Echo.Fed (cfg : TtyConfig) (s : Echo) : Prop where
  nodup : (s.ring.map fun m => m.buf.id).Nodup
  fills : ∀ m ∈ s.ring, cfg.Fills s.tty m.buf

theorem TtyConfig.Fills.mono {x y : Tty} {b : Buffer} (h : cfg.Fills x b)
    (hheld : y.held ⊆ x.held) : cfg.Fills y b :=
  ⟨h.1, fun hmem => h.2.1 (hheld hmem), h.2.2⟩

theorem held_subset {x y : Tty} {b : TtyAction} (hb : ∀ c, b ≠ .recv c)
    (hstep : (ttyMachine cfg).step x b = some y) : y.held ⊆ x.held := by
  cases Tty.step_cases hstep with
  | received c hup hfills => exact absurd rfl (hb c)
  | echoed | refused => exact List.erase_subset
  | ready | created | other | idled | woken => exact List.Subset.refl _

theorem recv_of_responder {b : TtyAction} (hb : b.ofResponder = true) (c : Buffer) :
    b ≠ .recv c := by
  rintro rfl
  cases hb

theorem fed_initial (cfg : TtyConfig) : Echo.initial.Fed cfg :=
  ⟨List.nodup_nil, fun _ h => nomatch h⟩

/-- The vring is as it was, and no buffer of it is now held. -/
theorem Echo.Fed.mono (hs : s.Fed cfg) (hring : t.ring = s.ring)
    (hheld : t.tty.held ⊆ s.tty.held) : t.Fed cfg := by
  refine ⟨hring ▸ hs.nodup, ?_⟩
  intro m hm
  exact (hs.fills m (hring ▸ hm)).mono hheld

theorem hand_held {m : Post} {i : Nat} (hi : i ∈ (s.hand m).tty.held) :
    i ∈ s.tty.held ∨ i = m.buf.id := by
  rw [Echo.hand] at hi
  cases hdst : m.dst with
  | tty =>
      simp only [hdst] at hi
      split at hi
      · rcases List.mem_append.1 hi with hold | hnew
        · exact .inl hold
        · exact .inr (List.mem_singleton.1 hnew)
      · exact .inl hi
  | client =>
      simp only [hdst] at hi
      split at hi
      · exact .inl hi
      · exact .inl hi
  | other =>
      rw [hdst] at hi
      exact .inl hi

@[simp] theorem hand_ring (m : Post) (s : Echo) : (s.hand m).ring = s.ring := by
  rw [Echo.hand]
  cases m.dst with
  | tty =>
      simp only
      split <;> rfl
  | client =>
      simp only
      split <;> rfl
  | other => rfl

/-- The message that is taken out leaves the others in their buffers. -/
theorem fed_delivered {m : Post} {rest : List Post} (hs : s.Fed cfg) (hring : s.ring = m :: rest) :
    (Echo.hand m { s with ring := rest }).Fed cfg := by
  obtain ⟨hnodup, hfills⟩ := hs
  rw [hring, List.map_cons, List.nodup_cons] at hnodup
  rw [hring] at hfills
  refine ⟨?_, ?_⟩
  · rw [hand_ring]
    exact hnodup.2
  · intro other hother
    rw [hand_ring] at hother
    obtain ⟨hlt, hfree, hlength⟩ := hfills other (List.mem_cons_of_mem _ hother)
    refine ⟨hlt, ?_, hlength⟩
    intro hheld
    rcases hand_held hheld with hold | hself
    · exact hfree hold
    · exact hnodup.1 (hself ▸ List.mem_map_of_mem hother)

theorem preserves_fed : (echoMachine cfg).Preserves (Echo.Fed cfg) := by
  intro s a t hs hstep
  cases (Echo.step_cases hstep).2 with
  | ready client tty hmng hclient htty => exact hs.mono rfl (held_subset (by simp) htty)
  | posted m hfills hfree =>
      refine ⟨?_, ?_⟩
      · rw [List.map_append, List.nodup_append]
        refine ⟨hs.nodup, List.nodup_singleton _, ?_⟩
        intro i hi j hj
        obtain ⟨other, hother, rfl⟩ := List.mem_map.1 hi
        rw [List.map_singleton, List.mem_singleton] at hj
        rw [hj]
        exact hfree other hother
      · intro other hother
        rcases List.mem_append.1 hother with hold | hnew
        · exact hs.fills other hold
        · rw [List.mem_singleton.1 hnew]
          exact hfills
  | delivered m rest hmng hring => exact fed_delivered hs hring
  | tty b tty hb htty => exact hs.mono rfl (held_subset (recv_of_responder hb) htty)
  | failed | kicked | taken | drained | client => exact hs.mono rfl (List.Subset.refl _)

/-- The responders, each from a state of its own. -/
def ttyPart (cfg : TtyConfig) (x0 : Tty) : Component Echo Tty TtyAction :=
  ⟨ttyMachine cfg, fun x => x = x0, fun s => some s.tty⟩

def clientPart (x0 : Client) : Component Echo Client ClientAction :=
  ⟨clientMachine, fun x => x = x0, fun s => some s.client⟩

theorem tty_follows {x0 : Tty} (hs : s.Fed cfg) (hstep : (echoMachine cfg).step s a = some t) :
    (ttyPart cfg x0).Follows s t := by
  cases (Echo.step_cases hstep).2 with
  | ready client tty hmng hclient htty => exact .moved s.tty tty .ready rfl rfl htty
  | delivered m rest hmng hring =>
      have hfills := hs.fills m (hring ▸ List.mem_cons_self)
      rw [Echo.hand]
      cases hdst : m.dst with
      | tty =>
          simp only
          split
          · rename_i hup
            exact .moved s.tty _ (.recv m.buf) rfl rfl (if_pos ⟨hup, hfills⟩)
          · exact .idle rfl
      | client =>
          simp only
          split <;> exact .idle rfl
      | other => exact .idle rfl
  | tty b tty hb htty => exact .moved s.tty tty b rfl rfl htty
  | failed | posted | kicked | taken | drained | client => exact .idle rfl

theorem client_follows {x0 : Client} (hstep : (echoMachine cfg).step s a = some t) :
    (clientPart x0).Follows s t := by
  obtain ⟨hrun, hcases⟩ := Echo.step_cases hstep
  cases hcases with
  | ready client tty hmng hclient htty => exact .moved s.client client .ready rfl rfl hclient
  | delivered m rest hmng hring =>
      rw [Echo.hand]
      cases hdst : m.dst with
      | client =>
          simp only
          split
          · rename_i hup
            refine .moved s.client _ (.recv m.buf.msg) rfl rfl ?_
            simp [clientPart, clientMachine, Client.step, hrun, show s.client.pc.up = true from hup]
          · exact .idle rfl
      | tty =>
          simp only
          split <;> exact .idle rfl
      | other => exact .idle rfl
  | client b client hb hclient => exact .moved s.client client b rfl rfl hclient
  | failed | posted | kicked | taken | drained | tty => exact .idle rfl

theorem tty_reaches (hs : s.Fed cfg) (h : (echoMachine cfg).Reaches s t) :
    (ttyMachine cfg).Reaches s.tty t.tty := by
  have hpart : (ttyPart cfg s.tty).Reached t :=
    Component.reached_of_reaches (.of_start rfl rfl) hs preserves_fed
      (fun _ _ _ hfed hstep => tty_follows hfed hstep) h
  obtain ⟨x0, rfl, hreach⟩ := hpart t.tty rfl
  exact hreach

theorem client_reaches (h : (echoMachine cfg).Reaches s t) :
    clientMachine.Reaches s.client t.client := by
  have hpart : (clientPart s.client).Reached t :=
    Component.reached_of_reaches (I := fun _ => True) (.of_start rfl rfl) trivial
      (fun _ _ _ _ _ => trivial) (fun _ _ _ _ hstep => client_follows hstep) h
  obtain ⟨x0, rfl, hreach⟩ := hpart t.client rfl
  exact hreach

/-- With every buffer lost there is none that a message could be in. -/
theorem not_fills_of_lost {x : Tty} (hs : x.Sound cfg) (hlost : x.lost.length = cfg.buffers)
    {y : Tty} (hsub : x.lost ⊆ y.lost) (b : Buffer) : ¬ cfg.Fills y b := by
  rintro ⟨hlt, hfree, -⟩
  exact hfree (lost_subset_held y (hsub (lost_all hs hlost b.id hlt)))

/-- **The responders run as they do alone, and one of them can cut Linux off from both.**  In
every run of the firmware each responder does what its own machine can do.  Once the tty
responder has lost the last buffer, the vring is empty and stays so, and Linux puts no
message into it any more, for whatever endpoint. -/
theorem echo_refines_responders (h : (echoMachine cfg).Reaches .initial s) :
    (ttyMachine cfg).Reaches .initial s.tty ∧ clientMachine.Reaches .initial s.client ∧
      (s.tty.lost.length = cfg.buffers → ∀ t, (echoMachine cfg).Reaches s t →
        t.ring = [] ∧ ∀ m, (echoMachine cfg).step t (.post m) = none) := by
  have htty : (ttyMachine cfg).Reaches .initial s.tty := tty_reaches (fed_initial cfg) h
  refine ⟨htty, client_reaches h, ?_⟩
  intro hlost t ht
  have hs := preserves_fed.reaches (fed_initial cfg) h
  have hsound := sound_of_reaches htty
  have hnone := not_fills_of_lost hsound hlost (lost_reaches hsound (tty_reaches hs ht))
  constructor
  · apply List.eq_nil_iff_forall_not_mem.2
    intro m hm
    exact hnone m.buf ((preserves_fed.reaches hs ht).fills m hm)
  · intro m
    change (if t.client.overrun then none else _) = none
    split
    · rfl
    · exact if_neg fun hgo => hnone m.buf hgo.1

/-- Two buffers: one is lost to a second message in the same notification, the other to an empty
message. -/
theorem echo_refines_responders_two :
    ∃ s, (echoMachine ⟨2, 496, 1024#32⟩).exec .initial
        [.ready true, .tty (.create true), .post ⟨.tty, ⟨0, [0x61#8]⟩⟩,
          .post ⟨.tty, ⟨1, [0x62#8]⟩⟩, .kick, .take, .deliver, .deliver, .drained, .tty .wake,
          .tty (.sent .ok), .post ⟨.tty, ⟨1, []⟩⟩, .kick, .take, .deliver, .drained,
          .tty .wake] = some s ∧
      s.tty.lost = [0, 1] ∧ ∀ m, (echoMachine ⟨2, 496, 1024#32⟩).step s (.post m) = none := by
  have hrun : ((echoMachine ⟨2, 496, 1024#32⟩).exec .initial
      [.ready true, .tty (.create true), .post ⟨.tty, ⟨0, [0x61#8]⟩⟩,
        .post ⟨.tty, ⟨1, [0x62#8]⟩⟩, .kick, .take, .deliver, .deliver, .drained, .tty .wake,
        .tty (.sent .ok), .post ⟨.tty, ⟨1, []⟩⟩, .kick, .take, .deliver, .drained,
        .tty .wake]).map (fun s => s.tty.lost) = some [0, 1] := by decide +kernel
  obtain ⟨s, hexec, hlost⟩ := Option.map_eq_some_iff.1 hrun
  have hcount : s.tty.lost.length = 2 := by rw [hlost]; rfl
  obtain ⟨-, -, hdead⟩ := echo_refines_responders ⟨_, hexec⟩
  exact ⟨s, hexec, hlost, (hdead hcount s (.refl _ s)).2⟩

end DataLogger.RpmsgEcho
