import DataLogger.Foundation.KernelObjects
import DataLogger.Foundation.Machine
import DataLogger.OpenAmp.Rpmsg
import Mathlib.Data.List.Nodup
import Mathlib.Data.List.Perm.Subperm

/-!
# The tty responder

`rpmsg_recv_tty_callback` keeps the vring's buffer and leaves it in `tty_msg` for
`app_rpmsg_tty`, which copies it, answers and gives the buffer back.  The threads are
cooperative: the callback gets in only while the responder waits for its semaphore or, inside
`rpmsg_send`, for a TX buffer.  There it can overwrite `tty_msg`.
-/

namespace DataLogger.RpmsgEcho

open DataLogger.Foundation
open DataLogger.Zephyr
open DataLogger.OpenAmp

/-! ## The text of an answer -/

def ascii (cs : List Char) : List Byte := cs.map fun c => BitVec.ofNat 8 c.toNat

/-- `%04x`. -/
def hex4 (n : Nat) : List Char :=
  List.replicate (4 - (Nat.toDigits 16 n).length) '0' ++ Nat.toDigits 16 n

/-- `snprintf(tx_buff, 13, "TTY 0x%04x: ", tty_ept.addr)`, without the terminating 0. -/
def ttyPrefix (addr : BitVec 32) : List Byte :=
  ascii (("TTY 0x".toList ++ (hex4 addr.toNat ++ ": ".toList)).take 12)

def ttyText (addr : BitVec 32) (msg : List Byte) : List Byte := ttyPrefix addr ++ msg

theorem length_ttyPrefix (addr : BitVec 32) : (ttyPrefix addr).length = 12 := by
  have hhex : 4 ≤ (hex4 addr.toNat).length := by
    rw [hex4, List.length_append, List.length_replicate]
    omega
  have hopen : ("TTY 0x".toList).length = 6 := rfl
  have hclose : (": ".toList).length = 2 := rfl
  rw [ttyPrefix, ascii, List.length_map, List.length_take, List.length_append,
    List.length_append, hopen, hclose]
  omega

/-! ## The state -/

/-- A buffer of the vring, with the message in it. -/
structure Buffer where
  id : Nat
  msg : List Byte
  deriving DecidableEq

/-- Where `app_rpmsg_tty` stands; `sending` is inside `rpmsg_send`. -/
inductive TtyPc where
  | starting
  | waiting
  | sending (text : List Byte)
  | ended
  deriving DecidableEq

/-- `data` and `len` are `tty_msg`, `held` the buffers that `rpmsg_hold_rx_buffer` has kept and
nobody has given back.  `arrived` and `echoed` only record what has happened. -/
structure Tty where
  dataTtySem : Semaphore 1
  ready : Bool
  pc : TtyPc
  data : Option Buffer
  len : Nat
  held : List Nat
  arrived : List (List Byte)
  echoed : List (List Byte)
  deriving DecidableEq

/-- The number of buffers, the payload of each, and the address of the endpoint. -/
structure TtyConfig where
  buffers : Nat
  payload : Nat
  addr : BitVec 32

def Tty.initial : Tty := ⟨.empty 1, false, .starting, none, 0, [], [], []⟩

/-! ## The steps -/

/-- `ready`: the management task has brought the device up.  `create`: the responder behind its
first take.  `recv`: a message for the endpoint; `other`: one for another endpoint of the
device, whose buffer goes back at once.  `wake`: the responder takes the semaphore.  `sent`:
its `rpmsg_send` returns. -/
inductive TtyAction where
  | ready
  | create (ok : Bool)
  | recv (b : Buffer)
  | other (b : Buffer)
  | wake
  | sent (r : Reply)
  deriving DecidableEq

/-- Linux has the buffer and fills it. -/
def TtyConfig.Fills (cfg : TtyConfig) (s : Tty) (b : Buffer) : Prop :=
  b.id < cfg.buffers ∧ b.id ∉ s.held ∧ b.msg.length ≤ cfg.payload

instance (cfg : TtyConfig) (s : Tty) (b : Buffer) : Decidable (cfg.Fills s b) :=
  inferInstanceAs (Decidable (_ ∧ _))

/-- The endpoint exists. -/
def TtyPc.up : TtyPc → Bool
  | waiting | sending _ => true
  | starting | ended => false

namespace Tty

def rpmsgRecvTtyCallback (b : Buffer) (s : Tty) : Tty :=
  { s with
    held := s.held ++ [b.id]
    data := some b
    len := b.msg.length
    dataTtySem := s.dataTtySem.give
    arrived := s.arrived ++ [b.msg] }

/-- The loop body behind the take. -/
def wakeUp (cfg : TtyConfig) (s : Tty) : Option Tty :=
  if s.len = 0 then some { s with data := none }
  else s.data.map fun b => { s with pc := .sending (ttyText cfg.addr (b.msg.take s.len)) }

/-- Behind `rpmsg_send`: whatever `tty_msg` holds by then is given back.  A text that does not
fit into a buffer is refused. -/
def finish (cfg : TtyConfig) (r : Reply) (text : List Byte) (s : Tty) : Option Tty :=
  if r = .ok ∧ cfg.payload < text.length then none
  else
    s.data.map fun b =>
      { s with
        echoed := if r = .ok then s.echoed ++ [text] else s.echoed
        held := s.held.erase b.id
        len := 0
        data := none
        pc := .waiting }

def step (cfg : TtyConfig) (s : Tty) : TtyAction → Option Tty
  | .ready =>
      if s.ready then none else some { s with ready := true, dataTtySem := s.dataTtySem.give }
  | .create ok =>
      if s.pc = .starting then
        s.dataTtySem.take.map fun sem =>
          { s with dataTtySem := sem, pc := if ok then .waiting else .ended }
      else none
  | .recv b =>
      if s.pc.up ∧ cfg.Fills s b then some (s.rpmsgRecvTtyCallback b) else none
  | .other b => if s.ready ∧ cfg.Fills s b then some s else none
  | .wake =>
      if s.pc = .waiting then
        s.dataTtySem.take.bind fun sem => { s with dataTtySem := sem }.wakeUp cfg
      else none
  | .sent r =>
      match s.pc with
      | .sending text => s.finish cfg r text
      | .starting | .waiting | .ended => none

end Tty

def ttyMachine (cfg : TtyConfig) : Machine Tty TtyAction := ⟨Tty.step cfg⟩

/-! ## What a step can do -/

/-- Every way a step changes the state, with what it found there. -/
inductive Tty.Step (cfg : TtyConfig) (s : Tty) : TtyAction → Tty → Prop where
  | ready (hnot : s.ready = false) :
      Step cfg s .ready { s with ready := true, dataTtySem := s.dataTtySem.give }
  | created (ok : Bool) (sem : Semaphore 1) (hpc : s.pc = .starting)
      (hsem : s.dataTtySem.count = sem.count + 1) :
      Step cfg s (.create ok)
        { s with dataTtySem := sem, pc := if ok then .waiting else .ended }
  | received (b : Buffer) (hup : s.pc.up = true) (hfills : cfg.Fills s b) :
      Step cfg s (.recv b) (s.rpmsgRecvTtyCallback b)
  | other (b : Buffer) (hready : s.ready = true) (hfills : cfg.Fills s b) : Step cfg s (.other b) s
  | idled (sem : Semaphore 1) (hpc : s.pc = .waiting)
      (hsem : s.dataTtySem.count = sem.count + 1) (hlen : s.len = 0) :
      Step cfg s .wake { s with dataTtySem := sem, data := none }
  | woken (sem : Semaphore 1) (b : Buffer) (hpc : s.pc = .waiting)
      (hsem : s.dataTtySem.count = sem.count + 1) (hlen : s.len ≠ 0) (hdata : s.data = some b) :
      Step cfg s .wake
        { s with dataTtySem := sem, pc := .sending (ttyText cfg.addr (b.msg.take s.len)) }
  | echoed (text : List Byte) (b : Buffer) (hpc : s.pc = .sending text)
      (hfits : text.length ≤ cfg.payload) (hdata : s.data = some b) :
      Step cfg s (.sent .ok)
        { s with
          echoed := s.echoed ++ [text]
          held := s.held.erase b.id
          len := 0
          data := none
          pc := .waiting }
  | refused (e : Errno) (text : List Byte) (b : Buffer) (hpc : s.pc = .sending text)
      (hdata : s.data = some b) :
      Step cfg s (.sent (.fail e))
        { s with held := s.held.erase b.id, len := 0, data := none, pc := .waiting }

variable {cfg : TtyConfig} {s t : Tty} {a : TtyAction}

theorem finish_cases {r : Reply} {text : List Byte} (hpc : s.pc = .sending text)
    (hstep : s.finish cfg r text = some t) : s.Step cfg (.sent r) t := by
  rw [Tty.finish] at hstep
  split at hstep
  · cases hstep
  · rename_i hfits
    obtain ⟨b, hdata, hnext⟩ := Option.map_eq_some_iff.1 hstep
    cases hnext
    cases r with
    | ok =>
        rw [not_and, Nat.not_lt] at hfits
        exact .echoed text b hpc (hfits rfl) hdata
    | fail e => exact .refused e text b hpc hdata

theorem wakeUp_cases {sem : Semaphore 1} (hpc : s.pc = .waiting)
    (hsem : s.dataTtySem.count = sem.count + 1)
    (hstep : Tty.wakeUp cfg { s with dataTtySem := sem } = some t) : s.Step cfg .wake t := by
  rw [Tty.wakeUp] at hstep
  split at hstep
  · rename_i hlen
    cases hstep
    exact .idled sem hpc hsem hlen
  · rename_i hlen
    obtain ⟨b, hdata, hnext⟩ := Option.map_eq_some_iff.1 hstep
    cases hnext
    exact .woken sem b hpc hsem hlen hdata

theorem Tty.step_cases (hstep : (ttyMachine cfg).step s a = some t) : s.Step cfg a t := by
  change s.step cfg a = some t at hstep
  cases a with
  | ready =>
      rw [Tty.step] at hstep
      split at hstep
      · cases hstep
      · rename_i hnot
        cases hstep
        exact .ready (by simpa using hnot)
  | create ok =>
      obtain ⟨hpc, hnext⟩ := Option.ite_none_right_eq_some.1 hstep
      obtain ⟨sem, hsem, hnext⟩ := Option.map_eq_some_iff.1 hnext
      cases hnext
      exact .created ok sem hpc (Semaphore.take_eq_some.1 hsem)
  | recv b =>
      obtain ⟨⟨hup, hfills⟩, hnext⟩ := Option.ite_none_right_eq_some.1 hstep
      cases hnext
      exact .received b hup hfills
  | other b =>
      obtain ⟨⟨hready, hfills⟩, hnext⟩ := Option.ite_none_right_eq_some.1 hstep
      cases hnext
      exact .other b hready hfills
  | wake =>
      obtain ⟨hpc, hnext⟩ := Option.ite_none_right_eq_some.1 hstep
      obtain ⟨sem, hsem, hnext⟩ := Option.bind_eq_some_iff.1 hnext
      exact wakeUp_cases hpc (Semaphore.take_eq_some.1 hsem) hnext
  | sent r =>
      rw [Tty.step] at hstep
      cases hpc : s.pc with
      | sending text =>
          rw [hpc] at hstep
          exact finish_cases hpc hstep
      | starting | waiting | ended => simp [hpc] at hstep

/-! ## Buffers -/

/-- The buffers that nobody can give back any more: held, and not in `tty_msg`. -/
def Tty.lost (s : Tty) : List Nat := s.held.filter fun i => s.data.map Buffer.id ≠ some i

/-- What ties `tty_msg` to the held buffers and to the last message. -/
structure Tty.Sound (cfg : TtyConfig) (s : Tty) : Prop where
  held : ∀ i ∈ s.held, i < cfg.buffers
  nodup : s.held.Nodup
  data : ∀ b, s.data = some b → b.id ∈ s.held ∧ s.len = b.msg.length
  empty : s.data = none → s.len = 0
  sending : ∀ text, s.pc = .sending text → s.data ≠ none
  starting : s.pc.up = false → s.data = none

theorem sound_initial (cfg : TtyConfig) : Tty.initial.Sound cfg := by
  refine ⟨?_, List.nodup_nil, ?_, fun _ => rfl, ?_, fun _ => rfl⟩
  · intro i hi
    cases hi
  · intro b hb
    cases hb
  · intro text htext
    cases htext

theorem sound_recv {b : Buffer} (hs : s.Sound cfg) (hup : s.pc.up = true)
    (hfills : cfg.Fills s b) : (s.rpmsgRecvTtyCallback b).Sound cfg := by
  obtain ⟨hlt, hfree, -⟩ := hfills
  refine ⟨?_, ?_, ?_, (fun h => nomatch h), ?_, ?_⟩
  · intro i hi
    rcases List.mem_append.1 hi with hold | hnew
    · exact hs.held i hold
    · rw [List.mem_singleton.1 hnew]
      exact hlt
  · refine List.nodup_append.2 ⟨hs.nodup, List.nodup_singleton _, ?_⟩
    intro i hi j hj hij
    rw [List.mem_singleton.1 hj] at hij
    exact hfree (hij ▸ hi)
  · intro c hc
    cases hc
    exact ⟨List.mem_append_right _ List.mem_cons_self, rfl⟩
  · intro text _ h
    cases h
  · intro hdown
    change s.pc.up = false at hdown
    rw [hup] at hdown
    cases hdown

/-- The buffer in `tty_msg` is given back. -/
theorem sound_finish {b : Buffer} {texts : List (List Byte)} (hs : s.Sound cfg) :
    Tty.Sound cfg
      { s with echoed := texts, held := s.held.erase b.id, len := 0, data := none,
               pc := .waiting } := by
  refine ⟨?_, hs.nodup.erase _, (fun _ h => nomatch h), fun _ => rfl, ?_, fun _ => rfl⟩
  · intro i hi
    exact hs.held i (List.mem_of_mem_erase hi)
  · intro text htext
    cases htext

theorem preserves_sound : (ttyMachine cfg).Preserves (Tty.Sound cfg) := by
  intro s a t hs hstep
  cases Tty.step_cases hstep with
  | ready hnot => exact ⟨hs.held, hs.nodup, hs.data, hs.empty, hs.sending, hs.starting⟩
  | created ok sem hpc hsem =>
      have hnone := hs.starting (by rw [hpc]; rfl)
      refine ⟨hs.held, hs.nodup, hs.data, hs.empty, ?_, fun _ => hnone⟩
      intro text htext
      cases ok <;> cases htext
  | received b hup hfills => exact sound_recv hs hup hfills
  | other b hready hfills => exact hs
  | idled sem hpc hsem hlen =>
      refine ⟨hs.held, hs.nodup, (fun _ h => nomatch h), fun _ => hlen, ?_, fun _ => rfl⟩
      intro text htext
      change s.pc = .sending text at htext
      rw [hpc] at htext
      cases htext
  | woken sem b hpc hsem hlen hdata =>
      refine ⟨hs.held, hs.nodup, hs.data, hs.empty, ?_, (fun h => nomatch h)⟩
      intro text _ hnone
      cases hnone.symm.trans hdata
  | echoed text b hpc hfits hdata => exact sound_finish hs
  | refused e text b hpc hdata => exact sound_finish hs

theorem sound_of_reaches (h : (ttyMachine cfg).Reaches .initial s) : s.Sound cfg :=
  preserves_sound.reaches (sound_initial cfg) h

/-- With nothing in `tty_msg` whatever is held is lost. -/
theorem lost_of_none (hdata : s.data = none) : s.lost = s.held := by
  simp [Tty.lost, hdata]

/-- A message that arrives takes the place of the buffer in `tty_msg`. -/
theorem lost_recv {b : Buffer} (hfree : b.id ∉ s.held) :
    (s.rpmsgRecvTtyCallback b).lost = s.held := by
  have hold : ∀ i ∈ s.held, b.id ≠ i := fun i hi heq => hfree (heq ▸ hi)
  rw [Tty.lost, Tty.rpmsgRecvTtyCallback, List.filter_append]
  simpa using hold

theorem held_erase {b : Buffer} (hs : s.Sound cfg) (hdata : s.data = some b) :
    s.held.erase b.id = s.lost := by
  rw [Tty.lost, hdata, hs.nodup.erase_eq_filter]
  apply List.filter_congr
  intro i _
  by_cases hi : i = b.id
  · simp [hi]
  · have hne : ¬ b.id = i := fun h => hi h.symm
    simp [hi, hne]

/-- What is given back was not lost. -/
theorem lost_finish {b : Buffer} {texts : List (List Byte)} (hs : s.Sound cfg)
    (hdata : s.data = some b) :
    Tty.lost { s with echoed := texts, held := s.held.erase b.id, len := 0, data := none,
                      pc := .waiting } = s.lost :=
  (lost_of_none rfl).trans (held_erase hs hdata)

theorem lost_subset_held (s : Tty) : s.lost ⊆ s.held := List.filter_sublist.subset

theorem lost_step (hs : s.Sound cfg) (hstep : (ttyMachine cfg).step s a = some t) :
    s.lost ⊆ t.lost := by
  cases Tty.step_cases hstep with
  | received b hup hfills =>
      rw [lost_recv hfills.2.1]
      exact lost_subset_held s
  | idled sem hpc hsem hlen =>
      rw [lost_of_none (s := { s with dataTtySem := sem, data := none }) rfl]
      exact lost_subset_held s
  | echoed text b hpc hfits hdata =>
      intro i hi
      rw [lost_finish hs hdata]
      exact hi
  | refused e text b hpc hdata =>
      intro i hi
      rw [lost_finish hs hdata]
      exact hi
  | ready | created | other | woken => exact List.Subset.refl _

theorem lost_reaches (hs : s.Sound cfg) (h : (ttyMachine cfg).Reaches s t) : s.lost ⊆ t.lost := by
  have hpres : (ttyMachine cfg).Preserves fun u => u.Sound cfg ∧ s.lost ⊆ u.lost := by
    intro u a w hu hstep
    exact ⟨preserves_sound hu.1 hstep, List.Subset.trans hu.2 (lost_step hu.1 hstep)⟩
  exact (hpres.reaches ⟨hs, List.Subset.refl _⟩ h).2

theorem lost_all (hs : s.Sound cfg) (hcount : s.lost.length = cfg.buffers) :
    ∀ i < cfg.buffers, i ∈ s.lost := by
  intro i hi
  have hnodup : s.lost.Nodup := hs.nodup.filter _
  have hsub : s.lost ⊆ List.range cfg.buffers := by
    intro j hj
    exact List.mem_range.2 (hs.held j (lost_subset_held s hj))
  have hperm : s.lost.Perm (List.range cfg.buffers) :=
    (hnodup.subperm hsub).perm_of_length_le (by rw [List.length_range, hcount])
  exact hperm.mem_iff.2 (List.mem_range.2 hi)

/-- **A lost buffer never comes back, and with the last one the link from Linux is dead.**  In
every run the number of held buffers is that of the lost ones, and one more for the message
at hand; the lost ones stay lost; and when all of them are, no message gets to this
endpoint or to any other of the device, whatever happens. -/
theorem tty_lost_forever (h : (ttyMachine cfg).Reaches .initial s)
    (hst : (ttyMachine cfg).Reaches s t) :
    s.held.length = s.lost.length + (if s.data = none then 0 else 1) ∧ s.lost ⊆ t.lost ∧
      (s.lost.length = cfg.buffers → ∀ b, (ttyMachine cfg).step t (.recv b) = none ∧
        (ttyMachine cfg).step t (.other b) = none) := by
  have hs := sound_of_reaches h
  have hsub := lost_reaches hs hst
  refine ⟨?_, hsub, ?_⟩
  · cases hdata : s.data with
    | none => rw [lost_of_none hdata, if_pos rfl, Nat.add_zero]
    | some b =>
        have hmem := (hs.data b hdata).1
        rw [← held_erase hs hdata, if_neg (by simp), List.length_erase_of_mem hmem]
        exact (Nat.sub_add_cancel (List.length_pos_of_mem hmem)).symm
  · intro hcount b
    have hfull : ¬ cfg.Fills t b := by
      rintro ⟨hlt, hfree, -⟩
      exact hfree (lost_subset_held t (hsub (lost_all hs hcount b.id hlt)))
    constructor
    · exact if_neg fun hgo => hfull hgo.2
    · exact if_neg fun hgo => hfull hgo.2

/-- Two buffers: the first is lost to a message that arrives inside `rpmsg_send`, the second to
an empty message. -/
theorem tty_lost_forever_two :
    ∃ s, (ttyMachine ⟨2, 496, 1024#32⟩).exec .initial
        [.ready, .create true, .recv ⟨0, [0x61#8]⟩, .wake, .recv ⟨1, [0x62#8]⟩, .sent .ok, .wake,
          .recv ⟨1, []⟩, .wake] = some s ∧
      s.lost = [0, 1] ∧ ∀ b, (ttyMachine ⟨2, 496, 1024#32⟩).step s (.recv b) = none ∧
        (ttyMachine ⟨2, 496, 1024#32⟩).step s (.other b) = none := by
  have hrun : ((ttyMachine ⟨2, 496, 1024#32⟩).exec .initial
      [.ready, .create true, .recv ⟨0, [0x61#8]⟩, .wake, .recv ⟨1, [0x62#8]⟩, .sent .ok, .wake,
        .recv ⟨1, []⟩, .wake]).map Tty.lost = some [0, 1] := by decide +kernel
  obtain ⟨s, hexec, hlost⟩ := Option.map_eq_some_iff.1 hrun
  have hcount : s.lost.length = 2 := by rw [hlost]; rfl
  exact ⟨s, hexec, hlost, (tty_lost_forever ⟨_, hexec⟩ (.refl _ s)).2.2 hcount⟩

/-! ## Answers -/

/-- The texts answer some of the messages, in their order and each once. -/
def Answers (addr : BitVec 32) (texts msgs : List (List Byte)) : Prop :=
  ∃ chosen : List (List Byte), chosen.Sublist msgs ∧ texts = chosen.map (ttyText addr)

theorem Answers.mono {addr : BitVec 32} {texts msgs later : List (List Byte)}
    (h : Answers addr texts msgs) (hsub : msgs.Sublist later) : Answers addr texts later := by
  obtain ⟨chosen, hchosen, htexts⟩ := h
  exact ⟨chosen, hchosen.trans hsub, htexts⟩

theorem Answers.concat {addr : BitVec 32} {texts msgs : List (List Byte)}
    (h : Answers addr texts msgs) (msg : List Byte) :
    Answers addr (texts ++ [ttyText addr msg]) (msgs ++ [msg]) := by
  obtain ⟨chosen, hchosen, rfl⟩ := h
  refine ⟨chosen ++ [msg], hchosen.append_right [msg], ?_⟩
  rw [List.map_append, List.map_singleton]

theorem Answers.of_append {addr : BitVec 32} {texts more msgs : List (List Byte)}
    (h : Answers addr (texts ++ more) msgs) : Answers addr texts msgs := by
  obtain ⟨chosen, hchosen, htexts⟩ := h
  obtain ⟨first, second, rfl, hfirst, -⟩ := List.map_eq_append_iff.1 htexts.symm
  exact ⟨first, (List.sublist_append_left first second).trans hchosen, hfirst.symm⟩

/-- The text inside `rpmsg_send`. -/
def TtyPc.text : TtyPc → List (List Byte)
  | sending text => [text]
  | starting | waiting | ended => []

/-- Outside `rpmsg_send` the message in `tty_msg` is the last one that has arrived, and not
answered. -/
structure Tty.InOrder (cfg : TtyConfig) (s : Tty) : Prop where
  answers : Answers cfg.addr (s.echoed ++ s.pc.text) s.arrived
  fresh : s.pc.text = [] → ∀ b, s.data = some b →
    ∃ before, s.arrived = before ++ [b.msg] ∧ Answers cfg.addr s.echoed before

theorem inOrder_initial (cfg : TtyConfig) : Tty.initial.InOrder cfg := by
  refine ⟨⟨[], List.Sublist.refl _, rfl⟩, ?_⟩
  intro _ b hb
  cases hb

theorem preserves_inOrder :
    (ttyMachine cfg).Preserves fun s => s.Sound cfg ∧ s.InOrder cfg := by
  rintro s a t ⟨hsound, hs⟩ hstep
  refine ⟨preserves_sound hsound hstep, ?_⟩
  cases Tty.step_cases hstep with
  | ready hnot => exact ⟨hs.answers, hs.fresh⟩
  | created ok sem hpc hsem =>
      have hquiet : s.pc.text = [] := by rw [hpc]; rfl
      have hanswers := hs.answers
      rw [hquiet] at hanswers
      cases ok with
      | true => exact ⟨hanswers, fun _ => hs.fresh hquiet⟩
      | false => exact ⟨hanswers, fun _ => hs.fresh hquiet⟩
  | received b hup hfills =>
      refine ⟨hs.answers.mono (List.sublist_append_left _ _), ?_⟩
      intro hquiet c hc
      cases hc
      have hanswers := hs.answers
      rw [show s.pc.text = [] from hquiet, List.append_nil] at hanswers
      exact ⟨s.arrived, rfl, hanswers⟩
  | other b hready hfills => exact hs
  | idled sem hpc hsem hlen => exact ⟨hs.answers, fun _ _ h => nomatch h⟩
  | woken sem b hpc hsem hlen hdata =>
      obtain ⟨before, harrived, hanswers⟩ := hs.fresh (by rw [hpc]; rfl) b hdata
      refine ⟨?_, fun h => nomatch h⟩
      rw [(hsound.data b hdata).2, List.take_length, harrived]
      exact hanswers.concat b.msg
  | echoed text b hpc hfits hdata =>
      have hanswers := hs.answers
      rw [hpc] at hanswers
      refine ⟨?_, fun _ _ h => nomatch h⟩
      rw [TtyPc.text, List.append_nil]
      exact hanswers
  | refused e text b hpc hdata =>
      refine ⟨?_, fun _ _ h => nomatch h⟩
      rw [TtyPc.text, List.append_nil]
      exact hs.answers.of_append

/-- The answer that is still to come: the one inside `rpmsg_send`, or that to the message in
`tty_msg`; an empty one gets none. -/
def Tty.pending (addr : BitVec 32) (s : Tty) : List (List Byte) :=
  match s.pc, s.data with
  | .sending text, _ => [text]
  | _, some b => if b.msg = [] then [] else [ttyText addr b.msg]
  | _, none => []

/-- Every message is answered or about to be, in order, and no buffer is lost. -/
def Tty.Complete (cfg : TtyConfig) (s : Tty) : Prop :=
  s.lost = [] ∧ s.arrived.map (ttyText cfg.addr) = s.echoed ++ s.pending cfg.addr

/-- A message is not empty and arrives only when the one before is dealt with, and rpmsg takes
the answer. -/
def Undisturbed (s : Tty) : TtyAction → Prop
  | .recv b => s.data = none ∧ b.msg ≠ []
  | .sent r => r = .ok
  | .ready | .create _ | .other _ | .wake => True

instance (s : Tty) : DecidablePred (Undisturbed s)
  | .recv b => inferInstanceAs (Decidable (s.data = none ∧ b.msg ≠ []))
  | .sent r => inferInstanceAs (Decidable (r = .ok))
  | .ready | .create _ | .other _ | .wake => inferInstanceAs (Decidable True)

/-- What a run keeps in which every message is echoed. -/
structure Tty.Echoing (cfg : TtyConfig) (s : Tty) : Prop where
  sound : s.Sound cfg
  complete : s.Complete cfg
  filled : ∀ b, s.data = some b → b.msg ≠ []

variable {as : List TtyAction}

theorem echoing_initial (cfg : TtyConfig) : Tty.initial.Echoing cfg :=
  ⟨sound_initial cfg, ⟨rfl, rfl⟩, fun _ h => nomatch h⟩

theorem none_of_held (hs : s.Sound cfg) (hheld : s.held = []) : s.data = none := by
  cases hdata : s.data with
  | none => rfl
  | some b =>
      have hmem := (hs.data b hdata).1
      rw [hheld] at hmem
      cases hmem

theorem pending_sending {addr : BitVec 32} {text : List Byte} (hpc : s.pc = .sending text) :
    s.pending addr = [text] := by
  rw [Tty.pending, hpc]

theorem pending_none {addr : BitVec 32} (hpc : ∀ text, s.pc ≠ .sending text)
    (hdata : s.data = none) : s.pending addr = [] := by
  rw [Tty.pending, hdata]
  cases hwhere : s.pc with
  | sending text => exact absurd hwhere (hpc text)
  | starting | waiting | ended => rfl

theorem pending_some {addr : BitVec 32} {b : Buffer} (hpc : ∀ text, s.pc ≠ .sending text)
    (hdata : s.data = some b) :
    s.pending addr = if b.msg = [] then [] else [ttyText addr b.msg] := by
  rw [Tty.pending, hdata]
  cases hwhere : s.pc with
  | sending text => exact absurd hwhere (hpc text)
  | starting | waiting | ended => rfl

theorem not_sending {pc : TtyPc} (hpc : s.pc = pc) (htext : pc.text = []) :
    ∀ text, s.pc ≠ .sending text := by
  rintro text hsending
  rw [← hpc, hsending] at htext
  cases htext

/-- With `tty_msg` empty the responder, if it is there, waits. -/
theorem waiting_of_none (hs : s.Sound cfg) (hup : s.pc.up = true) (hnone : s.data = none) :
    s.pc = .waiting := by
  cases hpc : s.pc with
  | waiting => rfl
  | sending text => exact absurd hnone (hs.sending text hpc)
  | starting | ended =>
      rw [hpc] at hup
      cases hup

/-- A message that finds `tty_msg` empty is about to be answered, unless it is empty itself. -/
theorem complete_recv_iff {b : Buffer} (hs : s.Sound cfg) (hc : s.Complete cfg)
    (hup : s.pc.up = true) (hfills : cfg.Fills s b) :
    (s.rpmsgRecvTtyCallback b).Complete cfg ↔ s.data = none ∧ b.msg ≠ [] := by
  obtain ⟨hlost, htexts⟩ := hc
  have hheld : (s.rpmsgRecvTtyCallback b).lost = [] ↔ s.data = none := by
    rw [lost_recv hfills.2.1]
    constructor
    · exact none_of_held hs
    · exact fun hnone => (lost_of_none hnone).symm.trans hlost
  rw [Tty.Complete, hheld]
  apply and_congr_right
  intro hnone
  have hwaiting := waiting_of_none hs hup hnone
  have hquiet : ∀ text, (s.rpmsgRecvTtyCallback b).pc ≠ .sending text :=
    not_sending (s := s.rpmsgRecvTtyCallback b) hwaiting rfl
  rw [pending_none (not_sending hwaiting rfl) hnone, List.append_nil] at htexts
  rw [pending_some hquiet rfl, Tty.rpmsgRecvTtyCallback, List.map_append, htexts,
    List.append_right_inj]
  by_cases hempty : b.msg = []
  · simp [hempty]
  · simp [hempty]

/-- A step from complete answers leaves them complete exactly if it is undisturbed. -/
theorem complete_iff (hs : s.Echoing cfg) (hstep : (ttyMachine cfg).step s a = some t) :
    t.Complete cfg ↔ Undisturbed s a := by
  obtain ⟨hsound, hc, hfilled⟩ := hs
  obtain ⟨hlost, htexts⟩ := hc
  cases Tty.step_cases hstep with
  | ready hnot => exact iff_of_true ⟨hlost, htexts⟩ trivial
  | created ok sem hpc hsem =>
      have hnone := hsound.starting (by rw [hpc]; rfl)
      rw [pending_none (not_sending hpc rfl) hnone] at htexts
      refine iff_of_true ⟨hlost, htexts.trans (congrArg (s.echoed ++ ·) ?_)⟩ trivial
      symm
      apply pending_none
      · intro text hsending
        cases ok <;> cases hsending
      · exact hnone
  | received b hup hfills => exact complete_recv_iff hsound ⟨hlost, htexts⟩ hup hfills
  | other b hready hfills => exact iff_of_true ⟨hlost, htexts⟩ trivial
  | idled sem hpc hsem hlen =>
      refine iff_of_true ?_ trivial
      have hnone : s.data = none := by
        cases hdata : s.data with
        | none => rfl
        | some b =>
            rw [(hsound.data b hdata).2] at hlen
            exact absurd (List.eq_nil_of_length_eq_zero hlen) (hfilled b hdata)
      rw [pending_none (not_sending hpc rfl) hnone] at htexts
      refine ⟨(lost_of_none rfl).trans ((lost_of_none hnone).symm.trans hlost), ?_⟩
      refine htexts.trans (congrArg (s.echoed ++ ·) ?_)
      symm
      apply pending_none
      · exact not_sending hpc rfl
      · rfl
  | woken sem b hpc hsem hlen hdata =>
      refine iff_of_true ⟨hlost, ?_⟩ trivial
      rw [pending_some (not_sending hpc rfl) hdata, if_neg (hfilled b hdata)] at htexts
      rw [(hsound.data b hdata).2, List.take_length]
      exact htexts
  | echoed text b hpc hfits hdata =>
      refine iff_of_true ⟨(lost_finish hsound hdata).trans hlost, ?_⟩ rfl
      rw [pending_sending hpc] at htexts
      rw [htexts]
      exact (List.append_nil _).symm
  | refused e text b hpc hdata =>
      refine iff_of_false ?_ (fun h => nomatch h)
      rintro ⟨-, hcomplete⟩
      rw [pending_sending hpc] at htexts
      have hlength := congrArg List.length (htexts.symm.trans hcomplete)
      simp [Tty.pending] at hlength

theorem filled_step (hs : s.Echoing cfg) (hok : Undisturbed s a)
    (hstep : (ttyMachine cfg).step s a = some t) : ∀ b, t.data = some b → b.msg ≠ [] := by
  cases Tty.step_cases hstep with
  | received b hup hfills =>
      intro c hc
      cases hc
      exact hok.2
  | idled | echoed | refused => exact fun _ h => nomatch h
  | ready | created | other | woken => exact hs.filled

theorem echoing_step (hs : s.Echoing cfg) (hok : Undisturbed s a)
    (hstep : (ttyMachine cfg).step s a = some t) : t.Echoing cfg :=
  ⟨preserves_sound hs.sound hstep, (complete_iff hs hstep).2 hok, filled_step hs hok hstep⟩

/-- **When every message is echoed.**  In every run the echoes answer messages in their order
and each once.  At each moment of it every message is echoed or about to be, and no buffer
is lost, if and only if each message finds `tty_msg` empty and is not empty itself, and
rpmsg takes every answer. -/
theorem tty_echoes_iff (hexec : (ttyMachine cfg).exec .initial as = some t) :
    Answers cfg.addr t.echoed t.arrived ∧
      ((ttyMachine cfg).Throughout (Tty.Complete cfg) .initial as ↔
        (ttyMachine cfg).Along Undisturbed .initial as) := by
  constructor
  · have hpair := preserves_inOrder.exec ⟨sound_initial cfg, inOrder_initial cfg⟩ hexec
    exact hpair.2.answers.of_append
  · apply Machine.throughout_iff_along (I := Tty.Echoing cfg)
    · exact fun _ h => h.complete
    · exact fun _ _ _ => echoing_step
    · exact fun _ _ _ hs hstep => (complete_iff hs hstep).1
    · exact echoing_initial cfg
    · exact hexec

/-- Of two messages in one notification only the second is echoed. -/
theorem tty_echoes_iff_two :
    ∃ s, (ttyMachine ⟨8, 496, 1024#32⟩).exec .initial
        [.ready, .create true, .recv ⟨0, [0x61#8]⟩, .recv ⟨1, [0x62#8]⟩, .wake, .sent .ok] =
          some s ∧
      Answers 1024#32 s.echoed s.arrived ∧ s.echoed = [ttyText 1024#32 [0x62#8]] ∧
      ¬ (ttyMachine ⟨8, 496, 1024#32⟩).Throughout (Tty.Complete ⟨8, 496, 1024#32⟩) .initial
        [.ready, .create true, .recv ⟨0, [0x61#8]⟩, .recv ⟨1, [0x62#8]⟩, .wake, .sent .ok] := by
  have hrun : ((ttyMachine ⟨8, 496, 1024#32⟩).exec .initial
      [.ready, .create true, .recv ⟨0, [0x61#8]⟩, .recv ⟨1, [0x62#8]⟩, .wake, .sent .ok]).map
        Tty.echoed = some [ttyText 1024#32 [0x62#8]] := by decide +kernel
  obtain ⟨s, hexec, hechoed⟩ := Option.map_eq_some_iff.1 hrun
  obtain ⟨hanswers, hiff⟩ := tty_echoes_iff hexec
  refine ⟨s, hexec, hanswers, hechoed, ?_⟩
  intro hall
  exact absurd (hiff.1 hall) (by decide +kernel)

end DataLogger.RpmsgEcho
