import DataLogger.RpmsgEcho.Firmware

/-!
# Clients that wait for their answers

A client that puts a message into the vring only when the one before has been answered keeps
each responder within the conditions under which it answers everything: what the client has
put is what has arrived and at most one message that is still in the vring.  With such a
client for each endpoint the firmware, left to itself, soon answers all that was kicked.
-/

namespace DataLogger.RpmsgEcho

open DataLogger.Foundation
open DataLogger.Zephyr

/-! ## The tty responder -/

/-- The client has put `sent`, of which `ring` is still in the vring. -/
structure Tty.StopAndWait (cfg : TtyConfig) (sent ring : List (List Byte)) (s : Tty) : Prop where
  echoing : s.Echoing cfg
  token : s.pc = .waiting → s.data ≠ none → s.dataTtySem.count ≠ 0
  notReady : s.ready = false → s.pc = .starting ∧ s.dataTtySem.count = 0
  account : sent = s.arrived ++ ring
  one : sent.length ≤ s.echoed.length + 1
  up : s.pc.up = false → ring = []
  fits : ∀ msg ∈ sent, msg ≠ [] ∧ msg.length + 12 ≤ cfg.payload

variable {cfg : TtyConfig} {sent ring : List (List Byte)}

section Tty

variable {s t : Tty} {a : TtyAction} {b : Buffer}

theorem waits_initial (cfg : TtyConfig) : Tty.initial.StopAndWait cfg [] [] := by
  refine ⟨echoing_initial cfg, (fun h => nomatch h), fun _ => ⟨rfl, rfl⟩, rfl, Nat.zero_le _,
    fun _ => rfl, ?_⟩
  intro msg hmsg
  cases hmsg

/-- The steps of the responder and of the management task, where rpmsg takes the answers. -/
def TtyAction.own : TtyAction → Bool
  | .ready | .create _ | .wake | .sent .ok => true
  | .recv _ | .other _ | .sent (.fail _) => false

theorem undisturbed_of_own (ha : a.own = true) : Undisturbed s a := by
  cases a with
  | ready | create | wake => trivial
  | sent r =>
      cases r with
      | ok => rfl
      | fail e => cases ha
  | recv b => cases ha
  | other b => cases ha

theorem token_step (ha : a.own = true) (hs : s.Sound cfg)
    (hstep : (ttyMachine cfg).step s a = some t) :
    t.pc = .waiting → t.data ≠ none → t.dataTtySem.count ≠ 0 := by
  cases Tty.step_cases hstep with
  | ready hnot =>
      intro _ _
      exact Nat.ne_of_gt (s.dataTtySem.give_pos (by decide))
  | created ok sem hpc hsem =>
      intro _ hdata
      exact absurd (hs.starting (by rw [hpc]; rfl)) hdata
  | received b hup hfills => cases ha
  | other b hready hfills => cases ha
  | idled sem hpc hsem hlen => exact fun _ h => absurd rfl h
  | woken sem b hpc hsem hlen hdata => exact fun h => nomatch h
  | echoed text b hpc hfits hdata => exact fun _ h => absurd rfl h
  | refused e text b hpc hdata => cases ha

/-- With as many answers as messages nothing is at hand. -/
theorem none_of_answered (hs : s.Echoing cfg) (hle : s.arrived.length ≤ s.echoed.length) :
    s.data = none := by
  have hlength := congrArg List.length hs.complete.2
  rw [List.length_map, List.length_append] at hlength
  cases hdata : s.data with
  | none => rfl
  | some b =>
      have hpending : s.pending cfg.addr ≠ [] := by
        cases hpc : s.pc with
        | sending text =>
            rw [pending_sending hpc]
            exact List.cons_ne_nil _ _
        | starting | waiting | ended =>
            rw [pending_some (not_sending hpc rfl) hdata, if_neg (hs.filled b hdata)]
            exact List.cons_ne_nil _ _
      have hpos := List.length_pos_of_ne_nil hpending
      omega

/-- What the own steps do to the rest. -/
theorem own_frame (ha : a.own = true) (hstep : (ttyMachine cfg).step s a = some t) :
    t.arrived = s.arrived ∧ s.echoed.length ≤ t.echoed.length ∧
      (t.pc.up = false → s.pc.up = false) := by
  cases Tty.step_cases hstep with
  | ready hnot => exact ⟨rfl, Nat.le_refl _, id⟩
  | created ok sem hpc hsem =>
      refine ⟨rfl, Nat.le_refl _, ?_⟩
      intro _
      rw [hpc]
      rfl
  | received b hup hfills => cases ha
  | other b hready hfills => cases ha
  | idled sem hpc hsem hlen => exact ⟨rfl, Nat.le_refl _, id⟩
  | woken sem b hpc hsem hlen hdata => exact ⟨rfl, Nat.le_refl _, fun h => nomatch h⟩
  | echoed text b hpc hfits hdata =>
      refine ⟨rfl, ?_, fun h => nomatch h⟩
      rw [List.length_append]
      exact Nat.le_add_right _ _
  | refused e text b hpc hdata => cases ha

/-- Before the platform is up the responder waits. -/
theorem notReady_step (ha : a.own = true)
    (hs : s.ready = false → s.pc = .starting ∧ s.dataTtySem.count = 0)
    (hstep : (ttyMachine cfg).step s a = some t) :
    t.ready = false → t.pc = .starting ∧ t.dataTtySem.count = 0 := by
  cases Tty.step_cases hstep with
  | ready hnot => exact fun h => nomatch h
  | created ok sem hpc hsem =>
      intro hnot
      have hzero := (hs hnot).2
      omega
  | received b hup hfills => cases ha
  | other b hready hfills => cases ha
  | idled sem hpc hsem hlen =>
      intro hnot
      cases hpc.symm.trans (hs hnot).1
  | woken sem b hpc hsem hlen hdata =>
      intro hnot
      cases hpc.symm.trans (hs hnot).1
  | echoed text b hpc hfits hdata =>
      intro hnot
      cases hpc.symm.trans (hs hnot).1
  | refused e text b hpc hdata => cases ha

namespace Tty.StopAndWait

/-- A step of the responder itself. -/
theorem own (h : s.StopAndWait cfg sent ring) (ha : a.own = true)
    (hstep : (ttyMachine cfg).step s a = some t) :
    t.StopAndWait cfg sent ring := by
  obtain ⟨harrived, hechoed, hup⟩ := own_frame ha hstep
  refine ⟨echoing_step h.echoing (undisturbed_of_own ha) hstep,
    token_step ha h.echoing.sound hstep, notReady_step ha h.notReady hstep, ?_, ?_, ?_, h.fits⟩
  · rw [harrived]
    exact h.account
  · have hone := h.one
    omega
  · exact fun hdown => h.up (hup hdown)

/-- The client puts its next message. -/
theorem post {msg : List Byte} (h : s.StopAndWait cfg sent ring) (hup : s.pc.up = true)
    (hanswered : s.echoed.length = sent.length)
    (hmsg : msg ≠ [] ∧ msg.length + 12 ≤ cfg.payload) :
    s.StopAndWait cfg (sent ++ [msg]) (ring ++ [msg]) := by
  refine ⟨h.echoing, h.token, h.notReady, ?_, ?_, ?_, ?_⟩
  · rw [h.account, List.append_assoc]
  · rw [List.length_append, List.length_singleton, hanswered]
  · intro hdown
    rw [hup] at hdown
    cases hdown
  · intro m hm
    rcases List.mem_append.1 hm with hold | hnew
    · exact h.fits m hold
    · rw [List.mem_singleton.1 hnew]
      exact hmsg

theorem idle (h : s.StopAndWait cfg sent (b.msg :: ring)) :
    s.data = none ∧ s.pc.up = true := by
  have hone := h.one
  rw [h.account, List.length_append, List.length_cons] at hone
  refine ⟨none_of_answered h.echoing (by omega), ?_⟩
  by_contra hdown
  cases h.up (by simpa using hdown)

/-- The message that is in the vring gets to the responder. -/
theorem recv (h : s.StopAndWait cfg sent (b.msg :: ring)) (hfills : cfg.Fills s b) :
    (s.rpmsgRecvTtyCallback b).StopAndWait cfg sent ring := by
  obtain ⟨hdata, hup⟩ := h.idle
  have hstep : (ttyMachine cfg).step s (.recv b) = some (s.rpmsgRecvTtyCallback b) :=
    if_pos ⟨hup, hfills⟩
  have hmsg := (h.fits b.msg (h.account ▸ List.mem_append_right _ List.mem_cons_self)).1
  have hok : Undisturbed s (.recv b) := ⟨hdata, hmsg⟩
  refine ⟨echoing_step h.echoing hok hstep, ?_, ?_, ?_, h.one, ?_, h.fits⟩
  · intro _ _
    exact Nat.ne_of_gt (s.dataTtySem.give_pos (by decide))
  · intro hnot
    rw [(h.notReady hnot).1] at hup
    cases hup
  · rw [h.account]
    exact List.append_cons _ _ _
  · intro hdown
    rw [show s.pc.up = false from hdown] at hup
    cases hup

/-- An answer under way fits into a buffer. -/
theorem text_le {text : List Byte} (h : s.StopAndWait cfg sent ring) (hpc : s.pc = .sending text) :
    text.length ≤ cfg.payload := by
  have hmem : text ∈ s.arrived.map (ttyText cfg.addr) := by
    rw [h.echoing.complete.2, pending_sending hpc]
    exact List.mem_append_right _ List.mem_cons_self
  obtain ⟨msg, hmsg, rfl⟩ := List.mem_map.1 hmem
  have hfits := (h.fits msg (h.account ▸ List.mem_append_left _ hmsg)).2
  rw [ttyText, List.length_append, length_ttyPrefix]
  omega

/-- At rest, with nothing in the vring, everything is answered. -/
theorem answered (h : s.StopAndWait cfg sent [])
    (hrest : ∀ a, a.own = true → a ≠ .ready → (ttyMachine cfg).step s a = none) :
    s.echoed = sent.map (ttyText cfg.addr) := by
  have htexts := h.echoing.complete.2
  have hpending : s.pending cfg.addr = [] := by
    cases hpc : s.pc with
    | starting | ended =>
        exact pending_none (not_sending hpc rfl) (h.echoing.sound.starting (by rw [hpc]; rfl))
    | waiting =>
        apply pending_none (not_sending hpc rfl)
        by_contra hdata
        have hwake := hrest .wake rfl (by decide)
        obtain ⟨sem, htake⟩ : ∃ sem, s.dataTtySem.take = some sem :=
          ⟨_, if_neg (h.token hpc hdata)⟩
        obtain ⟨b, hdata⟩ := Option.ne_none_iff_exists'.1 hdata
        simp only [ttyMachine, Tty.step, hpc, if_true, htake, Option.bind_some, Tty.wakeUp,
          hdata, Option.map_some] at hwake
        split at hwake
        · cases hwake
        · cases hwake
    | sending text =>
        have hsent := hrest (.sent .ok) rfl (by decide)
        obtain ⟨b, hdata⟩ := Option.ne_none_iff_exists'.1 (h.echoing.sound.sending text hpc)
        have hfits := Nat.not_lt.2 (h.text_le hpc)
        simp [ttyMachine, Tty.step, hpc, Tty.finish, hdata, hfits] at hsent
  rw [hpending, List.append_nil] at htexts
  rw [h.account, List.append_nil, htexts]

end Tty.StopAndWait

end Tty

/-! ## The sample client's responder -/

/-- The client has put `sent`, of which `ring` is still in the vring. -/
structure Client.StopAndWait (sent ring : List (List Byte)) (s : Client) : Prop where
  sound : s.Sound
  complete : s.Complete
  account : sent = s.arrived ++ ring
  one : sent.length ≤ s.echoed.length + 1
  up : s.pc.up = false → ring = []
  fits : ∀ msg ∈ sent, msg.length ≤ rxScMsgSize
  limit : sent.length ≤ 100

section Client

variable {s t : Client} {a : ClientAction} {msg : List Byte}

theorem waits_client_initial : Client.initial.StopAndWait [] [] := by
  refine ⟨sound_client_initial, complete_client_initial, rfl, Nat.zero_le _, fun _ => rfl, ?_,
    Nat.zero_le _⟩
  intro msg hmsg
  cases hmsg

/-- The steps of the responder and of the management task, where rpmsg takes the replies. -/
def ClientAction.own : ClientAction → Bool
  | .ready | .create _ | .wake | .sent .ok | .destroyed => true
  | .recv _ | .sent (.fail _) => false

theorem own_client_frame (ha : a.own = true) (hstep : clientMachine.step s a = some t) :
    t.arrived = s.arrived ∧ s.echoed.length ≤ t.echoed.length ∧
      (t.pc.up = false → s.pc.up = false ∨ s.pc = .closing) := by
  cases (Client.step_cases hstep).2 with
  | ready hnot => exact ⟨rfl, Nat.le_refl _, Or.inl⟩
  | created ok sem hpc hsem =>
      refine ⟨rfl, Nat.le_refl _, ?_⟩
      intro _
      left
      rw [hpc]
      rfl
  | overran msg hup hlong => cases ha
  | received msg hup hfits => cases ha
  | woken sem hpc hsem => exact ⟨rfl, Nat.le_refl _, fun h => nomatch h⟩
  | echoed len hpc =>
      refine ⟨rfl, ?_, ?_⟩
      · rw [List.length_append]
        exact Nat.le_add_right _ _
      · intro hdown
        rw [Client.again] at hdown
        split at hdown
        · cases hdown
        · cases hdown
  | refused e len hpc => cases ha
  | destroyed hpc => exact ⟨rfl, Nat.le_refl _, fun _ => Or.inr hpc⟩

namespace Client.StopAndWait

variable {sent ring : List (List Byte)}

/-- While a reply is under way nothing else has come. -/
theorem unread {len : Nat} (h : s.StopAndWait sent ring) (hpc : s.pc = .sending len) :
    s.dataScSem.count = 0 := by
  have htexts := congrArg List.length h.complete.2
  rw [Client.pending, hpc, List.length_append, List.length_cons] at htexts
  have hone := h.one
  rw [h.account, List.length_append] at hone
  apply fresh_eq_nil.1
  apply List.eq_nil_of_length_eq_zero
  omega

theorem undisturbed (h : s.StopAndWait sent ring) (ha : a.own = true)
    (hstep : clientMachine.step s a = some t) : s.Undisturbed a := by
  cases (Client.step_cases hstep).2 with
  | ready hnot => trivial
  | created ok sem hpc hsem => trivial
  | overran msg hup hlong => cases ha
  | received msg hup hfits => cases ha
  | woken sem hpc hsem => trivial
  | echoed len hpc => exact ⟨rfl, .inr (h.unread hpc)⟩
  | refused e len hpc => cases ha
  | destroyed hpc => trivial

/-- Behind the hundredth reply nothing is in the vring. -/
theorem closing (h : s.StopAndWait sent ring) (hpc : s.pc = .closing) : ring = [] := by
  have hcount := h.sound.closing hpc
  have hmessages := h.sound.messages
  have hlimit := h.limit
  rw [h.account, List.length_append] at hlimit
  apply List.eq_nil_of_length_eq_zero
  omega

/-- A step of the responder itself. -/
theorem own (h : s.StopAndWait sent ring) (ha : a.own = true)
    (hstep : clientMachine.step s a = some t) : t.StopAndWait sent ring := by
  obtain ⟨harrived, hechoed, hup⟩ := own_client_frame ha hstep
  refine ⟨preserves_client_sound h.sound hstep,
    (client_complete_iff h.sound h.complete hstep).2 (h.undisturbed ha hstep), ?_, ?_, ?_,
    h.fits, h.limit⟩
  · rw [harrived]
    exact h.account
  · have hone := h.one
    omega
  · intro hdown
    rcases hup hdown with hbefore | hpc
    · exact h.up hbefore
    · exact h.closing hpc

/-- The client puts its next message. -/
theorem post (h : s.StopAndWait sent ring) (hup : s.pc.up = true)
    (hanswered : s.echoed.length = sent.length) (hfits : msg.length ≤ rxScMsgSize)
    (hmore : sent.length < 100) : s.StopAndWait (sent ++ [msg]) (ring ++ [msg]) := by
  refine ⟨h.sound, h.complete, ?_, ?_, ?_, ?_, ?_⟩
  · rw [h.account, List.append_assoc]
  · rw [List.length_append, List.length_singleton, hanswered]
  · intro hdown
    rw [hup] at hdown
    cases hdown
  · intro m hm
    rcases List.mem_append.1 hm with hold | hnew
    · exact h.fits m hold
    · rw [List.mem_singleton.1 hnew]
      exact hfits
  · rw [List.length_append, List.length_singleton]
    exact hmore

/-- The responder waits for the message that is in the vring. -/
theorem idle (h : s.StopAndWait sent (msg :: ring)) :
    s.pc = .waiting ∧ s.dataScSem.count = 0 := by
  have hone := h.one
  have htexts := congrArg List.length h.complete.2
  rw [h.account, List.length_append, List.length_cons] at hone
  rw [List.length_append] at htexts
  have hpending : s.pending = [] := by
    apply List.eq_nil_of_length_eq_zero
    omega
  rw [Client.pending] at hpending
  cases hpc : s.pc with
  | waiting =>
      rw [hpc] at hpending
      exact ⟨rfl, fresh_eq_nil.1 hpending⟩
  | sending len =>
      rw [hpc] at hpending
      cases hpending
  | closing => cases h.closing hpc
  | starting | ended => cases h.up (by rw [hpc]; rfl)

/-- The message that is in the vring gets to the responder. -/
theorem recv (h : s.StopAndWait sent (msg :: ring)) :
    (s.rpmsgRecvCsCallback msg).StopAndWait sent ring := by
  obtain ⟨hpc, hempty⟩ := h.idle
  have hfits : msg.length ≤ rxScMsgSize :=
    h.fits msg (h.account ▸ List.mem_append_right _ List.mem_cons_self)
  have hstep : clientMachine.step s (.recv msg) = some (s.rpmsgRecvCsCallback msg) := by
    simp [clientMachine, Client.step, h.complete.1, hpc, ClientPc.up]
  have hok : s.Undisturbed (.recv msg) := by
    simp [Client.Undisturbed, hfits, hempty, hpc]
  have hcallback : s.rpmsgRecvCsCallback msg = { s with
      rxScMsg := memcpy s.rxScMsg msg
      len := msg.length
      dataScSem := s.dataScSem.give
      arrived := s.arrived ++ [msg] } := if_neg (Nat.not_lt.2 hfits)
  refine ⟨preserves_client_sound h.sound hstep,
    (client_complete_iff h.sound h.complete hstep).2 hok, ?_, ?_, ?_, h.fits, h.limit⟩
  · rw [h.account, hcallback]
    exact List.append_cons _ _ _
  · rw [hcallback]
    exact h.one
  · rw [hcallback]
    intro hdown
    rw [show s.pc = .waiting from hpc] at hdown
    cases hdown

/-- At rest, with nothing in the vring, everything is sent back. -/
theorem answered (h : s.StopAndWait sent [])
    (hrest : ∀ a, a.own = true → a ≠ .ready → clientMachine.step s a = none) :
    s.echoed = sent := by
  obtain ⟨hrun, htexts⟩ := h.complete
  have hpending : s.pending = [] := by
    rw [Client.pending]
    cases hpc : s.pc with
    | starting | closing | ended => rfl
    | waiting =>
        have hwake := hrest .wake rfl (by decide)
        apply fresh_eq_nil.2
        by_contra hcount
        have htake : s.dataScSem.take ≠ none := by
          rw [Semaphore.take, if_neg hcount]
          exact Option.some_ne_none _
        simp [clientMachine, Client.step, hrun, hpc, htake] at hwake
    | sending len =>
        have hsent := hrest (.sent .ok) rfl (by decide)
        simp [clientMachine, Client.step, hrun, hpc] at hsent
  rw [hpending, List.append_nil] at htexts
  rw [h.account, List.append_nil, htexts]

end Client.StopAndWait

end Client

/-! ## The firmware -/

/-- Each client puts a message only while its endpoint is there and nothing is unanswered; the
message fits and is one of a hundred for the sample client, and rpmsg takes every answer. -/
def Echo.Polite (cfg : TtyConfig) (s : Echo) : EchoAction → Prop
  | .post m =>
      match m.dst with
      | .tty => s.tty.pc.up = true ∧
          s.tty.echoed.length = (messages .tty s.posted).length ∧
          m.buf.msg ≠ [] ∧ m.buf.msg.length + 12 ≤ cfg.payload
      | .client => s.client.pc.up = true ∧
          s.client.echoed.length = (messages .client s.posted).length ∧
          m.buf.msg.length ≤ rxScMsgSize ∧ (messages .client s.posted).length < 100
      | .other => True
  | .tty (.sent r) => r = .ok
  | .client (.sent r) => r = .ok
  | .tty _ | .client _ | .ready _ | .kick | .take | .deliver | .drained => True

/-- What the firmware does by itself, where rpmsg takes the answers. -/
def EchoAction.own : EchoAction → Bool
  | .take | .deliver | .drained => true
  | .tty a => a.own
  | .client a => a.own
  | .ready _ | .post _ | .kick => false

/-- What is left to do: four for a message in the vring, since it may wake a responder. -/
def Tty.work (s : Tty) : Nat :=
  2 * s.dataTtySem.count + match s.pc with
    | .sending _ => 1
    | .starting | .waiting | .ended => 0

def Client.work (s : Client) : Nat :=
  3 * s.dataScSem.count + match s.pc with
    | .sending _ => 2
    | .closing => 1
    | .starting | .waiting | .ended => 0

def Echo.work (s : Echo) : Nat :=
  4 * s.ring.length + 2 * s.dataSem.count + (if s.mng = .notified then 1 else 0) + s.tty.work +
    s.client.work

section Firmware

variable {s t : Echo} {a : EchoAction}

theorem Tty.work_lt {x y : Tty} {b : TtyAction} (hb : b.own = true) (hne : b ≠ .ready)
    (hstep : (ttyMachine cfg).step x b = some y) : y.work < x.work := by
  cases Tty.step_cases hstep with
  | ready hnot => exact absurd rfl hne
  | created ok sem hpc hsem =>
      cases ok <;> simp [Tty.work, hpc, hsem]
  | received c hup hfills => cases hb
  | other c hready hfills => cases hb
  | idled sem hpc hsem hlen =>
      simp only [Tty.work, hpc, hsem]
      omega
  | woken sem c hpc hsem hlen hdata =>
      simp only [Tty.work, hpc, hsem]
      omega
  | echoed text c hpc hfits hdata =>
      simp only [Tty.work, hpc]
      omega
  | refused e text c hpc hdata => cases hb

theorem Client.work_lt {x y : Client} {b : ClientAction} (hb : b.own = true) (hne : b ≠ .ready)
    (hstep : clientMachine.step x b = some y) : y.work < x.work := by
  have hagain : ∀ z : Client, z.pc = x.again → z.work ≤ 3 * z.dataScSem.count + 1 := by
    intro z hz
    by_cases hmore : x.msgCnt < 100
    · simp [Client.work, hz, Client.again, hmore]
    · simp [Client.work, hz, Client.again, hmore]
  cases (Client.step_cases hstep).2 with
  | ready hnot => exact absurd rfl hne
  | created ok sem hpc hsem =>
      have hbefore : x.work = 3 * (sem.count + 1) := by simp [Client.work, hpc, hsem]
      cases ok with
      | true =>
          have hafter := hagain { x with dataScSem := sem, pc := x.again } rfl
          exact Nat.lt_of_le_of_lt hafter (by rw [hbefore]; simp only; omega)
      | false =>
          rw [hbefore]
          simp only [Client.work]
          simp
  | overran msg hup hlong => cases hb
  | received msg hup hfits => cases hb
  | woken sem hpc hsem =>
      simp only [Client.work, hpc, hsem]
      omega
  | echoed len hpc =>
      have hbefore : x.work = 3 * x.dataScSem.count + 2 := by simp [Client.work, hpc]
      have hafter := hagain
        { x with echoed := x.echoed ++ [x.rxScMsg.take len], pc := x.again } rfl
      exact Nat.lt_of_le_of_lt hafter (by rw [hbefore]; simp only; omega)
  | refused e len hpc => cases hb
  | destroyed hpc => simp [Client.work, hpc]

theorem Client.work_recv (msg : List Byte) (x : Client) :
    (x.rpmsgRecvCsCallback msg).work ≤ x.work + 3 := by
  rw [Client.rpmsgRecvCsCallback]
  split
  · exact Nat.le_add_right _ _
  · simp only [Client.work, Semaphore.give_count]
    omega

theorem work_hand (m : Post) (s : Echo) : (s.hand m).work ≤ s.work + 3 := by
  rw [Echo.hand]
  cases m.dst with
  | tty =>
      simp only
      split
      · simp only [Echo.work, Tty.work, Tty.rpmsgRecvTtyCallback, Semaphore.give_count]
        omega
      · omega
  | client =>
      simp only
      split
      · have hclient := Client.work_recv m.buf.msg s.client
        simp only [Echo.work]
        omega
      · omega
  | other => exact Nat.le_add_right _ _

/-- Left to itself the firmware comes to rest. -/
theorem work_lt (ha : a.own = true) (hstep : (echoMachine cfg).step s a = some t) :
    t.work < s.work := by
  cases (Echo.step_cases hstep).2 with
  | ready | failed | posted | kicked => cases ha
  | taken sem hmng hsem =>
      simp only [Echo.work, hmng, hsem]
      simp
      omega
  | delivered m rest hmng hring =>
      have hhand := work_hand m { s with ring := rest }
      have hless : Echo.work { s with ring := rest } + 4 = s.work := by
        simp only [Echo.work, hring, List.length_cons]
        omega
      omega
  | drained hmng hring =>
      simp only [Echo.work, hmng]
      simp
  | tty b tty hb htty =>
      have hless := Tty.work_lt ha (by rintro rfl; cases hb) htty
      simp only [Echo.work]
      omega
  | client b client hb hclient =>
      have hless := Client.work_lt ha (by rintro rfl; cases hb) hclient
      simp only [Echo.work]
      omega

/-! ## Clients of the firmware -/

theorem messages_concat (e : Endpoint) (posts : List Post) (m : Post) :
    Echo.messages e (posts ++ [m]) =
      Echo.messages e posts ++ if m.dst = e then [m.buf.msg] else [] := by
  rw [Echo.messages, List.filter_append, List.map_append]
  by_cases hdst : m.dst = e
  · simp [Echo.messages, hdst]
  · simp [Echo.messages, hdst]

theorem messages_cons (e : Endpoint) (m : Post) (posts : List Post) :
    Echo.messages e (m :: posts) =
      (if m.dst = e then [m.buf.msg] else []) ++ Echo.messages e posts := by
  by_cases hdst : m.dst = e
  · simp [Echo.messages, hdst]
  · simp [Echo.messages, hdst]

/-- Both clients wait for their answers; only a kick brings in what has been put since the
management task was last woken. -/
structure Echo.Waits (cfg : TtyConfig) (s : Echo) : Prop where
  fed : s.Fed cfg
  tty : s.tty.StopAndWait cfg (Echo.messages .tty s.posted) (Echo.messages .tty s.ring)
  client : s.client.StopAndWait (Echo.messages .client s.posted) (Echo.messages .client s.ring)
  down : s.mng = .starting ∨ s.mng = .ended → s.tty.ready = false ∧ s.client.ready = false
  kicked : s.mng ≠ .notified → s.dataSem.count = 0 → s.ring.length ≤ s.unkicked

theorem echo_waits_initial (cfg : TtyConfig) : Echo.initial.Waits cfg :=
  ⟨fed_initial cfg, waits_initial cfg, waits_client_initial, fun _ => ⟨rfl, rfl⟩,
    fun _ _ => Nat.le_refl 0⟩

theorem tty_own_of_polite {b : TtyAction} (hb : b.ofResponder = true)
    (hok : s.Polite cfg (.tty b)) : b.own = true := by
  cases b with
  | sent r =>
      cases hok
      rfl
  | create | wake => rfl
  | ready | recv | other => cases hb

theorem client_own_of_polite {b : ClientAction} (hb : b.ofResponder = true)
    (hok : s.Polite cfg (.client b)) : b.own = true := by
  cases b with
  | sent r =>
      cases hok
      rfl
  | create | wake | destroyed => rfl
  | ready | recv => cases hb

theorem polite_of_own (ha : a.own = true) : s.Polite cfg a := by
  cases a with
  | take | deliver | drained => trivial
  | ready | post | kick => cases ha
  | tty b =>
      cases b with
      | sent r =>
          cases r with
          | ok => rfl
          | fail e => cases ha
      | ready | create | wake => trivial
      | recv | other => cases ha
  | client b =>
      cases b with
      | sent r =>
          cases r with
          | ok => rfl
          | fail e => cases ha
      | ready | create | wake | destroyed => trivial
      | recv => cases ha

theorem tty_ready_of_responder {x y : Tty} {b : TtyAction} (hb : b.ofResponder = true)
    (hstep : (ttyMachine cfg).step x b = some y) : y.ready = x.ready := by
  cases Tty.step_cases hstep with
  | ready | received | other => cases hb
  | created | idled | woken | echoed | refused => rfl

theorem client_ready_of_responder {x y : Client} {b : ClientAction} (hb : b.ofResponder = true)
    (hstep : clientMachine.step x b = some y) : y.ready = x.ready := by
  cases (Client.step_cases hstep).2 with
  | ready | overran | received => cases hb
  | created | woken | echoed | refused | destroyed => rfl

theorem waits_posted {m : Post} (hs : s.Waits cfg) (hok : s.Polite cfg (.post m))
    (hfed : Echo.Fed cfg
      { s with ring := s.ring ++ [m], unkicked := s.unkicked + 1, posted := s.posted ++ [m] }) :
    Echo.Waits cfg
      { s with ring := s.ring ++ [m], unkicked := s.unkicked + 1, posted := s.posted ++ [m] } := by
  refine ⟨hfed, ?_, ?_, hs.down, ?_⟩
  · rw [messages_concat, messages_concat]
    cases hdst : m.dst with
    | tty =>
        simp only [Echo.Polite, hdst] at hok
        exact hs.tty.post hok.1 hok.2.1 hok.2.2
    | client | other => simpa using hs.tty
  · rw [messages_concat, messages_concat]
    cases hdst : m.dst with
    | client =>
        simp only [Echo.Polite, hdst] at hok
        exact hs.client.post hok.1 hok.2.1 hok.2.2.1 hok.2.2.2
    | tty | other => simpa using hs.client
  · intro hmng hsem
    rw [List.length_append]
    exact Nat.add_le_add_right (hs.kicked hmng hsem) 1

theorem waits_delivered {m : Post} {rest : List Post} (hs : s.Waits cfg)
    (hmng : s.mng = .notified) (hring : s.ring = m :: rest) :
    (Echo.hand m { s with ring := rest }).Waits cfg := by
  have hfed := fed_delivered hs.fed hring
  have hfills := hs.fed.fills m (hring ▸ List.mem_cons_self)
  have htty := hs.tty
  have hclient := hs.client
  rw [hring, messages_cons] at htty hclient
  rw [Echo.hand] at hfed ⊢
  cases hdst : m.dst with
  | tty =>
      rw [hdst] at htty hclient
      simp only [hdst, if_pos htty.idle.2] at hfed ⊢
      refine ⟨hfed, htty.recv hfills, hclient, ?_, ?_⟩
      · rintro (h | h) <;> cases hmng.symm.trans h
      · exact fun h => absurd hmng h
  | client =>
      rw [hdst] at htty hclient
      have hup : s.client.pc.up = true := by
        rw [hclient.idle.1]
        rfl
      simp only [hdst, if_pos hup] at hfed ⊢
      refine ⟨hfed, htty, hclient.recv, ?_, ?_⟩
      · rintro (h | h) <;> cases hmng.symm.trans h
      · exact fun h => absurd hmng h
  | other =>
      rw [hdst] at htty hclient
      simp only [hdst] at hfed ⊢
      refine ⟨hfed, htty, hclient, ?_, ?_⟩
      · rintro (h | h) <;> cases hmng.symm.trans h
      · exact fun h => absurd hmng h

theorem waits_step (hs : s.Waits cfg) (hok : s.Polite cfg a)
    (hstep : (echoMachine cfg).step s a = some t) : t.Waits cfg := by
  have hfed := preserves_fed hs.fed hstep
  cases (Echo.step_cases hstep).2 with
  | ready client tty hmng hclient htty =>
      refine ⟨hfed, hs.tty.own rfl htty, hs.client.own rfl hclient, ?_, ?_⟩
      · rintro (h | h) <;> cases h
      · exact fun _ hsem => hs.kicked (by rw [hmng]; decide) hsem
  | failed hmng =>
      refine ⟨hfed, hs.tty, hs.client, fun _ => hs.down (.inl hmng), ?_⟩
      exact fun _ hsem => hs.kicked (by rw [hmng]; decide) hsem
  | posted m hfills hfree => exact waits_posted hs hok hfed
  | kicked =>
      refine ⟨hfed, hs.tty, hs.client, hs.down, ?_⟩
      intro _ hsem
      exact absurd hsem (Nat.ne_of_gt (s.dataSem.give_pos (by decide)))
  | taken sem hmng hsem =>
      refine ⟨hfed, hs.tty, hs.client, ?_, fun h => absurd rfl h⟩
      rintro (h | h) <;> cases h
  | delivered m rest hmng hring => exact waits_delivered hs hmng hring
  | drained hmng hring =>
      refine ⟨hfed, hs.tty, hs.client, ?_, ?_⟩
      · rintro (h | h) <;> cases h
      · intro _ _
        change s.ring.length ≤ s.unkicked
        rw [hring]
        exact Nat.zero_le _
  | tty b tty hb htty =>
      have hown := tty_own_of_polite hb hok
      refine ⟨hfed, hs.tty.own hown htty, hs.client, ?_, hs.kicked⟩
      rw [tty_ready_of_responder hb htty]
      exact hs.down
  | client b client hb hclient =>
      have hown := client_own_of_polite hb hok
      refine ⟨hfed, hs.tty, hs.client.own hown hclient, ?_, hs.kicked⟩
      rw [client_ready_of_responder hb hclient]
      exact hs.down

theorem own_keeps (ha : a.own = true) (hstep : (echoMachine cfg).step s a = some t) :
    t.posted = s.posted ∧ t.unkicked = s.unkicked := by
  cases (Echo.step_cases hstep).2 with
  | ready | failed | posted | kicked => cases ha
  | taken | drained | tty | client => exact ⟨rfl, rfl⟩
  | delivered m rest hmng hring =>
      rw [Echo.hand]
      cases m.dst with
      | tty | client =>
          simp only
          split <;> exact ⟨rfl, rfl⟩
      | other => exact ⟨rfl, rfl⟩

/-- Of a message that has been kicked in, at rest nothing is left in the vring. -/
theorem ring_of_rest (hs : s.Waits cfg) (hkicked : s.unkicked = 0)
    (hrest : ∀ a, a.own = true → (echoMachine cfg).step s a = none) :
    Echo.messages .tty s.ring = [] ∧ Echo.messages .client s.ring = [] := by
  have hrun : s.client.overrun = false := hs.client.complete.1
  cases hmng : s.mng with
  | starting | ended =>
      obtain ⟨htty, hclient⟩ := hs.down (by simp [hmng])
      refine ⟨hs.tty.up ?_, hs.client.up ?_⟩
      · rw [(hs.tty.notReady htty).1]
        rfl
      · rw [(hs.client.sound.notReady hclient).1]
        rfl
  | waiting =>
      have hsem : s.dataSem.count = 0 := by
        by_contra hcount
        have htake := hrest .take rfl
        simp [echoMachine, Echo.step, hrun, hmng, Semaphore.take, hcount] at htake
      have hle := hs.kicked (by rw [hmng]; decide) hsem
      have hring : s.ring = [] := List.eq_nil_of_length_eq_zero (by omega)
      rw [hring]
      exact ⟨rfl, rfl⟩
  | notified =>
      cases hring : s.ring with
      | nil =>
          have hdrained := hrest .drained rfl
          simp [echoMachine, Echo.step, hrun, hmng, hring] at hdrained
      | cons m rest =>
          have hdeliver := hrest .deliver rfl
          simp [echoMachine, Echo.step, hrun, hmng, hring] at hdeliver

theorem answered_of_rest (hs : s.Waits cfg) (hkicked : s.unkicked = 0)
    (hrest : ∀ a, a.own = true → (echoMachine cfg).step s a = none) :
    s.tty.echoed = (Echo.messages .tty s.posted).map (ttyText cfg.addr) ∧
      s.client.echoed = Echo.messages .client s.posted := by
  have hrun : s.client.overrun = false := hs.client.complete.1
  obtain ⟨hringTty, hringClient⟩ := ring_of_rest hs hkicked hrest
  constructor
  · refine (hringTty ▸ hs.tty).answered fun b hb hne => ?_
    have hresponder : b.ofResponder = true := by
      cases b <;> first | rfl | exact absurd rfl hne | cases hb
    have hnone := hrest (.tty b) hb
    simpa [echoMachine, Echo.step, hrun, hresponder] using hnone
  · refine (hringClient ▸ hs.client).answered fun b hb hne => ?_
    have hresponder : b.ofResponder = true := by
      cases b <;> first | rfl | exact absurd rfl hne | cases hb
    have hnone := hrest (.client b) hb
    simpa [echoMachine, Echo.step, hrun, hresponder] using hnone

/-- **Clients that wait for their answers get every one of them.**  In every run in which the
clients of both endpoints do so and rpmsg takes the answers, what has been sent back answers the
messages in order without a gap, at most one of each client is unanswered, and no buffer
is lost.  From then on the firmware by itself comes to rest within the given number of
steps, and if Linux has kicked since its last message, all are answered by then. -/
theorem echo_answers {as : List EchoAction}
    (hexec : (echoMachine cfg).exec .initial as = some s)
    (hpolite : (echoMachine cfg).Along (Echo.Polite cfg) .initial as) :
    s.tty.echoed <+: (Echo.messages .tty s.posted).map (ttyText cfg.addr) ∧
      (Echo.messages .tty s.posted).length ≤ s.tty.echoed.length + 1 ∧
      s.client.echoed <+: Echo.messages .client s.posted ∧
      (Echo.messages .client s.posted).length ≤ s.client.echoed.length + 1 ∧
      s.tty.lost = [] ∧ s.client.overrun = false ∧
      ∀ bs t, (∀ b ∈ bs, b.own = true) → (echoMachine cfg).exec s bs = some t →
        bs.length ≤ s.work ∧
          (s.unkicked = 0 → (∀ a, a.own = true → (echoMachine cfg).step t a = none) →
            t.tty.echoed = (Echo.messages .tty s.posted).map (ttyText cfg.addr) ∧
              t.client.echoed = Echo.messages .client s.posted) := by
  have hthroughout : (echoMachine cfg).Throughout (Echo.Waits cfg) .initial as :=
    hpolite.throughout (fun _ _ _ hs hok hstep => waits_step hs hok hstep)
      (echo_waits_initial cfg) hexec
  have hs := hthroughout.finish hexec
  refine ⟨?_, hs.tty.one, ?_, hs.client.one, hs.tty.echoing.complete.1, hs.client.complete.1, ?_⟩
  · rw [hs.tty.account, List.map_append, hs.tty.echoing.complete.2, List.append_assoc]
    exact List.prefix_append _ _
  · rw [hs.client.account, hs.client.complete.2, List.append_assoc]
    exact List.prefix_append _ _
  · intro bs t hbs hown
    obtain ⟨⟨ht, hposted, hunkicked⟩, hle⟩ := Machine.length_le_of_decreasing
      (I := fun u => u.Waits cfg ∧ u.posted = s.posted ∧ u.unkicked = s.unkicked)
      (p := fun b => b.own = true) (f := Echo.work)
      (fun u b v hu hb hstep =>
        ⟨⟨waits_step hu.1 (polite_of_own hb) hstep, (own_keeps hb hstep).1.trans hu.2.1,
          (own_keeps hb hstep).2.trans hu.2.2⟩, work_lt hb hstep⟩)
      ⟨hs, rfl, rfl⟩ hbs hown
    refine ⟨Nat.le_of_add_left_le hle, ?_⟩
    intro hkicked hrest
    rw [← hposted]
    exact answered_of_rest ht (hunkicked.trans hkicked) hrest

end Firmware

instance (cfg : TtyConfig) (s : Echo) : DecidablePred (s.Polite cfg) := fun a => by
  unfold Echo.Polite
  split
  · split <;> infer_instance
  all_goals infer_instance

/-- A message for each responder in one kick, and their answers. -/
theorem echo_answers_both :
    ∃ s t, (echoMachine ⟨8, 496, 1024#32⟩).exec .initial
        [.ready true, .tty (.create true), .client (.create true),
          .post ⟨.tty, ⟨0, [0x61#8]⟩⟩, .post ⟨.client, ⟨1, [0x68#8, 0x69#8]⟩⟩, .kick] = some s ∧
      (echoMachine ⟨8, 496, 1024#32⟩).exec s [.take, .deliver, .deliver, .drained, .tty .wake,
        .client .wake, .tty (.sent .ok), .client (.sent .ok)] = some t ∧ 8 ≤ s.work ∧
      t.tty.echoed = [ttyText 1024#32 [0x61#8]] ∧ t.client.echoed = [[0x68#8, 0x69#8]] := by
  have hrun : ((echoMachine ⟨8, 496, 1024#32⟩).exec .initial
      [.ready true, .tty (.create true), .client (.create true),
        .post ⟨.tty, ⟨0, [0x61#8]⟩⟩, .post ⟨.client, ⟨1, [0x68#8, 0x69#8]⟩⟩, .kick]).bind
        (fun s => ((echoMachine ⟨8, 496, 1024#32⟩).exec s [.take, .deliver, .deliver, .drained,
          .tty .wake, .client .wake, .tty (.sent .ok), .client (.sent .ok)]).map
            fun t => (t.tty.echoed, t.client.echoed)) =
      some ([ttyText 1024#32 [0x61#8]], [[0x68#8, 0x69#8]]) := by decide +kernel
  obtain ⟨s, hexec, hrest⟩ := Option.bind_eq_some_iff.1 hrun
  obtain ⟨t, hown, hechoed⟩ := Option.map_eq_some_iff.1 hrest
  obtain ⟨htty, hclient⟩ := Prod.mk.inj hechoed
  obtain ⟨-, -, -, -, -, -, hbound⟩ := echo_answers hexec (by decide +kernel)
  exact ⟨s, t, hexec, hown, (hbound _ t (by decide) hown).1, htty, hclient⟩

end DataLogger.RpmsgEcho
