import DataLogger.Foundation.KernelObjects
import DataLogger.Foundation.Machine
import DataLogger.OpenAmp.Rpmsg

/-!
# The sample client's responder

`rpmsg_recv_cs_callback` copies each message into the twenty bytes of `rx_sc_msg`, and
`app_rpmsg_client_sample` sends them back, a hundred times at most.  `rpmsg_send` is given
`rx_sc_msg` itself: the length is that of the call, the bytes are those it finds once it has
a TX buffer.
-/

namespace DataLogger.RpmsgEcho

open DataLogger.Foundation
open DataLogger.Zephyr
open DataLogger.OpenAmp

/-! ## The state -/

/-- Where `app_rpmsg_client_sample` stands; `sending` is inside `rpmsg_send`, `closing` inside
`rpmsg_destroy_ept`. -/
inductive ClientPc where
  | starting
  | waiting
  | sending (len : Nat)
  | closing
  | ended
  deriving DecidableEq

/-- The endpoint exists. -/
def ClientPc.up : ClientPc → Bool
  | waiting | sending _ | closing => true
  | starting | ended => false

/-- `rxScMsg` and `len` are `sc_msg`; `overrun` says that a message was copied past the end of
`rx_sc_msg`.  `arrived` and `echoed` only record what has happened. -/
structure Client where
  dataScSem : Semaphore 1
  ready : Bool
  pc : ClientPc
  rxScMsg : List Byte
  len : Nat
  msgCnt : Nat
  overrun : Bool
  arrived : List (List Byte)
  echoed : List (List Byte)
  deriving DecidableEq

def rxScMsgSize : Nat := 20

def Client.initial : Client :=
  ⟨.empty 1, false, .starting, List.replicate rxScMsgSize 0#8, 0, 0, false, [], []⟩

/-! ## The steps -/

/-- `ready`: the management task has brought the device up.  `create`: the responder behind its
first take.  `recv`: a message for the endpoint.  `wake`: the responder takes the semaphore.
`sent`: its `rpmsg_send` returns.  `destroyed`: the endpoint is gone. -/
inductive ClientAction where
  | ready
  | create (ok : Bool)
  | recv (msg : List Byte)
  | wake
  | sent (r : Reply)
  | destroyed
  deriving DecidableEq

def memcpy (dst src : List Byte) : List Byte := src ++ dst.drop src.length

namespace Client

/-- What is behind `rx_sc_msg` is not ours, so an overrun is only noted. -/
def rpmsgRecvCsCallback (msg : List Byte) (s : Client) : Client :=
  if rxScMsgSize < msg.length then { s with overrun := true, arrived := s.arrived ++ [msg] }
  else
    { s with
      rxScMsg := memcpy s.rxScMsg msg
      len := msg.length
      dataScSem := s.dataScSem.give
      arrived := s.arrived ++ [msg] }

/-- The loop condition. -/
def again (s : Client) : ClientPc := if s.msgCnt < 100 then .waiting else .closing

/-- Nothing can be said about what the program does behind an overrun. -/
def step (s : Client) (a : ClientAction) : Option Client :=
  if s.overrun then none
  else
    match a with
    | .ready =>
        if s.ready then none else some { s with ready := true, dataScSem := s.dataScSem.give }
    | .create ok =>
        if s.pc = .starting then
          s.dataScSem.take.map fun sem =>
            { s with dataScSem := sem, pc := if ok then s.again else .ended }
        else none
    | .recv msg => if s.pc.up then some (s.rpmsgRecvCsCallback msg) else none
    | .wake =>
        if s.pc = .waiting then
          s.dataScSem.take.map fun sem =>
            { s with dataScSem := sem, msgCnt := s.msgCnt + 1, pc := .sending s.len }
        else none
    | .sent r =>
        match s.pc with
        | .sending len =>
            some { s with
              echoed := if r = .ok then s.echoed ++ [s.rxScMsg.take len] else s.echoed
              pc := s.again }
        | .starting | .waiting | .closing | .ended => none
    | .destroyed => if s.pc = .closing then some { s with pc := .ended } else none

end Client

def clientMachine : Machine Client ClientAction := ⟨Client.step⟩

/-! ## What a step can do -/

/-- Every way a step changes the state, with what it found there. -/
inductive Client.Step (s : Client) : ClientAction → Client → Prop where
  | ready (hnot : s.ready = false) :
      Step s .ready { s with ready := true, dataScSem := s.dataScSem.give }
  | created (ok : Bool) (sem : Semaphore 1) (hpc : s.pc = .starting)
      (hsem : s.dataScSem.count = sem.count + 1) :
      Step s (.create ok) { s with dataScSem := sem, pc := if ok then s.again else .ended }
  | overran (msg : List Byte) (hup : s.pc.up = true) (hlong : rxScMsgSize < msg.length) :
      Step s (.recv msg) { s with overrun := true, arrived := s.arrived ++ [msg] }
  | received (msg : List Byte) (hup : s.pc.up = true) (hfits : msg.length ≤ rxScMsgSize) :
      Step s (.recv msg)
        { s with
          rxScMsg := memcpy s.rxScMsg msg
          len := msg.length
          dataScSem := s.dataScSem.give
          arrived := s.arrived ++ [msg] }
  | woken (sem : Semaphore 1) (hpc : s.pc = .waiting)
      (hsem : s.dataScSem.count = sem.count + 1) :
      Step s .wake { s with dataScSem := sem, msgCnt := s.msgCnt + 1, pc := .sending s.len }
  | echoed (len : Nat) (hpc : s.pc = .sending len) :
      Step s (.sent .ok) { s with echoed := s.echoed ++ [s.rxScMsg.take len], pc := s.again }
  | refused (e : Errno) (len : Nat) (hpc : s.pc = .sending len) :
      Step s (.sent (.fail e)) { s with pc := s.again }
  | destroyed (hpc : s.pc = .closing) : Step s .destroyed { s with pc := .ended }

variable {s t : Client} {a : ClientAction}

theorem Client.step_cases (hstep : clientMachine.step s a = some t) :
    s.overrun = false ∧ s.Step a t := by
  change s.step a = some t at hstep
  obtain ⟨hrun, hstep⟩ := Option.ite_none_left_eq_some.1 hstep
  refine ⟨by simpa using hrun, ?_⟩
  cases a with
  | ready =>
      obtain ⟨hnot, hnext⟩ := Option.ite_none_left_eq_some.1 hstep
      cases hnext
      exact .ready (by simpa using hnot)
  | create ok =>
      obtain ⟨hpc, hnext⟩ := Option.ite_none_right_eq_some.1 hstep
      obtain ⟨sem, hsem, hnext⟩ := Option.map_eq_some_iff.1 hnext
      cases hnext
      exact .created ok sem hpc (Semaphore.take_eq_some.1 hsem)
  | recv msg =>
      obtain ⟨hup, hnext⟩ := Option.ite_none_right_eq_some.1 hstep
      cases hnext
      rw [Client.rpmsgRecvCsCallback]
      split
      · rename_i hlong
        exact .overran msg hup hlong
      · rename_i hfits
        exact .received msg hup (Nat.not_lt.1 hfits)
  | wake =>
      obtain ⟨hpc, hnext⟩ := Option.ite_none_right_eq_some.1 hstep
      obtain ⟨sem, hsem, hnext⟩ := Option.map_eq_some_iff.1 hnext
      cases hnext
      exact .woken sem hpc (Semaphore.take_eq_some.1 hsem)
  | sent r =>
      cases hpc : s.pc with
      | sending len =>
          simp only [hpc, Option.some.injEq] at hstep
          subst hstep
          cases r with
          | ok => exact .echoed len hpc
          | fail e => exact .refused e len hpc
      | starting | waiting | closing | ended => simp [hpc] at hstep
  | destroyed =>
      obtain ⟨hpc, hnext⟩ := Option.ite_none_right_eq_some.1 hstep
      cases hnext
      exact .destroyed hpc

/-! ## Counting -/

/-- A reply is under way. -/
def ClientPc.replying : ClientPc → Nat
  | sending _ => 1
  | starting | waiting | closing | ended => 0

/-- A message that has not been looked at. -/
def Client.unread (s : Client) : Nat := if s.pc.up then s.dataScSem.count else 0

/-- The bounds of `rx_sc_msg` and of the loop, and the number of replies against that of
messages. -/
structure Client.Sound (s : Client) : Prop where
  size : s.rxScMsg.length = rxScMsgSize
  replies : s.echoed.length + s.pc.replying ≤ s.msgCnt
  messages : s.msgCnt + s.unread ≤ s.arrived.length
  limit : s.msgCnt ≤ 100
  waiting : s.pc = .waiting → s.msgCnt < 100
  starting : s.pc = .starting → s.msgCnt = 0
  closing : s.pc = .closing → s.msgCnt = 100
  ended : s.pc = .ended → s.msgCnt = 0 ∨ s.msgCnt = 100
  notReady : s.ready = false → s.pc = .starting ∧ s.dataScSem.count = 0

theorem sound_client_initial : Client.initial.Sound := by
  constructor <;> decide

theorem length_memcpy {dst src : List Byte} (hfits : src.length ≤ dst.length) :
    (memcpy dst src).length = dst.length := by
  rw [memcpy, List.length_append, List.length_drop]
  omega

theorem take_memcpy (dst src : List Byte) : (memcpy dst src).take src.length = src :=
  List.take_left

/-- Behind a reply the loop goes on, or is over with the hundredth. -/
theorem sound_again {texts : List (List Byte)} {len : Nat} (hs : s.Sound)
    (hpc : s.pc = .sending len) (htexts : texts.length ≤ s.msgCnt) :
    Client.Sound { s with echoed := texts, pc := s.again } := by
  have hmessages := hs.messages
  have hlimit := hs.limit
  rw [Client.unread, hpc, show (ClientPc.sending len).up = true from rfl, if_pos rfl] at hmessages
  have hready : s.ready = false → s.again = .starting ∧ s.dataScSem.count = 0 := by
    intro hnot
    cases hpc.symm.trans (hs.notReady hnot).1
  rw [Client.again] at hready ⊢
  by_cases hmore : s.msgCnt < 100
  · rw [if_pos hmore] at hready ⊢
    exact ⟨hs.size, htexts, hmessages, hlimit, fun _ => hmore, (fun h => nomatch h),
      (fun h => nomatch h), (fun h => nomatch h), hready⟩
  · rw [if_neg hmore] at hready ⊢
    have hlast : s.msgCnt = 100 := by omega
    exact ⟨hs.size, htexts, hmessages, hlimit, (fun h => nomatch h), (fun h => nomatch h),
      fun _ => hlast, (fun h => nomatch h), hready⟩

theorem sound_created {sem : Semaphore 1} (ok : Bool) (hs : s.Sound) (hpc : s.pc = .starting)
    (hsem : s.dataScSem.count = sem.count + 1) :
    Client.Sound { s with dataScSem := sem, pc := if ok then s.again else .ended } := by
  have hzero := hs.starting hpc
  have hcount := s.dataScSem.count_le
  have hagain : s.again = .waiting := by rw [Client.again, hzero, if_pos (by decide)]
  have hempty : sem.count = 0 := by omega
  have hreplies : s.echoed.length ≤ s.msgCnt := Nat.le_of_add_right_le hs.replies
  have hready : s.ready = true := by
    cases hnot : s.ready with
    | true => rfl
    | false =>
        have hnone := (hs.notReady hnot).2
        omega
  cases ok with
  | true =>
      rw [if_pos rfl, hagain]
      refine ⟨hs.size, hreplies, ?_, hs.limit, ?_, (fun h => nomatch h), (fun h => nomatch h),
        (fun h => nomatch h), ?_⟩
      · change s.msgCnt + sem.count ≤ _
        omega
      · intro _
        change s.msgCnt < 100
        omega
      · intro hnot
        cases hready.symm.trans hnot
  | false =>
      refine ⟨hs.size, hreplies, ?_, hs.limit, (fun h => nomatch h), (fun h => nomatch h),
        (fun h => nomatch h), fun _ => .inl hzero, ?_⟩
      · change s.msgCnt + 0 ≤ _
        omega
      · intro hnot
        cases hready.symm.trans hnot

theorem sound_received {msg : List Byte} (hs : s.Sound) (hup : s.pc.up = true)
    (hfits : msg.length ≤ rxScMsgSize) :
    Client.Sound
      { s with
        rxScMsg := memcpy s.rxScMsg msg
        len := msg.length
        dataScSem := s.dataScSem.give
        arrived := s.arrived ++ [msg] } := by
  have hmessages := hs.messages
  rw [Client.unread, if_pos hup] at hmessages
  refine ⟨?_, hs.replies, ?_, hs.limit, hs.waiting, hs.starting, hs.closing, hs.ended, ?_⟩
  · rw [length_memcpy (by rw [hs.size]; exact hfits)]
    exact hs.size
  · change s.msgCnt + (if s.pc.up then s.dataScSem.give.count else 0) ≤ (s.arrived ++ [msg]).length
    rw [if_pos hup, Semaphore.give_count, List.length_append, List.length_singleton]
    omega
  · intro hnot
    rw [(hs.notReady hnot).1] at hup
    cases hup

theorem preserves_client_sound : clientMachine.Preserves Client.Sound := by
  intro s a t hs hstep
  obtain ⟨-, hcases⟩ := Client.step_cases hstep
  cases hcases with
  | ready hnot =>
      have hpc := (hs.notReady hnot).1
      have hmessages := hs.messages
      rw [Client.unread, hpc] at hmessages
      refine ⟨hs.size, hs.replies, ?_, hs.limit, hs.waiting, hs.starting, hs.closing, hs.ended,
        (fun h => nomatch h)⟩
      rw [Client.unread, hpc]
      exact hmessages
  | created ok sem hpc hsem => exact sound_created ok hs hpc hsem
  | overran msg hup hlong =>
      refine ⟨hs.size, hs.replies, ?_, hs.limit, hs.waiting, hs.starting, hs.closing, hs.ended,
        hs.notReady⟩
      rw [List.length_append]
      exact Nat.le_add_right_of_le hs.messages
  | received msg hup hfits => exact sound_received hs hup hfits
  | woken sem hpc hsem =>
      have hreplies := hs.replies
      have hmessages := hs.messages
      have hmore := hs.waiting hpc
      rw [hpc] at hreplies
      rw [Client.unread, hpc, show ClientPc.waiting.up = true from rfl, if_pos rfl] at hmessages
      refine ⟨hs.size, Nat.add_le_add_right hreplies 1, ?_, hmore, (fun h => nomatch h),
        (fun h => nomatch h), (fun h => nomatch h), (fun h => nomatch h), ?_⟩
      · change s.msgCnt + 1 + sem.count ≤ s.arrived.length
        omega
      · intro hnot
        cases hpc.symm.trans (hs.notReady hnot).1
  | echoed len hpc =>
      apply sound_again hs hpc
      have hreplies := hs.replies
      rw [hpc] at hreplies
      rw [List.length_append]
      exact hreplies
  | refused e len hpc => exact sound_again hs hpc (Nat.le_of_add_right_le hs.replies)
  | destroyed hpc =>
      refine ⟨hs.size, Nat.le_of_add_right_le hs.replies, Nat.le_of_add_right_le hs.messages,
        hs.limit, (fun h => nomatch h), (fun h => nomatch h), (fun h => nomatch h),
        fun _ => .inr (hs.closing hpc), ?_⟩
      intro hnot
      cases hpc.symm.trans (hs.notReady hnot).1

/-! ## Replies -/

/-- The message in `rx_sc_msg` that has not been looked at. -/
def Client.fresh (s : Client) : List (List Byte) :=
  if s.dataScSem.count = 0 then [] else [s.rxScMsg.take s.len]

/-- The replies still to come. -/
def Client.pending (s : Client) : List (List Byte) :=
  match s.pc with
  | .waiting => s.fresh
  | .sending len => s.rxScMsg.take len :: s.fresh
  | .starting | .closing | .ended => []

/-- Every message is sent back as it came, or about to be, in order. -/
def Client.Complete (s : Client) : Prop :=
  s.overrun = false ∧ s.arrived = s.echoed ++ s.pending

/-- A message fits, finds the one before looked at, and does not change what is being sent;
rpmsg takes every reply, and nothing is left behind the hundredth. -/
def Client.Undisturbed (s : Client) : ClientAction → Prop
  | .recv msg => msg.length ≤ rxScMsgSize ∧ s.dataScSem.count = 0 ∧
      match s.pc with
      | .sending len => (memcpy s.rxScMsg msg).take len = s.rxScMsg.take len
      | .closing => False
      | .starting | .waiting | .ended => True
  | .sent r => r = .ok ∧ (s.msgCnt < 100 ∨ s.dataScSem.count = 0)
  | .ready | .create _ | .wake | .destroyed => True

instance (s : Client) : DecidablePred s.Undisturbed
  | .recv msg =>
      match hpc : s.pc with
      | .sending len => decidable_of_iff (msg.length ≤ rxScMsgSize ∧ s.dataScSem.count = 0 ∧
          (memcpy s.rxScMsg msg).take len = s.rxScMsg.take len) (by simp [Client.Undisturbed, hpc])
      | .closing => isFalse (by simp [Client.Undisturbed, hpc])
      | .starting | .waiting | .ended =>
          decidable_of_iff (msg.length ≤ rxScMsgSize ∧ s.dataScSem.count = 0)
            (by simp [Client.Undisturbed, hpc])
  | .sent r => inferInstanceAs (Decidable (r = .ok ∧ (s.msgCnt < 100 ∨ s.dataScSem.count = 0)))
  | .ready | .create _ | .wake | .destroyed => inferInstanceAs (Decidable True)

theorem complete_client_initial : Client.initial.Complete := ⟨rfl, rfl⟩

theorem fresh_of_empty (hempty : s.dataScSem.count = 0) : s.fresh = [] := if_pos hempty

theorem fresh_eq_nil : s.fresh = [] ↔ s.dataScSem.count = 0 := by
  rw [Client.fresh]
  split
  · rename_i hempty
    exact iff_of_true rfl hempty
  · rename_i hempty
    exact iff_of_false (List.cons_ne_nil _ _) hempty

/-- What is fresh behind a message that fits is that message. -/
theorem fresh_received (msg : List Byte) (pc : ClientPc) :
    Client.fresh { s with
      pc := pc
      rxScMsg := memcpy s.rxScMsg msg
      len := msg.length
      dataScSem := s.dataScSem.give
      arrived := s.arrived ++ [msg] } = [msg] := by
  have hgiven : s.dataScSem.give.count ≠ 0 := Nat.ne_of_gt (s.dataScSem.give_pos (by decide))
  rw [Client.fresh, if_neg hgiven]
  exact congrArg (fun l => [l]) (take_memcpy s.rxScMsg msg)

/-- What is pending behind the end of a reply. -/
theorem pending_again {texts : List (List Byte)} :
    Client.pending { s with echoed := texts, pc := s.again } =
      if s.msgCnt < 100 then s.fresh else [] := by
  rw [Client.again]
  split
  · rfl
  · rfl

/-- A message that fits leaves the replies complete if the one before was looked at and the
reply under way keeps its bytes. -/
theorem complete_received_iff {msg : List Byte} (hrun : s.overrun = false)
    (htexts : s.arrived = s.echoed ++ s.pending) (hup : s.pc.up = true)
    (hfits : msg.length ≤ rxScMsgSize) :
    Client.Complete { s with
      rxScMsg := memcpy s.rxScMsg msg
      len := msg.length
      dataScSem := s.dataScSem.give
      arrived := s.arrived ++ [msg] } ↔ s.Undisturbed (.recv msg) := by
  have hfresh := fresh_received (s := s) msg
  rw [Client.Complete, and_iff_right hrun, Client.Undisturbed, and_iff_right hfits]
  cases hpc : s.pc with
  | starting | ended =>
      rw [hpc] at hup
      cases hup
  | waiting =>
      rw [Client.pending, hpc] at htexts
      simp only [Client.pending, hfresh, and_true]
      rw [List.append_left_inj, htexts, List.append_right_eq_self, fresh_eq_nil]
  | sending len =>
      rw [Client.pending, hpc] at htexts
      simp only [Client.pending, hfresh]
      rw [List.append_cons _ _ [msg], List.append_left_inj, htexts, List.append_right_inj,
        List.cons.injEq, fresh_eq_nil, and_comm, eq_comm (a := s.rxScMsg.take len)]
  | closing =>
      rw [Client.pending, hpc, List.append_nil] at htexts
      simp only [Client.pending, List.append_nil, and_false, iff_false]
      intro h
      rw [htexts] at h
      simp at h

/-- A step from complete replies leaves them complete exactly if it is undisturbed. -/
theorem client_complete_iff (hs : s.Sound) (hc : s.Complete)
    (hstep : clientMachine.step s a = some t) : t.Complete ↔ s.Undisturbed a := by
  obtain ⟨hrun, hcases⟩ := Client.step_cases hstep
  obtain ⟨-, htexts⟩ := hc
  cases hcases with
  | ready hnot =>
      refine iff_of_true ⟨hrun, ?_⟩ trivial
      rw [Client.pending, (hs.notReady hnot).1] at htexts ⊢
      exact htexts
  | created ok sem hpc hsem =>
      refine iff_of_true ⟨hrun, ?_⟩ trivial
      have hcount := s.dataScSem.count_le
      have hagain : s.again = .waiting := by
        rw [Client.again, hs.starting hpc, if_pos (by decide)]
      rw [Client.pending, hpc] at htexts
      cases ok with
      | true =>
          rw [if_pos rfl, hagain]
          have hempty : sem.count = 0 := by omega
          rw [Client.pending, fresh_of_empty hempty]
          exact htexts
      | false => exact htexts
  | overran msg hup hlong =>
      refine iff_of_false (fun h => nomatch h.1) ?_
      intro h
      exact absurd h.1 (Nat.not_le.2 hlong)
  | received msg hup hfits => exact complete_received_iff hrun htexts hup hfits
  | woken sem hpc hsem =>
      refine iff_of_true ⟨hrun, ?_⟩ trivial
      have hcount := s.dataScSem.count_le
      have hempty : sem.count = 0 := by omega
      have hfresh : s.fresh = [s.rxScMsg.take s.len] := if_neg (by omega)
      rw [Client.pending, hpc, hfresh] at htexts
      rw [Client.pending, fresh_of_empty hempty]
      exact htexts
  | echoed len hpc =>
      rw [Client.pending, hpc, List.append_cons] at htexts
      rw [Client.Complete, and_iff_right hrun, pending_again, Client.Undisturbed]
      simp only [true_and]
      rw [htexts, List.append_right_inj]
      by_cases hmore : s.msgCnt < 100
      · simp [hmore]
      · simp [hmore, fresh_eq_nil]
  | refused e len hpc =>
      rw [Client.pending, hpc] at htexts
      refine iff_of_false ?_ (fun h => nomatch h.1)
      rintro ⟨-, hcomplete⟩
      rw [pending_again] at hcomplete
      have hlength := congrArg List.length (htexts.symm.trans hcomplete)
      simp only [List.length_append, List.length_cons] at hlength
      split at hlength
      · omega
      · simp at hlength
  | destroyed hpc =>
      refine iff_of_true ⟨hrun, ?_⟩ trivial
      rw [Client.pending, hpc] at htexts
      exact htexts

/-- **When every message is sent back.**  In every run there are no more replies than messages
and no more than a hundred.  At each moment of it every message is sent back as it came or
about to be, in order, and `rx_sc_msg` has not been overrun, if and only if each message
fits, finds the one before looked at and leaves the bytes under way as they are, rpmsg
takes every reply, and none is left behind the hundredth; an endpoint that is then gone
again has sent back all of them, a hundred unless it was never created. -/
theorem client_echoes_iff {as : List ClientAction}
    (hexec : clientMachine.exec .initial as = some t) :
    t.echoed.length ≤ t.arrived.length ∧ t.echoed.length ≤ 100 ∧
      (clientMachine.Throughout Client.Complete .initial as ↔
        clientMachine.Along Client.Undisturbed .initial as) ∧
      (clientMachine.Along Client.Undisturbed .initial as → t.pc = .ended →
        t.echoed = t.arrived ∧ (t.echoed = [] ∨ t.echoed.length = 100)) := by
  have ht := preserves_client_sound.exec sound_client_initial hexec
  have hreplies : t.echoed.length ≤ t.msgCnt := Nat.le_of_add_right_le ht.replies
  have hmessages : t.msgCnt ≤ t.arrived.length := Nat.le_of_add_right_le ht.messages
  have hiff : clientMachine.Throughout Client.Complete .initial as ↔
      clientMachine.Along Client.Undisturbed .initial as := by
    apply Machine.throughout_iff_along (I := fun s => s.Sound ∧ s.Complete)
    · exact fun _ h => h.2
    · intro s a t hs hok hstep
      exact ⟨preserves_client_sound hs.1 hstep, (client_complete_iff hs.1 hs.2 hstep).2 hok⟩
    · intro s a t hs hstep ht
      exact (client_complete_iff hs.1 hs.2 hstep).1 ht
    · exact ⟨sound_client_initial, complete_client_initial⟩
    · exact hexec
  refine ⟨Nat.le_trans hreplies hmessages, Nat.le_trans hreplies ht.limit, hiff, ?_⟩
  intro hundisturbed hpc
  have hcomplete := ((hiff.2 hundisturbed).finish hexec).2
  rw [Client.pending, hpc, List.append_nil] at hcomplete
  refine ⟨hcomplete.symm, ?_⟩
  rw [hcomplete] at hmessages
  rcases ht.ended hpc with hnone | hall
  · left
    apply List.eq_nil_of_length_eq_zero
    omega
  · right
    omega

/-- A message that arrives inside `rpmsg_send` changes the reply under way: `ab` goes back as
`bb`. -/
theorem client_echoes_iff_torn :
    ∃ s, clientMachine.exec .initial [.ready, .create true, .recv [0x61#8, 0x62#8], .wake,
        .recv [0x62#8], .sent .ok, .wake, .sent .ok] = some s ∧
      s.echoed = [[0x62#8, 0x62#8], [0x62#8]] ∧ s.echoed.length ≤ s.arrived.length ∧
      ¬ clientMachine.Throughout Client.Complete .initial [.ready, .create true,
        .recv [0x61#8, 0x62#8], .wake, .recv [0x62#8], .sent .ok, .wake, .sent .ok] := by
  have hrun : (clientMachine.exec .initial [.ready, .create true, .recv [0x61#8, 0x62#8], .wake,
      .recv [0x62#8], .sent .ok, .wake, .sent .ok]).map Client.echoed =
        some [[0x62#8, 0x62#8], [0x62#8]] := by decide +kernel
  obtain ⟨s, hexec, hechoed⟩ := Option.map_eq_some_iff.1 hrun
  obtain ⟨hle, -, hiff, -⟩ := client_echoes_iff hexec
  refine ⟨s, hexec, hechoed, hle, ?_⟩
  intro hall
  exact absurd (hiff.1 hall) (by decide +kernel)

end DataLogger.RpmsgEcho
