/-
The authentication gate of the server: EAP-Success only after a complete handshake.

The events of a session are its history. `Coupled` ties the round, the mode, the
context and the outgoing fragments of a session to that history; `modProcess` keeps
it, whatever the response, and every EAP-Success it sets is then justified by what
the history says.
-/

import EdhocAuth.Eap.Reassembly

namespace EdhocAuth.Eap

open Proc

/-! ### Outgoing fragments -/

def Session.pending (s : Session) : List UInt8 := (s.out.drop s.outPos).take (s.outLen - s.outPos)

/-- The octets of messages that went out with these events. -/
def sentPayload (events : List Event) : List UInt8 :=
  events.flatMap fun
    | .reply (.request wire) => wirePayload wire
    | _ => []

@[simp] theorem sentPayload_append (a b : List Event) :
    sentPayload (a ++ b) = sentPayload a ++ sentPayload b := List.flatMap_append

@[simp] theorem sentPayload_nil : sentPayload [] = [] := rfl

@[simp] theorem sentPayload_received (msg : List UInt8) (events : List Event) :
    sentPayload (.received msg :: events) = sentPayload events := rfl

@[simp] theorem sentPayload_request (wire : List UInt8) (events : List Event) :
    sentPayload (.reply (.request wire) :: events) = wirePayload wire ++ sentPayload events := rfl

/-- The parts of a session that sending and receiving fragments leave alone. -/
def Session.core (s : Session) : Edhoc4.Ctx UInt8 × Edhoc03.Ctx UInt8 × Mode × Round :=
  (s.ctx, s.ctx03, s.mode, s.round)

theorem Session.core_eq {s t : Session} : s.core = t.core ↔
    s.ctx = t.ctx ∧ s.ctx03 = t.ctx03 ∧ s.mode = t.mode ∧ s.round = t.round := by
  simp [Session.core]

section Fragments

variable {s s' : Session} {wire buf : List UInt8}

/-- With nothing to send, nothing is pending. -/
theorem pending_of_idle (idle : ¬ s.outPos < s.outLen) : s.pending = [] := by
  have none : s.outLen - s.outPos = 0 := by omega
  rw [Session.pending, none, List.take_zero]

/-- A fragment takes its octets from what was still to be sent. -/
theorem edhocSendFragment_eq_ok (ok : edhocSendFragment s = (.ok wire, s')) :
    wirePayload wire ++ s'.pending = s.pending ∧ s'.core = s.core := by
  simp only [edhocSendFragment, bind_eq_ok, load_eq_ok, require_eq_ok, store_eq_ok, pure_eq_ok,
    and_assoc, exists_and_left, exists_eq_left, exists_const] at ok
  obtain ⟨-, rfl, rfl⟩ := ok
  rw [wirePayload_fragWire]
  have bound := fragLen_le s.outPos (s.outLen - s.outPos)
  generalize fragLen s.outPos (s.outLen - s.outPos) = len at bound ⊢
  split
  · next last =>
    have whole : len = s.outLen - s.outPos := by omega
    refine ⟨?_, rfl⟩
    simp [Session.pending, whole]
  · next more =>
    have rest : s.outLen - s.outPos = len + (s.outLen - (s.outPos + len)) := by omega
    refine ⟨?_, rfl⟩
    simp only [Session.pending]
    rw [rest, List.take_add, List.drop_drop]

/-- While something is pending, a fragment can be sent. -/
theorem edhocSendFragment_ok (more : s.outPos < s.outLen) :
    ∃ wire s', edhocSendFragment s = (.ok wire, s') := by
  have left : s.outLen - s.outPos ≠ 0 := by omega
  simp only [edhocSendFragment, bind_eq_ok, load_eq_ok, require_eq_ok, store_eq_ok, pure_eq_ok,
    and_assoc, exists_and_left, exists_eq_left, exists_const]
  exact ⟨left, _, rfl⟩

/-- A queued message is what the first fragment carries and what is pending. -/
theorem edhocQueueOutgoing_eq_ok (idle : s.pending = [])
    (ok : edhocQueueOutgoing buf s = (.ok wire, s')) :
    wirePayload wire ++ s'.pending = buf ∧ s'.core = s.core := by
  rw [edhocQueueOutgoing] at ok
  split at ok
  · next empty =>
    obtain ⟨rfl, rfl⟩ := pure_eq_ok.mp ok
    have nil : buf = [] := List.length_eq_zero_iff.mp empty
    exact ⟨by rw [nil, idle]; rfl, rfl⟩
  · split at ok
    · obtain ⟨rfl, rfl⟩ := pure_eq_ok.mp ok
      exact ⟨by rw [idle, List.append_nil]; rfl, rfl⟩
    · simp only [bind_eq_ok, require_eq_ok, store_eq_ok, and_assoc, exists_and_left,
        exists_eq_left, exists_const] at ok
      obtain ⟨sent, core⟩ := edhocSendFragment_eq_ok ok.2
      refine ⟨sent.trans ?_, core⟩
      simp [Session.pending, memcpyAt]

/-- A message that is refused leaves no trace. -/
theorem edhocQueueOutgoing_error {e : Unit} (error : edhocQueueOutgoing buf s = (.error e, s')) :
    s' = s := by
  rw [edhocQueueOutgoing] at error
  split at error
  · cases error
  · split at error
    · cases error
    · next empty short =>
      by_cases fits : buf.length ≤ Edhoc4.maxMsg
      · obtain ⟨wire, t, sent⟩ := edhocSendFragment_ok
          (s := { s with out := memcpyAt s.out 0 buf, outLen := buf.length, outPos := 0 })
          (Nat.pos_of_ne_zero empty)
        have ok : edhocQueueOutgoing buf s = (.ok wire, t) := by
          rw [edhocQueueOutgoing, if_neg empty, if_neg short]
          simp only [bind_eq_ok, require_eq_ok, store_eq_ok, and_assoc, exists_and_left,
            exists_eq_left, exists_const]
          exact ⟨fits, sent⟩
        rw [edhocQueueOutgoing, if_neg empty, if_neg short, error] at ok
        cases ok
      · rw [bind_error (by rw [require, if_neg fits])] at error
        exact (Prod.mk.inj error).2.symm

/-- Reassembly touches the incoming buffer only. -/
theorem edhocConsumeIncoming_keeps (inp : List UInt8) :
    Keeps (fun s => (s.core, s.pending)) (edhocConsumeIncoming inp) :=
  (edhocConsumeIncoming_acts inp).keeps fun _ _ => rfl

end Fragments

/-! ### What a call does -/

/-- A call either moves a fragment, and then keeps the rest of the session and sets no
success, or processes a whole message while nothing is to be sent. -/
theorem modProcess_cases (P : Primitives UInt8) (inst : Instance) (r : Response) (s : Session) :
    (∃ t reply, modProcess P inst r s = (t, [.reply reply]) ∧ t.core = s.core ∧
      (∀ recvKey sendKey, reply ≠ .success recvKey sendKey) ∧
      sentPayload [.reply reply] ++ t.pending = s.pending) ∨
    (∃ msg t, modProcess P inst r s = ((processMessage P inst r.coins msg t).1,
        .received msg :: (processMessage P inst r.coins msg t).2) ∧
      t.core = s.core ∧ t.pending = [] ∧ s.pending = []) := by
  by_cases more : s.outPos < s.outLen
  · obtain ⟨wire, t, sending⟩ := edhocSendFragment_ok more
    obtain ⟨sent, core⟩ := edhocSendFragment_eq_ok sending
    have moved : modProcess P inst r s = (t, [.reply (.request wire)]) := by
      rw [modProcess, if_pos more, sending]
    exact .inl ⟨t, _, moved, core, fun _ _ => Reply.noConfusion, by simpa using sent⟩
  · have kept := edhocConsumeIncoming_keeps r.data s
    rw [modProcess, if_neg more]
    generalize edhocConsumeIncoming r.data s = out at kept ⊢
    obtain ⟨got, t⟩ := out
    obtain ⟨core, pending⟩ := Prod.mk.inj kept
    rcases got with e | ⟨_ | msg⟩
    · exact .inl ⟨t, _, rfl, core, fun _ _ => Reply.noConfusion, pending⟩
    · exact .inl ⟨t, _, rfl, core, fun _ _ => Reply.noConfusion, pending⟩
    · exact .inr ⟨msg, t, rfl, core, pending.trans (pending_of_idle more), pending_of_idle more⟩

/-! ### Justified successes -/

/-- The history ends, up to `after`, with `r_handle_msg3` of `mode` returning OK, after
`r_handle_msg1` of the same mode returned OK, each on a message just reassembled. -/
def Completed (mode : Mode) (m4 : List UInt8) (msk : Block UInt8 64) (history after : List Event) :
    Prop :=
  ∃ (before between : List Event) (m1 m2 m3 : List UInt8),
    history = before ++ .received m1 :: .msg1 mode m1 m2 ::
      (between ++ .received m3 :: .msg3 mode m3 m4 msk :: after)

/-- What has to lie before an EAP-Success with these keys. -/
structure Justified (history : List Event) (recvKey sendKey : List UInt8) : Prop where
  completed : ∃ mode m4 msk after, Completed mode m4 msk history after ∧
    recvKey = msk.toList.take 32 ∧ sendKey = (msk.toList.drop 32).take 32 ∧
    ((mode = .classical ∧ after = []) ∨
      (mode = .pqc ∧ sentPayload after = m4 ∧ ∃ sending, after = sending ++ [.received []]))

/-- Every EAP-Success in a history is justified by what lies before it. -/
def Gated (history : List Event) : Prop :=
  ∀ before recvKey sendKey after,
    history = before ++ .reply (.success recvKey sendKey) :: after →
      Justified before recvKey sendKey

/-- A completed handshake stays completed. -/
theorem Completed.append {mode : Mode} {m4 : List UInt8} {msk : Block UInt8 64}
    {history after : List Event} (h : Completed mode m4 msk history after) (events : List Event) :
    Completed mode m4 msk (history ++ events) (after ++ events) := by
  obtain ⟨before, between, m1, m2, m3, rfl⟩ := h
  exact ⟨before, between, m1, m2, m3, by simp⟩

/-- The gate is kept if every new success is justified. -/
theorem Gated.append {history events : List Event} (old : Gated history)
    (new : ∀ before recvKey sendKey after,
      events = before ++ .reply (.success recvKey sendKey) :: after →
        Justified (history ++ before) recvKey sendKey) : Gated (history ++ events) := by
  intro before recvKey sendKey after split
  rcases List.append_eq_append_iff.mp split with ⟨l, rfl, h⟩ | ⟨l, rfl, h⟩
  · exact new l recvKey sendKey after h
  · cases l with
    | nil =>
      have start := new [] recvKey sendKey after (by simpa using h.symm)
      simpa using start
    | cons e l =>
      obtain ⟨rfl, rfl⟩ := List.cons.inj h
      exact old before recvKey sendKey l rfl

/-- Events among which there is no EAP-Success. -/
def Silent (events : List Event) : Prop :=
  ∀ recvKey sendKey, .reply (.success recvKey sendKey) ∉ events

/-- Events without a success keep the gate. -/
theorem Gated.append_silent {history events : List Event} (old : Gated history)
    (silent : Silent events) : Gated (history ++ events) := by
  refine old.append fun before recvKey sendKey after split => ?_
  have mem : .reply (.success recvKey sendKey) ∈ events := by
    rw [split]
    exact List.mem_append_right _ List.mem_cons_self
  exact (silent _ _ mem).elim

/-- A success that is justified keeps the gate. -/
theorem Gated.append_success {history : List Event} {recvKey sendKey : List UInt8}
    (old : Gated history) (events : List Event) (silent : Silent events)
    (justified : Justified (history ++ events) recvKey sendKey) :
    Gated (history ++ (events ++ [.reply (.success recvKey sendKey)])) := by
  rw [← List.append_assoc]
  refine (old.append_silent silent).append fun before recvKey' sendKey' after split => ?_
  cases before with
  | nil =>
    obtain ⟨same, -⟩ := List.cons.inj split
    obtain ⟨rfl, rfl⟩ := Reply.success.inj (Event.reply.inj same)
    simpa using justified
  | cons e before =>
    have short := congrArg List.length split
    simp at short

/-! ### The invariant -/

/-- How far a session has come, in terms of its history. -/
def Coupled (s : Session) (history : List Event) : Prop :=
  match s.round with
  | .startSent => True
  | .msg2Sent => s.mode ≠ .undetermined ∧ ∃ before m1 m2 after,
      history = before ++ .received m1 :: .msg1 s.mode m1 m2 :: after
  | .msg4Sent => ∃ m4 after, Completed .pqc m4 s.ctx.msk history after ∧
      sentPayload after ++ s.pending = m4

/-- The invariant of a session with its history. -/
structure Tracked (s : Session) (history : List Event) : Prop where
  coupled : Coupled s history
  gated : Gated history

section Step

variable {s s' : Session} {history events : List Event}

/-- A call that sends some of what is pending and keeps the rest of the session. -/
theorem Coupled.extend (old : Coupled s history) (events : List Event) (core : s'.core = s.core)
    (sent : sentPayload events ++ s'.pending = s.pending) : Coupled s' (history ++ events) := by
  obtain ⟨ctx, -, mode, round⟩ := Session.core_eq.mp core
  unfold Coupled at old ⊢
  rw [round, mode, ctx]
  cases h : s.round with
  | startSent => trivial
  | msg2Sent =>
    rw [h] at old
    obtain ⟨decided, before, m1, m2, after, rfl⟩ := old
    exact ⟨decided, before, m1, m2, after ++ events, by simp⟩
  | msg4Sent =>
    rw [h] at old
    obtain ⟨m4, after, completed, all⟩ := old
    refine ⟨m4, after ++ events, completed.append events, ?_⟩
    rw [sentPayload_append, List.append_assoc, sent, all]

/-- Queueing a message either starts the next round or leaves the session alone. -/
theorem sendAndAdvance_cases (round : Round) (out : List UInt8) (idle : s.pending = []) :
    (∃ wire t, sendAndAdvance round out s = (t, [.reply (.request wire)]) ∧
      wirePayload wire ++ t.pending = out ∧ t.ctx = s.ctx ∧ t.mode = s.mode ∧ t.round = round) ∨
    sendAndAdvance round out s = (s, [.reply .dropped]) := by
  rw [sendAndAdvance]
  split
  · next wire t queued =>
    obtain ⟨sent, core⟩ := edhocQueueOutgoing_eq_ok idle queued
    obtain ⟨ctx, -, mode, -⟩ := Session.core_eq.mp core
    exact .inl ⟨wire, _, rfl, sent, ctx, mode, rfl⟩
  · next e t refused =>
    rw [edhocQueueOutgoing_error refused]
    exact .inr rfl

theorem Coupled.startSent (round : s.round = .startSent) (history : List Event) :
    Coupled s history := by
  unfold Coupled
  rw [round]
  trivial

/-- After message_2 the history holds message_1 and its answer. -/
theorem Coupled.msg2Sent {before after : List Event} {m1 m2 : List UInt8}
    (round : s.round = .msg2Sent) (decided : s.mode ≠ .undetermined)
    (split : history = before ++ .received m1 :: .msg1 s.mode m1 m2 :: after)
    (events : List Event) : Coupled s (history ++ events) := by
  unfold Coupled
  rw [round]
  exact ⟨decided, before, m1, m2, after ++ events, by rw [split]; simp⟩

/-- While message_4 is sent the history holds message_1, and what is sent makes up message_4. -/
theorem Coupled.msg4Sent {before after : List Event} {m1 m2 m4 wire : List UInt8}
    (m3 : List UInt8) (round : s.round = .msg4Sent)
    (split : history = before ++ .received m1 :: .msg1 .pqc m1 m2 :: after)
    (sent : wirePayload wire ++ s.pending = m4) :
    Coupled s (history ++ [.received m3, .msg3 .pqc m3 m4 s.ctx.msk, .reply (.request wire)]) := by
  unfold Coupled
  rw [round]
  refine ⟨m4, [.reply (.request wire)], ⟨before, after, m1, m2, m3, by rw [split]; simp⟩, ?_⟩
  simpa using sent

variable {P : Primitives UInt8} {inst : Instance} {coins : Coins} {msg : List UInt8}

/-- The first message decides the mode. -/
theorem decideMode_ne (mode : Mode) (msg : List UInt8) : decideMode mode msg ≠ .undetermined := by
  unfold decideMode
  split
  · split <;> simp
  · assumption

/-- A failed start leaves the session where it may start again. -/
theorem Tracked.start_failed (old : Tracked s history) (round : s'.round = .startSent) :
    Tracked s' (history ++ [.received msg, .reply .failure]) :=
  ⟨.startSent round _, old.gated.append_silent (by simp [Silent])⟩

/-- `r_handle_msg1` of the session's mode returned OK. -/
theorem Tracked.start_answered (old : Tracked s history) (s' : Session)
    (round : s'.round = .startSent) (decided : s'.mode ≠ .undetermined) (idle : s'.pending = [])
    (msg m2 : List UInt8) :
    Tracked (sendAndAdvance .msg2Sent m2 s').1 (history ++ .received msg ::
      .msg1 s'.mode msg m2 :: (sendAndAdvance .msg2Sent m2 s').2) := by
  rcases sendAndAdvance_cases .msg2Sent m2 idle with ⟨wire, t, sent, -, -, mode, next⟩ | sent
  · rw [sent]
    refine ⟨?_, old.gated.append_silent (by simp [Silent])⟩
    have here : history ++ [.received msg, .msg1 s'.mode msg m2] =
        history ++ .received msg :: .msg1 t.mode msg m2 :: [] := by rw [mode]
    have coupled := Coupled.msg2Sent next (by rwa [mode]) here [.reply (.request wire)]
    simpa using coupled
  · rw [sent]
    exact ⟨.startSent round _, old.gated.append_silent (by simp [Silent])⟩

/-- Round 0 sets no success, and ends only with `r_handle_msg1` returning OK. -/
theorem processMsg1_tracked (old : Tracked s history) (round : s.round = .startSent)
    (idle : s.pending = []) (inst : Instance) (coins : Coins) (msg : List UInt8) :
    Tracked (processMsg1 P inst coins msg s).1
      (history ++ .received msg :: (processMsg1 P inst coins msg s).2) := by
  have decided := decideMode_ne s.mode msg
  unfold processMsg1
  dsimp only
  split
  · next classical =>
    split
    · split
      · next m2 c _ =>
        have answered := old.start_answered
          { s with mode := decideMode s.mode msg, ctx03 := c } round decided idle msg m2
        simpa only [classical] using answered
      · exact old.start_failed round
    · exact old.start_failed round
  · next classical =>
    have pqc : decideMode s.mode msg = .pqc := by
      cases h : decideMode s.mode msg <;> simp_all
    split
    · next m2 c _ =>
      have answered := old.start_answered
        { s with mode := decideMode s.mode msg, ctx := c } round decided idle msg m2
      simpa only [pqc] using answered
    · exact old.start_failed round

/-- Round 1 sets a success only in the classical mode, right after `r_handle_msg3`
returned OK. -/
theorem processMsg3_tracked (old : Tracked s history) (round : s.round = .msg2Sent)
    (idle : s.pending = []) (coins : Coins) (msg : List UInt8) :
    Tracked (processMsg3 P coins msg s).1
      (history ++ .received msg :: (processMsg3 P coins msg s).2) := by
  obtain ⟨decided, before, m1, m2, after, split⟩ : s.mode ≠ .undetermined ∧ ∃ before m1 m2 after,
      history = before ++ .received m1 :: .msg1 s.mode m1 m2 :: after := by
    have coupled := old.coupled
    unfold Coupled at coupled
    rwa [round] at coupled
  -- what stays in round 1 stays coupled
  have stays {t : Session} (events : List Event) (mode : t.mode = s.mode)
      (here : t.round = .msg2Sent) : Coupled t (history ++ events) :=
    .msg2Sent here (by rwa [mode]) (by rw [mode]; exact split) events
  unfold processMsg3
  split
  · next classical =>
    split
    · next m4 c _ =>
      split
      · rw [classical] at split
        refine ⟨stays _ rfl round, old.gated.append_success
          [.received msg, .msg3 .classical msg m4 c.msk] (by simp [Silent]) ?_⟩
        exact ⟨.classical, m4, c.msk, [], ⟨before, after, m1, m2, msg, by rw [split]; simp⟩,
          rfl, rfl, .inl ⟨rfl, rfl⟩⟩
      · exact ⟨stays _ rfl round, old.gated.append_silent (by simp [Silent])⟩
    · exact ⟨stays _ rfl round, old.gated.append_silent (by simp [Silent])⟩
  · next classical =>
    have pqc : s.mode = .pqc := by
      cases h : s.mode <;> simp_all
    split
    · next m4 c _ =>
      dsimp only
      rcases sendAndAdvance_cases .msg4Sent m4 (s := { s with ctx := c }) idle with
        ⟨wire, t, sent, whole, ctx, -, next⟩ | sent
      · rw [sent]
        refine ⟨?_, old.gated.append_silent (by simp [Silent])⟩
        rw [pqc] at split
        have coupled := Coupled.msg4Sent msg next split whole
        rwa [ctx] at coupled
      · rw [sent]
        exact ⟨stays _ rfl round, old.gated.append_silent (by simp [Silent])⟩
    · exact ⟨stays _ rfl round, old.gated.append_silent (by simp [Silent])⟩

/-- Round 2 sets a success only on an empty message, when all of message_4 is out. -/
theorem processAck_tracked (old : Tracked s history) (round : s.round = .msg4Sent)
    (idle : s.pending = []) (msg : List UInt8) :
    Tracked (processAck msg s).1 (history ++ .received msg :: (processAck msg s).2) := by
  have coupled (events : List Event) (nothing : sentPayload events = []) :
      Coupled s (history ++ events) := old.coupled.extend events rfl (by rw [nothing]; rfl)
  unfold processAck
  split
  · exact ⟨coupled _ rfl, old.gated.append_silent (by simp [Silent])⟩
  · next empty =>
    obtain rfl : msg = [] := List.length_eq_zero_iff.mp (not_not.mp empty)
    split
    · obtain ⟨m4, after, completed, all⟩ : ∃ m4 after, Completed .pqc m4 s.ctx.msk history after ∧
          sentPayload after ++ s.pending = m4 := by
        have here := old.coupled
        unfold Coupled at here
        rwa [round] at here
      rw [idle, List.append_nil] at all
      refine ⟨coupled _ rfl, old.gated.append_success [.received []] (by simp [Silent]) ?_⟩
      exact ⟨.pqc, m4, s.ctx.msk, after ++ [.received []], completed.append _, rfl, rfl,
        .inr ⟨rfl, by simpa using all, after, rfl⟩⟩
    · exact ⟨coupled _ rfl, old.gated.append_silent (by simp [Silent])⟩

/-- One call of `mod_process` keeps the invariant, whatever the response. -/
theorem modProcess_tracked (old : Tracked s history) (inst : Instance) (r : Response) :
    Tracked (modProcess P inst r s).1 (history ++ (modProcess P inst r s).2) := by
  rcases modProcess_cases P inst r s with
    ⟨t, reply, moved, core, quiet, sent⟩ | ⟨msg, t, processed, core, idle, none⟩
  · rw [moved]
    refine ⟨old.coupled.extend _ core sent, old.gated.append_silent fun recvKey sendKey mem => ?_⟩
    exact quiet recvKey sendKey (Event.reply.inj (List.mem_singleton.mp mem)).symm
  · rw [processed]
    have here : Tracked t history := by
      have coupled : Coupled t (history ++ []) :=
        old.coupled.extend [] core (by rw [idle, none]; rfl)
      rw [List.append_nil] at coupled
      exact ⟨coupled, old.gated⟩
    unfold processMessage
    cases round : t.round with
    | startSent => exact processMsg1_tracked here round idle inst r.coins msg
    | msg2Sent => exact processMsg3_tracked here round idle r.coins msg
    | msg4Sent => exact processAck_tracked here round idle msg

end Step

/-- Whole sessions keep the invariant. -/
theorem modStep_foldl_tracked {P : Primitives UInt8} (inst : Instance) (responses : List Response)
    (st : Session × List Event) (tracked : Tracked st.1 st.2) :
    Tracked (responses.foldl (modStep P inst) st).1 (responses.foldl (modStep P inst) st).2 := by
  induction responses generalizing st with
  | nil => exact tracked
  | cons r responses ih => exact ih _ (modProcess_tracked tracked inst r)

/-- The history of every session, on every sequence of responses, is gated: an EAP-Success
comes only after `r_handle_msg1` and then `r_handle_msg3` of one mode returned OK, with
the halves of the resulting MSK as keys; in mode 4 all of message_4 has been sent and the
response was an empty message. -/
theorem modRun_gated (P : Primitives UInt8) (inst : Instance) (responses : List Response) :
    Gated (modRun P inst responses).2 := by
  have start : Tracked modSessionInit [] :=
    ⟨.startSent rfl _, fun before _ _ _ split => by cases before <;> cases split⟩
  exact (modStep_foldl_tracked inst responses (modSessionInit, []) start).gated

end EdhocAuth.Eap
