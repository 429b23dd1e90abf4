/-
One EAP-EDHOC request at the UE, case by case, and the states a `NasSm` can be in.

`UeStep` lists what a request can do to a provisioned UE: the branches of
`receivePduSessionAuthenticationCommand` with their guards, their answers and what they
leave behind. `receiveEdhoc_step` shows that there are no others. A run is any sequence
of PDU Session Authentication Commands and Results; what is said about every state of
every run is derived from the cases (`Ue.Wf`).
-/

import EdhocAuth.Eap.Lockstep

namespace EdhocAuth.Eap

open Proc

/-! ### What a request does -/

/-- What a request with type data `data` does to a provisioned UE. -/
inductive UeStep (P : Primitives UInt8) (coins : UeCoins) (data : List UInt8) (u : Ue) :
    Except SmCause (List UInt8) → Ue → Prop where
  /-- A message is going out: the next fragment, whatever the request says. -/
  | sends (left : u.outPos < u.outLen) :
      UeStep P coins data u (.ok (encodeEdhocFragment u.out u.outLen u.outPos).1)
        { u with outPos := (encodeEdhocFragment u.out u.outLen u.outPos).2 }
  | refused (silent : ¬ u.outPos < u.outLen) (round : u.round = .idle) (other : data ≠ [0x01]) :
      UeStep P coins data u (.error .invalidMandatoryInformation) u
  | started (silent : ¬ u.outPos < u.outLen) (round : u.round = .idle) (start : data = [0x01])
      {m1 : List UInt8} {c : Edhoc4.Ctx UInt8}
      (made : Edhoc4.iMakeMsg1 P coins.msg1 Edhoc4.maxMsg
        (Edhoc4.initInitiator u.creds u.peerPub) = (.ok m1, c)) :
      UeStep P coins data u (.ok (frag m1 0)) ({ u with ctx := c }.queued .msg1Sent m1)
  | notStarted (silent : ¬ u.outPos < u.outLen) (round : u.round = .idle) (start : data = [0x01])
      {e : Edhoc4.Err} {c : Edhoc4.Ctx UInt8}
      (failed : Edhoc4.iMakeMsg1 P coins.msg1 Edhoc4.maxMsg
        (Edhoc4.initInitiator u.creds u.peerPub) = (.error e, c)) :
      UeStep P coins data u (.error .insufficientResources) { u with ctx := c }.reset
  /-- `ParseEdhocWire` fails: what it has written stays. -/
  | rejected (silent : ¬ u.outPos < u.outLen) (later : u.round ≠ .idle) {e : Edhoc4.Err} {r : Rx}
      (parsed : Rx.accept data (Ue.rxPart.get u) = (.error e, r)) :
      UeStep P coins data u (.error .invalidMandatoryInformation) (Ue.rxPart.set r u)
  | part (silent : ¬ u.outPos < u.outLen) (later : u.round ≠ .idle) {r : Rx}
      (parsed : Rx.accept data (Ue.rxPart.get u) = (.ok none, r)) :
      UeStep P coins data u (.ok [0x00]) (Ue.rxPart.set r u)
  | answered (silent : ¬ u.outPos < u.outLen) (round : u.round = .msg1Sent) {msg : List UInt8}
      {r : Rx} (parsed : Rx.accept data (Ue.rxPart.get u) = (.ok (some msg), r))
      {m3 : List UInt8} {c : Edhoc4.Ctx UInt8}
      (handled : Edhoc4.iHandleMsg2 P msg coins.msg3 Edhoc4.maxMsg u.ctx = (.ok m3, c)) :
      UeStep P coins data u (.ok (frag m3 0))
        ({ Ue.rxPart.set r u with ctx := c }.queued .msg3Sent m3)
  | notAnswered (silent : ¬ u.outPos < u.outLen) (round : u.round = .msg1Sent) {msg : List UInt8}
      {r : Rx} (parsed : Rx.accept data (Ue.rxPart.get u) = (.ok (some msg), r))
      {e : Edhoc4.Err} {c : Edhoc4.Ctx UInt8}
      (failed : Edhoc4.iHandleMsg2 P msg coins.msg3 Edhoc4.maxMsg u.ctx = (.error e, c)) :
      UeStep P coins data u (.error .insufficientResources)
        { Ue.rxPart.set r u with ctx := c }.reset
  | completed (silent : ¬ u.outPos < u.outLen) (round : u.round = .msg3Sent) {msg : List UInt8}
      {r : Rx} (parsed : Rx.accept data (Ue.rxPart.get u) = (.ok (some msg), r))
      {c : Edhoc4.Ctx UInt8} (handled : Edhoc4.iHandleMsg4 P msg u.ctx = (.ok (), c)) :
      UeStep P coins data u (.ok [0x00]) { Ue.rxPart.set r u with ctx := c, round := .complete }
  | notCompleted (silent : ¬ u.outPos < u.outLen) (round : u.round = .msg3Sent) {msg : List UInt8}
      {r : Rx} (parsed : Rx.accept data (Ue.rxPart.get u) = (.ok (some msg), r))
      {e : Edhoc4.Err} {c : Edhoc4.Ctx UInt8}
      (failed : Edhoc4.iHandleMsg4 P msg u.ctx = (.error e, c)) :
      UeStep P coins data u (.error .insufficientResources)
        { Ue.rxPart.set r u with ctx := c }.reset
  /-- After the handshake every message is acknowledged. -/
  | acknowledged (silent : ¬ u.outPos < u.outLen) (round : u.round = .complete)
      {msg : List UInt8} {r : Rx}
      (parsed : Rx.accept data (Ue.rxPart.get u) = (.ok (some msg), r)) :
      UeStep P coins data u (.ok [0x00]) (Ue.rxPart.set r u)

section Step

variable {P : Primitives UInt8} {files : UeFiles} {coins : UeCoins} {data : List UInt8} {u v : Ue}

/-- The end of the EAP-EDHOC branch: a cause, the reset, or the answer. -/
def settle : Except UeError (List UInt8) × Ue → Except SmCause (List UInt8) × Ue
  | (.ok wire, u) => (.ok wire, u)
  | (.error (.cause c), u) => (.error c, u)
  | (.error (.protocol _), u) => (.error .insufficientResources, u.reset)

/-- A provisioned UE gives its answer and settles. -/
theorem receiveEdhoc_eq_settle (provisioned : ensureEdhocProvisioned files u = (.ok (), v)) :
    receiveEdhoc P files coins data u = settle (answerEdhoc P coins data v) := by
  rw [receiveEdhoc, provisioned]
  rfl

/-- A failed call leaves what it has changed in the context. -/
theorem onCtx_error {α : Type} {x : Proc (Edhoc4.Ctx UInt8) Edhoc4.Err α} {e : Edhoc4.Err}
    {c : Edhoc4.Ctx UInt8} (failed : x u.ctx = (.error e, c)) :
    onCtx x u = (.error (.protocol e), { u with ctx := c }) := by
  rw [onCtx, failed]

theorem parseOrReport_ok {got : Option (List UInt8)} {r : Rx}
    (parsed : Rx.accept data (Ue.rxPart.get u) = (.ok got, r)) :
    parseOrReport data u = (.ok got, Ue.rxPart.set r u) := by
  rw [parseOrReport, (parseEdhocWire_acts data).ok parsed]

/-- A wire that is rejected is reported as invalid mandatory information. -/
theorem parseOrReport_error {e : Edhoc4.Err} {r : Rx}
    (parsed : Rx.accept data (Ue.rxPart.get u) = (.error e, r)) :
    parseOrReport data u = (.error (.cause .invalidMandatoryInformation), Ue.rxPart.set r u) := by
  have failed := parseEdhocWire_acts data u
  rw [parsed] at failed
  rw [parseOrReport, failed]
  rfl

theorem encodeEdhocFragment_ne_nil {payload : List UInt8} {payloadLen payloadPos : Nat}
    (inside : payloadPos ≤ payloadLen) :
    (encodeEdhocFragment payload payloadLen payloadPos).1.length ≠ 0 := by
  rw [encodeEdhocFragment, if_neg (not_lt.mpr inside)]
  exact Nat.succ_ne_zero _

/-- While octets are left, the UE sends its next fragment. -/
theorem nextFragment_sends (e : UeError) (left : u.outPos < u.outLen) :
    nextFragment e u = (.ok (encodeEdhocFragment u.out u.outLen u.outPos).1,
      { u with outPos := (encodeEdhocFragment u.out u.outLen u.outPos).2 }) :=
  bind_ok (require_ok (encodeEdhocFragment_ne_nil left.le))

/-! The branches of `answerEdhoc`, one guard after the other. -/

/-- While octets are left, any request is answered with the next fragment. -/
theorem answerEdhoc_sends (left : u.outPos < u.outLen) :
    answerEdhoc P coins data u = nextFragment (.cause .insufficientResources) u :=
  congrFun (if_pos left) u

/-- In the idle round a request is taken for a start. -/
theorem answerEdhoc_idle (silent : ¬ u.outPos < u.outLen) (round : u.round = .idle) :
    answerEdhoc P coins data u = answerStart P coins data u :=
  (congrFun (if_neg silent) u).trans (congrFun (if_pos round) u)

/-- In a later round a request is a wire of a message. -/
theorem answerEdhoc_later (silent : ¬ u.outPos < u.outLen) (later : u.round ≠ .idle) :
    answerEdhoc P coins data u = (parseOrReport data >>= fun msg =>
      msg.elim (pure [0x00]) (answerMessage P coins)) u := by
  refine (congrFun (if_neg silent) u).trans ((congrFun (if_neg later) u).trans ?_)
  rw [bind_apply, bind_apply]
  generalize parseOrReport data u = out
  obtain ⟨_ | (_ | msg), t⟩ := out <;> rfl

/-- A start request begins a handshake in a new context. -/
theorem answerStart_start (start : data = [0x01]) :
    answerStart P coins data u =
      (onCtx (Edhoc4.iMakeMsg1 P coins.msg1 Edhoc4.maxMsg) >>= queueMessage .msg1Sent)
        { u with ctx := Edhoc4.initInitiator u.creds u.peerPub } :=
  bind_ok (require_ok start)

/-- In round 1 a message is message_2. -/
theorem answerMessage_round1 {msg : List UInt8} (round : u.round = .msg1Sent) :
    answerMessage P coins msg u =
      (onCtx (Edhoc4.iHandleMsg2 P msg coins.msg3 Edhoc4.maxMsg) >>= queueMessage .msg3Sent) u :=
  congrFun (if_pos round) u

/-- In round 2 a message is message_4. -/
theorem answerMessage_round2 {msg : List UInt8} (round : u.round = .msg3Sent) :
    answerMessage P coins msg u = (onCtx (Edhoc4.iHandleMsg4 P msg) >>= fun _ =>
      store (fun u => { u with round := .complete }) >>= fun _ => pure [0x00]) u := by
  have other : u.round ≠ .msg1Sent := by
    rw [round]
    decide
  exact (congrFun (if_neg other) u).trans (congrFun (if_pos round) u)

/-- In round 3 a message is acknowledged and dropped. -/
theorem answerMessage_round3 {msg : List UInt8} (round : u.round = .complete) :
    answerMessage P coins msg u = (.ok [0x00], u) := by
  have other : u.round ≠ .msg1Sent ∧ u.round ≠ .msg3Sent := by
    rw [round]
    decide
  exact (congrFun (if_neg other.1) u).trans (congrFun (if_neg other.2) u)

def IsStep (P : Primitives UInt8) (coins : UeCoins) (data : List UInt8) (u : Ue)
    (out : Except SmCause (List UInt8) × Ue) : Prop :=
  UeStep P coins data u out.1 out.2

/-- A request in the idle round is one step. -/
theorem answerStart_step (silent : ¬ u.outPos < u.outLen) (round : u.round = .idle) :
    IsStep P coins data u (settle (answerStart P coins data u)) := by
  by_cases start : data = [0x01]
  · rw [answerStart_start start]
    cases made : Edhoc4.iMakeMsg1 P coins.msg1 Edhoc4.maxMsg
        (Edhoc4.initInitiator u.creds u.peerPub) with
    | mk out c =>
      cases out with
      | error e =>
        rw [bind_error (onCtx_error made)]
        exact .notStarted silent round start made
      | ok m1 =>
        rw [bind_ok (onCtx_ok made), queueMessage_eq]
        exact .started silent round start made
  · have refused : answerStart P coins data u =
        (.error (.cause .invalidMandatoryInformation), u) :=
      bind_error (require_error start)
    rw [refused]
    exact .refused silent round start

/-- A message that is complete is one step. -/
theorem answerMessage_step (silent : ¬ u.outPos < u.outLen) (later : u.round ≠ .idle)
    {msg : List UInt8} {r : Rx} (parsed : Rx.accept data (Ue.rxPart.get u) = (.ok (some msg), r)) :
    IsStep P coins data u (settle (answerMessage P coins msg (Ue.rxPart.set r u))) := by
  cases round : u.round with
  | idle => exact absurd round later
  | msg1Sent =>
    rw [answerMessage_round1 (u := Ue.rxPart.set r u) round]
    cases handled : Edhoc4.iHandleMsg2 P msg coins.msg3 Edhoc4.maxMsg u.ctx with
    | mk out c =>
      cases out with
      | error e =>
        rw [bind_error (onCtx_error (u := Ue.rxPart.set r u) handled)]
        exact .notAnswered silent round parsed handled
      | ok m3 =>
        rw [bind_ok (onCtx_ok (u := Ue.rxPart.set r u) handled), queueMessage_eq]
        exact .answered silent round parsed handled
  | msg3Sent =>
    rw [answerMessage_round2 (u := Ue.rxPart.set r u) round]
    cases handled : Edhoc4.iHandleMsg4 P msg u.ctx with
    | mk out c =>
      cases out with
      | error e =>
        rw [bind_error (onCtx_error (u := Ue.rxPart.set r u) handled)]
        exact .notCompleted silent round parsed handled
      | ok _ =>
        rw [bind_ok (onCtx_ok (u := Ue.rxPart.set r u) handled)]
        exact .completed silent round parsed handled
  | complete =>
    rw [answerMessage_round3 (u := Ue.rxPart.set r u) round]
    exact .acknowledged silent round parsed

/-- There are no other cases. -/
theorem answerEdhoc_step (P : Primitives UInt8) (coins : UeCoins) (data : List UInt8) (u : Ue) :
    IsStep P coins data u (settle (answerEdhoc P coins data u)) := by
  by_cases left : u.outPos < u.outLen
  · rw [answerEdhoc_sends left, nextFragment_sends _ left]
    exact .sends left
  · by_cases round : u.round = .idle
    · rw [answerEdhoc_idle left round]
      exact answerStart_step left round
    · rw [answerEdhoc_later left round]
      cases parsed : Rx.accept data (Ue.rxPart.get u) with
      | mk out r =>
        cases out with
        | error e =>
          rw [bind_error (parseOrReport_error parsed)]
          exact .rejected left round parsed
        | ok got =>
          rw [bind_ok (parseOrReport_ok parsed)]
          cases got with
          | none => exact .part left round parsed
          | some msg => exact answerMessage_step left round parsed

/-- The cases are told apart by their guards: each is what the handler does. -/
theorem UeStep.run {out : Except SmCause (List UInt8)} (step : UeStep P coins data u out v) :
    settle (answerEdhoc P coins data u) = (out, v) := by
  cases step with
  | sends left => rw [answerEdhoc_sends left, nextFragment_sends _ left, settle]
  | refused silent round other =>
    rw [answerEdhoc_idle silent round, answerStart, bind_error (require_error other), settle]
  | started silent round start made =>
    rw [answerEdhoc_idle silent round, answerStart_start start, bind_ok (onCtx_ok made),
      queueMessage_eq, settle]
  | notStarted silent round start failed =>
    rw [answerEdhoc_idle silent round, answerStart_start start, bind_error (onCtx_error failed),
      settle]
  | rejected silent later parsed =>
    rw [answerEdhoc_later silent later, bind_error (parseOrReport_error parsed), settle]
  | part silent later parsed =>
    rw [answerEdhoc_later silent later, bind_ok (parseOrReport_ok parsed)]
    rfl
  | @answered silent round msg r parsed m3 c handled =>
    have later : u.round ≠ .idle := by
      rw [round]
      decide
    rw [answerEdhoc_later silent later, bind_ok (parseOrReport_ok parsed), Option.elim_some,
      answerMessage_round1 (u := Ue.rxPart.set r u) round,
      bind_ok (onCtx_ok (u := Ue.rxPart.set r u) handled), queueMessage_eq, settle]
  | @notAnswered silent round msg r parsed e c failed =>
    have later : u.round ≠ .idle := by
      rw [round]
      decide
    rw [answerEdhoc_later silent later, bind_ok (parseOrReport_ok parsed), Option.elim_some,
      answerMessage_round1 (u := Ue.rxPart.set r u) round,
      bind_error (onCtx_error (u := Ue.rxPart.set r u) failed), settle]
  | @completed silent round msg r parsed c handled =>
    have later : u.round ≠ .idle := by
      rw [round]
      decide
    rw [answerEdhoc_later silent later, bind_ok (parseOrReport_ok parsed), Option.elim_some,
      answerMessage_round2 (u := Ue.rxPart.set r u) round,
      bind_ok (onCtx_ok (u := Ue.rxPart.set r u) handled)]
    rfl
  | @notCompleted silent round msg r parsed e c failed =>
    have later : u.round ≠ .idle := by
      rw [round]
      decide
    rw [answerEdhoc_later silent later, bind_ok (parseOrReport_ok parsed), Option.elim_some,
      answerMessage_round2 (u := Ue.rxPart.set r u) round,
      bind_error (onCtx_error (u := Ue.rxPart.set r u) failed), settle]
  | @acknowledged silent round msg r parsed =>
    have later : u.round ≠ .idle := by
      rw [round]
      decide
    rw [answerEdhoc_later silent later, bind_ok (parseOrReport_ok parsed), Option.elim_some,
      answerMessage_round3 (u := Ue.rxPart.set r u) round, settle]

end Step

/-! ### Provisioning -/

/-- The members of `NasSm` that provisioning does not write. -/
def Ue.session (u : Ue) : Edhoc4.Ctx UInt8 × UeRound × Rx × List UInt8 × Nat × Nat :=
  (u.ctx, u.round, Ue.rxPart.get u, u.out, u.outLen, u.outPos)

/-- Provisioning does not touch the session. -/
theorem ensureEdhocProvisioned_keeps_session (files : UeFiles) :
    Keeps Ue.session (ensureEdhocProvisioned files) := by
  refine .bind .load fun _ => .ite (.pure _) ?_
  exact .bind .demand fun _ => .bind (.store fun _ => rfl) fun _ =>
    .bind .demand fun _ => .store fun _ => rfl

/-- A request fails in provisioning, or it is one of the cases on the provisioned UE. -/
theorem receiveEdhoc_cases (P : Primitives UInt8) (files : UeFiles) (coins : UeCoins)
    (data : List UInt8) (u : Ue) :
    (∃ v, ensureEdhocProvisioned files u = (.error (), v) ∧
      receiveEdhoc P files coins data u = (.error .insufficientResources, v)) ∨
    (∃ v, ensureEdhocProvisioned files u = (.ok (), v) ∧
      IsStep P coins data v (receiveEdhoc P files coins data u)) := by
  cases provisioned : ensureEdhocProvisioned files u with
  | mk out v =>
    cases out with
    | error e => exact .inl ⟨v, rfl, by rw [receiveEdhoc, provisioned]⟩
    | ok _ =>
      refine .inr ⟨v, rfl, ?_⟩
      rw [receiveEdhoc_eq_settle provisioned]
      exact answerEdhoc_step P coins data v

/-! ### The states of a run -/

inductive NasInput where
  | command (coins : UeCoins) (cmd : Command)
  | result

/-- `NasSm::receivePduSessionAuthenticationResult` writes to the log. -/
def receivePduSessionAuthenticationResult (u : Ue) : Ue := u

def Ue.take (P : Primitives UInt8) (cfg : UeConfig) (u : Ue) : NasInput → Ue
  | .command coins cmd => (receivePduSessionAuthenticationCommand P cfg coins cmd u).2
  | .result => receivePduSessionAuthenticationResult u

def Ue.after (P : Primitives UInt8) (cfg : UeConfig) (inputs : List NasInput) : Ue :=
  inputs.foldl (Ue.take P cfg) nasSmInit

/-- What holds of the members in every run: in round -1 nothing is going out or coming in,
a message that is going out is in the buffer and has had its first fragment, and
reassembly stays inside the announced length. -/
structure Ue.Wf (u : Ue) : Prop where
  idle : u.round = .idle → u.outLen = 0 ∧ u.outPos = 0 ∧ (Ue.rxPart.get u).Idle
  out : u.outLen ≤ u.out.length
  sending : u.outPos < u.outLen → 0 < u.outPos
  rx : (Ue.rxPart.get u).Wf

section Runs

variable {P : Primitives UInt8} {files : UeFiles} {cfg : UeConfig} {coins : UeCoins}
  {data : List UInt8} {u v : Ue}

theorem nasSmInit_wf : nasSmInit.Wf :=
  ⟨fun _ => ⟨rfl, rfl, rfl, rfl⟩, Nat.zero_le _, fun left => absurd left (lt_irrefl 0), le_refl 0,
    Nat.zero_le _, List.length_replicate⟩

theorem Ue.Wf.of_session (here : u.Wf) (same : v.session = u.session) : v.Wf := by
  simp only [Ue.session, Prod.mk.injEq] at same
  obtain ⟨-, round, rx, out, outLen, outPos⟩ := same
  refine ⟨fun idle => ?_, ?_, fun left => ?_, ?_⟩
  · rw [rx, outLen, outPos]
    exact here.idle (round.symm.trans idle)
  · rw [out, outLen]
    exact here.out
  · rw [outLen, outPos] at left
    rw [outPos]
    exact here.sending left
  · rw [rx]
    exact here.rx

theorem Ue.reset_wf (rx : (Ue.rxPart.get u).Wf) : u.reset.Wf :=
  ⟨fun _ => ⟨rfl, rfl, rfl, rfl⟩, Nat.zero_le _, fun left => absurd left (lt_irrefl 0), le_refl 0,
    Nat.zero_le _, rx.buf⟩

theorem Ue.queued_wf {round : UeRound} {msg : List UInt8} (later : round ≠ .idle)
    (rx : (Ue.rxPart.get u).Wf) : (u.queued round msg).Wf := by
  refine ⟨fun idle => absurd idle later, ?_, fun left => ?_, rx⟩
  · show msg.length ≤ (memcpyAt u.out 0 msg).length
    rw [memcpyAt, List.length_append, List.length_append]
    omega
  have some_left : 0 < msg.length := Nat.lt_of_le_of_lt (Nat.zero_le _) left
  show 0 < 0 + pieceLen msg 0
  have first := pieceLen_pos some_left
  omega

/-- No wire brings the receiver beyond its buffer. -/
theorem Ue.Wf.received (here : u.Wf) {out : Except Edhoc4.Err (Option (List UInt8))} {r : Rx}
    (parsed : Rx.accept data (Ue.rxPart.get u) = (out, r)) : r.Wf := by
  have step := Rx.accept_step data (Ue.rxPart.get u)
  rw [parsed] at step
  exact Rx.Step.wf step here.rx

/-- Every case keeps the members in order. -/
theorem UeStep.wf {out : Except SmCause (List UInt8)} (step : UeStep P coins data u out v)
    (here : u.Wf) : v.Wf := by
  cases step with
  | sends left =>
    have moved : 0 < (encodeEdhocFragment u.out u.outLen u.outPos).2 := by
      rw [encodeEdhocFragment, if_neg (by omega)]
      exact Nat.add_pos_left (here.sending left) _
    refine ⟨fun round => ?_, here.out, fun _ => moved, here.rx⟩
    obtain ⟨none_left, -⟩ := here.idle round
    omega
  | refused _ _ _ => exact here
  | started _ _ _ _ => exact Ue.queued_wf UeRound.noConfusion here.rx
  | notStarted _ _ _ _ => exact Ue.reset_wf here.rx
  | rejected _ later parsed =>
    exact ⟨fun round => absurd round later, here.out, here.sending, here.received parsed⟩
  | part _ later parsed =>
    exact ⟨fun round => absurd round later, here.out, here.sending, here.received parsed⟩
  | answered _ _ parsed _ => exact Ue.queued_wf UeRound.noConfusion (here.received parsed)
  | notAnswered _ _ parsed _ => exact Ue.reset_wf (here.received parsed)
  | completed _ _ parsed _ =>
    exact ⟨UeRound.noConfusion, here.out, here.sending, here.received parsed⟩
  | notCompleted _ _ parsed _ => exact Ue.reset_wf (here.received parsed)
  | acknowledged _ complete parsed =>
    exact ⟨fun round => UeRound.noConfusion (complete.symm.trans round), here.out, here.sending,
      here.received parsed⟩

/-- No request brings the UE beyond its buffers. -/
theorem receiveEdhoc_wf (here : u.Wf) : (receiveEdhoc P files coins data u).2.Wf := by
  have session := ensureEdhocProvisioned_keeps_session files u
  obtain ⟨v, provisioned, failed⟩ | ⟨v, provisioned, step⟩ :=
    receiveEdhoc_cases P files coins data u
  · rw [provisioned] at session
    rw [failed]
    exact here.of_session session
  · rw [provisioned] at session
    exact step.wf (here.of_session session)

/-- The handler changes the members only in its EAP-EDHOC branch. -/
theorem command_state (P : Primitives UInt8) (cfg : UeConfig) (coins : UeCoins) (cmd : Command)
    (u : Ue) :
    (receivePduSessionAuthenticationCommand P cfg coins cmd u).2 = u ∨
      ∃ id data, cmd.eap = some (id, .edhoc data) ∧
        (receivePduSessionAuthenticationCommand P cfg coins cmd u).2 =
          (receiveEdhoc P cfg.files coins data u).2 := by
  obtain ⟨psi, pti, _ | ⟨id, data | _ | _⟩⟩ := cmd
  · exact .inl rfl
  · refine .inr ⟨id, data, rfl, ?_⟩
    unfold receivePduSessionAuthenticationCommand
    dsimp only
    generalize receiveEdhoc P cfg.files coins data u = out
    obtain ⟨_ | wire, t⟩ := out
    · rfl
    · rfl
  · exact .inl rfl
  · exact .inl rfl

/-- What an EAP-EDHOC request keeps holds in every state of every run. -/
theorem Ue.after_induction {Inv : Ue → Prop} (init : Inv nasSmInit)
    (step : ∀ coins data u, Inv u → Inv (receiveEdhoc P cfg.files coins data u).2)
    (inputs : List NasInput) : Inv (Ue.after P cfg inputs) := by
  unfold Ue.after
  generalize nasSmInit = u at init ⊢
  induction inputs generalizing u with
  | nil => exact init
  | cons input inputs ih =>
    refine ih _ ?_
    cases input with
    | command coins cmd =>
      show Inv (receivePduSessionAuthenticationCommand P cfg coins cmd u).2
      obtain same | ⟨id, data, -, same⟩ := command_state P cfg coins cmd u
      · rw [same]
        exact init
      · rw [same]
        exact step coins data u init
    | result => exact init

/-- No run brings the UE beyond its buffers. -/
theorem Ue.after_wf (P : Primitives UInt8) (cfg : UeConfig) (inputs : List NasInput) :
    (Ue.after P cfg inputs).Wf :=
  Ue.after_induction nasSmInit_wf (fun _ _ _ here => receiveEdhoc_wf here) inputs

end Runs

end EdhocAuth.Eap
