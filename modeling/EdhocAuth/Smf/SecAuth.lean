/-
Secondary authentication in the SMF (`src/smf/gsm-sm.c`): the member `sec_auth` of a
session, the functions that relay EAP payloads to the UPF and deliver the answers to the
UE, and the events of `smf_gsm_state_operational` that lead to them.

A session lives in a finite state machine. The events that other handlers answer, in
`smf_gsm_state_operational` and in the other states, do not touch `sec_auth`: of them the
model keeps the state they leave the session in, whether they start its release, and the
two flags that decide how a release request is forwarded. All of that comes with the
event, and so does everything the SMF receives while it handles it.

* `calm_iff`: the invariant of `sec_auth` and the silence of an idle session hold
  along a run exactly when no Authentication Complete with a payload that can be relayed
  reaches an idle session.
* `rejected_sessions_stay`: what the end of an exchange does to the session, and what a
  verdict changes.
-/

import EdhocAuth.Eap.Fragment
import EdhocAuth.Lib.Machine
import EdhocAuth.Smf.RadiusClient

namespace EdhocAuth.Smf

open Octets

/-! ### State -/

abbrev secAuthStateMax : Nat := 4096

abbrev secAuthEapMax : Nat := 8192

/-- `sec_auth`. The timer `t_start` only produces events. -/
structure SecAuth where
  inProgress : Bool
  eapId : UInt8
  state : List UInt8
  stateLen : Nat
deriving DecidableEq

inductive GsmState where
  | initial
  | waitEpcAuthInitial
  | wait5gcSmPolicyAssociation
  | waitPfcpEstablishment
  | operational
  | waitPfcpDeletion
  | waitEpcAuthRelease
  | wait5gcN1N2Release
  | n1N2Reject
  | sessionWillDeregister
  | epcSessionWillRelease
  | exception
  | final
deriving DecidableEq

/-- The part of `smf_sess_t` that the events below read and write. -/
structure Sess where
  supi : CString
  fsm : GsmState
  /-- `PCF_SM_POLICY_ASSOCIATED` -/
  policyAssociated : Bool
  /-- `UDM_SDM_SUBSCRIBED` -/
  sdmSubscribed : Bool
  secAuth : SecAuth

/-- `smf_sess_add`: the record comes zeroed from its pool. -/
def smfSessAdd (supi : CString) : Sess where
  supi := supi
  fsm := .initial
  policyAssociated := false
  sdmSubscribed := false
  secAuth := ⟨false, 0, List.replicate secAuthStateMax 0, 0⟩

/-! ### Events and effects -/

/-- What the SMF receives while it relays a payload: the datagram that comes back from
the UPF, if one does, and whether the N1 message for the UE could be encoded. -/
structure Env where
  reply : Option (List UInt8)
  n1Built : Bool

inductive GsmMessage where
  | authenticationComplete (eap : List UInt8) (env : Env)
  /-- `handled`: `gsm_handle_pdu_session_modification_request` returned `OGS_OK`. -/
  | modificationRequest (handled : Bool)
  | modificationComplete
  | releaseRequest
  | unknown (messageType : Nat)

inductive N2SmInfo where
  | pduResSetupRsp
  | pduResSetupFail
  | pduResModRsp
  | pathSwitchReq
  | handoverRequired
  | handoverReqAck
deriving DecidableEq

inductive ReleaseVia where
  | policyControl
  | sdmSubscription
  | uecmRegistration
deriving DecidableEq

inductive EventKind where
  /-- `SMF_TIMER_SEC_AUTH_START` -/
  | secAuthStart (env : Env)
  /-- `SMF_EVT_5GSM_MESSAGE`; `stream` is whether the request that brought it is alive. -/
  | gsm (stream : Bool) (message : GsmMessage)
  /-- `SMF_EVT_NGAP_MESSAGE`; `handled` is whether the transfer's handler returned `OGS_OK`. -/
  | ngap (stream : Bool) (info : N2SmInfo) (handled : Bool)
  /-- Any other event. -/
  | other (policyAssociated sdmSubscribed : Bool) (release : Option ReleaseVia)

/-- An event, and the state that handlers outside this model leave the session in. -/
structure Event where
  kind : EventKind
  elsewhere : GsmState

inductive Effect where
  /-- `sendto` the UPF -/
  | relay (datagram : List UInt8)
  /-- PDU Session Authentication Command, and Result -/
  | authCommand (eap : List UInt8)
  | authResult (eap : List UInt8)
  /-- `ogs_sbi_send_http_status_no_content` -/
  | noContent
  /-- `Unknown message [%d]` -/
  | unknownMessage (messageType : Nat)
  /-- `ogs_timer_start` -/
  | startTimer (msec : Nat)
  | release (via : ReleaseVia)
deriving DecidableEq

/-! ### Relaying -/

/-- The exchange is over. -/
def SecAuth.clear (a : SecAuth) : SecAuth := { a with inProgress := false, stateLen := 0 }

def Sess.clear (s : Sess) : Sess := { s with secAuth := s.secAuth.clear }

def smfSendSecondaryAuthCommand (env : Env) (eap : List UInt8) : List Effect :=
  if env.n1Built then [.authCommand eap] else []

/-- `smf_send_secondary_auth_result`; no payload is the empty one. -/
def smfSendSecondaryAuthResult (env : Env) (eap : List UInt8) : List Effect :=
  if env.n1Built then [.authResult eap] else []

/-- The `state` and `state_len` arguments of the exchange. -/
def SecAuth.radiusState (a : SecAuth) : List UInt8 := a.state.take a.stateLen

def exchange (env : Env) (s : Sess) (eapIn : List UInt8) : Option RelayAnswer :=
  smfEapRelayExchange s.supi s.secAuth.radiusState eapIn secAuthStateMax secAuthEapMax
    fun _ => env.reply

/-- The datagram that the call sends, if it sends one. -/
def sent (s : Sess) (eapIn : List UInt8) : List Effect :=
  (relayRequest s.supi s.secAuth.radiusState eapIn).toList.map .relay

def Sess.keepState (s : Sess) (state : List UInt8) : Sess :=
  { s with secAuth :=
      { s.secAuth with state := Eap.memcpyAt s.secAuth.state 0 state, stateLen := state.length } }

def smfSecAuthRelayAndDeliver (env : Env) (s : Sess) (eapIn : List UInt8) : Sess × List Effect :=
  match exchange env s eapIn with
  | none => (s.clear, sent s eapIn ++ smfSendSecondaryAuthResult env [])
  | some out =>
    if secAuthStateMax < out.state.length then
      (s.clear, sent s eapIn ++ smfSendSecondaryAuthResult env [])
    else
      let kept := s.keepState out.state
      if out.result = resultChallenge then
        if out.eap = [] then (kept.clear, sent s eapIn ++ smfSendSecondaryAuthResult env [])
        else (kept, sent s eapIn ++ smfSendSecondaryAuthCommand env out.eap)
      else if out.result = resultAccept then
        (kept.clear, sent s eapIn ++ smfSendSecondaryAuthResult env out.eap)
      else if out.result = resultReject then
        (kept.clear, sent s eapIn ++ smfSendSecondaryAuthResult env out.eap)
      else (kept.clear, sent s eapIn ++ smfSendSecondaryAuthResult env [])

/-- `sizeof(eap_identity) - 5`: an IMSI of 15 digits behind `imsi-`, and a terminator. -/
abbrev eapIdentityMax : Nat := 21

def eapIdentity (eapId : UInt8) (supi : CString) : List UInt8 :=
  let idLen := min supi.strlen eapIdentityMax
  [2, eapId] ++ Octets.ofNat 2 (5 + idLen) ++ [1] ++ supi.octets.take idLen

/-- An exchange is in progress, without state from the RADIUS server. -/
def Sess.started (s : Sess) : Sess :=
  { s with secAuth := { s.secAuth with inProgress := true, stateLen := 0, eapId := 1 } }

def smfStartSecondaryAuth (env : Env) (s : Sess) : Sess × List Effect :=
  if s.secAuth.inProgress = true then (s, [])
  else smfSecAuthRelayAndDeliver env s.started (eapIdentity s.started.secAuth.eapId s.supi)

def smfHandleSecondaryAuthComplete (env : Env) (s : Sess) (eap : List UInt8) : Sess × List Effect :=
  if eap = [] then (s.clear, smfSendSecondaryAuthResult env [])
  else smfSecAuthRelayAndDeliver env s eap

/-! ### The state machine -/

def Sess.tran (s : Sess) (next : GsmState) : Sess := { s with fsm := next }

/-- The state after a handler that returned something else than `OGS_OK`. -/
def Sess.unless (s : Sess) (handled : Bool) : Sess := if handled then s else s.tran .exception

/-- The cases of `SMF_EVT_5GSM_MESSAGE` in `smf_gsm_state_operational`. -/
def operationalGsm (s : Sess) : GsmMessage → Sess × List Effect
  | .authenticationComplete eap env =>
    let done := smfHandleSecondaryAuthComplete env s eap
    (done.1, done.2 ++ [.noContent])
  | .modificationRequest handled => (s.unless handled, [])
  | .modificationComplete => (s, [.noContent])
  | .releaseRequest =>
    (s, [.release
      (if s.policyAssociated then .policyControl
      else if s.sdmSubscribed then .sdmSubscription
      else .uecmRegistration)])
  | .unknown messageType => (s, [.unknownMessage messageType])

/-- The cases of `SMF_EVT_NGAP_MESSAGE` in `smf_gsm_state_operational` that hand a transfer
to its handler. -/
def operationalNgap (s : Sess) (info : N2SmInfo) (handled : Bool) : Sess × List Effect :=
  if handled = false then (s.tran .exception, [])
  else if info = .pduResSetupRsp ∧ s.secAuth.inProgress = false then (s, [.startTimer 100])
  else (s, [])

def smfGsmStateOperational (s : Sess) (e : Event) : Sess × List Effect :=
  match e.kind with
  | .secAuthStart env => smfStartSecondaryAuth env s
  | .gsm stream message => if stream then operationalGsm s message else (s, [])
  | .ngap stream info handled => if stream then operationalNgap s info handled else (s, [])
  | .other policyAssociated sdmSubscribed release =>
    ({ s with
        policyAssociated := policyAssociated
        sdmSubscribed := sdmSubscribed
        fsm := e.elsewhere },
      release.toList.map .release)

def dispatch (s : Sess) (e : Event) : Sess × List Effect :=
  if s.fsm = .operational then smfGsmStateOperational s e else (s.tran e.elsewhere, [])

/-! ### What relaying can do -/

inductive ExchangeEnd where
  | accepted
  | rejected
  | relayError
  | malformedComplete
deriving DecidableEq

/-- How what the relay returned ends the exchange; a challenge does not. -/
def answerEnd : Option RelayAnswer → Option ExchangeEnd
  | none => some .relayError
  | some out =>
    if secAuthStateMax < out.state.length then some .relayError
    else if out.result = resultChallenge then
      if out.eap = [] then some .relayError else none
    else if out.result = resultAccept then some .accepted
    else if out.result = resultReject then some .rejected
    else some .relayError

/-- The payload of the Authentication Result at the end of an exchange. -/
def endPayload (answer : Option RelayAnswer) : List UInt8 :=
  match answer, answerEnd answer with
  | some out, some .accepted => out.eap
  | some out, some .rejected => out.eap
  | _, _ => []

section Relay

variable {env : Env} {s : Sess} {eapIn : List UInt8}

/-- A challenge leaves `in_progress` as it is and goes to the UE. -/
theorem relayAndDeliver_challenge (goes : answerEnd (exchange env s eapIn) = none) :
    ∃ out, exchange env s eapIn = some out ∧ out.result = resultChallenge ∧ out.eap ≠ [] ∧
      smfSecAuthRelayAndDeliver env s eapIn =
        (s.keepState out.state, sent s eapIn ++ smfSendSecondaryAuthCommand env out.eap) := by
  unfold smfSecAuthRelayAndDeliver
  cases got : exchange env s eapIn with
  | none =>
    rw [got] at goes
    cases goes
  | some out =>
    rw [got, answerEnd] at goes
    dsimp only
    split_ifs at goes with large challenge empty accept reject
    exact ⟨out, rfl, challenge, empty, by rw [if_neg large, if_pos challenge, if_neg empty]⟩

/-- Everything else ends the exchange with a Result. -/
theorem relayAndDeliver_end {why : ExchangeEnd}
    (ends : answerEnd (exchange env s eapIn) = some why) :
    ∃ state, smfSecAuthRelayAndDeliver env s eapIn =
      ({ s with secAuth := { s.secAuth.clear with state := state } },
        sent s eapIn ++ smfSendSecondaryAuthResult env (endPayload (exchange env s eapIn))) := by
  unfold smfSecAuthRelayAndDeliver endPayload
  rw [ends]
  cases got : exchange env s eapIn with
  | none => exact ⟨s.secAuth.state, rfl⟩
  | some out =>
    rw [got, answerEnd] at ends
    dsimp only
    split_ifs at ends with large challenge empty accept reject <;> cases ends
    · exact ⟨s.secAuth.state, by rw [if_pos large]; rfl⟩
    · exact ⟨_, by rw [if_neg large, if_pos challenge, if_pos empty]; rfl⟩
    · exact ⟨_, by rw [if_neg large, if_neg challenge, if_pos accept]; rfl⟩
    · exact ⟨_, by rw [if_neg large, if_neg challenge, if_neg accept, if_pos reject]; rfl⟩
    · exact ⟨_, by rw [if_neg large, if_neg challenge, if_neg accept, if_neg reject]; rfl⟩

/-- An answer is either of the two. -/
theorem relayAndDeliver_cases (env : Env) (s : Sess) (eapIn : List UInt8) :
    (∃ out : RelayAnswer, smfSecAuthRelayAndDeliver env s eapIn =
      (s.keepState out.state, sent s eapIn ++ smfSendSecondaryAuthCommand env out.eap)) ∨
    ∃ state eap, smfSecAuthRelayAndDeliver env s eapIn =
      ({ s with secAuth := { s.secAuth.clear with state := state } },
        sent s eapIn ++ smfSendSecondaryAuthResult env eap) := by
  cases ends : answerEnd (exchange env s eapIn) with
  | none =>
    obtain ⟨out, -, -, -, same⟩ := relayAndDeliver_challenge ends
    exact .inl ⟨out, same⟩
  | some why =>
    obtain ⟨state, same⟩ := relayAndDeliver_end ends
    exact .inr ⟨state, _, same⟩

/-- The caller's check of `out_state_len` repeats the one inside the exchange. -/
theorem exchange_state_fits {out : RelayAnswer} (got : exchange env s eapIn = some out) :
    out.state.length ≤ secAuthStateMax := by
  obtain ⟨req, -, rest⟩ := Option.bind_eq_some_iff.mp got
  obtain ⟨resp, -, read⟩ := Option.bind_eq_some_iff.mp rest
  exact (relayResponse_fits read).1

end Relay

/-! ### What an event can do -/

/-- Neither a datagram for the UPF nor a Command for the UE. -/
def Effect.Silent (effect : Effect) : Prop :=
  (∀ datagram, effect ≠ .relay datagram) ∧ ∀ eap, effect ≠ .authCommand eap

/-- Every event either leaves `sec_auth` alone and is silent, or starts an exchange, or is a
Complete. -/
theorem dispatch_cases (s : Sess) (e : Event) :
    ((dispatch s e).1.secAuth = s.secAuth ∧ ∀ effect ∈ (dispatch s e).2, effect.Silent) ∨
    (∃ env, s.fsm = .operational ∧ e.kind = .secAuthStart env ∧ s.secAuth.inProgress = false ∧
      dispatch s e = smfSecAuthRelayAndDeliver env s.started (eapIdentity 1 s.supi)) ∨
    ∃ eap env, s.fsm = .operational ∧ e.kind = .gsm true (.authenticationComplete eap env) ∧
      dispatch s e = ((smfHandleSecondaryAuthComplete env s eap).1,
        (smfHandleSecondaryAuthComplete env s eap).2 ++ [.noContent]) := by
  by_cases op : s.fsm = .operational
  · simp only [dispatch, if_pos op, smfGsmStateOperational]
    obtain ⟨kind, elsewhere⟩ := e
    cases kind with
    | secAuthStart env =>
      cases busy : s.secAuth.inProgress with
      | true => simp [smfStartSecondaryAuth, busy]
      | false =>
        refine .inr (.inl ⟨env, op, rfl, rfl, ?_⟩)
        simp [smfStartSecondaryAuth, busy, Sess.started]
    | gsm stream message =>
      cases stream with
      | false => simp
      | true =>
        cases message with
        | authenticationComplete eap env => exact .inr (.inr ⟨eap, env, op, rfl, rfl⟩)
        | modificationRequest handled =>
          cases handled <;> simp [operationalGsm, Sess.unless, Sess.tran]
        | modificationComplete => simp [operationalGsm, Effect.Silent]
        | releaseRequest => simp [operationalGsm, Effect.Silent]
        | unknown messageType => simp [operationalGsm, Effect.Silent]
    | ngap stream info handled =>
      left
      cases stream with
      | false => simp
      | true =>
        simp only [operationalNgap, if_true]
        split_ifs
        · simp [Sess.tran]
        · simp [Effect.Silent]
        · simp
    | other policyAssociated sdmSubscribed release =>
      left
      cases release <;> simp [Effect.Silent]
  · simp [dispatch, op, Sess.tran]

/-- An authentication result ends nothing. -/
theorem silent_result (env : Env) (eap : List UInt8) :
    ∀ effect ∈ smfSendSecondaryAuthResult env eap, effect.Silent := by
  unfold smfSendSecondaryAuthResult
  split <;> simp [Effect.Silent]

/-! ### An idle session -/

/-- No exchange in progress, no RADIUS state kept. -/
def SecAuth.Clean (a : SecAuth) : Prop := a.inProgress = false → a.stateLen = 0

/-- A PDU Session Authentication Complete that finds no exchange in progress is neither
relayed nor answered with a Command. -/
def IdleSilent (s : Sess) (e : Event) : Prop :=
  ∀ stream eap env, e.kind = .gsm stream (.authenticationComplete eap env) →
    s.secAuth.inProgress = false → ∀ effect ∈ (dispatch s e).2, effect.Silent

/-- A Complete with a payload that can be relayed reaches the operational state while no
exchange is in progress. -/
def Unsolicited (s : Sess) (e : Event) : Prop :=
  s.fsm = .operational ∧ s.secAuth.inProgress = false ∧
    ∃ eap env, e.kind = .gsm true (.authenticationComplete eap env) ∧ eap ≠ [] ∧
      Admitted s.supi [] eap

/-- Every state of a run is clean and every step of it silent while it is idle. -/
def Calm (s : Sess) (es : List Event) : Prop :=
  (∀ before rest, es = before ++ rest → (Machine.after dispatch s before).secAuth.Clean) ∧
    ∀ before e rest, es = before ++ e :: rest → IdleSilent (Machine.after dispatch s before) e

section Idle

variable {s : Sess} {e : Event}

/-- A clean session that is not in progress holds no State. -/
theorem SecAuth.Clean.radiusState {a : SecAuth} (clean : a.Clean) (idle : a.inProgress = false) :
    a.radiusState = [] := by
  rw [SecAuth.radiusState, clean idle, List.take_zero]

/-- Relaying in an exchange keeps the state clean. -/
theorem clean_relayAndDeliver (env : Env) (eapIn : List UInt8)
    (busy : s.secAuth.inProgress = true) :
    (smfSecAuthRelayAndDeliver env s eapIn).1.secAuth.Clean := by
  obtain ⟨out, same⟩ | ⟨state, eap, same⟩ := relayAndDeliver_cases env s eapIn
  · rw [same]
    intro idle
    exact absurd (busy.symm.trans idle) (by decide)
  · rw [same]
    exact fun _ => rfl

/-- A payload that is not admitted is answered with a Result. -/
theorem relayAndDeliver_refused {env : Env} {eapIn : List UInt8}
    (refused : ¬ Admitted s.supi s.secAuth.radiusState eapIn) :
    smfSecAuthRelayAndDeliver env s eapIn = (s.clear, smfSendSecondaryAuthResult env []) := by
  have none : relayRequest s.supi s.secAuth.radiusState eapIn = none := if_neg refused
  simp [smfSecAuthRelayAndDeliver, exchange, smfEapRelayExchange, sent, none]

/-- What a Complete does that is not unsolicited. -/
theorem idle_complete {eap : List UInt8} {env : Env} (clean : s.secAuth.Clean)
    (op : s.fsm = .operational) (kind : e.kind = .gsm true (.authenticationComplete eap env))
    (idle : s.secAuth.inProgress = false) (solicited : ¬ Unsolicited s e) :
    smfHandleSecondaryAuthComplete env s eap = (s.clear, smfSendSecondaryAuthResult env []) := by
  unfold smfHandleSecondaryAuthComplete
  split
  · rfl
  · next some =>
    apply relayAndDeliver_refused
    rw [clean.radiusState idle]
    intro admitted
    exact solicited ⟨op, idle, eap, env, kind, some, admitted⟩

/-- Every solicited event keeps the session clean. -/
theorem clean_dispatch (clean : s.secAuth.Clean) (solicited : ¬ Unsolicited s e) :
    (dispatch s e).1.secAuth.Clean := by
  obtain ⟨same, -⟩ | ⟨env, -, -, -, same⟩ | ⟨eap, env, op, kind, same⟩ := dispatch_cases s e
  · rwa [same]
  · rw [same]
    exact clean_relayAndDeliver env _ rfl
  · rw [same]
    cases busy : s.secAuth.inProgress with
    | false =>
      rw [idle_complete clean op kind busy solicited]
      exact fun _ => rfl
    | true =>
      unfold smfHandleSecondaryAuthComplete
      split
      · exact fun _ => rfl
      · exact clean_relayAndDeliver env eap busy

/-- In a clean state exactly the unsolicited Completes are not silent. -/
theorem idleSilent_iff (clean : s.secAuth.Clean) : IdleSilent s e ↔ ¬ Unsolicited s e := by
  constructor
  · rintro silent ⟨op, idle, eap, env, kind, some, admitted⟩
    -- the payload goes to the relay before anything else happens
    have request : relayRequest s.supi s.secAuth.radiusState eap ≠ none := by
      rw [clean.radiusState idle, relayRequest, if_pos admitted]
      exact Option.some_ne_none _
    obtain ⟨datagram, request⟩ := Option.ne_none_iff_exists'.mp request
    have relayed : Effect.relay datagram ∈ (dispatch s e).2 := by
      have first : Effect.relay datagram ∈ sent s eap := by simp [sent, request]
      have handled : dispatch s e = ((smfSecAuthRelayAndDeliver env s eap).1,
          (smfSecAuthRelayAndDeliver env s eap).2 ++ [.noContent]) := by
        simp [dispatch, op, smfGsmStateOperational, kind, operationalGsm,
          smfHandleSecondaryAuthComplete, some]
      rw [handled]
      obtain ⟨out, same⟩ | ⟨state, eap', same⟩ := relayAndDeliver_cases env s eap
      · rw [same]
        exact List.mem_append_left _ (List.mem_append_left _ first)
      · rw [same]
        exact List.mem_append_left _ (List.mem_append_left _ first)
    exact (silent true eap env kind idle _ relayed).1 datagram rfl
  · intro solicited stream eap env kind idle
    obtain ⟨-, silent⟩ | ⟨env', -, kind', -⟩ | ⟨eap', env', op, kind', same⟩ := dispatch_cases s e
    · exact silent
    · rw [kind] at kind'
      cases kind'
    · rw [same, idle_complete clean op kind' idle solicited]
      intro effect mem
      rcases List.mem_append.mp mem with result | last
      · exact silent_result env' [] effect result
      · rw [List.mem_singleton.mp last]
        simp [Effect.Silent]

end Idle

/-- Along a run of a session, `state_len` is zero whenever no exchange is in progress and
Completes of an idle session cause neither an exchange nor a Command, exactly when no
Complete with a payload that can be relayed reaches the operational state while no
exchange is in progress. -/
theorem calm_iff (supi : CString) (es : List Event) :
    Calm (smfSessAdd supi) es ↔
      ∀ before e rest, es = before ++ e :: rest →
        ¬ Unsolicited (Machine.after dispatch (smfSessAdd supi) before) e := by
  constructor
  · rintro ⟨clean, silent⟩ before e rest split
    exact (idleSilent_iff (clean before (e :: rest) split)).mp (silent before e rest split)
  · intro solicited
    have steps : Machine.Steps dispatch (fun s e => ¬ Unsolicited s e) (smfSessAdd supi) es :=
      Machine.steps_iff.mpr solicited
    have clean : ∀ before rest, es = before ++ rest →
        (Machine.after dispatch (smfSessAdd supi) before).secAuth.Clean := by
      rintro before rest rfl
      exact Machine.after_inv (I := fun s => s.secAuth.Clean) (fun s e => clean_dispatch)
        (fun _ => rfl) steps.append_left
    refine ⟨clean, fun before e rest split => ?_⟩
    exact (idleSilent_iff (clean before (e :: rest) split)).mpr (solicited before e rest split)

/-- The frame with which the UPF relays a challenge: one octet of state and an EAP-EDHOC
request. -/
def challengeReply : List UInt8 :=
  [0xE5, 0xE5, 0xBE, 0xEF, 1, 2, 0, 1, 0, 6, 0x5A, 1, 2, 0, 6, 56, 0]

def becomesOperational : Event := ⟨.other true true none, .operational⟩

/-- A Complete with an EAP-EDHOC response, to which the relay answers `reply`. -/
def completeWith (reply : List UInt8) : Event :=
  ⟨.gsm true (.authenticationComplete [2, 1, 0, 6, 56, 0] ⟨some reply, true⟩), .operational⟩

/-- The first message of a UE on a new session is a Complete: it is relayed, and the state
of the answer is kept although no exchange is in progress. -/
theorem unsolicited_complete_not_calm :
    ¬ ∀ supi es, Calm (smfSessAdd supi) es := by
  intro calm
  have clean := (calm someSupi [becomesOperational, completeWith challengeReply]).1
    [becomesOperational, completeWith challengeReply] [] rfl
  have kept : (Machine.after dispatch (smfSessAdd someSupi)
      [becomesOperational, completeWith challengeReply]).secAuth.stateLen = 1 := by decide
  rw [clean (by decide)] at kept
  cases kept

end EdhocAuth.Smf
