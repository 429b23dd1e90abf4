/-
What a verdict of the DN-AAA server does to the session (`src/smf/gsm-sm.c`).

An exchange ends with an Accept, a Reject, an error of the relay or a Complete without
payload. `latestEnd` follows a run and keeps how the latest exchange ended. However it
ended, `smf_sec_auth_relay_and_deliver` and the handler around it send a Result, clear
`sec_auth` and leave the session where it is: the Result is delivered "without tearing
down the session".

`rejected_sessions_stay` states this for all runs, together with what it implies: turning
every Reject of a run into an Accept changes neither a state nor an effect.
-/

import EdhocAuth.Smf.SecAuth

namespace EdhocAuth.Smf

open Octets

/-! ### Exchanges along a run -/

/-- What an event does to the exchanges of a session: nothing, or it goes on with one
(`some none`), or it ends one. -/
def exchangeStep (s : Sess) (e : Event) : Option (Option ExchangeEnd) :=
  if s.fsm = .operational then
    match e.kind with
    | .secAuthStart env =>
      if s.secAuth.inProgress = true then none
      else some (answerEnd (exchange env s.started (eapIdentity 1 s.supi)))
    | .gsm true (.authenticationComplete eap env) =>
      some (if eap = [] then some .malformedComplete else answerEnd (exchange env s eap))
    | _ => none
  else none

/-- How the latest exchange ended, if it has. -/
def latestEnd (s : Sess) (latest : Option ExchangeEnd) : List Event → Option ExchangeEnd
  | [] => latest
  | e :: es => latestEnd (dispatch s e).1 ((exchangeStep s e).getD latest) es

/-- The session has left the operational state, or its release has been started. -/
def Barred (s : Sess) (es : List Event) : Prop :=
  (Machine.after dispatch s es).fsm ≠ .operational ∨
    ∃ via, .release via ∈ Machine.outputs dispatch s es

/-! ### The end of an exchange -/

/-- The answer of the relay to the payload that an event hands to it. -/
def answerTo (s : Sess) (e : Event) : Option RelayAnswer :=
  match e.kind with
  | .secAuthStart env => exchange env s.started (eapIdentity 1 s.supi)
  | .gsm true (.authenticationComplete eap env) => if eap = [] then none else exchange env s eap
  | _ => none

def Event.n1Built (e : Event) : Bool :=
  match e.kind with
  | .secAuthStart env => env.n1Built
  | .gsm _ (.authenticationComplete _ env) => env.n1Built
  | _ => false

/-- An event that ends an exchange leaves the session operational and `sec_auth` cleared.
The UE gets a Result, with the server's payload after an Accept or a Reject and without one
otherwise; nothing else happens. -/
structure Ends (s : Sess) (e : Event) : Prop where
  operational : (dispatch s e).1.fsm = .operational
  inProgress : (dispatch s e).1.secAuth.inProgress = false
  stateLen : (dispatch s e).1.secAuth.stateLen = 0
  result : e.n1Built → .authResult (endPayload (answerTo s e)) ∈ (dispatch s e).2
  effects : ∀ effect ∈ (dispatch s e).2, (∃ datagram, effect = .relay datagram) ∨
    effect = .authResult (endPayload (answerTo s e)) ∨ effect = .noContent

section End

variable {s : Sess} {e : Event} {why : ExchangeEnd}

/-- Where the answer of an exchange ends the authentication. -/
theorem exchangeStep_end (ends : exchangeStep s e = some (some why)) :
    s.fsm = .operational ∧
      ((∃ env, e.kind = .secAuthStart env ∧ s.secAuth.inProgress = false ∧
        answerEnd (exchange env s.started (eapIdentity 1 s.supi)) = some why) ∨
      ∃ eap env, e.kind = .gsm true (.authenticationComplete eap env) ∧
        (eap ≠ [] → answerEnd (exchange env s eap) = some why)) := by
  unfold exchangeStep at ends
  split at ends
  · next op =>
    refine ⟨op, ?_⟩
    split at ends
    · next env kind =>
      split at ends
      · cases ends
      · next idle => exact .inl ⟨env, kind, by simpa using idle, Option.some.inj ends⟩
    · next eap env kind =>
      refine .inr ⟨eap, env, kind, fun some => ?_⟩
      rw [if_neg some] at ends
      exact Option.some.inj ends
    · cases ends
  · cases ends

theorem mem_sent {effect : Effect} {eapIn : List UInt8} (mem : effect ∈ sent s eapIn) :
    ∃ datagram, effect = .relay datagram := by
  obtain ⟨datagram, -, rfl⟩ := List.mem_map.mp mem
  exact ⟨datagram, rfl⟩

theorem mem_result {effect : Effect} {env : Env} {eap : List UInt8} :
    effect ∈ smfSendSecondaryAuthResult env eap ↔
      env.n1Built = true ∧ effect = .authResult eap := by
  unfold smfSendSecondaryAuthResult
  split
  · next built => simp [built]
  · next failed => simp [failed]

/-- A step that clears `sec_auth` and sends a Result between a datagram and a reply. -/
theorem Ends.of_result {env : Env} {auth : SecAuth} {before behind : List Effect}
    (op : s.fsm = .operational) (built : e.n1Built = env.n1Built)
    (relays : ∀ effect ∈ before, ∃ datagram, effect = .relay datagram)
    (replies : ∀ effect ∈ behind, effect = .noContent)
    (step : dispatch s e = ({ s with secAuth := auth.clear },
      before ++ (smfSendSecondaryAuthResult env (endPayload (answerTo s e)) ++ behind))) :
    Ends s e where
  operational := by rw [step]; exact op
  inProgress := by rw [step]; rfl
  stateLen := by rw [step]; rfl
  result n1 := by
    rw [step]
    rw [built] at n1
    exact List.mem_append_right _ (List.mem_append_left _ (mem_result.mpr ⟨n1, rfl⟩))
  effects effect mem := by
    rw [step] at mem
    rcases List.mem_append.mp mem with relay | mem
    · exact .inl (relays effect relay)
    · rcases List.mem_append.mp mem with result | reply
      · exact .inr (.inl (mem_result.mp result).2)
      · exact .inr (.inr (replies effect reply))

/-- An exchange that ends the authentication ends it for one of the reasons. -/
theorem ends_of_exchangeStep (ends : exchangeStep s e = some (some why)) : Ends s e := by
  obtain ⟨op, ⟨env, kind, idle, answer⟩ | ⟨eap, env, kind, answer⟩⟩ := exchangeStep_end ends
  · obtain ⟨state, same⟩ := relayAndDeliver_end answer
    have step : dispatch s e =
        ({ s with secAuth := { s.started.secAuth with state := state }.clear },
          sent s.started (eapIdentity 1 s.supi) ++
            (smfSendSecondaryAuthResult env (endPayload (answerTo s e)) ++ [])) := by
      rw [dispatch, if_pos op, smfGsmStateOperational, kind, answerTo, kind, List.append_nil]
      simp only [smfStartSecondaryAuth, idle, Bool.false_eq_true, if_false]
      exact same
    exact .of_result op (by simp [Event.n1Built, kind]) (fun effect => mem_sent) (by simp) step
  · have handled : ∃ state before, (∀ effect ∈ before, ∃ datagram, effect = .relay datagram) ∧
        smfHandleSecondaryAuthComplete env s eap =
          ({ s with secAuth := { s.secAuth with state := state }.clear },
            before ++ smfSendSecondaryAuthResult env (endPayload (answerTo s e))) := by
      simp only [smfHandleSecondaryAuthComplete, answerTo, kind]
      split
      · exact ⟨s.secAuth.state, [], by simp, rfl⟩
      · next some =>
        obtain ⟨state, same⟩ := relayAndDeliver_end (answer some)
        exact ⟨state, sent s eap, fun effect => mem_sent, same⟩
    obtain ⟨state, before, relays, same⟩ := handled
    have step : dispatch s e = ({ s with secAuth := { s.secAuth with state := state }.clear },
        before ++ (smfSendSecondaryAuthResult env (endPayload (answerTo s e)) ++
            [.noContent])) := by
      rw [dispatch, if_pos op, smfGsmStateOperational, kind]
      simp only [if_true, operationalGsm, same, List.append_assoc]
    exact .of_result op (by simp [Event.n1Built, kind]) relays (by simp) step

end End

/-! ### The session after the end -/

/-- Events after which an operational session is still operational and not being released:
the events of secondary authentication, and transfers that their handlers accept. -/
def Quiet (e : Event) : Prop :=
  match e.kind with
  | .secAuthStart _ => True
  | .gsm _ (.authenticationComplete _ _) => True
  | .gsm _ .modificationComplete => True
  | .gsm _ (.unknown _) => True
  | .ngap _ _ handled => handled = true
  | _ => False

section Stays

variable {s : Sess} {e : Event}

theorem relayAndDeliver_fsm (env : Env) (s : Sess) (eapIn : List UInt8) :
    (smfSecAuthRelayAndDeliver env s eapIn).1.fsm = s.fsm := by
  obtain ⟨out, same⟩ | ⟨state, eap, same⟩ := relayAndDeliver_cases env s eapIn
  · rw [same]
    rfl
  · rw [same]

theorem relayAndDeliver_no_release (env : Env) (s : Sess) (eapIn : List UInt8) :
    ∀ effect ∈ (smfSecAuthRelayAndDeliver env s eapIn).2, ∀ via, effect ≠ .release via := by
  rintro effect mem via rfl
  obtain ⟨out, same⟩ | ⟨state, eap, same⟩ := relayAndDeliver_cases env s eapIn
  · rw [same] at mem
    simp [sent, smfSendSecondaryAuthCommand] at mem
  · rw [same] at mem
    simp [sent, smfSendSecondaryAuthResult] at mem

/-- A quiet event leaves the session operational and releases nothing. -/
theorem quiet_dispatch (op : s.fsm = .operational) (quiet : Quiet e) :
    (dispatch s e).1.fsm = .operational ∧
      ∀ effect ∈ (dispatch s e).2, ∀ via, effect ≠ .release via := by
  obtain ⟨kind, elsewhere⟩ := e
  simp only [dispatch, if_pos op, smfGsmStateOperational]
  cases kind with
  | secAuthStart env =>
    simp only [smfStartSecondaryAuth]
    split
    · exact ⟨op, by simp⟩
    · exact ⟨(relayAndDeliver_fsm _ _ _).trans op, relayAndDeliver_no_release _ _ _⟩
  | gsm stream message =>
    cases stream with
    | false => exact ⟨op, by simp⟩
    | true =>
      cases message with
      | authenticationComplete eap env =>
        simp only [if_true, operationalGsm, smfHandleSecondaryAuthComplete]
        split
        · refine ⟨op, ?_⟩
          rintro effect mem via rfl
          simp [smfSendSecondaryAuthResult] at mem
        · refine ⟨(relayAndDeliver_fsm _ _ _).trans op, fun effect mem => ?_⟩
          rcases List.mem_append.mp mem with relayed | last
          · exact relayAndDeliver_no_release _ _ _ effect relayed
          · simp [List.mem_singleton.mp last]
      | modificationRequest handled => cases quiet
      | modificationComplete => exact ⟨op, by simp [operationalGsm]⟩
      | releaseRequest => cases quiet
      | unknown messageType => exact ⟨op, by simp [operationalGsm]⟩
  | ngap stream info handled =>
    cases stream with
    | false => exact ⟨op, by simp⟩
    | true =>
      have accepted : handled = true := quiet
      simp only [if_true, operationalNgap, accepted, Bool.true_eq_false, if_false]
      split <;> simp [op]
  | other policyAssociated sdmSubscribed release => cases quiet

/-- A run of quiet events leaves the session operational and releases nothing. -/
theorem quiet_run {es : List Event} (op : s.fsm = .operational) (quiet : ∀ e ∈ es, Quiet e) :
    (Machine.after dispatch s es).fsm = .operational ∧
      ∀ via, .release via ∉ Machine.outputs dispatch s es := by
  have keep : ∀ s e, s.fsm = .operational → Quiet e → (dispatch s e).1.fsm = .operational :=
    fun s e op quiet => (quiet_dispatch op quiet).1
  have steps : Machine.Steps dispatch (fun _ e => Quiet e) s es := Machine.steps_of_forall quiet
  refine ⟨Machine.after_inv keep op steps, fun via mem => ?_⟩
  exact Machine.outputs_all keep
    (fun s e op quiet => (quiet_dispatch op quiet).2) op steps _ mem via rfl

end Stays

/-! ### Accept for Reject -/

/-- The frame of the relay with an Accept in the place of a Reject. -/
def acceptForReject (resp : List UInt8) : List UInt8 :=
  if Octets.octet resp 5 = resultReject then resp.set 5 resultAccept else resp

def RelayAnswer.acceptForReject (answer : RelayAnswer) : RelayAnswer :=
  if answer.result = resultReject then { answer with result := resultAccept } else answer

def Env.acceptForReject (env : Env) : Env := { env with reply := env.reply.map Smf.acceptForReject }

/-- The same event, accepted where the server rejected. -/
def Event.acceptForReject (e : Event) : Event :=
  match e.kind with
  | .secAuthStart env => { e with kind := .secAuthStart env.acceptForReject }
  | .gsm stream (.authenticationComplete eap env) =>
    { e with kind := .gsm stream (.authenticationComplete eap env.acceptForReject) }
  | _ => e

/-- A reject read as an accept has the same EAP message. -/
theorem relayResponse_acceptForReject (stateCap eapCap : Nat) (resp : List UInt8) :
    relayResponse stateCap eapCap (acceptForReject resp) =
      (relayResponse stateCap eapCap resp).map RelayAnswer.acceptForReject := by
  unfold acceptForReject
  split
  · next rejected =>
    by_cases short : resp.length < 10
    · simp [relayResponse, short]
    · have read : Octets.octet (resp.set 5 resultAccept) 5 = resultAccept :=
        octet_set_self _ (by omega)
      simp only [relayResponse, List.length_set, read,
        octet_set_ne resultAccept (show 5 ≠ 4 by decide),
        field_set resultAccept (show 5 < 0 ∨ 0 + 4 ≤ 5 by decide),
        field_set resultAccept (show 5 < 6 ∨ 6 + 2 ≤ 5 by decide),
        field_set resultAccept (show 5 < 8 ∨ 8 + 2 ≤ 5 by decide)]
      rw [field_set resultAccept (by omega), field_set resultAccept (by omega)]
      split_ifs <;> simp [RelayAnswer.acceptForReject, rejected]
  · next other =>
    cases read : relayResponse stateCap eapCap resp with
    | none => rfl
    | some answer =>
      obtain ⟨-, -, -, -, -, -, rfl⟩ := relayResponse_eq_some.mp read
      simp [RelayAnswer.acceptForReject, other]

theorem take_acceptForReject (resp : List UInt8) {n : Nat} (long : 5 < n) :
    (acceptForReject resp).take n = acceptForReject (resp.take n) := by
  unfold acceptForReject
  rw [octet_take long]
  split
  · rw [List.take_set]
  · rfl

/-- An exchange does not look at the code of the answer. -/
theorem exchange_acceptForReject (env : Env) (s : Sess) (eapIn : List UInt8) :
    exchange env.acceptForReject s eapIn =
      (exchange env s eapIn).map RelayAnswer.acceptForReject := by
  obtain ⟨reply, n1Built⟩ := env
  simp only [exchange, smfEapRelayExchange, Env.acceptForReject]
  cases relayRequest s.supi s.secAuth.radiusState eapIn with
  | none => rfl
  | some req =>
    cases reply with
    | none => rfl
    | some resp =>
      simp only [Option.map_some, Option.bind_eq_bind, Option.bind_some]
      rw [take_acceptForReject resp (by decide), relayResponse_acceptForReject]

/-- The branches for Accept and Reject do the same. -/
theorem relayAndDeliver_acceptForReject (env : Env) (s : Sess) (eapIn : List UInt8) :
    smfSecAuthRelayAndDeliver env.acceptForReject s eapIn =
      smfSecAuthRelayAndDeliver env s eapIn := by
  unfold smfSecAuthRelayAndDeliver
  rw [exchange_acceptForReject]
  cases exchange env s eapIn with
  | none => rfl
  | some out =>
    simp only [Option.map_some, RelayAnswer.acceptForReject]
    by_cases rejected : out.result = resultReject
    · have challenge : ¬ resultReject = resultChallenge := by decide
      have accept : ¬ resultReject = resultAccept := by decide
      have challenge' : ¬ resultAccept = resultChallenge := by decide
      simp only [rejected, if_true, challenge, accept, challenge', if_false]
      rfl
    · rw [if_neg rejected]
      rfl

/-- No event tells an accept from a reject. -/
theorem dispatch_acceptForReject (s : Sess) (e : Event) :
    dispatch s e.acceptForReject = dispatch s e := by
  obtain ⟨kind, elsewhere⟩ := e
  cases kind with
  | secAuthStart env =>
    simp only [Event.acceptForReject, dispatch, smfGsmStateOperational, smfStartSecondaryAuth,
      relayAndDeliver_acceptForReject]
  | gsm stream message =>
    cases message with
    | authenticationComplete eap env =>
      simp only [Event.acceptForReject, dispatch, smfGsmStateOperational, operationalGsm,
        smfHandleSecondaryAuthComplete, relayAndDeliver_acceptForReject]
      rfl
    | modificationRequest handled => rfl
    | modificationComplete => rfl
    | releaseRequest => rfl
    | unknown messageType => rfl
  | ngap stream info handled => rfl
  | other policyAssociated sdmSubscribed release => rfl

/-- However an exchange ends, the session stays operational and is not released: the UE
gets a Result and `sec_auth` is cleared. It stays so until an event of another kind takes
it away, and with an Accept for every Reject the run has the same states and effects. -/
theorem rejected_sessions_stay (supi : CString) (es : List Event) :
    (∀ before e rest why, es = before ++ e :: rest →
      exchangeStep (Machine.after dispatch (smfSessAdd supi) before) e = some (some why) →
        Ends (Machine.after dispatch (smfSessAdd supi) before) e ∧
        ((∀ e' ∈ rest, Quiet e') →
          (Machine.after dispatch (smfSessAdd supi) es).fsm = .operational ∧
          ∀ via, .release via ∉
            Machine.outputs dispatch (Machine.after dispatch (smfSessAdd supi) before)
              (e :: rest))) ∧
    Machine.after dispatch (smfSessAdd supi) (es.map Event.acceptForReject) =
      Machine.after dispatch (smfSessAdd supi) es ∧
    Machine.outputs dispatch (smfSessAdd supi) (es.map Event.acceptForReject) =
      Machine.outputs dispatch (smfSessAdd supi) es := by
  refine ⟨?_, Machine.after_map dispatch_acceptForReject,
    Machine.outputs_map dispatch_acceptForReject⟩
  rintro before e rest why rfl ended
  have ends := ends_of_exchangeStep ended
  refine ⟨ends, fun quiet => ?_⟩
  obtain ⟨stays, none⟩ := quiet_run ends.operational quiet
  constructor
  · rw [Machine.after_append]
    exact stays
  · intro via mem
    rcases List.mem_append.mp mem with here | later
    · rcases ends.effects _ here with ⟨datagram, other⟩ | other | other
      · cases other
      · cases other
      · cases other
    · exact none via later

/-- The frame with which the UPF relays a Reject with an EAP-Failure. -/
def rejectReply : List UInt8 := [0xE5, 0xE5, 0xBE, 0xEF, 1, 1, 0, 0, 0, 4, 4, 2, 0, 4]

/-- The session is set up, the exchange starts, and the server rejects the first response of
the UE: the session is as usable as before. -/
theorem rejected_session_not_barred :
    ¬ ∀ supi es why, latestEnd (smfSessAdd supi) none es = some why → why ≠ .accepted →
      Barred (smfSessAdd supi) es := by
  intro barred
  have stays := barred someSupi
    [becomesOperational, ⟨.ngap true .pduResSetupRsp true, .operational⟩,
      ⟨.secAuthStart ⟨some challengeReply, true⟩, .operational⟩, completeWith rejectReply]
    .rejected (by decide) (by decide)
  rcases stays with left | ⟨via, released⟩
  · exact left (by decide)
  · cases via <;> exact absurd released (by decide)

end EdhocAuth.Smf
