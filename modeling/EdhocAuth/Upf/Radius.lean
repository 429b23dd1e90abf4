/-
The RADIUS client of the relay (`src/upf/eap-relay.c`): building an Access-Request and
verifying and parsing the answer.

`radiusVerifyResponse` and `radiusParseResponse` walk over the attributes of the packet
separately. `radius_answer_authenticated` says what an answer that passes both looks like:
the Response Authenticator always covers it, and the Message-Authenticator does whenever
there is one, which is certain only if there is an EAP-Message.
-/

import EdhocAuth.Eap.Fragment
import EdhocAuth.Lib.Block
import EdhocAuth.Lib.Tlv
import EdhocAuth.Smf.RadiusClient
import EdhocAuth.Upf.Md5

namespace EdhocAuth.Upf

open Octets Eap Smf

/-! ### Constants -/

def codeAccessRequest : UInt8 := 1

def codeAccessAccept : UInt8 := 2

def codeAccessReject : UInt8 := 3

def codeAccessChallenge : UInt8 := 11

def attrUserName : UInt8 := 1

def attrServiceType : UInt8 := 6

def attrState : UInt8 := 24

def attrNasPortType : UInt8 := 61

def attrEapMessage : UInt8 := 79

def attrMessageAuthenticator : UInt8 := 80

abbrev serviceFramedUser : Nat := 2

abbrev nasPortVirtual : Nat := 5

/-! ### Requests -/

/-- `radius_append_attr`: the octets written so far, with the value split over attributes of
at most 253 octets. The fuel is the number of octets left. -/
def radiusAppendAttr (cap : Nat) (type : UInt8) :
    Nat → List UInt8 → List UInt8 → Option (List UInt8)
  | fuel + 1, buf, data =>
    if data = [] then some buf
    else
      let chunk := min 253 data.length
      if cap < buf.length + 2 + chunk then none
      else
        radiusAppendAttr cap type fuel
          (buf ++ ([type, UInt8.ofNat (2 + chunk)] ++ data.take chunk)) (data.drop chunk)
  | 0, buf, _ => some buf

def radiusAppendU16Attr (cap : Nat) (type : UInt8) (buf : List UInt8) (value : Nat) :
    Option (List UInt8) :=
  radiusAppendAttr cap type 2 buf (Octets.ofNat 2 value)

/-- What a request needs besides the call's arguments: the shared secret, the incremented
`g_radius_identifier` and the random octets. -/
structure RadiusParams where
  secret : List UInt8
  identifier : UInt8
  auth : Block UInt8 16

def radiusBuildRequest (p : RadiusParams) (cap : Nat) (username : CString)
    (state eap : List UInt8) :
    Option (List UInt8) := do
  if 253 < username.strlen then none
  else if cap < 20 + 2 + username.strlen + 2 + 2 + eap.length + 18 then none
  else
    let req := [codeAccessRequest, p.identifier, 0, 0] ++ p.auth.toList
    let req ← radiusAppendAttr cap attrUserName username.strlen req username.octets
    let req ← radiusAppendU16Attr cap attrServiceType req serviceFramedUser
    let req ← radiusAppendU16Attr cap attrNasPortType req nasPortVirtual
    let req ← if state ≠ [] then radiusAppendAttr cap attrState state.length req state else some req
    let req ← radiusAppendAttr cap attrEapMessage eap.length req eap
    let maPos := req.length + 2
    if cap < req.length + 18 then none
    else
      let req := req ++ [attrMessageAuthenticator, 18] ++ List.replicate 16 0
      if 4096 < req.length then none
      else
        let req := memcpyAt req 2 (Octets.ofNat 2 req.length)
        some (memcpyAt req maPos (hmacMd5 p.secret req))

/-! ### Answers -/

def packetLen (resp : List UInt8) : Nat := Octets.toNat (field resp 2 2)

def packetBody (resp : List UInt8) : List UInt8 := (resp.take (packetLen resp)).drop 20

/-- The body of the loop in `radius_parse_response`, over `out_state` and `out_eap`. -/
def parseStep (stateCap eapCap : Nat) (out : List UInt8 × List UInt8) (_ : Nat) (a : Tlv.Attr) :
    Option (List UInt8 × List UInt8) :=
  if a.type = attrState then
    if stateCap < out.1.length + a.value.length then none else some (out.1 ++ a.value, out.2)
  else if a.type = attrEapMessage then
    if eapCap < out.2.length + a.value.length then none else some (out.1, out.2 ++ a.value)
  else some out

def resultOfCode (code : UInt8) : Option UInt8 :=
  if code = codeAccessAccept then some resultAccept
  else if code = codeAccessReject then some resultReject
  else if code = codeAccessChallenge then some resultChallenge
  else none

def radiusParseResponse (stateCap eapCap : Nat) (resp : List UInt8) : Option RelayAnswer :=
  if resp.length < 20 then none
  else if resp.length < packetLen resp ∨ packetLen resp < 20 then none
  else
    match Tlv.walk (parseStep stateCap eapCap) (packetBody resp).length ([], []) 20
        (packetBody resp) with
    | none => none
    | some (state, eap) => (resultOfCode (Octets.octet resp 0)).map fun result =>
        ⟨result, state, eap⟩

/-- The body of the loop in `radius_verify_response`, over `has_eap` and `ma_off`. -/
def verifyStep (found : Bool × Option Nat) (pos : Nat) (a : Tlv.Attr) :
    Option (Bool × Option Nat) :=
  let hasEap := found.1 || decide (a.type = attrEapMessage)
  if a.type = attrMessageAuthenticator then
    if 2 + a.value.length ≠ 18 then none
    else if found.2.isSome then none
    else some (hasEap, some (pos + 2))
  else some (hasEap, found.2)

/-- `tmp`: the packet with the authenticator of the request. -/
def substituted (req resp : List UInt8) : List UInt8 :=
  memcpyAt (resp.take (packetLen resp)) 4 (field req 4 16)

/-- `tmp` with sixteen zeros at `off`. -/
def zeroedAt (tmp : List UInt8) (off : Nat) : List UInt8 := memcpyAt tmp off (List.replicate 16 0)

def messageAuthenticatorOk (secret tmp : List UInt8) : Option Nat → Bool
  | some off => decide (field tmp off 16 = hmacMd5 secret (zeroedAt tmp off))
  | none => true

/-- `radius_verify_response`; `true` is the return value 0. -/
def radiusVerifyResponse (req resp secret : List UInt8) : Bool :=
  if req.length < 20 ∨ resp.length < 20 then false
  else if Octets.octet resp 1 ≠ Octets.octet req 1 then false
  else if packetLen resp < 20 ∨ resp.length < packetLen resp ∨ 4096 < packetLen resp then false
  else
    let tmp := substituted req resp
    match Tlv.walk verifyStep (tmp.drop 20).length (false, none) 20 (tmp.drop 20) with
    | none => false
    | some (hasEap, maOff) =>
      if hasEap = true ∧ maOff = none then false
      else if messageAuthenticatorOk secret tmp maOff = false then false
      else
        decide (md5Final (md5Update (md5Update md5Init tmp) secret) = field resp 4 16)

/-! ### What is accepted -/

section Verify

variable {req resp secret : List UInt8}

/-- The authenticator is put into the header, not behind it. -/
theorem drop_substituted (long : 20 ≤ req.length) (header : 20 ≤ packetLen resp)
    (inside : packetLen resp ≤ resp.length) : (substituted req resp).drop 20 = packetBody resp := by
  have size : (field req 4 16).length = 16 := length_field_of_le (by omega)
  have room : 4 + (field req 4 16).length ≤ (resp.take (packetLen resp)).length := by
    rw [size, List.length_take_of_le inside]
    omega
  exact drop_memcpyAt room (by omega)

/-- All that `radius_verify_response` checks. -/
theorem radiusVerifyResponse_eq_true :
    radiusVerifyResponse req resp secret = true ↔
      20 ≤ req.length ∧ Octets.octet resp 1 = Octets.octet req 1 ∧
      20 ≤ packetLen resp ∧ packetLen resp ≤ resp.length ∧ packetLen resp ≤ 4096 ∧
      (∃ as hasEap maOff, Tlv.attributes (packetBody resp) = some as ∧
        Tlv.foldFrom verifyStep (false, none) 20 as = some (hasEap, maOff) ∧
        ¬ (hasEap = true ∧ maOff = none) ∧
        messageAuthenticatorOk secret (substituted req resp) maOff = true) ∧
      md5 (substituted req resp ++ secret) = field resp 4 16 := by
  have digest : md5Final (md5Update (md5Update md5Init (substituted req resp)) secret) =
      md5 (substituted req resp ++ secret) :=
    ((fed_init.update _).update _).final
  constructor
  · intro verified
    unfold radiusVerifyResponse at verified
    split_ifs at verified with short ident len
    have body : (substituted req resp).drop 20 = packetBody resp :=
      drop_substituted (by omega) (by omega) (by omega)
    dsimp only at verified
    rw [body] at verified
    split at verified
    · cases verified
    · next hasEap maOff walked =>
      split_ifs at verified with missing wrong
      obtain ⟨as, is, folded⟩ := Tlv.walk_eq_some.mp walked
      refine ⟨by omega, not_not.mp ident, by omega, by omega, by omega,
        ⟨as, hasEap, maOff, is, folded, missing, by simpa using wrong⟩, ?_⟩
      rw [← digest]
      exact of_decide_eq_true verified
  · rintro ⟨long, ident, header, inside, max, ⟨as, hasEap, maOff, is, folded, found, ok⟩, authentic⟩
    have walked := Tlv.walk_eq_some.mpr ⟨as, is, folded⟩
    unfold radiusVerifyResponse
    rw [if_neg (by omega), if_neg (by simpa using ident), if_neg (by omega)]
    dsimp only
    rw [drop_substituted long header inside, walked]
    dsimp only
    rw [if_neg found, if_neg (by simp [ok]), digest, authentic]
    exact decide_eq_true rfl

/-- The attributes that the loop has gone over when it has found a Message-Authenticator. -/
theorem foldFrom_verifyStep_some {as : List Tlv.Attr} {hasEap hasEap' : Bool} {maOff : Option Nat}
    {pos off : Nat} (folded : Tlv.foldFrom verifyStep (hasEap, some off) pos as =
      some (hasEap', maOff)) :
    maOff = some off ∧ ∀ a ∈ as, a.type ≠ attrMessageAuthenticator := by
  induction as generalizing hasEap pos with
  | nil =>
    obtain ⟨-, rfl⟩ := Prod.mk.inj (Option.some.inj folded)
    exact ⟨rfl, by simp⟩
  | cons a as ih =>
    rw [Tlv.foldFrom, verifyStep] at folded
    by_cases ma : a.type = attrMessageAuthenticator
    · simp [ma] at folded
    · rw [if_neg ma] at folded
      obtain ⟨same, rest⟩ := ih folded
      exact ⟨same, List.forall_mem_cons.mpr ⟨ma, rest⟩⟩

/-- What the loop reports of the attributes. -/
theorem foldFrom_verifyStep {as : List Tlv.Attr} {hasEap hasEap' : Bool} {maOff : Option Nat}
    {pos : Nat} (folded : Tlv.foldFrom verifyStep (hasEap, none) pos as = some (hasEap', maOff)) :
    (maOff = none ∧ ∀ a ∈ as, a.type ≠ attrMessageAuthenticator) ∨
      ∃ before a behind, as = before ++ a :: behind ∧ a.type = attrMessageAuthenticator ∧
        a.value.length = 16 ∧ maOff = some (pos + (Tlv.encodeAll before).length + 2) ∧
        (∀ b ∈ before, b.type ≠ attrMessageAuthenticator) ∧
        ∀ b ∈ behind, b.type ≠ attrMessageAuthenticator := by
  induction as generalizing hasEap pos with
  | nil =>
    obtain ⟨-, rfl⟩ := Prod.mk.inj (Option.some.inj folded)
    exact .inl ⟨rfl, by simp⟩
  | cons a as ih =>
    rw [Tlv.foldFrom, verifyStep] at folded
    by_cases ma : a.type = attrMessageAuthenticator
    · rw [if_pos ma] at folded
      split at folded
      · cases folded
      · next size =>
        obtain ⟨rfl, behind⟩ := foldFrom_verifyStep_some folded
        exact .inr ⟨[], a, as, rfl, ma, by omega, rfl, by simp, behind⟩
    · rw [if_neg ma] at folded
      rcases ih folded with ⟨none, all⟩ | ⟨before, b, behind, rfl, type, size, off, none, none'⟩
      · exact .inl ⟨none, List.forall_mem_cons.mpr ⟨ma, all⟩⟩
      · refine .inr ⟨a :: before, b, behind, rfl, type, size, ?_,
          List.forall_mem_cons.mpr ⟨ma, none⟩, none'⟩
        rw [off, Tlv.encodeAll_cons, List.length_append, Tlv.length_encode]
        congr 1
        omega

/-- The walk notices whether there is an EAP message. -/
theorem foldFrom_verifyStep_eap {as : List Tlv.Attr} {found found' : Bool × Option Nat} {pos : Nat}
    (folded : Tlv.foldFrom verifyStep found pos as = some found') :
    (found'.1 = true ↔ found.1 = true ∨ ∃ a ∈ as, a.type = attrEapMessage) := by
  induction as generalizing found pos with
  | nil =>
    obtain rfl := Option.some.inj folded
    simp
  | cons a as ih =>
    rw [Tlv.foldFrom] at folded
    obtain ⟨next, stepped, folded⟩ := Option.bind_eq_some_iff.mp folded
    have hasEap : next.1 = (found.1 || decide (a.type = attrEapMessage)) := by
      unfold verifyStep at stepped
      dsimp only at stepped
      split_ifs at stepped <;> exact congrArg Prod.fst (Option.some.inj stepped).symm
    rw [ih folded, hasEap]
    simp [or_assoc]

end Verify

section Parse

variable {stateCap eapCap : Nat} {resp : List UInt8}

/-- The loop of the parser concatenates the values of either type, as long as they fit. -/
theorem foldFrom_parseStep {as : List Tlv.Attr} {state eap : List UInt8} {pos : Nat}
    (stateFits : state.length ≤ stateCap) (eapFits : eap.length ≤ eapCap) :
    Tlv.foldFrom (parseStep stateCap eapCap) (state, eap) pos as =
      if state.length + (Tlv.collect attrState as).length ≤ stateCap ∧
          eap.length + (Tlv.collect attrEapMessage as).length ≤ eapCap then
        some (state ++ Tlv.collect attrState as, eap ++ Tlv.collect attrEapMessage as)
      else none := by
  induction as generalizing state eap pos with
  | nil => simp [Tlv.foldFrom, stateFits, eapFits]
  | cons a as ih =>
    rw [Tlv.foldFrom, parseStep, Tlv.collect_cons, Tlv.collect_cons]
    by_cases isState : a.type = attrState
    · have notEap : a.type ≠ attrEapMessage := by
        rw [isState]
        decide
      simp only [if_pos isState, if_neg notEap, List.nil_append, List.length_append]
      split
      · next large => rw [Option.bind_none, if_neg (by omega)]
      · next fits =>
        rw [Option.bind_some, ih (by rw [List.length_append]; omega) eapFits]
        simp [Nat.add_assoc]
    · by_cases isEap : a.type = attrEapMessage
      · simp only [if_neg isState, if_pos isEap, List.nil_append, List.length_append]
        split
        · next large => rw [Option.bind_none, if_neg (by omega)]
        · next fits =>
          rw [Option.bind_some, ih stateFits (by rw [List.length_append]; omega)]
          simp [Nat.add_assoc]
      · simp only [if_neg isState, if_neg isEap, List.nil_append]
        rw [Option.bind_some, ih stateFits eapFits]

/-- All that `radius_parse_response` checks, and what it returns. -/
theorem radiusParseResponse_eq_some {answer : RelayAnswer} :
    radiusParseResponse stateCap eapCap resp = some answer ↔
      20 ≤ packetLen resp ∧ packetLen resp ≤ resp.length ∧
      ∃ as result, Tlv.attributes (packetBody resp) = some as ∧
        (Tlv.collect attrState as).length ≤ stateCap ∧
        (Tlv.collect attrEapMessage as).length ≤ eapCap ∧
        resultOfCode (Octets.octet resp 0) = some result ∧
        answer = ⟨result, Tlv.collect attrState as, Tlv.collect attrEapMessage as⟩ := by
  have loop {as : List Tlv.Attr} {out : List UInt8 × List UInt8} :
      Tlv.foldFrom (parseStep stateCap eapCap) ([], []) 20 as = some out ↔
        (Tlv.collect attrState as).length ≤ stateCap ∧
        (Tlv.collect attrEapMessage as).length ≤ eapCap ∧
        out = (Tlv.collect attrState as, Tlv.collect attrEapMessage as) := by
    rw [foldFrom_parseStep (Nat.zero_le stateCap) (Nat.zero_le eapCap)]
    simp only [List.length_nil, Nat.zero_add, List.nil_append]
    split
    · next fits => simp [fits, eq_comm]
    · next large => simp only [reduceCtorEq, false_iff, not_and]; tauto
  constructor
  · intro parsed
    unfold radiusParseResponse at parsed
    split_ifs at parsed with short len
    refine ⟨by omega, by omega, ?_⟩
    split at parsed
    · cases parsed
    · next state eap walked =>
      obtain ⟨as, is, folded⟩ := Tlv.walk_eq_some.mp walked
      obtain ⟨stateFits, eapFits, same⟩ := loop.mp folded
      obtain ⟨rfl, rfl⟩ := Prod.mk.inj same
      obtain ⟨result, code, rfl⟩ := Option.map_eq_some_iff.mp parsed
      exact ⟨as, result, is, stateFits, eapFits, code, rfl⟩
  · rintro ⟨header, inside, as, result, is, stateFits, eapFits, code, rfl⟩
    have walked := Tlv.walk_eq_some.mpr ⟨as, is, loop.mpr ⟨stateFits, eapFits, rfl⟩⟩
    unfold radiusParseResponse
    rw [if_neg (by omega), if_neg (by omega), walked]
    simp only [code, Option.map_some]

end Parse

/-! ### Authentication of answers -/

/-- What an answer that is verified and parsed owes to the shared secret. -/
structure Authenticated (req resp secret : List UInt8) (as : List Tlv.Attr) (answer : RelayAnswer) :
    Prop where
  /-- There is no second Message-Authenticator. -/
  unique : (as.filter (·.type = attrMessageAuthenticator)).length ≤ 1
  /-- An answer with an EAP-Message has one. -/
  present : (∃ a ∈ as, a.type = attrEapMessage) →
    (as.filter (·.type = attrMessageAuthenticator)).length = 1
  /-- So has one that hands an EAP payload to the SMF. -/
  payload : answer.eap ≠ [] → (as.filter (·.type = attrMessageAuthenticator)).length = 1
  /-- Its value is the HMAC of the packet with the authenticator of the request, and with
  zeros for the value. -/
  value : ∀ before a behind, as = before ++ a :: behind → a.type = attrMessageAuthenticator →
    a.value = Hash.hmac 64 md5 secret
      (zeroedAt (substituted req resp) (20 + (Tlv.encodeAll before).length + 2))
  /-- The Response Authenticator. -/
  authenticator : field resp 4 16 = md5 (substituted req resp ++ secret)

section Authentication

variable {req resp secret : List UInt8} {as : List Tlv.Attr}

/-- The Message-Authenticator's value in the packet. -/
theorem field_value {before behind : List Tlv.Attr} {a : Tlv.Attr} {tmp : List UInt8}
    (is : Tlv.attributes (tmp.drop 20) = some (before ++ a :: behind))
    (size : a.value.length = 16) :
    field tmp (20 + (Tlv.encodeAll before).length + 2) 16 = a.value := by
  obtain ⟨rest, split, -⟩ := Tlv.attributes_eq_some_iff.mp is
  have shift : field tmp (20 + (Tlv.encodeAll before).length + 2) 16 =
      field (tmp.drop 20) ((Tlv.encodeAll before).length + 2) 16 := by
    rw [field, field, List.drop_drop, Nat.add_assoc]
  rw [shift]
  exact field_eq (Tlv.encodeAll before ++ [a.type, UInt8.ofNat (2 + a.value.length)]) a.value
    (Tlv.encodeAll behind ++ rest) (by simp [split, Tlv.Attr.encode]) (by simp) size

theorem filter_eq_nil_of_forall {type : UInt8} (none : ∀ a ∈ as, a.type ≠ type) :
    as.filter (·.type = type) = [] := by
  rw [List.filter_eq_nil_iff]
  simpa using none

theorem filter_eq_singleton {before behind : List Tlv.Attr} {a : Tlv.Attr} {type : UInt8}
    (same : a.type = type) (none : ∀ b ∈ before, b.type ≠ type)
    (none' : ∀ b ∈ behind, b.type ≠ type) :
    (before ++ a :: behind).filter (·.type = type) = [a] := by
  rw [List.filter_append, List.filter_cons_of_pos (by simpa using same),
    filter_eq_nil_of_forall none, filter_eq_nil_of_forall none']
  rfl

/-- The only attribute of its type has one position. -/
theorem eq_of_unique_type {before behind before₂ behind₂ : List Tlv.Attr} {a a₂ : Tlv.Attr}
    {type : UInt8} (split : before ++ a :: behind = before₂ ++ a₂ :: behind₂)
    (same : a₂.type = type) (none : ∀ b ∈ before, b.type ≠ type)
    (none' : ∀ b ∈ behind, b.type ≠ type) :
    before = before₂ ∧ a = a₂ := by
  rcases List.append_eq_append_iff.mp split with ⟨more, front, tail⟩ | ⟨more, front, tail⟩
  · cases more with
    | nil =>
      obtain ⟨rfl, -⟩ := List.cons.inj tail
      exact ⟨by rw [front, List.append_nil], rfl⟩
    | cons b more =>
      obtain ⟨rfl, later⟩ := List.cons.inj tail
      exact absurd same (none' a₂ (by simp [later]))
  · cases more with
    | nil =>
      obtain ⟨rfl, -⟩ := List.cons.inj tail
      exact ⟨by rw [front, List.append_nil], rfl⟩
    | cons b more =>
      obtain ⟨rfl, -⟩ := List.cons.inj tail
      exact absurd same (none a₂ (by simp [front]))

end Authentication

/-- The Response Authenticator covers every answer that is accepted. A Message-Authenticator
does so at most once, always with the right value, and always if there is an EAP-Message. -/
theorem radius_answer_authenticated {req resp secret : List UInt8} (stateCap eapCap : Nat)
    {answer : RelayAnswer} (verified : radiusVerifyResponse req resp secret = true)
    (parsed : radiusParseResponse stateCap eapCap resp = some answer) :
    ∃ as, Tlv.attributes (packetBody resp) = some as ∧ Authenticated req resp secret as answer := by
  obtain ⟨long, -, header, inside, -, ⟨as, hasEap, maOff, is, folded, found, ok⟩, authentic⟩ :=
    radiusVerifyResponse_eq_true.mp verified
  obtain ⟨-, -, as', result, is', -, -, -, rfl⟩ := radiusParseResponse_eq_some.mp parsed
  obtain rfl : as = as' := Option.some.inj (is.symm.trans is')
  have eap := foldFrom_verifyStep_eap folded
  simp only [Bool.false_eq_true, false_or] at eap
  have carries : Tlv.collect attrEapMessage as ≠ [] → ∃ a ∈ as, a.type = attrEapMessage := by
    intro some
    by_contra none
    exact some (Tlv.collect_of_none fun a mem same => none ⟨a, mem, same⟩)
  refine ⟨as, is, ?_⟩
  rcases foldFrom_verifyStep folded with
    ⟨rfl, none⟩ | ⟨before, a, behind, rfl, type, size, rfl, before', behind'⟩
  · have noEap : ¬ ∃ a ∈ as, a.type = attrEapMessage := fun some => found ⟨eap.mpr some, rfl⟩
    exact {
      unique := by rw [filter_eq_nil_of_forall none]; decide
      present := fun some => absurd some noEap
      payload := fun some => absurd (carries some) noEap
      value := fun b a c split type => absurd type (none a (by simp [split]))
      authenticator := authentic.symm }
  · have one := filter_eq_singleton type before' behind'
    have right : a.value = Hash.hmac 64 md5 secret
        (zeroedAt (substituted req resp) (20 + (Tlv.encodeAll before).length + 2)) := by
      rw [← hmacMd5_eq, ← of_decide_eq_true ok]
      rw [← drop_substituted long header inside] at is
      exact (field_value is size).symm
    exact {
      unique := by rw [one]; exact Nat.le_refl 1
      present := fun _ => by rw [one]; rfl
      payload := fun _ => by rw [one]; rfl
      value := by
        intro before₂ a₂ behind₂ split type₂
        obtain ⟨rfl, rfl⟩ := eq_of_unique_type split type₂ before' behind'
        exact right
      authenticator := authentic.symm }

/-- `testing123`, and an authenticator of zeros. -/
def someParams : RadiusParams where
  secret := [0x74, 0x65, 0x73, 0x74, 0x69, 0x6e, 0x67, 0x31, 0x32, 0x33]
  identifier := 1
  auth := Block.fill 16 0

/-- The request that relays the first response of a UE. -/
def someRequest : List UInt8 :=
  [1, 1, 0, 76, 0, 0, 0, 0, 0, 0, 0, 0, 0, 0, 0, 0, 0, 0, 0, 0] ++
    (1 :: 22 :: someSupi.octets) ++ [6, 4, 0, 2, 61, 4, 0, 5, 79, 8, 2, 1, 0, 6, 56, 0] ++
    [80, 18, 220, 142, 66, 130, 54, 68, 77, 44, 165, 64, 213, 251, 222, 17, 221, 24]

/-- A challenge with an EAP-Message, a State and a Message-Authenticator. -/
def someChallenge : List UInt8 :=
  [11, 1, 0, 49, 57, 39, 32, 250, 136, 162, 138, 220, 166, 187, 70, 83, 65, 185, 147, 120] ++
    [79, 8, 1, 2, 0, 6, 56, 0, 24, 3, 0x5A] ++
    [80, 18, 242, 62, 149, 75, 125, 247, 126, 241, 171, 10, 227, 89, 93, 40, 182, 58]

/-- The challenge of a server that has the secret. -/
theorem someChallenge_authenticated :
    ∃ as, Tlv.attributes (packetBody someChallenge) = some as ∧
      Authenticated someRequest someChallenge someParams.secret as
        ⟨resultChallenge, [0x5A], [1, 2, 0, 6, 56, 0]⟩ :=
  radius_answer_authenticated 2048 8192 (by decide +kernel) (by decide +kernel)

def bareAccept : List UInt8 :=
  [2, 1, 0, 20, 185, 199, 79, 56, 132, 244, 180, 16, 102, 62, 105, 1, 199, 255, 231, 147]

/-- Although the request has an EAP-Message, an answer without a Message-Authenticator is
accepted. -/
theorem bareAccept_not_authenticated :
    ¬ ∀ p username state eap req resp answer,
      radiusBuildRequest p 8192 username state eap = some req →
      radiusVerifyResponse req resp p.secret = true →
      radiusParseResponse 2048 8192 resp = some answer →
      ∃ as, Tlv.attributes (packetBody resp) = some as ∧
        (as.filter (·.type = attrMessageAuthenticator)).length = 1 := by
  intro authenticated
  obtain ⟨as, is, one⟩ :=
    authenticated someParams someSupi [] [2, 1, 0, 6, 56, 0] someRequest bareAccept
    ⟨resultAccept, [], []⟩ (by decide +kernel) (by decide +kernel) (by decide +kernel)
  have none : Tlv.attributes (packetBody bareAccept) = some [] := by decide
  rw [none, Option.some.injEq] at is
  subst is
  cases one

end EdhocAuth.Upf
