/-
What the core network makes of the answers of a UE.

The AMF compares HXRES*, the AUSF compares RES* itself, and only then the AMF goes on with a K_AMF.
`authenticated_justified` says for every run that the answer is the XRES* of the vector the core has
sent last, that K_AMF comes from K_AUSF of the same vector, and that the vector is spent with it.
Only T3560 may have expired since that vector. The result rests on SBI exchanges that end before the
next message of the UE: an answer that comes again before the AUSF has confirmed the first is
confirmed again.
-/

import EdhocAuth.Primary.Agreement

namespace EdhocAuth.Primary

open Octets Aka Machine

variable {aes : Cipher} {hmac : Hmac} {sha256 : List UInt8 → Block UInt8 32}

/-- The AMF holds what the AUSF has kept of the vector it has handed out last. -/
structure Handed (sha256 : List UInt8 → Block UInt8 32) (core : CoreNetwork) : Prop where
  rand : core.amf.rand = core.ausf.rand
  hxresStar : core.amf.hxresStar = ogsKdfHxresStar sha256 core.ausf.rand core.ausf.xresStar
  snn : core.ausf.servingNetworkName = core.amf.snn

/-- K_AMF of the vector that the AUSF keeps. -/
def kamfOf (hmac : Hmac) (core : CoreNetwork) : Block UInt8 32 :=
  ogsKdfKamf hmac core.amf.supi core.amf.abba
    (ogsKdfKseaf hmac core.ausf.servingNetworkName core.ausf.kausf)

inductive Reaction (aes : Cipher) (hmac : Hmac) (sha256 : List UInt8 → Block UInt8 32)
    (core : CoreNetwork) (i : CoreInput) (r : CoreNetwork × List CoreOutput) : Prop where
  /-- Another vector. -/
  | vector (input : i ≠ .t3560)
      (sent : r.2 = [.authenticationRequest (gmmBuildAuthenticationRequest r.1.amf)])
      (handed : Handed sha256 r.1)
  /-- The same vector again. -/
  | resent (input : i = .t3560) (awaited : core.amf.authenticating = true)
      (sent : ∃ msg t3560, r = ({ core with amf := { core.amf with t3560 := t3560 } },
        [.authenticationRequest msg]))
  /-- The end without a key. -/
  | rejected (sent : r.2 = [.reject]) (finished : r.1.amf.authenticating = false)
  /-- The end with a key. -/
  | confirmed (resStar : Block UInt8 16) (input : i = .authenticationResponse resStar.toList)
      (awaited : core.amf.authenticating = true)
      (hashed : ogsKdfHxresStar sha256 core.amf.rand resStar = core.amf.hxresStar)
      (same : resStar = core.ausf.xresStar) (sent : r.2 = [.authenticated (kamfOf hmac core)])
      (finished : r.1.amf.authenticating = false) (spent : r.1.doc = ogsDbiIncrementSqn core.doc)
  /-- Nothing is expected. -/
  | ignored (idle : core.amf.authenticating = false) (unchanged : r = (core, []))

/-- A request for a vector is sent on with it, or nothing comes of it. -/
theorem reaction_authenticate {core : CoreNetwork} (cleared : core.amf.t3560.pkbuf = none)
    (auts : Option (Block UInt8 14)) (rand : Block UInt8 16) (core' : CoreNetwork) {i : CoreInput}
    (input : i ≠ .t3560) :
    Reaction aes hmac sha256 core' i (authenticate aes hmac sha256 core auts rand) := by
  simp only [authenticate, nas5gsSendAuthenticationRequest, amfHandleAuthenticate, cleared,
    Option.getD_none]
  generalize udmHandleGet aes core.udm core.amf.snn
    (auts.map fun auts => (core.amf.rand, auts)) = got
  obtain ⟨udm, result⟩ := got
  cases result with
  | error _ => exact .rejected rfl rfl
  | ok request => exact .vector input rfl ⟨rfl, rfl, rfl⟩

/-- A response is confirmed if it is RES* of the vector, and rejected otherwise. -/
theorem reaction_confirm {core : CoreNetwork} {resStar : Block UInt8 16}
    (awaited : core.amf.authenticating = true)
    (hashed : ogsKdfHxresStar sha256 core.amf.rand resStar = core.amf.hxresStar) :
    Reaction aes hmac sha256 core (.authenticationResponse resStar.toList)
      (confirm aes hmac core.clearT3560 resStar) := by
  unfold confirm
  by_cases same : resStar = core.ausf.xresStar
  · have success : ausfConfirm core.clearT3560.ausf resStar = true := decide_eq_true same
    rw [success]
    exact .confirmed resStar rfl awaited hashed same rfl rfl rfl
  · have failure : ausfConfirm core.clearT3560.ausf resStar = false := decide_eq_false same
    rw [failure]
    exact .rejected rfl rfl

theorem reaction_response {core : CoreNetwork} (awaited : core.amf.authenticating = true)
    (resStar : List UInt8) :
    Reaction aes hmac sha256 core (.authenticationResponse resStar)
      (gmmHandleAuthenticationResponse aes hmac sha256 core resStar) := by
  unfold gmmHandleAuthenticationResponse
  cases found : sixteen resStar with
  | none => exact .rejected rfl rfl
  | some block =>
    have same : resStar = block.toList := toList_of_sixteen found
    subst same
    by_cases hashed : ogsKdfHxresStar sha256 core.amf.rand block = core.amf.hxresStar
    · simp only [ne_eq, CoreNetwork.clearT3560, AmfUe.clearT3560, hashed, not_true_eq_false,
        if_false]
      exact reaction_confirm awaited hashed
    · simp only [ne_eq, CoreNetwork.clearT3560, AmfUe.clearT3560, hashed, not_false_eq_true,
        if_true]
      exact .rejected rfl rfl

theorem reaction_failure (core : CoreNetwork) (cause : EMmCause) (auts : List UInt8)
    (rand : Block UInt8 16) :
    Reaction aes hmac sha256 core (.authenticationFailure cause auts rand)
      (gmmHandleAuthenticationFailure aes hmac sha256 core cause auts rand) := by
  unfold gmmHandleAuthenticationFailure
  cases cause with
  | ngksiAlreadyInUse => exact reaction_authenticate rfl _ _ _ CoreInput.noConfusion
  | synchFailure =>
    by_cases size : auts.length = 14
    · simp only [dif_pos size]
      exact reaction_authenticate rfl _ _ _ CoreInput.noConfusion
    · simp only [dif_neg size]
      exact .rejected rfl rfl
  | macFailure => exact .rejected rfl rfl
  | non5gAuthenticationUnacceptable => exact .rejected rfl rfl
  | semanticallyIncorrectMessage => exact .rejected rfl rfl
  | unspecifiedProtocolError => exact .rejected rfl rfl

theorem reaction_expiry {core : CoreNetwork} (awaited : core.amf.authenticating = true) :
    Reaction aes hmac sha256 core .t3560 (t3560Expired core) := by
  unfold t3560Expired
  split
  · exact .rejected rfl rfl
  · exact .resent rfl awaited ⟨_, _, rfl⟩

/-- What any input can do. -/
theorem coreStep_reaction (aes : Cipher) (hmac : Hmac) (sha256 : List UInt8 → Block UInt8 32)
    (core : CoreNetwork) (i : CoreInput) :
    Reaction aes hmac sha256 core i (coreStep aes hmac sha256 core i) := by
  have unexpected (idle : core.amf.authenticating = false) {r : CoreNetwork × List CoreOutput} :
      Reaction aes hmac sha256 core i
        (if core.amf.authenticating = true then r else (core, [])) := by
    rw [idle, if_neg Bool.false_ne_true]
    exact .ignored idle rfl
  cases i with
  | start ksi rand => exact reaction_authenticate rfl none rand core CoreInput.noConfusion
  | authenticationResponse resStar =>
    rw [coreStep]
    cases awaited : core.amf.authenticating with
    | false => exact awaited ▸ unexpected awaited
    | true => exact reaction_response awaited resStar
  | authenticationFailure cause auts rand =>
    rw [coreStep]
    cases awaited : core.amf.authenticating with
    | false => exact awaited ▸ unexpected awaited
    | true => exact reaction_failure core cause auts rand
  | t3560 =>
    rw [coreStep]
    cases awaited : core.amf.authenticating with
    | false => exact awaited ▸ unexpected awaited
    | true => exact reaction_expiry awaited

/-- While an answer is awaited, the last input but for expiries of T3560 was the one that made the
vector. -/
theorem awaited_vector {core : CoreNetwork} (idle : core.amf.authenticating = false)
    (before : List CoreInput)
    (awaited : (after (coreStep aes hmac sha256) core before).amf.authenticating = true) :
    ∃ earlier j later, before = earlier ++ j :: later ∧ j ≠ .t3560 ∧ (∀ i ∈ later, i = .t3560) ∧
      (coreStep aes hmac sha256 (after (coreStep aes hmac sha256) core earlier) j).2 =
        [.authenticationRequest (gmmBuildAuthenticationRequest
          (after (coreStep aes hmac sha256) core before).amf)] ∧
      Handed sha256 (after (coreStep aes hmac sha256) core before) := by
  induction before using List.reverseRecOn with
  | nil =>
    rw [after, idle] at awaited
    cases awaited
  | append_singleton front last ih =>
    rw [after_concat] at awaited ⊢
    cases coreStep_reaction aes hmac sha256
        (after (coreStep aes hmac sha256) core front) last with
    | vector input sent handed =>
      exact ⟨front, last, [], rfl, input, fun _ none => absurd none List.not_mem_nil, sent, handed⟩
    | resent input awaited' again =>
      obtain ⟨msg, t3560, again⟩ := again
      obtain ⟨earlier, j, later, split, made, expired, sent, handed⟩ := ih awaited'
      refine ⟨earlier, j, later ++ [last], ?_, made, ?_, ?_, ?_⟩
      · rw [split, List.append_assoc, List.cons_append]
      · intro i mem
        rcases List.mem_append.mp mem with old | new
        · exact expired i old
        · rw [List.mem_singleton.mp new, input]
      · rw [sent, again]
        rfl
      · rw [again]
        exact ⟨handed.rand, handed.hxresStar, handed.snn⟩
    | rejected _ finished =>
      rw [finished] at awaited
      cases awaited
    | confirmed _ _ _ _ _ _ finished _ =>
      rw [finished] at awaited
      cases awaited
    | ignored idle' unchanged =>
      rw [unchanged, idle'] at awaited
      cases awaited

/-- In every run the core goes on with a K_AMF only if the answer is the XRES* of the vector it has
made last, since when T3560 may have expired and nothing else has happened. K_AMF is derived from
K_AUSF of this vector; after it no answer is awaited, and the number in the document has moved
on. -/
theorem authenticated_justified (aes : Cipher) (hmac : Hmac)
    (sha256 : List UInt8 → Block UInt8 32) (core : CoreNetwork)
    (idle : core.amf.authenticating = false) (before : List CoreInput) (i : CoreInput)
    (kamf : Block UInt8 32)
    (goesOn : .authenticated kamf ∈ (coreStep aes hmac sha256
      (after (coreStep aes hmac sha256) core before) i).2) :
    let s := after (coreStep aes hmac sha256) core before
    let s' := (coreStep aes hmac sha256 s i).1
    i = .authenticationResponse s.ausf.xresStar.toList ∧
      (∃ earlier j later, before = earlier ++ j :: later ∧ j ≠ .t3560 ∧
        (∀ i ∈ later, i = .t3560) ∧
        (coreStep aes hmac sha256 (after (coreStep aes hmac sha256) core earlier) j).2 =
          [.authenticationRequest (gmmBuildAuthenticationRequest s.amf)]) ∧
      s.amf.rand = s.ausf.rand ∧
      kamf = ogsKdfKamf hmac s.amf.supi s.amf.abba (ogsKdfKseaf hmac s.amf.snn s.ausf.kausf) ∧
      s'.amf.authenticating = false ∧ s'.doc.sqn = (s.doc.sqn + 32) % 2 ^ 48 := by
  intro s s'
  cases coreStep_reaction aes hmac sha256 s i with
  | vector _ sent _ =>
    rw [sent] at goesOn
    cases List.mem_singleton.mp goesOn
  | resent _ _ again =>
    obtain ⟨msg, t3560, again⟩ := again
    rw [again] at goesOn
    cases List.mem_singleton.mp goesOn
  | rejected sent _ =>
    rw [sent] at goesOn
    cases List.mem_singleton.mp goesOn
  | ignored _ unchanged =>
    rw [unchanged] at goesOn
    exact absurd goesOn List.not_mem_nil
  | confirmed resStar input awaited hashed same sent finished spent =>
    obtain ⟨earlier, j, later, split, made, expired, request, handed⟩ :=
      awaited_vector idle before awaited
    rw [sent] at goesOn
    have key := List.mem_singleton.mp goesOn
    injection key with key
    subst same
    refine ⟨input, ⟨earlier, j, later, split, made, expired, request⟩, handed.rand, ?_, finished,
      ?_⟩
    · rw [key, kamfOf, handed.snn]
    · show (coreStep aes hmac sha256 s i).1.doc.sqn = _
      rw [spent]
      exact Nat.and_two_pow_sub_one_eq_mod (s.doc.sqn + 32) 48

/-- The answer to the first vector. -/
theorem plain_justified :
    (after (coreStep plainCipher plainHmac plainSha256) plainCore [plainStart]).amf.rand =
      plainAsking.ausf.rand ∧
    kamfFor plainCipher plainHmac plainCfg plainAsking.amf plainRand (sqnBuffer 32) =
      ogsKdfKamf plainHmac plainAsking.amf.supi plainAsking.amf.abba
        (ogsKdfKseaf plainHmac plainAsking.amf.snn plainAsking.ausf.kausf) := by
  have goesOn : .authenticated (kamfFor plainCipher plainHmac plainCfg plainAsking.amf plainRand
      (sqnBuffer 32)) ∈ (coreStep plainCipher plainHmac plainSha256 plainAsking
        (.authenticationResponse (resStarOf plainCipher plainHmac plainCfg plainAsking.amf.snn
          plainRand))).2 := by
    rw [confirmed plain_waiting]
    exact List.mem_singleton_self _
  obtain ⟨-, -, rand, key, -⟩ := authenticated_justified plainCipher plainHmac plainSha256 plainCore
    rfl [plainStart] _ _ goesOn
  exact ⟨rand, key⟩

end EdhocAuth.Primary
