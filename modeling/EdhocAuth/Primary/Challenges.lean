/-
What one input can do in the UE.

`challenged` is the RAND and AUTN that an input gives to `validateAutn`, if it gets that far.
`mmStep_outcome` says everything a step does to the sequence numbers and to the stored RAND, and
what it may answer; the results on runs use nothing else.
-/

import EdhocAuth.Lib.Freshness
import EdhocAuth.Primary.Mm

namespace EdhocAuth.Primary

open Octets Aka Eap

/-! ### Challenges and answers -/

section Terms

variable (aes : Cipher) (hmac : Hmac) (cfg : UeConfig)

/-- What MILENAGE computes of a RAND alone. -/
def f2345Of (rand : Block UInt8 16) : F2345 :=
  milenageF2345 aes ueRotations (cfg.opcOf aes) cfg.key rand

def sqnOf (rand autn : Block UInt8 16) : Block UInt8 6 :=
  Bits.xor (sqnXorAkOf autn) (f2345Of aes cfg rand).ak

/-- The MAC-A of a sequence number, with the AMF of the configuration. -/
def macAOf (rand : Block UInt8 16) (sqn : Block UInt8 6) : Block UInt8 8 :=
  (milenageF1 aes ueRotations (cfg.opcOf aes) cfg.key rand sqn cfg.amf).1

/-- An AUTN whose separation bit and MAC are right. -/
structure Verified (rand autn : Block UInt8 16) : Prop where
  separated : separationBit autn = true
  mac : macOf autn = macAOf aes cfg rand (sqnOf aes cfg rand autn)

def resStarOf (snn : CString) (rand : Block UInt8 16) : List UInt8 :=
  let f := f2345Of aes cfg rand
  calculateResStar hmac (f.ck.toList ++ f.ik.toList) snn.octets rand.toList f.res.toList

/-- The output answers a challenge: a response with RES*, or an EAP response to the challenge. -/
def IsAnswer : MmOutput → Prop
  | .authenticationResponse _ => True
  | .eapResponse ⟨_, _, .akaPrime subType _⟩ => subType = akaChallenge
  | _ => False

/-- The output answers this RAND. -/
def Answers (snn : CString) (rand : Block UInt8 16) : MmOutput → Prop
  | .authenticationResponse resStar => resStar = resStarOf aes hmac cfg snn rand
  | .eapResponse eap =>
      ∃ kaut id modes eph,
        eap = challengeResponse hmac kaut id (f2345Of aes cfg rand).res modes eph
  | _ => False

end Terms

/-- The challenge that an input puts to the UE after the checks of the message. -/
def checkRequest (u : NasMm) (msg : AuthenticationRequest) : Checked Challenge :=
  if u.valid = false then .error (u, [])
  else
    match msg.eapMessage with
    | some eap => (checkEap u msg eap).map (·.1)
    | none => check5gAka u msg

/-- The challenge whose AUTN is checked: that of 5G-AKA is not if its RAND is the stored one. -/
def challenged (u : NasMm) : MmInput → Option Challenge
  | .procedure _ => none
  | .request msg _ =>
    match checkRequest u msg with
    | .error _ => none
    | .ok c => if msg.eapMessage.isNone ∧ u.rand = c.rand.toList then none else some c

variable {aes : Cipher} {hmac : Hmac} {cfg : UeConfig}

/-! ### AUTN -/

/-- The result of `validateAutn` once the separation bit has been found set. -/
def autnVerdict (macMatches fresh : Bool) : EAutnValidationRes :=
  if macMatches = false then .macFailure else if fresh = false then .synchronisationFailure else .ok

/-- AUTN is judged by its separation bit, its MAC and its sequence number. -/
theorem validateAutn_eq (m : SqnManager) (rand autn : Block UInt8 16) :
    validateAutn aes cfg m rand autn =
      if separationBit autn = false then (m, .amfSeparationBitFailure)
      else
        ((m.checkSqn (sqnOf aes cfg rand autn)).1,
          autnVerdict (macOf autn = macAOf aes cfg rand (sqnOf aes cfg rand autn))
            (m.checkSqn (sqnOf aes cfg rand autn)).2) := by
  unfold validateAutn
  by_cases separated : separationBit autn = false
  · rw [if_pos separated, if_pos separated]
  · rw [if_neg separated, if_neg separated]
    have ak : (calculateMilenage aes cfg m.getSqn rand false).ak = (f2345Of aes cfg rand).ak := rfl
    have mac (sqn : Block UInt8 6) :
        (calculateMilenage aes cfg sqn rand false).macA = macAOf aes cfg rand sqn := rfl
    have sqn : Bits.xor (sqnXorAkOf autn) (f2345Of aes cfg rand).ak = sqnOf aes cfg rand autn := rfl
    simp only [ak, mac, sqn]
    rcases m.checkSqn (sqnOf aes cfg rand autn) with ⟨m', fresh⟩
    unfold autnVerdict
    by_cases same : macOf autn = macAOf aes cfg rand (sqnOf aes cfg rand autn)
    · cases fresh <;> simp [same]
    · simp [same]

/-- The sequence number is checked, and stored, whatever the MAC is. -/
theorem validateAutn_manager (m : SqnManager) (rand autn : Block UInt8 16) :
    (validateAutn aes cfg m rand autn).1 =
      if separationBit autn = false then m else (m.checkSqn (sqnOf aes cfg rand autn)).1 := by
  rw [validateAutn_eq]
  split <;> rfl

/-- AUTN is accepted if the MAC is right and the number fresh. -/
theorem autnVerdict_eq_ok {macMatches fresh : Bool} :
    autnVerdict macMatches fresh = .ok ↔ macMatches = true ∧ fresh = true := by
  cases macMatches <;> cases fresh <;> decide

/-- AUTN is accepted if it is verified and its number is taken. -/
theorem validateAutn_eq_ok {m : SqnManager} {rand autn : Block UInt8 16} :
    (validateAutn aes cfg m rand autn).2 = .ok ↔
      Verified aes cfg rand autn ∧ (m.checkSqn (sqnOf aes cfg rand autn)).2 = true := by
  rw [validateAutn_eq]
  by_cases separated : separationBit autn = false
  · rw [if_pos separated]
    constructor
    · intro impossible
      cases impossible
    · rintro ⟨verified, -⟩
      exact absurd (separated.symm.trans verified.separated) Bool.false_ne_true
  · rw [if_neg separated, autnVerdict_eq_ok, decide_eq_true_iff]
    constructor
    · rintro ⟨mac, fresh⟩
      exact ⟨⟨Bool.eq_true_of_not_eq_false separated, mac⟩, fresh⟩
    · rintro ⟨verified, fresh⟩
      exact ⟨verified.mac, fresh⟩

/-! ### Steps that answer nothing -/

/-- A handler has answered no challenge. It may have deleted RAND and RES*. -/
structure Quiet (u : NasMm) (r : NasMm × List MmOutput) : Prop where
  sqnMng : r.1.sqnMng = u.sqnMng
  rand : r.1.rand = u.rand ∨ r.1.rand = []
  silent : ∀ o ∈ r.2, ¬ IsAnswer o

theorem quiet_same (u : NasMm) {out : List MmOutput} (silent : ∀ o ∈ out, ¬ IsAnswer o) :
    Quiet u (u, out) :=
  ⟨rfl, .inl rfl, silent⟩

theorem silent_nil : ∀ o ∈ ([] : List MmOutput), ¬ IsAnswer o := by
  intro o mem
  exact absurd mem List.not_mem_nil

theorem silent_singleton {o : MmOutput} (none : ¬ IsAnswer o) : ∀ o' ∈ [o], ¬ IsAnswer o' := by
  intro o' mem
  rwa [List.mem_singleton.mp mem]

theorem quiet_sendFailure (u : NasMm) (cause : EMmCause) (auts : Option (List UInt8)) :
    Quiet u (sendFailure u cause auts) :=
  ⟨rfl, .inr rfl, silent_singleton id⟩

theorem quiet_sendEapFailure (u : NasMm) (id subType : UInt8) (as : EapAttributes)
    (other : subType ≠ akaChallenge) : Quiet u (sendEapFailure u id subType as) :=
  ⟨rfl, .inr rfl, silent_singleton other⟩

/-- A failure is reported, or the network is given up: neither answers. -/
theorem quiet_failing (u : NasMm) {fail : NasMm → NasMm × List MmOutput}
    (quiet : ∀ v, Quiet v (fail v)) : Quiet u (failing u fail) := by
  unfold failing networkFailingTheAuthCheck
  by_cases chance : u.nwConsecutiveAuthFailure < 3
  · simp only [if_pos chance]
    have here := quiet { u with nwConsecutiveAuthFailure := u.nwConsecutiveAuthFailure + 1 }
    exact ⟨here.sqnMng, here.rand, here.silent⟩
  · simp only [if_neg chance]
    refine ⟨rfl, .inl rfl, ?_⟩
    intro o mem
    cases connected : u.connected with
    | false =>
      rw [connected] at mem
      exact absurd mem List.not_mem_nil
    | true =>
      rw [connected] at mem
      rw [List.mem_singleton.mp mem]
      exact id

/-- A key set identifier that is refused leaves RAND and numbers alone. -/
theorem quiet_checkNgKsi {u : NasMm} {ngKSI : NgKsi} {early : NasMm × List MmOutput}
    (returned : checkNgKsi u ngKSI = .error early) : Quiet u early := by
  unfold checkNgKsi at returned
  split at returned
  · cases returned
    exact quiet_sendFailure u _ _
  · split at returned
    · cases returned
      exact quiet_sendFailure u _ _
    · split at returned
      · cases returned
        exact quiet_failing u fun v => quiet_sendFailure v _ _
      · cases returned

/-- A 5G-AKA request that fails a check leaves RAND and numbers alone. -/
theorem quiet_check5gAka {u : NasMm} {msg : AuthenticationRequest} {early : NasMm × List MmOutput}
    (returned : check5gAka u msg = .error early) : Quiet u early := by
  unfold check5gAka at returned
  split at returned
  · cases returned
    exact quiet_same u silent_nil
  · split at returned
    · cases checked : checkNgKsi u msg.ngKSI with
      | error early' =>
        rw [checked] at returned
        cases returned
        exact quiet_checkNgKsi checked
      | ok _ =>
        rw [checked] at returned
        cases returned
    · cases returned
      exact quiet_sendFailure u _ _

theorem quiet_checkEap {u : NasMm} {msg : AuthenticationRequest} {eap : Option EapPdu}
    {early : NasMm × List MmOutput} (returned : checkEap u msg eap = .error early) :
    Quiet u early := by
  have status : ∀ o ∈ [MmOutput.mmStatus .semanticallyIncorrectMessage], ¬ IsAnswer o :=
    silent_singleton id
  unfold checkEap at returned
  split at returned
  · cases returned
    exact quiet_same u silent_nil
  · split at returned
    · split at returned
      · cases returned
        exact quiet_same u status
      · split at returned
        · split at returned
          · cases returned
            exact quiet_failing u fun v => quiet_sendEapFailure v _ _ _ (by decide)
          · split at returned
            · cases returned
              exact quiet_sendEapFailure u _ _ _ (by decide)
            · cases checked : checkNgKsi u msg.ngKSI with
              | error early' =>
                rw [checked] at returned
                cases returned
                exact quiet_checkNgKsi checked
              | ok _ =>
                rw [checked] at returned
                cases returned
        · cases returned
          exact quiet_same u status
    · cases returned
      exact quiet_same u status

/-! ### What a step does -/

/-- Everything that an input may do to the sequence numbers and to the stored RAND, and may
answer. -/
inductive Outcome (aes : Cipher) (hmac : Hmac) (cfg : UeConfig) (u : NasMm) (i : MmInput)
    (r : NasMm × List MmOutput) : Prop where
  /-- No AUTN is looked at. -/
  | unchecked (unchecked : challenged u i = none) (quiet : Quiet u r)
  /-- AUTN is not accepted, but its sequence number may have been stored. -/
  | refused (c : Challenge) (checked : challenged u i = some c)
      (bad : (validateAutn aes cfg u.sqnMng c.rand c.autn).2 ≠ .ok)
      (quiet : Quiet { u with sqnMng := (validateAutn aes cfg u.sqnMng c.rand c.autn).1 } r)
  /-- AUTN is accepted. -/
  | accepted (c : Challenge) (checked : challenged u i = some c)
      (good : (validateAutn aes cfg u.sqnMng c.rand c.autn).2 = .ok)
      (sqnMng : r.1.sqnMng = (validateAutn aes cfg u.sqnMng c.rand c.autn).1)
      (rand : r.1.rand = c.rand.toList ∨ r.1.rand = u.rand ∨ r.1.rand = [])
      (answers : ∀ o ∈ r.2, IsAnswer o → Answers aes hmac cfg c.snn c.rand o)
      (snn : u.currentSnn = some c.snn)
  /-- The stored RAND has come again. -/
  | repeated (c : Challenge) (unchecked : challenged u i = none) (stored : u.rand = c.rand.toList)
      (sqnMng : r.1.sqnMng = u.sqnMng) (rand : r.1.rand = u.rand)
      (answers : ∀ o ∈ r.2, IsAnswer o → Answers aes hmac cfg c.snn c.rand o)
      (snn : u.currentSnn = some c.snn)

/-- A refused AUTN is not answered with RES*. -/
theorem quiet_answer5gAka (u : NasMm) (msg : AuthenticationRequest) (snn : CString)
    (rand : Block UInt8 16) {verdict : EAutnValidationRes} (bad : verdict ≠ .ok) :
    Quiet u (answer5gAka aes hmac cfg u msg snn rand verdict) := by
  cases verdict with
  | ok => exact absurd rfl bad
  | macFailure => exact quiet_failing u fun v => quiet_sendFailure v _ _
  | synchronisationFailure => exact quiet_failing u fun v => quiet_sendFailure v _ _
  | amfSeparationBitFailure => exact quiet_failing u fun v => quiet_sendFailure v _ _

theorem quiet_answerEap (u : NasMm) (msg : AuthenticationRequest) (code id : UInt8)
    (as : EapAttributes) (snn : CString) (rand : Block UInt8 16) (eph : Ephemeral)
    {verdict : EAutnValidationRes} (bad : verdict ≠ .ok) :
    Quiet u (answerEap aes hmac cfg u msg code id as snn rand eph verdict) := by
  cases verdict with
  | ok => exact absurd rfl bad
  | macFailure => exact quiet_failing u fun v => quiet_sendEapFailure v _ _ _ (by decide)
  | synchronisationFailure =>
    exact quiet_failing u fun v => quiet_sendEapFailure v _ _ _ (by decide)
  | amfSeparationBitFailure =>
    exact quiet_failing u fun v => quiet_sendEapFailure v _ _ _ (by decide)

/-- An accepted AUTN is answered with RES* alone. -/
theorem accept5gAka_output (u : NasMm) (msg : AuthenticationRequest) (snn : CString)
    (rand : Block UInt8 16) :
    (accept5gAka aes hmac cfg u msg snn rand).2 =
      [.authenticationResponse (resStarOf aes hmac cfg snn rand)] := by
  simp only [accept5gAka, partialContext]
  rfl

theorem accept5gAka_answers (u : NasMm) (msg : AuthenticationRequest) (snn : CString)
    (rand : Block UInt8 16) :
    ∀ o ∈ (accept5gAka aes hmac cfg u msg snn rand).2, IsAnswer o →
      Answers aes hmac cfg snn rand o := by
  intro o mem _
  rw [accept5gAka_output] at mem
  rw [List.mem_singleton.mp mem]
  rfl

/-- What `acceptEap` may do: it answers, or the MAC of the packet is wrong. -/
theorem acceptEap_cases (aes : Cipher) (hmac : Hmac) (cfg : UeConfig) (u : NasMm)
    (msg : AuthenticationRequest) (code id : UInt8) (as : EapAttributes) (snn : CString)
    (rand : Block UInt8 16) (eph : Ephemeral) :
    Quiet u (acceptEap aes hmac cfg u msg code id as snn rand eph) ∨
      ((acceptEap aes hmac cfg u msg code id as snn rand eph).1.sqnMng = u.sqnMng ∧
        (acceptEap aes hmac cfg u msg code id as snn rand eph).1.rand = rand.toList ∧
        ∀ o ∈ (acceptEap aes hmac cfg u msg code id as snn rand eph).2,
          Answers aes hmac cfg snn rand o) := by
  unfold acceptEap
  simp only []
  split
  · left
    exact quiet_failing u fun v => quiet_sendEapFailure v _ _ _ (by decide)
  · right
    refine ⟨rfl, rfl, ?_⟩
    intro o mem
    rw [List.mem_singleton.mp mem]
    exact ⟨_, id, modesOf as, eph, rfl⟩

/-- A checked request has the name of the serving network. -/
theorem currentSnn_of_check5gAka {u : NasMm} {msg : AuthenticationRequest} {c : Challenge}
    (passed : check5gAka u msg = .ok c) : u.currentSnn = some c.snn := by
  unfold check5gAka at passed
  split at passed
  · cases passed
  · next snn known =>
    split at passed
    · cases checked : checkNgKsi u msg.ngKSI with
      | error _ =>
        rw [checked] at passed
        cases passed
      | ok _ =>
        rw [checked] at passed
        cases passed
        exact known
    · cases passed

theorem currentSnn_of_checkEap {u : NasMm} {msg : AuthenticationRequest} {eap : Option EapPdu}
    {c : Challenge × UInt8 × UInt8 × EapAttributes} (passed : checkEap u msg eap = .ok c) :
    u.currentSnn = some c.1.snn := by
  unfold checkEap at passed
  split at passed
  · cases passed
  · next snn known =>
    split at passed
    · split at passed
      · cases passed
      · split at passed
        · split at passed
          · cases passed
          · split at passed
            · cases passed
            · cases checked : checkNgKsi u msg.ngKSI with
              | error _ =>
                rw [checked] at passed
                cases passed
              | ok _ =>
                rw [checked] at passed
                cases passed
                exact known
        · cases passed
    · cases passed

/-- What a 5G-AKA request can do. -/
theorem outcome_5gAka {u : NasMm} {msg : AuthenticationRequest} {eph : Ephemeral}
    (valid : u.valid = true) (plain : msg.eapMessage = none) :
    Outcome aes hmac cfg u (.request msg eph)
      (receiveAuthenticationRequest5gAka aes hmac cfg u msg) := by
  have request : checkRequest u msg = check5gAka u msg := by
    rw [checkRequest, valid, if_neg Bool.true_eq_false_eq_False, plain]
  unfold receiveAuthenticationRequest5gAka
  cases passed : check5gAka u msg with
  | error early =>
    refine .unchecked ?_ (quiet_check5gAka passed)
    rw [challenged, request, passed]
  | ok c =>
    have known := currentSnn_of_check5gAka passed
    by_cases stored : u.rand = c.rand.toList
    · have skipped : challenged u (.request msg eph) = none := by
        simp only [challenged, request, passed, plain, Option.isNone_none, stored, and_self,
          if_true]
      simp only [stored, ne_eq, not_true_eq_false, if_false]
      exact .repeated c skipped stored rfl stored.symm
        (accept5gAka_answers u msg c.snn c.rand) known
    · have checked : challenged u (.request msg eph) = some c := by
        simp only [challenged, request, passed, stored, and_false, if_false]
      simp only [ne_eq, stored, not_false_eq_true, if_true]
      by_cases good : (validateAutn aes cfg u.sqnMng c.rand c.autn).2 = .ok
      · refine .accepted c checked good ?_ ?_ ?_ known
        · rw [good]
          rfl
        · rw [good]
          exact .inl rfl
        · rw [good]
          exact accept5gAka_answers _ msg c.snn c.rand
      · exact .refused c checked good (quiet_answer5gAka _ msg c.snn c.rand good)

theorem outcome_eap {u : NasMm} {msg : AuthenticationRequest} {eap : Option EapPdu}
    {eph : Ephemeral} (valid : u.valid = true) (packet : msg.eapMessage = some eap) :
    Outcome aes hmac cfg u (.request msg eph)
      (receiveAuthenticationRequestEap aes hmac cfg u msg eap eph) := by
  have request : checkRequest u msg = (checkEap u msg eap).map (·.1) := by
    rw [checkRequest, valid, if_neg Bool.true_eq_false_eq_False, packet]
  unfold receiveAuthenticationRequestEap
  cases passed : checkEap u msg eap with
  | error early =>
    refine .unchecked ?_ (quiet_checkEap passed)
    rw [challenged, request, passed]
    rfl
  | ok found =>
    obtain ⟨c, code, id, as⟩ := found
    have known := currentSnn_of_checkEap passed
    have checked : challenged u (.request msg eph) = some c := by
      simp only [challenged, request, passed, packet, Except.map, Option.isNone_some,
        Bool.false_eq_true, false_and, if_false]
    by_cases good : (validateAutn aes cfg u.sqnMng c.rand c.autn).2 = .ok
    · simp only [good]
      rcases acceptEap_cases aes hmac cfg
        { u with sqnMng := (validateAutn aes cfg u.sqnMng c.rand c.autn).1 } msg code id as c.snn
        c.rand eph with quiet | ⟨sqnMng, rand, answers⟩
      · refine .accepted c checked good quiet.sqnMng (.inr quiet.rand) ?_ known
        intro o mem answer
        exact absurd answer (quiet.silent o mem)
      · exact .accepted c checked good sqnMng (.inl rand) (fun o mem _ => answers o mem) known
    · exact .refused c checked good (quiet_answerEap _ msg code id as c.snn c.rand eph good)

/-- What any input can do. -/
theorem mmStep_outcome (aes : Cipher) (hmac : Hmac) (cfg : UeConfig) (u : NasMm) (i : MmInput) :
    Outcome aes hmac cfg u i (mmStep aes hmac cfg u i) := by
  cases i with
  | procedure a =>
    refine .unchecked rfl ⟨?_, ?_, silent_nil⟩
    · cases deletes : a.deletesRand <;> simp [mmStep, Aftermath.apply, deletes, NasMm.clear]
    · cases deletes : a.deletesRand <;> simp [mmStep, Aftermath.apply, deletes, NasMm.clear]
  | request msg eph =>
    rw [mmStep, receiveAuthenticationRequest]
    by_cases valid : u.valid = true
    · rw [if_neg (by rw [valid]; decide)]
      cases packet : msg.eapMessage with
      | none => exact outcome_5gAka valid packet
      | some eap => exact outcome_eap valid packet
    · rw [if_pos (Bool.eq_false_of_not_eq_true valid)]
      refine .unchecked ?_ (quiet_same u silent_nil)
      rw [challenged, checkRequest, if_pos (Bool.eq_false_of_not_eq_true valid)]

end EdhocAuth.Primary
