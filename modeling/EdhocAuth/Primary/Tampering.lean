/-
What someone without the key can do to primary authentication.

`validateAutn` stores an acceptable sequence number before it looks at the MAC, and the received SQN
xor AK can be changed bit by bit. A request with changed bits is refused, but the changed number is
SQN_MS from then on.

`tampering_splits_keys`: with a changed IND the next request is accepted and confirmed, with keys
that are derived from different numbers. The AMF must not hear of the first refusal, which it would
answer with a reject.

`Locked.run`: after three failures in a row the UE no longer reports that a number is too low, and
no registration ends in an authentication any more; the AMF waits until T3560 has expired for the
last time. `tampering_locks_out` reaches this state with three requests, whether the AMF hears of
the refusals or not.
-/

import EdhocAuth.Primary.Link

namespace EdhocAuth.Primary

open Octets Aka Machine

variable {aes : Cipher} {hmac : Hmac} {sha256 : List UInt8 → Block UInt8 32} {cfg : UeConfig}

/-! ### Changed requests -/

def amfOf (autn : Block UInt8 16) : Block UInt8 2 := Block.read 0 2 (autn.toList.drop 6)

/-- A token with bits of SQN xor AK changed. -/
def tamper (d : Block UInt8 6) (autn : Block UInt8 16) : Block UInt8 16 :=
  token (Bits.xor (sqnXorAkOf autn) d) (amfOf autn) (macOf autn)

def clearAmf (autn : Block UInt8 16) : Block UInt8 16 :=
  token (sqnXorAkOf autn) (Block.fill 2 0) (macOf autn)

def withAutn (msg : AuthenticationRequest) (autn : Block UInt8 16) : AuthenticationRequest :=
  { msg with authParamAUTN := some autn.toList }

theorem Carries.withAutn {msg : AuthenticationRequest} {rand autn : Block UInt8 16}
    (carries : Carries msg rand autn) (autn' : Block UInt8 16) :
    Carries (withAutn msg autn') rand autn' where
  plain := carries.plain
  rand := carries.rand
  autn := rfl
  native := carries.native
  ksi := carries.ksi

theorem amfOf_token (sqnXorAk : Block UInt8 6) (amf : Block UInt8 2) (mac : Block UInt8 8) :
    amfOf (token sqnXorAk amf mac) = amf := by
  show Block.read 0 2 ((sqnXorAk.toList ++ amf.toList ++ mac.toList).drop 6) = amf
  rw [List.append_assoc, List.drop_left' sqnXorAk.toList_length]
  exact Block.read_toList_append 0 amf _

/-- Changed bits of SQN xor AK are changed bits of the number. -/
theorem tamper_autnFor (d : Block UInt8 6) (rand : Block UInt8 16) (sqn : Block UInt8 6) :
    tamper d (autnFor aes cfg rand sqn) =
      token (Bits.xor (Bits.xor sqn d) (f2345Of aes cfg rand).ak) cfg.amf
        (macAOf aes cfg rand sqn) := by
  rw [tamper, autnFor_eq, sqnXorAkOf_token, amfOf_token, macOf_token, Bits.xor_assoc,
    Bits.xor_comm (f2345Of aes cfg rand).ak, ← Bits.xor_assoc]

/-- The check of a changed token: the number is stored, and the MAC is wrong. -/
theorem validateAutn_tamper {m : SqnManager} (reached : m.Reached)
    (apart : separated cfg.amf = true) {d : Block UInt8 6} {rand : Block UInt8 16}
    {sqn : Block UInt8 6} (acceptable : m.Acceptable (SqnManager.number (Bits.xor sqn d)))
    (differs : macAOf aes cfg rand (Bits.xor sqn d) ≠ macAOf aes cfg rand sqn) :
    (validateAutn aes cfg m rand (tamper d (autnFor aes cfg rand sqn))).2 = .macFailure ∧
      SqnManager.Advanced m (SqnManager.number (Bits.xor sqn d))
        (validateAutn aes cfg m rand (tamper d (autnFor aes cfg rand sqn))).1 := by
  have number : sqnOf aes cfg rand (tamper d (autnFor aes cfg rand sqn)) = Bits.xor sqn d := by
    rw [tamper_autnFor, sqnOf, sqnXorAkOf_token, Bits.xor_xor]
  have bit : ¬ separationBit (tamper d (autnFor aes cfg rand sqn)) = false := by
    rw [tamper_autnFor, separationBit_token, apart]
    exact Bool.true_eq_false_eq_False
  have mac : macOf (tamper d (autnFor aes cfg rand sqn)) = macAOf aes cfg rand sqn := by
    rw [tamper_autnFor, macOf_token]
  rw [validateAutn_eq, if_neg bit, number, mac]
  rcases reached.checkSqn_cases (Bits.xor sqn d) with ⟨outside, -⟩ | ⟨-, stored⟩
  · exact absurd acceptable outside
  · rw [stored, decide_eq_false (Ne.symm differs)]
    exact ⟨rfl, reached.advanced _ acceptable⟩

/-- The cause that 5G-AKA reports for a result of the AUTN check. -/
def EAutnValidationRes.cause : EAutnValidationRes → Option EMmCause
  | .ok => none
  | .macFailure => some .macFailure
  | .synchronisationFailure => some .synchFailure
  | .amfSeparationBitFailure => some .non5gAuthenticationUnacceptable

/-- Without the separation bit nothing is stored. -/
theorem validateAutn_clearAmf (aes : Cipher) (cfg : UeConfig) (m : SqnManager)
    (rand autn : Block UInt8 16) :
    validateAutn aes cfg m rand (clearAmf autn) = (m, .amfSeparationBitFailure) := by
  have cleared : separated (Block.fill 2 0) = false := by decide
  rw [validateAutn_eq, clearAmf, separationBit_token, cleared]
  rfl

/-! ### Refused requests -/

/-- The UE after a request it has refused, with the numbers it has stored and the cause it has
given. -/
structure Refused (u : NasMm) (m : SqnManager) (cause : EMmCause) (r : NasMm × List MmOutput) :
    Prop where
  sqnMng : r.1.sqnMng = m
  rand : r.1.rand = u.rand ∨ r.1.rand = []
  currentNsCtx : r.1.currentNsCtx = u.currentNsCtx
  nonCurrentNsCtx : r.1.nonCurrentNsCtx = u.nonCurrentNsCtx
  failures : r.1.nwConsecutiveAuthFailure = u.nwConsecutiveAuthFailure + 1
  valid : r.1.valid = u.valid
  currentSnn : r.1.currentSnn = u.currentSnn
  silent : ∀ o ∈ r.2, ¬ IsAnswer o
  reports : ∀ rand, ∀ i ∈ r.2.filterMap (uplink rand),
    ∃ auts, i = .authenticationFailure cause auts rand
  unreported : 3 ≤ u.nwConsecutiveAuthFailure → ∀ rand, r.2.filterMap (uplink rand) = []

/-- A failure is a refusal. -/
theorem refused_failing (u : NasMm) (m : SqnManager) (cause : EMmCause)
    (auts : NasMm → Option (List UInt8)) :
    Refused u m cause (failing { u with sqnMng := m } fun v => sendFailure v cause (auts v)) := by
  have unreported {i : CoreInput} (mem : i ∈ ([] : List CoreInput)) (rand : Block UInt8 16) :
      ∃ auts, i = .authenticationFailure cause auts rand :=
    absurd mem List.not_mem_nil
  by_cases chance : u.nwConsecutiveAuthFailure < 3
  · simp only [failing, networkFailingTheAuthCheck, if_pos chance, sendFailure, NasMm.clear]
    refine ⟨rfl, .inr rfl, rfl, rfl, rfl, rfl, rfl, silent_singleton id, ?_, ?_⟩
    · intro rand i mem
      exact ⟨_, List.mem_singleton.mp mem⟩
    · intro many
      exact absurd chance (Nat.not_lt.mpr many)
  · simp only [failing, networkFailingTheAuthCheck, if_neg chance]
    cases u.connected with
    | false =>
      exact ⟨rfl, .inl rfl, rfl, rfl, rfl, rfl, rfl, silent_nil,
        fun rand i mem => unreported mem rand, fun _ _ => rfl⟩
    | true =>
      exact ⟨rfl, .inl rfl, rfl, rfl, rfl, rfl, rfl, silent_singleton id,
        fun rand i mem => unreported mem rand, fun _ _ => rfl⟩

theorem Refused.new {u : NasMm} {m : SqnManager} {cause : EMmCause} {r : NasMm × List MmOutput}
    (refused : Refused u m cause r) {rand : Block UInt8 16} (new : u.rand ≠ rand.toList) :
    r.1.rand ≠ rand.toList := by
  rcases refused.rand with same | none
  · rwa [same]
  · rw [none]
    exact (Block.toList_ne_nil rand).symm

theorem Refused.ksiInUse {u : NasMm} {m : SqnManager} {cause : EMmCause}
    {r : NasMm × List MmOutput} (refused : Refused u m cause r) (ksi : Nat) :
    r.1.ksiInUse ksi = u.ksiInUse ksi := by
  rw [NasMm.ksiInUse, NasMm.ksiInUse, refused.currentNsCtx, refused.nonCurrentNsCtx]

/-- A refusal does not detach the UE, if the numbers stay in order. -/
theorem Refused.attached {u : NasMm} {m : SqnManager} {cause : EMmCause}
    {r : NasMm × List MmOutput} {snn : CString} {n : Nat} (refused : Refused u m cause r)
    (attached : Attached cfg snn u) (stored : m = u.sqnMng ∨ SqnManager.Advanced u.sqnMng n m) :
    Attached cfg snn r.1 where
  kept := by
    have kept := attached.kept
    rcases stored with same | advanced
    · exact ⟨by rw [refused.sqnMng, same]; exact kept.reached,
        by rw [refused.sqnMng, same]; exact kept.bits,
        by rw [refused.sqnMng, same]; exact kept.window⟩
    · exact ⟨by rw [refused.sqnMng]; exact advanced.reached,
        by rw [refused.sqnMng]; exact advanced.indBitLen.trans kept.bits,
        by rw [refused.sqnMng]; exact advanced.wrappingDelta.trans kept.window⟩
  valid := refused.valid.trans attached.valid
  known := refused.currentSnn.trans attached.known
  apart := attached.apart

/-- A request whose AUTN is bad is refused. -/
theorem mmStep_refused (hmac : Hmac) {u : NasMm} {snn : CString} {msg : AuthenticationRequest}
    {rand autn : Block UInt8 16} {cause : EMmCause} (attached : Attached cfg snn u)
    (carries : Carries msg rand autn) (free : u.ksiInUse msg.ngKSI.ksi = false)
    (new : u.rand ≠ rand.toList)
    (bad : (validateAutn aes cfg u.sqnMng rand autn).2.cause = some cause) (eph : Ephemeral) :
    Refused u (validateAutn aes cfg u.sqnMng rand autn).1 cause
      (mmStep aes hmac cfg u (.request msg eph)) := by
  rw [mmStep_carries aes hmac cfg attached.valid attached.known carries eph, free,
    if_neg Bool.false_ne_true, if_pos new]
  cases verdict : (validateAutn aes cfg u.sqnMng rand autn).2 with
  | ok =>
    rw [verdict] at bad
    cases bad
  | macFailure =>
    rw [verdict] at bad
    cases bad
    exact refused_failing u _ _ fun _ => none
  | amfSeparationBitFailure =>
    rw [verdict] at bad
    cases bad
    exact refused_failing u _ _ fun _ => none
  | synchronisationFailure =>
    rw [verdict] at bad
    cases bad
    exact refused_failing u _ _ fun v => some (autsFor aes cfg v.sqnMng rand).toList

/-! ### Keys that differ -/

/-- A number of the same SEQ stays acceptable when one with another IND has been stored. -/
theorem acceptable_of_level {m m' : SqnManager} {n n' : Nat}
    (advanced : SqnManager.Advanced m n' m') (acceptable : m.Acceptable n)
    (level : m.seqOf n' = m.seqOf n) (above : n < n') : m'.Acceptable n := by
  have seq (k : Nat) : m'.seqOf k = m.seqOf k := by
    rw [SqnManager.seqOf, SqnManager.seqOf, advanced.indBitLen]
  have ind : m'.indOf n = m.indOf n := by
    rw [SqnManager.indOf, SqnManager.indOf, advanced.indBitLen]
  have other : m.indOf n' ≠ m.indOf n := by
    intro same
    have left := Nat.div_add_mod n (2 ^ m.indBitLen)
    have right := Nat.div_add_mod n' (2 ^ m.indBitLen)
    unfold SqnManager.seqOf at level
    unfold SqnManager.indOf at same
    rw [level, same] at right
    omega
  unfold SqnManager.Acceptable
  rw [ind, seq, seq, seq, advanced.top, advanced.last, if_neg other, advanced.wrappingDelta]
  rcases le_total m.top n' with below | beyond
  · rw [max_eq_right below, level]
    exact ⟨le_rfl, Nat.le_add_right _ _, acceptable.2.2⟩
  · rw [max_eq_left beyond]
    exact acceptable

/-- Someone without the key changes bits of the IND in a request, keeps the refusal of the UE from
the AMF, and lets the request itself follow. That one is accepted and confirmed; but the UE has
derived K_AUSF from another SQN xor AK than the core. -/
theorem tampering_splits_keys (aes : Cipher) (hmac : Hmac) (sha256 : List UInt8 → Block UInt8 32)
    (cfg : UeConfig) (core : CoreNetwork) (u : NasMm) (rand : Block UInt8 16)
    (sqn d : Block UInt8 6) (eph eph' : Ephemeral)
    (waiting : Waiting aes hmac sha256 cfg rand sqn core)
    (attached : Attached cfg core.amf.snn u) (free : u.ksiInUse core.amf.ksi = false)
    (new : u.rand ≠ rand.toList) (acceptable : u.sqnMng.Acceptable (SqnManager.number sqn))
    (changed : u.sqnMng.Acceptable (SqnManager.number (Bits.xor sqn d)))
    (level : seqOf (SqnManager.number (Bits.xor sqn d)) = seqOf (SqnManager.number sqn))
    (above : SqnManager.number sqn < SqnManager.number (Bits.xor sqn d))
    (differs : macAOf aes cfg rand (Bits.xor sqn d) ≠ macAOf aes cfg rand sqn) :
    let msg := gmmBuildAuthenticationRequest core.amf
    let refused := mmStep aes hmac cfg u (.request (withAutn msg (tamper d core.amf.autn)) eph)
    let r := mmStep aes hmac cfg refused.1 (.request msg eph')
    (∀ o ∈ refused.2, ¬ IsAnswer o) ∧
      (∃ ctx kamf, Confirmed aes hmac sha256 cfg core rand r ctx kamf) ∧
      usedSqnXorAk aes cfg r.1.sqnMng rand ≠ sqnXorAkOf core.amf.autn := by
  intro msg refused r
  have kept := attached.kept
  obtain ⟨verdict, stored⟩ :=
    validateAutn_tamper kept.reached attached.apart changed differs
  have bad : (validateAutn aes cfg u.sqnMng rand (tamper d core.amf.autn)).2.cause =
      some .macFailure := by
    rw [waiting.amfAutn, verdict]
    rfl
  have first := mmStep_refused hmac attached
    (waiting.carries.withAutn (tamper d core.amf.autn)) free new bad eph
  rw [← waiting.amfAutn, ← first.sqnMng] at stored
  have attached' : Attached cfg core.amf.snn refused.1 :=
    first.attached attached (.inr (first.sqnMng ▸ stored))
  have free' : refused.1.ksiInUse core.amf.ksi = false := (first.ksiInUse _).trans free
  rw [← kept.seqOf_eq, ← kept.seqOf_eq] at level
  have still := acceptable_of_level stored acceptable level above
  refine ⟨first.silent, ?_⟩
  rcases mmStep_free hmac attached' waiting.carries free' (first.new new) eph' with
    ⟨outside, -⟩ | ⟨-, m, advanced, step⟩
  · exact absurd still outside
  · have same := usedSqnXorAk_eq_iff aes cfg advanced rand
    rw [show r = _ from step, waiting.amfAutn]
    refine ⟨⟨_, _, confirmed_afterAccept waiting refused.1 m⟩, ?_⟩
    intro equal
    have lower := same.mp equal
    rw [stored.top] at lower
    exact absurd (le_trans (le_max_right _ _) lower) (Nat.not_le.mpr above)

/-! ### No registration any more -/

/-- A request of the core with a number that the UE does not accept, and a RAND it has not
stored. -/
def Hopeless (aes : Cipher) (cfg : UeConfig) (u : NasMm) (msg : AuthenticationRequest) : Prop :=
  ∃ rand sqn, Carries msg rand (autnFor aes cfg rand sqn) ∧
    ¬ u.sqnMng.Acceptable (SqnManager.number sqn) ∧ u.rand ≠ rand.toList

/-- The request that the next expiry of T3560 sends again. -/
def CoreNetwork.resend (core : CoreNetwork) : AuthenticationRequest :=
  (nas5gsSendAuthenticationRequest core.amf).2

/-- The UE reports failures no longer, and the number in the document is too low for it. -/
structure Locked (aes : Cipher) (cfg : UeConfig) (l : Link) : Prop where
  kept : Kept l.ue
  apart : separated cfg.amf = true
  serves : Serves aes cfg l.core
  failures : 3 ≤ l.ue.nwConsecutiveAuthFailure
  behind : ¬ l.ue.sqnMng.Acceptable l.core.doc.sqn
  down : ∀ msg ∈ l.down, Hopeless aes cfg l.ue msg
  resent : l.core.amf.authenticating = true → Hopeless aes cfg l.ue l.core.resend

/-- The UE after an input that the core does not hear of. -/
structure Unheard (u u' : NasMm) : Prop where
  sqnMng : u'.sqnMng = u.sqnMng
  rand : u'.rand = u.rand ∨ u'.rand = []
  failures : u.nwConsecutiveAuthFailure ≤ u'.nwConsecutiveAuthFailure

theorem Unheard.new {u u' : NasMm} (unheard : Unheard u u') {rand : Block UInt8 16}
    (new : u.rand ≠ rand.toList) : u'.rand ≠ rand.toList := by
  rcases unheard.rand with same | none
  · rwa [same]
  · rw [none]
    exact (Block.toList_ne_nil rand).symm

/-- A request stays hopeless. -/
theorem Unheard.hopeless {u u' : NasMm} (unheard : Unheard u u') {msg : AuthenticationRequest}
    (hopeless : Hopeless aes cfg u msg) : Hopeless aes cfg u' msg := by
  obtain ⟨rand, sqn, carries, outside, new⟩ := hopeless
  exact ⟨rand, sqn, carries, by rwa [unheard.sqnMng], unheard.new new⟩

theorem Unheard.kept {u u' : NasMm} (unheard : Unheard u u') (kept : Kept u) : Kept u' :=
  ⟨by rw [unheard.sqnMng]; exact kept.reached, by rw [unheard.sqnMng]; exact kept.bits,
    by rw [unheard.sqnMng]; exact kept.window⟩

/-- A refusal that stores no number changes nothing that could help. -/
theorem Refused.unheard {u : NasMm} {cause : EMmCause} {r : NasMm × List MmOutput}
    (refused : Refused u u.sqnMng cause r) : Unheard u r.1 :=
  ⟨refused.sqnMng, refused.rand, by rw [refused.failures]; exact Nat.le_succ _⟩

/-- Another procedure of the UE changes nothing that could help. -/
theorem unheard_procedure (a : Aftermath) (u : NasMm) : Unheard u (a.apply u) where
  sqnMng := a.apply_sqnMng u
  rand := by cases deletes : a.deletesRand <;> simp [Aftermath.apply, deletes, NasMm.clear]
  failures := (a.apply_failures u).ge

/-- After three failures a hopeless request has no effect that the core hears of. -/
theorem mmStep_hopeless (hmac : Hmac) {u : NasMm} (kept : Kept u) (apart : separated cfg.amf = true)
    (failures : 3 ≤ u.nwConsecutiveAuthFailure) {msg : AuthenticationRequest}
    (hopeless : Hopeless aes cfg u msg) (eph : Ephemeral) :
    Unheard u (mmStep aes hmac cfg u (.request msg eph)).1 ∧
      ∀ rand, (mmStep aes hmac cfg u (.request msg eph)).2.filterMap (uplink rand) = [] := by
  obtain ⟨rand, sqn, carries, outside, new⟩ := hopeless
  have ignored (same : mmStep aes hmac cfg u (.request msg eph) = (u, [])) :
      Unheard u (mmStep aes hmac cfg u (.request msg eph)).1 ∧
        ∀ rand, (mmStep aes hmac cfg u (.request msg eph)).2.filterMap (uplink rand) = [] := by
    rw [same]
    exact ⟨⟨rfl, .inl rfl, Nat.le_refl _⟩, fun _ => rfl⟩
  cases valid : u.valid with
  | false =>
    apply ignored
    rw [mmStep, receiveAuthenticationRequest, if_pos valid]
  | true =>
    have on : ¬ u.valid = false := by
      rw [valid]
      exact Bool.true_eq_false_eq_False
    cases known : u.currentSnn with
    | none =>
      apply ignored
      rw [mmStep, receiveAuthenticationRequest, if_neg on, carries.plain]
      show receiveAuthenticationRequest5gAka aes hmac cfg u msg = _
      rw [receiveAuthenticationRequest5gAka, check5gAka, known]
    | some snn =>
      have refused : ∃ cause, Refused u u.sqnMng cause
          (mmStep aes hmac cfg u (.request msg eph)) := by
        cases used : u.ksiInUse msg.ngKSI.ksi with
        | true =>
          rw [mmStep_carries aes hmac cfg valid known carries eph, if_pos used]
          exact ⟨_, refused_failing u u.sqnMng _ fun _ => none⟩
        | false =>
          rcases validateAutn_autnFor aes kept.reached apart rand sqn with
            ⟨-, verdict⟩ | ⟨acceptable, -⟩
          · have bad : (validateAutn aes cfg u.sqnMng rand (autnFor aes cfg rand sqn)).2.cause =
                some .synchFailure := by
              rw [verdict]
              rfl
            have step := mmStep_refused hmac ⟨kept, valid, known, apart⟩ carries used new
              bad eph
            rw [verdict] at step
            exact ⟨_, step⟩
          · exact absurd acceptable outside
      obtain ⟨cause, refused⟩ := refused
      exact ⟨refused.unheard, refused.unreported failures⟩

/-- The UE has not stored the RAND of a start. -/
def Unused (u : NasMm) (i : LinkInput) : Prop :=
  ∀ ksi rand, i = .start ksi rand → u.rand ≠ rand.toList

def LinkInput.isExpiry : LinkInput → Bool
  | .t3560 => true
  | _ => false

/-- The verdicts of a run without an authentication: rejects only, and no more than expiries of
T3560. -/
structure Stalled (is : List LinkInput) (verdicts : List Verdict) : Prop where
  rejects : ∀ v ∈ verdicts, v = .rejected
  expired : verdicts.length ≤ is.countP LinkInput.isExpiry

theorem stalled_nil (is : List LinkInput) : Stalled is [] :=
  ⟨fun _ mem => absurd mem List.not_mem_nil, Nat.zero_le _⟩

/-- Runs that stall follow one another. -/
theorem Stalled.cons {i : LinkInput} {is : List LinkInput} {first rest : List Verdict}
    (here : Stalled [i] first) (later : Stalled is rest) : Stalled (i :: is) (first ++ rest) where
  rejects := by
    intro v mem
    exact (List.mem_append.mp mem).elim (here.rejects v) (later.rejects v)
  expired := by
    have most := Nat.add_le_add here.expired later.expired
    rwa [← List.length_append, ← List.countP_append, List.singleton_append] at most

/-- Another request for a vector, or the first, leaves the UE as hopeless as before. -/
theorem Locked.requested {l : Link} (locked : Locked aes cfg l) {core : CoreNetwork}
    {rand : Block UInt8 16} {r : CoreNetwork × List CoreOutput} (new : l.ue.rand ≠ rand.toList)
    (requested : Requested aes hmac sha256 cfg core rand l.core.doc.sqn l.core.doc.sqn r) :
    Locked aes cfg { l with core := r.1, down := l.down ++ requestsIn r.2 } := by
  have hopeless : Hopeless aes cfg l.ue (gmmBuildAuthenticationRequest r.1.amf) := by
    refine ⟨rand, _, requested.waiting.carries, ?_, new⟩
    rw [number_sqnBuffer locked.serves.sqn]
    exact locked.behind
  constructor
  · exact locked.kept
  · exact locked.apart
  · exact requested.waiting.serves
  · exact locked.failures
  · show ¬ l.ue.sqnMng.Acceptable r.1.doc.sqn
    rw [requested.docSqn]
    exact locked.behind
  · intro msg mem
    rw [requested.sent] at mem
    rcases List.mem_append.mp mem with before | last
    · exact locked.down msg before
    · rw [List.mem_singleton.mp last]
      exact hopeless
  · intro _
    show Hopeless aes cfg l.ue (r.1.amf.t3560.pkbuf.getD _)
    rw [requested.waiting.pkbuf, Option.getD_some]
    exact hopeless

/-- A UE that changes in nothing that could help stays locked. -/
theorem Locked.unheard {l : Link} (locked : Locked aes cfg l) {u : NasMm}
    {down : List AuthenticationRequest} (unheard : Unheard l.ue u)
    (less : ∀ msg ∈ down, msg ∈ l.down) : Locked aes cfg { l with ue := u, down := down } where
  kept := unheard.kept locked.kept
  apart := locked.apart
  serves := locked.serves
  failures := le_trans locked.failures unheard.failures
  behind := by
    show ¬ u.sqnMng.Acceptable l.core.doc.sqn
    rw [unheard.sqnMng]
    exact locked.behind
  down := fun msg mem => unheard.hopeless (locked.down msg (less msg mem))
  resent := fun awaited => unheard.hopeless (locked.resent awaited)

/-- T3560 expires while the core waits for an answer that does not come. -/
theorem Locked.expired (hmac : Hmac) (sha256 : List UInt8 → Block UInt8 32) {l : Link}
    (locked : Locked aes cfg l) :
    Stalled [.t3560] (linkStep aes hmac sha256 cfg l .t3560).2 ∧
      Locked aes cfg (linkStep aes hmac sha256 cfg l .t3560).1 := by
  have serves := locked.serves
  rw [linkStep, feed_singleton, coreStep]
  cases awaited : l.core.amf.authenticating with
  | false =>
    refine ⟨stalled_nil _, ?_⟩
    simp only [Bool.false_eq_true, if_false, requestsIn, List.filterMap_nil, List.append_nil]
    exact locked
  | true =>
    simp only [if_true, t3560Expired]
    split
    · refine ⟨⟨?_, Nat.le_refl 1⟩, ?_⟩
      · intro v mem
        exact List.mem_singleton.mp mem
      · constructor
        · exact locked.kept
        · exact locked.apart
        · exact serves.of_same rfl rfl rfl rfl
        · exact locked.failures
        · exact locked.behind
        · intro msg mem
          rw [show requestsIn (reject l.core).2 = [] from rfl, List.append_nil] at mem
          exact locked.down msg mem
        · intro stopped
          cases stopped
    · refine ⟨stalled_nil _, ?_⟩
      constructor
      · exact locked.kept
      · exact locked.apart
      · exact serves.of_same rfl rfl rfl rfl
      · exact locked.failures
      · exact locked.behind
      · intro msg mem
        rcases List.mem_append.mp mem with before | last
        · exact locked.down msg before
        · rw [List.mem_singleton.mp last]
          exact locked.resent awaited
      · intro _
        exact locked.resent awaited

/-- No input unlocks the UE, and none brings a verdict but a reject at an expiry. -/
theorem Locked.step (hmac : Hmac) (sha256 : List UInt8 → Block UInt8 32) {l : Link}
    (locked : Locked aes cfg l) {i : LinkInput} (unused : Unused l.ue i) :
    Stalled [i] (linkStep aes hmac sha256 cfg l i).2 ∧
      Locked aes cfg (linkStep aes hmac sha256 cfg l i).1 ∧
      Unheard l.ue (linkStep aes hmac sha256 cfg l i).1.ue := by
  have same : Unheard l.ue l.ue := ⟨rfl, .inl rfl, Nat.le_refl _⟩
  cases i with
  | start ksi rand =>
    have requested := started hmac sha256 locked.serves ksi rand
    rw [linkStep, feed_singleton]
    refine ⟨?_, locked.requested (unused ksi rand rfl) requested, same⟩
    rw [requested.sent]
    exact stalled_nil _
  | deliver rand eph =>
    cases next : l.down with
    | nil =>
      simp only [linkStep, next]
      exact ⟨stalled_nil _, locked, same⟩
    | cons msg down =>
      obtain ⟨unheard, silent⟩ := mmStep_hopeless hmac locked.kept locked.apart
        locked.failures (locked.down msg (by rw [next]; exact List.mem_cons_self)) eph
      simp only [linkStep, next, silent rand, feed_nil]
      refine ⟨stalled_nil _, locked.unheard unheard ?_, unheard⟩
      intro msg' mem
      rw [next]
      exact List.mem_cons_of_mem msg mem
  | t3560 =>
    obtain ⟨stalled, locked'⟩ := locked.expired hmac sha256
    exact ⟨stalled, locked', same⟩
  | procedure a =>
    have unheard := unheard_procedure a l.ue
    exact ⟨stalled_nil _, locked.unheard unheard fun _ mem => mem, unheard⟩

/-- After three failures in a row, and while the number in the document is not acceptable, no
sequence of registrations, deliveries, expiries and other procedures of the UE brings an
authentication, and none changes this. -/
theorem Locked.run {l : Link} (locked : Locked aes cfg l) {is : List LinkInput}
    (unused : ∀ i ∈ is, Unused l.ue i) :
    Stalled is (outputs (linkStep aes hmac sha256 cfg) l is) ∧
      Locked aes cfg (after (linkStep aes hmac sha256 cfg) l is) := by
  induction is generalizing l with
  | nil => exact ⟨stalled_nil _, locked⟩
  | cons i is ih =>
    obtain ⟨here, locked', unheard⟩ :=
      locked.step hmac sha256 (unused i List.mem_cons_self)
    obtain ⟨later, stays⟩ := ih locked' (by
      intro j mem ksi rand start
      exact unheard.new (unused j (List.mem_cons_of_mem i mem) ksi rand start))
    exact ⟨here.cons later, stays⟩

/-! ### Reports of failures -/

/-- A report that the AMF answers with a reject. -/
def Complaint (i : CoreInput) : Prop :=
  ∃ cause auts rand, i = .authenticationFailure cause auts rand ∧
    (cause = .macFailure ∨ cause = .non5gAuthenticationUnacceptable)

/-- The core after reports of failures: it is as it was, or waits for nothing. -/
structure Rejecting (aes : Cipher) (cfg : UeConfig) (core core' : CoreNetwork) : Prop where
  serves : Serves aes cfg core'
  doc : core'.doc = core.doc
  waits : core'.amf.authenticating = true → core' = core

/-- A complaint is answered with a reject, or not at all. -/
theorem coreStep_complaint (hmac : Hmac) (sha256 : List UInt8 → Block UInt8 32)
    {core core' : CoreNetwork} (rejecting : Rejecting aes cfg core core') {i : CoreInput}
    (complaint : Complaint i) :
    Rejecting aes cfg core (coreStep aes hmac sha256 core' i).1 ∧
      ∀ o ∈ (coreStep aes hmac sha256 core' i).2, o = .reject := by
  obtain ⟨cause, auts, rand, rfl, kind⟩ := complaint
  have serves := rejecting.serves
  rw [coreStep]
  cases awaited : core'.amf.authenticating with
  | false => exact ⟨rejecting, fun o mem => absurd mem List.not_mem_nil⟩
  | true =>
    have rejected : gmmHandleAuthenticationFailure aes hmac sha256 core' cause auts rand =
        reject core'.clearT3560 := by
      rcases kind with rfl | rfl <;> rfl
    rw [if_pos rfl, rejected]
    refine ⟨⟨?_, rejecting.doc, ?_⟩, ?_⟩
    · exact serves.of_same rfl rfl rfl rfl
    · intro stopped
      cases stopped
    · intro o mem
      exact List.mem_singleton.mp mem

/-- Any complaints are answered with rejects, or not at all. -/
theorem after_complaints (hmac : Hmac) (sha256 : List UInt8 → Block UInt8 32)
    {core core' : CoreNetwork} (rejecting : Rejecting aes cfg core core') {is : List CoreInput}
    (complaints : ∀ i ∈ is, Complaint i) :
    Rejecting aes cfg core (after (coreStep aes hmac sha256) core' is) ∧
      ∀ o ∈ outputs (coreStep aes hmac sha256) core' is, o = .reject := by
  induction is generalizing core' with
  | nil => exact ⟨rejecting, fun o mem => absurd mem List.not_mem_nil⟩
  | cons i is ih =>
    obtain ⟨here, only⟩ :=
      coreStep_complaint hmac sha256 rejecting (complaints i List.mem_cons_self)
    obtain ⟨stays, later⟩ := ih here fun j mem => complaints j (List.mem_cons_of_mem i mem)
    refine ⟨stays, ?_⟩
    intro o mem
    exact (List.mem_append.mp mem).elim (only o) (later o)

/-! ### Three requests -/

/-- Three requests made from one of the core: in the first, bits of SQN xor AK are changed, in the
others the AMF is cleared. -/
def forgeries (msg : AuthenticationRequest) (autn : Block UInt8 16) (d : Block UInt8 6)
    (eph : Ephemeral) : List MmInput :=
  [.request (withAutn msg (tamper d autn)) eph, .request (withAutn msg (clearAmf autn)) eph,
    .request (withAutn msg (clearAmf autn)) eph]

structure Worn (u : NasMm) (rand : Block UInt8 16) (n : Nat) (u' : NasMm) : Prop where
  kept : Kept u'
  stored : u'.rand = u.rand ∨ u'.rand = []
  failures : 3 ≤ u'.nwConsecutiveAuthFailure
  beyond : n ≤ u'.sqnMng.top

/-- The three requests are answered with failures only. -/
structure Complaints (out : List MmOutput) : Prop where
  silent : ∀ o ∈ out, ¬ IsAnswer o
  reports : ∀ rand, ∀ i ∈ out.filterMap (uplink rand), Complaint i

/-- A refusal that is reported as one of two failures gives complaints only. -/
theorem Refused.complaints {u : NasMm} {m : SqnManager} {cause : EMmCause}
    {r : NasMm × List MmOutput} (refused : Refused u m cause r)
    (kind : cause = .macFailure ∨ cause = .non5gAuthenticationUnacceptable) : Complaints r.2 where
  silent := refused.silent
  reports := by
    intro rand i mem
    obtain ⟨auts, here⟩ := refused.reports rand i mem
    exact ⟨cause, auts, rand, here, kind⟩

theorem Complaints.append {out out' : List MmOutput} (first : Complaints out)
    (later : Complaints out') : Complaints (out ++ out') where
  silent := fun o mem => (List.mem_append.mp mem).elim (first.silent o) (later.silent o)
  reports := by
    intro rand i mem
    rw [List.filterMap_append] at mem
    exact (List.mem_append.mp mem).elim (first.reports rand i) (later.reports rand i)

/-- The three requests are refused, and leave the UE with a number beyond those of the core. -/
theorem worn_forgeries {core : CoreNetwork} {u : NasMm} {rand : Block UInt8 16}
    {sqn d : Block UInt8 6} (waiting : Waiting aes hmac sha256 cfg rand sqn core)
    (attached : Attached cfg core.amf.snn u) (free : u.ksiInUse core.amf.ksi = false)
    (new : u.rand ≠ rand.toList)
    (changed : u.sqnMng.Acceptable (SqnManager.number (Bits.xor sqn d)))
    (differs : macAOf aes cfg rand (Bits.xor sqn d) ≠ macAOf aes cfg rand sqn) (eph : Ephemeral) :
    let forged := forgeries (gmmBuildAuthenticationRequest core.amf) core.amf.autn d eph
    Complaints (outputs (mmStep aes hmac cfg) u forged) ∧
      Worn u rand (SqnManager.number (Bits.xor sqn d)) (after (mmStep aes hmac cfg) u forged) := by
  obtain ⟨verdict, stored⟩ :=
    validateAutn_tamper attached.kept.reached attached.apart changed differs
  have bad : (validateAutn aes cfg u.sqnMng rand (tamper d core.amf.autn)).2.cause =
      some .macFailure := by
    rw [waiting.amfAutn, verdict]
    rfl
  have first := mmStep_refused hmac attached (waiting.carries.withAutn _) free new bad eph
  rw [← waiting.amfAutn, ← first.sqnMng] at stored
  -- The requests without separation bit leave the numbers as they are.
  have again {v : NasMm} (attached : Attached cfg core.amf.snn v)
      (free : v.ksiInUse core.amf.ksi = false) (new : v.rand ≠ rand.toList) :
      Refused v v.sqnMng .non5gAuthenticationUnacceptable (mmStep aes hmac cfg v (.request
        (withAutn (gmmBuildAuthenticationRequest core.amf) (clearAmf core.amf.autn)) eph)) := by
    have verdict := validateAutn_clearAmf aes cfg v.sqnMng rand core.amf.autn
    have refused := mmStep_refused hmac attached
      (waiting.carries.withAutn (clearAmf core.amf.autn)) free new
      (by rw [verdict]; rfl) eph
    rwa [verdict] at refused
  have attached₁ := first.attached attached (.inr (first.sqnMng ▸ stored))
  have free₁ := (first.ksiInUse _).trans free
  have second := again attached₁ free₁ (first.new new)
  have attached₂ := second.attached (n := 0) attached₁ (.inl rfl)
  have free₂ := (second.ksiInUse _).trans free₁
  have third := again attached₂ free₂ (second.new (first.new new))
  constructor
  · simp only [forgeries, outputs, List.append_nil]
    exact (first.complaints (.inl rfl)).append
      ((second.complaints (.inr rfl)).append (third.complaints (.inr rfl)))
  · constructor
    · exact (third.attached (n := 0) attached₂ (.inl rfl)).kept
    · rcases third.rand with same₃ | none
      · rcases second.rand with same₂ | none
        · have same := same₃.trans same₂
          exact first.rand.imp same.trans same.trans
        · exact .inr (same₃.trans none)
      · exact .inr none
    · have count := third.failures
      rw [second.failures, first.failures] at count
      exact le_trans (Nat.le_add_left 3 _) count.ge
    · have top := stored.top
      rw [← second.sqnMng, ← third.sqnMng] at top
      exact le_trans (le_max_right _ _) top.ge

theorem requestsIn_rejects {out : List CoreOutput} (rejects : ∀ o ∈ out, o = .reject) :
    requestsIn out = [] := by
  rw [requestsIn, List.filterMap_eq_nil_iff]
  intro o mem
  rw [rejects o mem]

theorem verdictsIn_rejects {out : List CoreOutput} (rejects : ∀ o ∈ out, o = .reject) :
    ∀ v ∈ verdictsIn out, v = .rejected := by
  intro v mem
  obtain ⟨o, here, same⟩ := List.mem_filterMap.mp mem
  rw [rejects o here] at same
  exact (Option.some.inj same).symm

/-- The lowest bit of the IND of the first vector is changed. -/
theorem plain_split :
    usedSqnXorAk plainCipher plainCfg (mmStep plainCipher plainHmac plainCfg
      (mmStep plainCipher plainHmac plainCfg plainUe
        (.request (withAutn (gmmBuildAuthenticationRequest plainAsking.amf)
          (tamper (sqnBuffer 1) plainAsking.amf.autn)) plainEph)).1
      (.request (gmmBuildAuthenticationRequest plainAsking.amf) plainEph)).1.sqnMng plainRand ≠
      sqnXorAkOf plainAsking.amf.autn :=
  (tampering_splits_keys plainCipher plainHmac plainSha256 plainCfg plainAsking plainUe plainRand
    (sqnBuffer 32) (sqnBuffer 1) plainEph plainEph plain_waiting plain_attached rfl (by decide)
    plain_acceptable (by decide +kernel) (by decide +kernel) (by decide +kernel)
    (by decide +kernel)).2.2

/-- The number 32 of the first vector is changed to 64, and the AMF hears of all three refusals. -/
def plainForgeries : List MmInput :=
  forgeries (gmmBuildAuthenticationRequest plainAsking.amf) plainAsking.amf.autn (sqnBuffer 96)
    plainEph

end EdhocAuth.Primary
