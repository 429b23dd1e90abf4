/-
What the two sides make of each other's tokens in 5G-AKA.

An AUTN of the core is one whose MAC the UE finds right, with the sequence number the core put in;
an AUTS of the UE is one the UDM takes SQN_MS from. `mmStep_carries` is what the UE does with a
request that carries a token.
-/

import EdhocAuth.Primary.Core
import EdhocAuth.Primary.Freshness

namespace EdhocAuth.Primary

open Octets Aka

variable {aes : Cipher} {hmac : Hmac} {cfg : UeConfig}

/-! ### Parts -/

/-- The parts of a token of 16 octets. -/
def token (sqnXorAk : Block UInt8 6) (amf : Block UInt8 2) (mac : Block UInt8 8) : Block UInt8 16 :=
  (sqnXorAk.cat amf).cat mac

theorem sqnXorAkOf_token (sqnXorAk : Block UInt8 6) (amf : Block UInt8 2) (mac : Block UInt8 8) :
    sqnXorAkOf (token sqnXorAk amf mac) = sqnXorAk := by
  show Block.read 0 6 (sqnXorAk.toList ++ amf.toList ++ mac.toList) = sqnXorAk
  rw [List.append_assoc]
  exact Block.read_toList_append 0 sqnXorAk _

theorem macOf_token (sqnXorAk : Block UInt8 6) (amf : Block UInt8 2) (mac : Block UInt8 8) :
    macOf (token sqnXorAk amf mac) = mac := by
  have front : (sqnXorAk.toList ++ amf.toList).length = 8 := by simp
  show Block.read 0 8 ((sqnXorAk.toList ++ amf.toList ++ mac.toList).drop 8) = mac
  rw [List.drop_left' front]
  exact Block.read_toList 0 mac

/-- The separation bit of an AMF. -/
def separated (amf : Block UInt8 2) : Bool := (Octets.octet amf.toList 0).toNat.testBit 7

theorem separationBit_token (sqnXorAk : Block UInt8 6) (amf : Block UInt8 2) (mac : Block UInt8 8) :
    separationBit (token sqnXorAk amf mac) = separated amf := by
  have here : Octets.octet (token sqnXorAk amf mac).toList 6 = Octets.octet amf.toList 0 := by
    have right := Octets.octet_append_right sqnXorAk.toList (amf.toList ++ mac.toList) 0
    rw [sqnXorAk.toList_length] at right
    show Octets.octet (sqnXorAk.toList ++ amf.toList ++ mac.toList) (6 + 0) = _
    rw [List.append_assoc, right,
      Octets.octet_append_left (by rw [amf.toList_length]; decide)]
  rw [separationBit, separated, here]

theorem take_token (sqnXorAk : Block UInt8 6) (amf : Block UInt8 2) (mac : Block UInt8 8) :
    (token sqnXorAk amf mac).toList.take 6 = sqnXorAk.toList := by
  show (sqnXorAk.toList ++ amf.toList ++ mac.toList).take 6 = _
  rw [List.append_assoc]
  exact List.take_left' sqnXorAk.toList_length

/-! ### Tokens -/

/-- The core computes RES, CK, IK and AK as the UE does. -/
theorem f2345_core (rand : Block UInt8 16) :
    milenageF2345 aes coreRotations (cfg.opcOf aes) cfg.key rand = f2345Of aes cfg rand := by
  rw [f2345Of, coreRotations_correct.f2345, ueRotations_correct.f2345]

/-- The core computes the MAC as the UE does. -/
theorem f1_core (rand : Block UInt8 16) (sqn : Block UInt8 6) (amf : Block UInt8 2) :
    milenageF1 aes coreRotations (cfg.opcOf aes) cfg.key rand sqn amf =
      milenageF1 aes ueRotations (cfg.opcOf aes) cfg.key rand sqn amf := by
  rw [coreRotations_correct.f1, ueRotations_correct.f1]

/-- The AUTN that the core makes for this subscription. -/
def autnFor (aes : Cipher) (cfg : UeConfig) (rand : Block UInt8 16) (sqn : Block UInt8 6) :
    Block UInt8 16 :=
  milenageAutn aes (cfg.opcOf aes) cfg.key rand sqn cfg.amf

/-- The AUTN of the core is a token. -/
theorem autnFor_eq (rand : Block UInt8 16) (sqn : Block UInt8 6) :
    autnFor aes cfg rand sqn =
      token (Bits.xor sqn (f2345Of aes cfg rand).ak) cfg.amf (macAOf aes cfg rand sqn) := by
  rw [autnFor, milenageAutn, f2345_core, f1_core]
  rfl

/-- The UE finds the number that the core has put in. -/
theorem sqnOf_autnFor (rand : Block UInt8 16) (sqn : Block UInt8 6) :
    sqnOf aes cfg rand (autnFor aes cfg rand sqn) = sqn := by
  rw [autnFor_eq, sqnOf, sqnXorAkOf_token, Bits.xor_xor]

/-- The UE verifies the AUTN of the core. -/
theorem verified_autnFor (aes : Cipher) (apart : separated cfg.amf = true) (rand : Block UInt8 16)
    (sqn : Block UInt8 6) : Verified aes cfg rand (autnFor aes cfg rand sqn) where
  separated := by rw [autnFor_eq, separationBit_token, apart]
  mac := by rw [sqnOf_autnFor, autnFor_eq, macOf_token]

/-- The UDM takes SQN_MS from an AUTS of the UE, and finds its MAC right. -/
theorem ogsAucSqn_autsFor (m : SqnManager) (rand : Block UInt8 16) :
    ogsAucSqn aes (cfg.opcOf aes) cfg.key rand (autsFor aes cfg m rand) =
      (m.getSqn, Block.snd (n := 6) (m := 8) (autsFor aes cfg m rand)) := by
  have parts : autsFor aes cfg m rand =
      (Bits.xor m.getSqn (f2345Of aes cfg rand).akstar).cat
        (milenageF1 aes ueRotations (cfg.opcOf aes) cfg.key rand m.getSqn (Block.fill 2 0)).2 := rfl
  rw [parts, Block.snd_cat, ogsAucSqn, f2345_core, Block.fst_cat]
  simp only [Bits.xor_comm (f2345Of aes cfg rand).akstar, Bits.xor_xor, f1_core]

/-! ### Numbers -/

theorem and_maxSqn (n : Nat) : n &&& maxSqn = n % 2 ^ 48 := Nat.and_two_pow_sub_one_eq_mod n 48

/-- Six octets spell a number of 48 bits. -/
theorem number_sqnBuffer {n : Nat} (small : n < 2 ^ 48) : SqnManager.number (sqnBuffer n) = n :=
  Octets.toNat_ofNat (lt_of_lt_of_le small (by decide))

theorem sqnBuffer_number (sqn : Block UInt8 6) : sqnBuffer (SqnManager.number sqn) = sqn := by
  apply SqnManager.number_inj
  exact number_sqnBuffer (SqnManager.number_lt sqn)

/-- The AUTN check of a token of the core is that of its sequence number. -/
theorem validateAutn_autnFor (aes : Cipher) {m : SqnManager} (reached : m.Reached)
    (apart : separated cfg.amf = true) (rand : Block UInt8 16) (sqn : Block UInt8 6) :
    (¬ m.Acceptable (SqnManager.number sqn) ∧
        validateAutn aes cfg m rand (autnFor aes cfg rand sqn) =
          (m, .synchronisationFailure)) ∨
      (m.Acceptable (SqnManager.number sqn) ∧
        (validateAutn aes cfg m rand (autnFor aes cfg rand sqn)).2 = .ok ∧
        SqnManager.Advanced m (SqnManager.number sqn)
          (validateAutn aes cfg m rand (autnFor aes cfg rand sqn)).1) := by
  have verified := verified_autnFor aes apart rand sqn
  have here := verified.separated
  have mac := verified.mac
  rw [validateAutn_eq, if_neg (by rw [here]; decide), mac, sqnOf_autnFor, decide_eq_true rfl]
  rcases reached.checkSqn_cases sqn with ⟨outside, same⟩ | ⟨acceptable, stored⟩
  · left
    rw [same]
    exact ⟨outside, rfl⟩
  · right
    rw [stored]
    exact ⟨acceptable, rfl, reached.advanced sqn acceptable⟩

/-! ### A request of the core -/

/-- A request of 5G-AKA with this RAND and AUTN, and a key set identifier that can be used. -/
structure Carries (msg : AuthenticationRequest) (rand autn : Block UInt8 16) : Prop where
  plain : msg.eapMessage = none
  rand : msg.authParamRAND = some rand.toList
  autn : msg.authParamAUTN = some autn.toList
  native : msg.ngKSI.mapped = false
  ksi : msg.ngKSI.ksi ≠ ksiNotAvailable

/-- An array of sixteen octets is taken. -/
theorem sixteen_toList (b : Block UInt8 16) : sixteen b.toList = some b := by
  rw [sixteen, dif_pos b.toList_length]
  rfl

/-- Only sixteen octets are taken. -/
theorem toList_of_sixteen {octets : List UInt8} {b : Block UInt8 16}
    (found : sixteen octets = some b) : octets = b.toList := by
  unfold sixteen at found
  split at found
  · cases found
    rfl
  · cases found

/-- What the UE does with a request that carries a token depends on the token only. -/
theorem mmStep_carries (aes : Cipher) (hmac : Hmac) (cfg : UeConfig) {u : NasMm} {snn : CString}
    {msg : AuthenticationRequest} {rand autn : Block UInt8 16} (valid : u.valid = true)
    (known : u.currentSnn = some snn) (carries : Carries msg rand autn) (eph : Ephemeral) :
    mmStep aes hmac cfg u (.request msg eph) =
      if u.ksiInUse msg.ngKSI.ksi then
        failing u fun u => sendFailure u .ngksiAlreadyInUse none
      else if u.rand ≠ rand.toList then
        answer5gAka aes hmac cfg { u with sqnMng := (validateAutn aes cfg u.sqnMng rand autn).1 }
          msg snn rand (validateAutn aes cfg u.sqnMng rand autn).2
      else accept5gAka aes hmac cfg u msg snn rand := by
  have params : check5gAka u msg = (do checkNgKsi u msg.ngKSI; return ⟨snn, rand, autn⟩) := by
    rw [check5gAka, known]
    simp only [carries.rand, carries.autn, Option.bind_some, sixteen_toList]
  have free : checkNgKsi u msg.ngKSI =
      if u.ksiInUse msg.ngKSI.ksi then
        .error (failing u fun u => sendFailure u .ngksiAlreadyInUse none)
      else .ok () := by
    rw [checkNgKsi, carries.native, if_neg Bool.false_ne_true, if_neg carries.ksi]
  have on : ¬ u.valid = false := by
    rw [valid]
    exact Bool.true_eq_false_eq_False
  rw [mmStep, receiveAuthenticationRequest, if_neg on, carries.plain]
  show receiveAuthenticationRequest5gAka aes hmac cfg u msg = _
  rw [receiveAuthenticationRequest5gAka, params, free]
  cases used : u.ksiInUse msg.ngKSI.ksi with
  | true => rfl
  | false => rfl

/-- What the UE takes for SQN xor AK. -/
def usedSqnXorAk (aes : Cipher) (cfg : UeConfig) (m : SqnManager) (rand : Block UInt8 16) :
    Block UInt8 6 :=
  Bits.xor m.getSqn (f2345Of aes cfg rand).ak

/-- The context that the UE makes of an accepted request. -/
def contextFor (aes : Cipher) (hmac : Hmac) (cfg : UeConfig) (m : SqnManager)
    (msg : AuthenticationRequest) (snn : CString) (rand : Block UInt8 16) : NasSecurityContext :=
  let f := f2345Of aes cfg rand
  let kAusf := calculateKAusfFor5gAka hmac f.ck.toList f.ik.toList snn.octets
    (usedSqnXorAk aes cfg m rand).toList
  let keys := deriveKeysSeafAmf hmac snn.octets cfg.supi.octets kAusf msg.abba
  { mapped := msg.ngKSI.mapped
    ngKsi := msg.ngKSI.ksi
    kAusf := kAusf
    kSeaf := keys.1
    kAmf := keys.2
    abba := msg.abba }

/-- What an accepted AUTN leaves. -/
theorem accept5gAka_eq (u : NasMm) (msg : AuthenticationRequest) (snn : CString)
    (rand : Block UInt8 16) :
    accept5gAka aes hmac cfg u msg snn rand =
      ({ u with
          rand := rand.toList
          resStar := resStarOf aes hmac cfg snn rand
          nonCurrentNsCtx := some (contextFor aes hmac cfg u.sqnMng msg snn rand)
          nwConsecutiveAuthFailure := 0 },
        [.authenticationResponse (resStarOf aes hmac cfg snn rand)]) := by
  simp only [accept5gAka, partialContext]
  rfl

/-- After a number has been accepted, the UE takes the SQN xor AK of the token if and only if no
higher number had been stored before. -/
theorem usedSqnXorAk_eq_iff (aes : Cipher) (cfg : UeConfig) {m m' : SqnManager}
    {sqn : Block UInt8 6} (advanced : SqnManager.Advanced m (SqnManager.number sqn) m')
    (rand : Block UInt8 16) :
    usedSqnXorAk aes cfg m' rand = sqnXorAkOf (autnFor aes cfg rand sqn) ↔
      m.top ≤ SqnManager.number sqn := by
  have most := advanced.reached.number_getSqn
  rw [advanced.top] at most
  rw [autnFor_eq, sqnXorAkOf_token, usedSqnXorAk]
  constructor
  · intro same
    have number := congrArg SqnManager.number (Bits.xor_right_cancel same)
    rw [most] at number
    exact le_trans (le_max_left _ _) number.le
  · intro above
    rw [max_eq_right above] at most
    rw [SqnManager.number_inj most]

end EdhocAuth.Primary
