/-
The keys of EAP-AKA' at the UDM, the AUSF and the UE.

The UDM derives CK', IK', K_aut and K_AUSF (`src/udm/nudr-handler.c`). In FS and HPQC mode
the AUSF derives K_AUSF again from a shared secret (`src/ausf/nausf-handler.c`), and so does
the UE (`ue/nas/mm/auth.cpp`).

* `keys_agree`: with the same inputs both sides have the same keys, in all three modes.
* `hybrid_key_iff`: in HPQC mode the key of PRF' depends on the ML-KEM secret only, on both
  sides. The shared secret has 64 octets, and 32 of them are used.
-/

import EdhocAuth.Aka.Kdf
import EdhocAuth.Lib.Sha256

namespace EdhocAuth.Aka

open Octets Eap

/-! ### Identities -/

/-- `"imsi-"` -/
def imsiTag : List UInt8 := [0x69, 0x6d, 0x73, 0x69, 0x2d]

/-- `Supi::Parse`: the value; `none` is an exception. -/
def supiParse (supi : CString) : Option (List UInt8) :=
  if supi.octets.take 5 = imsiTag then
    let val := supi.octets.drop 5
    if val.length < 4 ∨ 15 < val.length then none
    else if val.all (fun c => 0x30 ≤ c ∧ c ≤ 0x39) then some val
    else none
  else none

def identityOf (supi : CString) : List UInt8 := supi.octets.drop 5

/-- The core skips what the UE has parsed. -/
theorem identityOf_eq {supi : CString} {value : List UInt8} (parsed : supiParse supi = some value) :
    identityOf supi = value ∧ value.length ≤ 15 := by
  unfold supiParse at parsed
  split at parsed
  · dsimp only at parsed
    split at parsed
    · cases parsed
    · next size =>
      split at parsed
      · cases parsed
        exact ⟨rfl, by omega⟩
      · cases parsed
  · cases parsed

/-! ### Keys of the core network -/

structure AkaVector where
  ckPrime : Block UInt8 16
  ikPrime : Block UInt8 16
  kAut : List UInt8
  kausf : List UInt8

/-- The EAP-AKA' part of `udm_nudr_dr_handle_subscription_authentication`; `mk` is the array
before `ogs_kdf_prf_prime` fills it. -/
def udmAkaVector (hmac : Hmac) (ck ik : Block UInt8 16) (snn : CString) (sqnXorAk : Block UInt8 6)
    (supi : CString) (mk : Block UInt8 208) : Except KdfError AkaVector := do
  let prime ← ogsKdfCkprimeIkprime hmac ck ik snn sqnXorAk
  let mk := ogsKdfPrfPrime hmac prime.2 prime.1 (identityOf supi) mk.toList
  return ⟨prime.1, prime.2, field mk 16 32, field mk 144 32⟩

structure AusfKeys where
  mkOut : List UInt8
  kRe : List UInt8
  msk : List UInt8
  emsk : List UInt8
  kausf : List UInt8
deriving DecidableEq

/-- The key derivation of `ausf_nausf_auth_handle_authenticate_confirmation`, with `mk_ecdhe` or
`mk_hybrid` as it was before. -/
def ausfKeys (hmac : Hmac) (ikPrime ckPrime : Block UInt8 16) (sharedSecret : List UInt8)
    (supi : CString) (mk : Block UInt8 208) : Except KdfError AusfKeys := do
  let mk ← ogsKdfPrfPrimeFs hmac ikPrime ckPrime sharedSecret (identityOf supi) mk.toList
  return ⟨mk, field mk 0 32, field mk 32 64, field mk 96 64, field mk 96 32⟩

def hybridSharedSecret (mlkem x25519 : Block UInt8 32) : List UInt8 := mlkem.toList ++ x25519.toList

/-! ### Both sides -/

theorem field_field {buf : List UInt8} {pos len m : Nat} (inside : len ≤ m) :
    field (field buf pos m) 0 len = field buf pos len := by
  rw [field, List.drop_zero, field, List.take_take, Nat.min_eq_left inside, field]

/-- Both sides derive the same CK' and IK', if the name fits into the buffer of the UDM. -/
theorem ckprimeIkprime_agree (hmac : Hmac) (ck ik : Block UInt8 16) {snn : CString}
    (sqnXorAk : Block UInt8 6) (short : snn.strlen ≤ 1000) :
    ∃ ckPrime ikPrime, ogsKdfCkprimeIkprime hmac ck ik snn sqnXorAk = .ok (ckPrime, ikPrime) ∧
      calculateCkPrimeIkPrime hmac ck.toList ik.toList snn.octets sqnXorAk.toList =
        (ckPrime.toList, ikPrime.toList) := by
  let input := [0x20] ++ snn.octets ++ Octets.ofNat 2 snn.strlen ++ sqnXorAk.toList ++ [0x00, 0x06]
  let output : Block UInt8 (16 + 16) := hmac (ck.toList ++ ik.toList) input
  have size : input.length = 11 + snn.strlen := by
    simp [input, CString.strlen]
    omega
  have same : ([0x20] : List UInt8) ++
      ([snn.octets, sqnXorAk.toList].flatMap fun p => p ++ Octets.ofNat 2 p.length) = input := by
    simp only [List.flatMap_cons, List.flatMap_nil, List.Vector.toList_length, input,
      CString.strlen, List.append_assoc, List.append_nil]
    rfl
  refine ⟨output.fst, output.snd, ?_, ?_⟩
  · rw [ogsKdfCkprimeIkprime]
    dsimp only
    rw [if_neg (show ¬ 1024 < input.length by omega)]
  · rw [calculateCkPrimeIkPrime, calculateKdfKey, same]
    simp only [List.Vector.toList_length]
    show (field output.toList 0 16, field output.toList 16 16) = _
    have right : (output.toList.drop 16).take 16 = output.toList.drop 16 :=
      List.take_of_length_le (by simp)
    rw [field, field, List.drop_zero, right]
    rfl

/-- With equal IK', CK' and shared secrets, the AUSF's octets 96 to 127 are the UE's K_AUSF. -/
theorem ausfKeys_agree (hmac : Hmac) (ikPrime ckPrime : Block UInt8 16) {sharedSecret : List UInt8}
    (long : 32 ≤ sharedSecret.length) {supi : CString} {value : List UInt8}
    (parsed : supiParse supi = some value) (mk : Block UInt8 208) :
    ∃ keys stream, ausfKeys hmac ikPrime ckPrime sharedSecret supi mk = .ok keys ∧
      calculateMkFs hmac ikPrime.toList ckPrime.toList sharedSecret value = some stream ∧
      calculateKAusfForEapAkaPrimeFs stream = some keys.kausf := by
  obtain ⟨same, short⟩ := identityOf_eq parsed
  let key := ogsPrfKeyFs ikPrime ckPrime sharedSecret
  have keyLen : key.length = 64 := by
    simp only [key, ogsPrfKeyFs, List.length_append, List.Vector.toList_length,
      List.length_take_of_le long]
  have sizes : PrfSizes key (208 : Nat) := ⟨.inr keyLen, by decide, by decide⟩
  have core : ogsKdfPrfPrimeFs hmac ikPrime ckPrime sharedSecret (identityOf supi) mk.toList =
      .ok ((Prf.expand (hmac key) (labelFs ++ value) 7).take 208 ++ mk.toList.drop 208) := by
    rw [ogsKdfPrfPrimeFs, same]
    refine ogsCalculatePrfPrime_eq hmac sizes ?_
    rw [List.length_append]
    exact Nat.add_le_add (show labelFs.length ≤ 11 by decide)
      (short.trans (show 15 ≤ 4052 by decide))
  rw [List.drop_eq_nil_of_le mk.toList_length.le, List.append_nil] at core
  let mk' := (Prf.expand (hmac key) (labelFs ++ value) 7).take 208
  refine ⟨⟨mk', field mk' 0 32, field mk' 32 64, field mk' 96 64, field mk' 96 32⟩,
    Prf.expand (hmac key) (labelFs ++ value) 7, ?_, ?_, ?_⟩
  · rw [ausfKeys, core]
    rfl
  · exact calculatePrfPrime_eq hmac sizes
  · rw [calculateKAusfForEapAkaPrimeFs, if_neg (by rw [Prf.length_expand]; decide)]
    rw [field_field (by decide)]
    exact congrArg some (field_take (by decide)).symm

/-- The keys of a vector are the UE's. -/
theorem udmAkaVector_agree (hmac : Hmac) (ck ik : Block UInt8 16) {snn : CString}
    (sqnXorAk : Block UInt8 6) (short : snn.strlen ≤ 1000) {supi : CString} {value : List UInt8}
    (parsed : supiParse supi = some value) (mk : Block UInt8 208) :
    ∃ vector stream, udmAkaVector hmac ck ik snn sqnXorAk supi mk = .ok vector ∧
      calculateCkPrimeIkPrime hmac ck.toList ik.toList snn.octets sqnXorAk.toList =
        (vector.ckPrime.toList, vector.ikPrime.toList) ∧
      calculateMk hmac vector.ckPrime.toList vector.ikPrime.toList value = some stream ∧
      vector.kAut = field stream 16 32 ∧ vector.kausf = calculateKAusfForEapAkaPrime stream := by
  obtain ⟨same, -⟩ := identityOf_eq parsed
  obtain ⟨ckPrime, ikPrime, core, ue⟩ := ckprimeIkprime_agree hmac ck ik sqnXorAk short
  let key := ikPrime.toList ++ ckPrime.toList
  have sizes : PrfSizes key (208 : Nat) := ⟨.inl (by simp [key]), by decide, by decide⟩
  have stream : ogsKdfPrfPrime hmac ikPrime ckPrime (identityOf supi) mk.toList =
      (Prf.expand (hmac key) (label ++ value) 7).take 208 := by
    rw [same]
    exact ogsKdfPrfPrime_eq hmac ikPrime ckPrime value mk.toList_length
  let mk' := (Prf.expand (hmac key) (label ++ value) 7).take 208
  refine ⟨⟨ckPrime, ikPrime, field mk' 16 32, field mk' 144 32⟩,
    Prf.expand (hmac key) (label ++ value) 7, ?_, ue, ?_, ?_, ?_⟩
  · rw [udmAkaVector, core]
    simp only [bind, Except.bind, stream]
    rfl
  · exact calculatePrfPrime_eq hmac sizes
  · exact field_take (by decide)
  · rw [calculateKAusfForEapAkaPrime, field_field (by rw [Prf.length_expand]; decide)]
    exact field_take (by decide)

/-- Core network and UE have the same keys. The vector of the UDM: CK', IK', K_aut and K_AUSF. In FS
and HPQC mode: K_AUSF, once the shared secrets agree. And whatever length is asked for,
`ogs_calculate_prf_prime` writes the beginning of what `CalculatePrfPrime` returns. -/
theorem keys_agree (hmac : Hmac) :
    (∀ (ck ik : Block UInt8 16) (snn : CString) (sqnXorAk : Block UInt8 6) (supi : CString)
      (value : List UInt8) (mk : Block UInt8 208), snn.strlen ≤ 1000 → supiParse supi = some value →
      ∃ vector stream, udmAkaVector hmac ck ik snn sqnXorAk supi mk = .ok vector ∧
        calculateCkPrimeIkPrime hmac ck.toList ik.toList snn.octets sqnXorAk.toList =
          (vector.ckPrime.toList, vector.ikPrime.toList) ∧
        calculateMk hmac vector.ckPrime.toList vector.ikPrime.toList value = some stream ∧
        vector.kAut = field stream 16 32 ∧ vector.kausf = calculateKAusfForEapAkaPrime stream) ∧
    (∀ (ikPrime ckPrime : Block UInt8 16) (sharedSecret : Block UInt8 32) (supi : CString)
      (value : List UInt8) (mk : Block UInt8 208), supiParse supi = some value →
      ∃ keys stream, ausfKeys hmac ikPrime ckPrime sharedSecret.toList supi mk = .ok keys ∧
        calculateMkFs hmac ikPrime.toList ckPrime.toList sharedSecret.toList value = some stream ∧
        calculateKAusfForEapAkaPrimeFs stream = some keys.kausf) ∧
    (∀ (ikPrime ckPrime : Block UInt8 16) (mlkem x25519 : Block UInt8 32) (supi : CString)
      (value : List UInt8) (mk : Block UInt8 208), supiParse supi = some value →
      ∃ keys stream, ausfKeys hmac ikPrime ckPrime (hybridSharedSecret mlkem x25519) supi mk =
        .ok keys ∧
        calculateMkFs hmac ikPrime.toList ckPrime.toList (hybridSharedSecret mlkem x25519) value =
          some stream ∧
        calculateKAusfForEapAkaPrimeFsHPQC stream = some keys.kausf) ∧
    ∀ (key input output : List UInt8) (outputLen : Int), key.length = 32 ∨ key.length = 64 →
      input.length ≤ 4063 → 0 ≤ outputLen → outputLen.tdiv 32 + 1 ≤ 254 →
      ∃ stream, calculatePrfPrime hmac key input outputLen = some stream ∧
      outputLen ≤ stream.length ∧
        ogsCalculatePrfPrime hmac key input outputLen output =
          .ok (stream.take outputLen.toNat ++ output.drop outputLen.toNat) := by
  refine ⟨?_, ?_, ?_, ?_⟩
  · intro ck ik snn sqnXorAk supi value mk short parsed
    exact udmAkaVector_agree hmac ck ik sqnXorAk short parsed mk
  · intro ikPrime ckPrime sharedSecret supi value mk parsed
    exact ausfKeys_agree hmac ikPrime ckPrime sharedSecret.toList_length.ge parsed mk
  · intro ikPrime ckPrime mlkem x25519 supi value mk parsed
    refine ausfKeys_agree hmac ikPrime ckPrime ?_ parsed mk
    rw [hybridSharedSecret, List.length_append, mlkem.toList_length]
    exact Nat.le_add_right 32 _
  · intro key input output outputLen keyLen room nonneg rounds
    obtain ⟨n, rfl⟩ := Int.eq_ofNat_of_zero_le nonneg
    have sizes : PrfSizes key n := ⟨keyLen, nonneg, rounds⟩
    refine ⟨_, calculatePrfPrime_eq hmac sizes, ?_, ogsCalculatePrfPrime_eq hmac sizes room⟩
    rw [Prf.length_expand]
    omega

def someImsi : CString where
  octets :=
    imsiTag ++ [0x39, 0x39, 0x39, 0x37, 0x30, 0x30, 0x30, 0x30, 0x30, 0x30, 0x30, 0x30, 0x30, 0x30,
    0x31]
  nulFree := by decide

/-- `5G:NSWO` -/
def someSnn : CString where
  octets := [0x35, 0x47, 0x3a, 0x4e, 0x53, 0x57, 0x4f]
  nulFree := by decide

/-- The hypotheses hold of an IMSI of fifteen digits. -/
theorem keys_agree_someImsi :
    ∃ vector stream,
      udmAkaVector Sha256.hmac (Block.fill 16 1) (Block.fill 16 2) someSnn (Block.fill 6 3) someImsi
          (Block.fill 208 0) = .ok vector ∧
        calculateMk Sha256.hmac vector.ckPrime.toList vector.ikPrime.toList (identityOf someImsi) =
          some stream ∧
        vector.kAut = field stream 16 32 ∧ vector.kausf = calculateKAusfForEapAkaPrime stream := by
  obtain ⟨vectors, -, -, -⟩ := keys_agree Sha256.hmac
  obtain ⟨vector, stream, made, -, ue⟩ :=
    vectors (Block.fill 16 1) (Block.fill 16 2) someSnn (Block.fill 6 3)
    someImsi (identityOf someImsi) (Block.fill 208 0) (by decide) (by decide)
  exact ⟨vector, stream, made, ue⟩

/-! ### The hybrid secret -/

/-- In HPQC mode the keys with which two runs call HMAC differ exactly when their ML-KEM secrets do,
at the AUSF and at the UE; runs with the same ML-KEM secret have the same MK and K_AUSF. -/
theorem hybrid_key_iff (ikPrime ckPrime : Block UInt8 16)
    (mlkem x25519 mlkem' x25519' : Block UInt8 32) :
    (ogsPrfKeyFs ikPrime ckPrime (hybridSharedSecret mlkem x25519) ≠
        ogsPrfKeyFs ikPrime ckPrime (hybridSharedSecret mlkem' x25519') ↔ mlkem ≠ mlkem') ∧
      (prfKeyFs ikPrime.toList ckPrime.toList (hybridSharedSecret mlkem x25519) ≠
        prfKeyFs ikPrime.toList ckPrime.toList (hybridSharedSecret mlkem' x25519') ↔
          mlkem ≠ mlkem') ∧
      (mlkem = mlkem' →
      ∀ (hmac : Hmac) (supi : CString) (value : List UInt8) (mk : Block UInt8 208),
        ausfKeys hmac ikPrime ckPrime (hybridSharedSecret mlkem x25519) supi mk =
            ausfKeys hmac ikPrime ckPrime (hybridSharedSecret mlkem' x25519') supi mk ∧
          calculateMkFs hmac ikPrime.toList ckPrime.toList (hybridSharedSecret mlkem x25519) value =
            calculateMkFs hmac ikPrime.toList ckPrime.toList
              (hybridSharedSecret mlkem' x25519') value) := by
  have core (m x : Block UInt8 32) : ogsPrfKeyFs ikPrime ckPrime (hybridSharedSecret m x) =
      ikPrime.toList ++ ckPrime.toList ++ m.toList := by
    rw [ogsPrfKeyFs, hybridSharedSecret, List.take_left' m.toList_length]
  have ue (m x : Block UInt8 32) : prfKeyFs ikPrime.toList ckPrime.toList (hybridSharedSecret m x) =
      ikPrime.toList ++ ckPrime.toList ++ m.toList := by
    rw [prfKeyFs, hybridSharedSecret, field, List.drop_zero, List.take_left' m.toList_length]
  have differ : ikPrime.toList ++ ckPrime.toList ++ mlkem.toList ≠
      ikPrime.toList ++ ckPrime.toList ++ mlkem'.toList ↔ mlkem ≠ mlkem' := by
    rw [ne_eq, List.append_right_inj, ne_eq, not_iff_not]
    exact ⟨List.Vector.eq _ _, congrArg _⟩
  refine ⟨?_, ?_, ?_⟩
  · rw [core, core]
    exact differ
  · rw [ue, ue]
    exact differ
  · intro same hmac supi value mk
    subst same
    refine ⟨?_, ?_⟩
    · rw [ausfKeys, ausfKeys, ogsKdfPrfPrimeFs, ogsKdfPrfPrimeFs, core, core]
    · rw [calculateMkFs, calculateMkFs, ue, ue]

/-- Two X25519 secrets and one ML-KEM secret: one key. -/
theorem x25519_secret_unused :
    ¬ ∀ (ikPrime ckPrime : Block UInt8 16) (mlkem x25519 mlkem' x25519' : Block UInt8 32),
      (mlkem = mlkem' ∧ x25519 ≠ x25519') ∨ (mlkem ≠ mlkem' ∧ x25519 = x25519') →
      ogsPrfKeyFs ikPrime ckPrime (hybridSharedSecret mlkem x25519) ≠
          ogsPrfKeyFs ikPrime ckPrime (hybridSharedSecret mlkem' x25519') ∧
        prfKeyFs ikPrime.toList ckPrime.toList (hybridSharedSecret mlkem x25519) ≠
          prfKeyFs ikPrime.toList ckPrime.toList (hybridSharedSecret mlkem' x25519') := by
  intro separates
  obtain ⟨core, -⟩ :=
    separates (Block.fill 16 0) (Block.fill 16 0) (Block.fill 32 0) (Block.fill 32 1)
    (Block.fill 32 0) (Block.fill 32 2) (.inl ⟨rfl, by decide⟩)
  exact core rfl

end EdhocAuth.Aka
