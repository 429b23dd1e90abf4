/-
The confirmation of EAP-AKA' at the AUSF: the EAP-AKA' branch of
`ausf_nausf_auth_handle_authenticate_confirmation` (`src/ausf/nausf-handler.c`).

The payload is parsed, the keys of FS or HPQC mode are derived if there is a public value, the
MAC is compared, and RES is compared with XRES over as many octets as the parser has found:
seven, or none. X25519 and the decapsulation of ML-KEM are parameters. A read outside of the
payload is `undefined`; `print_hex` reads all that the parser returns.

`confirmation_expected_iff` says for which payloads, XRES and K_aut the handler accepts only the
expected response: what it does not look at has to be as expected, which is the octets of RES
behind the seven that it compares, AT_RES itself, and that the field it clears is that of AT_MAC.
-/

import EdhocAuth.Aka.Keys
import EdhocAuth.Aka.Mac

namespace EdhocAuth.Aka

open Octets Eap

/-! ### The handler -/

structure AusfPrimitives where
  hmac : Hmac
  curve25519 : Block UInt8 32 → Block UInt8 32 → Block UInt8 32
  mlkemDecapsulate : Block UInt8 1088 → Block UInt8 2400 → Block UInt8 32

/-- What the handler uses of `ausf_ue_t`; of `ik_prime` and `ck_prime` the first sixteen octets. -/
structure AusfUe where
  supi : CString
  xres : Block UInt8 16
  xresLen : Nat
  kAut : Block UInt8 32
  ikPrime : Block UInt8 16
  ckPrime : Block UInt8 16
  privKey : Block UInt8 32
  mlkemSk : Block UInt8 2400
  mkEcdhe : Block UInt8 208
  mkHybrid : Block UInt8 208
  kRe : List UInt8
  msk : List UInt8
  emsk : List UInt8
  kausf : List UInt8

/-- How the handler ends. It returns `false` without a result, sets `AUTHENTICATION_FAILURE` because
of the MAC or of RES, or sets `AUTHENTICATION_SUCCESS`. -/
inductive Confirmation where
  | undefined
  | refused
  | macMismatch
  | resMismatch
  | success
deriving DecidableEq

/-- The keys that an FS or HPQC run puts into `ausf_ue`. -/
def AusfUe.withKeys (ue : AusfUe) (keys : AusfKeys) : AusfUe :=
  { ue with kRe := keys.kRe, msk := keys.msk, emsk := keys.emsk, kausf := keys.kausf }

/-- The key derivation of the branch for the public value in the message. -/
def deriveKeys (prims : AusfPrimitives) (ue : AusfUe) (payload : List UInt8) (msg : EapMessage) :
    Except KdfError AusfUe :=
  match msg.pubEcdhe.filter (fun _ => 32 ≤ msg.pubEcdheLen),
    msg.pubHybrid.filter (fun _ => 1120 ≤ msg.pubHybridLen) with
  | some ecdhe, _ =>
    let uePubKey := Block.read 0 32 (field payload (ecdhe + 4) 32)
    let sharedSecret := prims.curve25519 ue.privKey uePubKey
    (ausfKeys prims.hmac ue.ikPrime ue.ckPrime sharedSecret.toList ue.supi ue.mkEcdhe).map
        fun keys =>
      { ue.withKeys keys with mkEcdhe := Block.read 0 208 keys.mkOut }
  | none, some hybrid =>
    let ct := Block.read 0 1088 (field payload hybrid 1088)
    let uePub := Block.read 0 32 (field payload (hybrid + 1088) 32)
    let sharedSecret := hybridSharedSecret (prims.mlkemDecapsulate ct ue.mlkemSk)
      (prims.curve25519 ue.privKey uePub)
    (ausfKeys prims.hmac ue.ikPrime ue.ckPrime sharedSecret ue.supi ue.mkHybrid).map fun keys =>
      { ue.withKeys keys with mkHybrid := Block.read 0 208 keys.mkOut }
  | none, none => .ok ue

/-- All octets behind a pointer belong to the payload. -/
def Readable (payload : List UInt8) (ptr : Option Nat) (len : Nat) : Prop :=
  ∀ p ∈ ptr, p + len ≤ payload.length

instance (payload : List UInt8) (ptr : Option Nat) (len : Nat) :
    Decidable (Readable payload ptr len) :=
  inferInstanceAs (Decidable (∀ p ∈ ptr, p + len ≤ payload.length))

/-- The octets behind a pointer, none behind `NULL`. -/
def octetsAt (payload : List UInt8) (ptr : Option Nat) (len : Nat) : List UInt8 :=
  (ptr.map fun p => field payload p len).getD []

def compareMacAndRes (hmac : Hmac) (ue : AusfUe) (payload : List UInt8) (msg : EapMessage) :
    Confirmation :=
  match pointed payload msg.mac 16 with
  | none => .undefined
  | some mac =>
    match calculateMacForEapAkaPrime hmac ue.kAut.toList payload with
    | none => .refused
    | some macResult =>
      if mac ≠ macResult.toList then .macMismatch
      else if octetsAt payload msg.res msg.resLen ≠ ue.xres.toList.take msg.resLen then .resMismatch
      else .success

/-- The EAP-AKA' branch of `ausf_nausf_auth_handle_authenticate_confirmation`, from the decoded
payload on. The array it is decoded into has 2048 octets, one of them for a terminator. -/
def authenticateConfirmation (prims : AusfPrimitives) (ue : AusfUe) (payload : List UInt8) :
    Confirmation × AusfUe :=
  if 2048 ≤ payload.length then (.undefined, ue)
  else if payload = [] then (.refused, ue)
  else
    let msg := parseEapAkaPrime payload
    if Readable payload msg.res msg.resLen ∧ Readable payload msg.pubEcdhe msg.pubEcdheLen ∧
        Readable payload msg.pubHybrid msg.pubHybridLen then
      match deriveKeys prims ue payload msg with
      | .error _ => (.undefined, ue)
      | .ok ue => (compareMacAndRes prims.hmac ue payload msg, ue)
    else (.undefined, ue)

/-! ### When it succeeds -/

section Success

variable {prims : AusfPrimitives} {ue ue' : AusfUe} {payload : List UInt8} {msg : EapMessage}

/-- The handler gets as far as the comparison of RES: the octets that the parser takes for the MAC
are those that `CalculateMacForEapAkaPrime` computes. -/
structure Compared (prims : AusfPrimitives) (ue : AusfUe) (payload : List UInt8) : Prop where
  nonempty : payload ≠ []
  fits : payload.length < 2048
  res : Readable payload (parseEapAkaPrime payload).res (parseEapAkaPrime payload).resLen
  ecdhe :
    Readable payload (parseEapAkaPrime payload).pubEcdhe (parseEapAkaPrime payload).pubEcdheLen
  hybrid :
    Readable payload (parseEapAkaPrime payload).pubHybrid (parseEapAkaPrime payload).pubHybridLen
  keys : ∃ ue', deriveKeys prims ue payload (parseEapAkaPrime payload) = .ok ue'
  mac : ∃ mac, pointed payload (parseEapAkaPrime payload).mac 16 = some mac.toList ∧
    calculateMacForEapAkaPrime prims.hmac ue.kAut.toList payload = some mac

theorem exists_of_map_eq_ok {ε α β : Type} {x : Except ε α} {f : α → β} {b : β}
    (mapped : x.map f = .ok b) :
    ∃ a, x = .ok a ∧ f a = b := by
  cases x with
  | error e => cases mapped
  | ok a => exact ⟨a, rfl, Except.ok.inj mapped⟩

/-- The key derivation leaves XRES and K_aut of the context alone. -/
theorem deriveKeys_keeps (derived : deriveKeys prims ue payload msg = .ok ue') :
    ue'.xres = ue.xres ∧ ue'.kAut = ue.kAut := by
  unfold deriveKeys at derived
  split at derived
  · obtain ⟨keys, -, rfl⟩ := exists_of_map_eq_ok derived
    exact ⟨rfl, rfl⟩
  · obtain ⟨keys, -, rfl⟩ := exists_of_map_eq_ok derived
    exact ⟨rfl, rfl⟩
  · cases derived
    exact ⟨rfl, rfl⟩

/-- The comparison succeeds if the MAC is right and the octets of RES are those of XRES. -/
theorem compareMacAndRes_eq_success {hmac : Hmac} :
    compareMacAndRes hmac ue payload msg = .success ↔
      (∃ mac : Block UInt8 16, pointed payload msg.mac 16 = some mac.toList ∧
        calculateMacForEapAkaPrime hmac ue.kAut.toList payload = some mac) ∧
      octetsAt payload msg.res msg.resLen = ue.xres.toList.take msg.resLen := by
  constructor
  · intro success
    unfold compareMacAndRes at success
    split at success
    · cases success
    · next mac found =>
      split at success
      · cases success
      · next macResult computed =>
        split_ifs at success with same agree
        rw [not_not] at same agree
        exact ⟨⟨macResult, by rw [found, same], computed⟩, agree⟩
  · rintro ⟨⟨mac, found, computed⟩, agree⟩
    simp only [compareMacAndRes, found, computed]
    rw [if_neg (by simp), if_neg (not_not.mpr agree)]

/-- The handler accepts exactly if it compares RES and the octets that it compares agree. -/
theorem authenticateConfirmation_eq_success :
    (authenticateConfirmation prims ue payload).1 = .success ↔
      Compared prims ue payload ∧
        octetsAt payload (parseEapAkaPrime payload).res (parseEapAkaPrime payload).resLen =
          ue.xres.toList.take (parseEapAkaPrime payload).resLen := by
  constructor
  · intro success
    unfold authenticateConfirmation at success
    dsimp only at success
    split_ifs at success with long empty readable
    split at success
    · cases success
    · next ue' derived =>
      obtain ⟨sameXres, sameKey⟩ := deriveKeys_keeps derived
      obtain ⟨mac, agree⟩ := compareMacAndRes_eq_success.mp success
      rw [sameKey] at mac
      rw [sameXres] at agree
      exact ⟨⟨empty, by omega, readable.1, readable.2.1, readable.2.2, ⟨ue', derived⟩, mac⟩, agree⟩
  · rintro ⟨compared, agree⟩
    obtain ⟨ue', derived⟩ := compared.keys
    obtain ⟨sameXres, sameKey⟩ := deriveKeys_keeps derived
    have fits := compared.fits
    unfold authenticateConfirmation
    dsimp only
    rw [if_neg (by omega), if_neg compared.nonempty,
      if_pos ⟨compared.res, compared.ecdhe, compared.hybrid⟩,
      derived]
    refine compareMacAndRes_eq_success.mpr ⟨?_, ?_⟩
    · rw [sameKey]
      exact compared.mac
    · rw [sameXres]
      exact agree

end Success

/-! ### What the parser takes for AT_RES and AT_MAC -/

/-- What the parser takes for RES and for the MAC stands four octets behind their types. -/
theorem parseEapAkaPrime_types (payload : List UInt8) :
    (∀ p, (parseEapAkaPrime payload).res = some p →
      ∃ t, p = t + 4 ∧ Octets.octet payload t = atRes) ∧
    ∀ q, (parseEapAkaPrime payload).mac = some q →
      ∃ t, q = t + 4 ∧ Octets.octet payload t = atMac := by
  refine parseEapAkaPrime_inv (fun msg =>
    (∀ p, msg.res = some p → ∃ t, p = t + 4 ∧ Octets.octet payload t = atRes) ∧
    ∀ q, msg.mac = some q → ∃ t, q = t + 4 ∧ Octets.octet payload t = atMac) ⟨nofun, nofun⟩ ?_
  intro pos msg ⟨res, mac⟩
  simp only [parseAttribute]
  split_ifs with isRes isMac
  · refine ⟨fun p found => ⟨pos, ?_, isRes⟩, mac⟩
    rw [← Option.some.inj found]
  · refine ⟨res, fun q found => ⟨pos, ?_, isMac⟩⟩
    rw [← Option.some.inj found]
  all_goals exact ⟨res, mac⟩

/-! ### What an accepted payload should contain -/

/-- XRES, in its length. -/
def AusfUe.expectedRes (ue : AusfUe) : List UInt8 := ue.xres.toList.take ue.xresLen

/-- AT_RES with a given value, whatever its length says. -/
def ResAt (payload xres : List UInt8) (p : Nat) : Prop :=
  Octets.octet payload p = atRes ∧ p + 4 + xres.length ≤ payload.length ∧
    field payload (p + 4) xres.length = xres

/-- AT_MAC with the MAC of the payload. -/
def MacAt (hmac : Hmac) (kAut payload : List UInt8) (q : Nat) : Prop :=
  Octets.octet payload q = atMac ∧ q + 20 ≤ payload.length ∧
    field payload (q + 4) 16 = (truncated hmac kAut (cleared payload (q + 4))).toList

section Expected

variable (prims : AusfPrimitives) (ue : AusfUe) (payload : List UInt8)

/-- The payload carries XRES in an AT_RES and its MAC in an AT_MAC, wherever they stand. -/
def Carries : Prop :=
  ∃ p q, ResAt payload ue.expectedRes p ∧ MacAt prims.hmac ue.kAut.toList payload q

/-- The attributes that carry them are the ones the parser takes. -/
def CarriesTaken : Prop :=
  ∃ p q, (ResAt payload ue.expectedRes p ∧ MacAt prims.hmac ue.kAut.toList payload q) ∧
    (parseEapAkaPrime payload).res = some (p + 4) ∧ (parseEapAkaPrime payload).mac = some (q + 4)

/-- They are carried by attributes that the parser does not take. -/
def CarriesUntaken : Prop :=
  ∃ p q, (ResAt payload ue.expectedRes p ∧ MacAt prims.hmac ue.kAut.toList payload q) ∧
    ((parseEapAkaPrime payload).res ≠ some (p + 4) ∨ (parseEapAkaPrime payload).mac ≠ some (q + 4))

/-- The octets that are compared as RES are not those of XRES. -/
def ResDiffers : Prop :=
  octetsAt payload (parseEapAkaPrime payload).res (parseEapAkaPrime payload).resLen ≠
    ue.xres.toList.take (parseEapAkaPrime payload).resLen

/-- What the handler does not look at is as expected: it has found AT_RES, the octets behind the
seven that it compares are those of XRES, and clearing the field that it has found as the MAC gives
the MAC that it has computed. -/
def RestAsExpected : Prop :=
  ∃ p q o, (parseEapAkaPrime payload).res = some p ∧
    p + ue.expectedRes.length ≤ payload.length ∧
    field payload (p + 7) (ue.expectedRes.length - 7) = ue.expectedRes.drop 7 ∧
    (parseEapAkaPrime payload).mac = some q ∧ scanMac payload = some o ∧
    truncated prims.hmac ue.kAut.toList (cleared payload q) =
      truncated prims.hmac ue.kAut.toList (cleared payload (o + 4))

end Expected

section Expected

variable {prims : AusfPrimitives} {ue : AusfUe} {payload : List UInt8}

/-- What the payload carries is taken by the parser or it is not. -/
theorem carries_iff :
    Carries prims ue payload ↔
      CarriesTaken prims ue payload ∨ CarriesUntaken prims ue payload := by
  constructor
  · rintro ⟨p, q, here⟩
    by_cases taken : (parseEapAkaPrime payload).res = some (p + 4) ∧
        (parseEapAkaPrime payload).mac = some (q + 4)
    · exact .inl ⟨p, q, here, taken⟩
    · exact .inr ⟨p, q, here, not_and_or.mp taken⟩
  · rintro (⟨p, q, here, -⟩ | ⟨p, q, here, -⟩) <;> exact ⟨p, q, here⟩

/-- Octets behind a pointer are a field of the payload. -/
theorem pointed_eq_some {ptr : Option Nat} {len : Nat} {octets : List UInt8} :
    pointed payload ptr len = some octets ↔
      ∃ p, ptr = some p ∧ p + len ≤ payload.length ∧ field payload p len = octets := by
  simp only [pointed, Option.bind_eq_some_iff]
  constructor
  · rintro ⟨p, found, inside⟩
    split_ifs at inside with fits
    exact ⟨p, found, fits, Option.some.inj inside⟩
  · rintro ⟨p, found, fits, here⟩
    exact ⟨p, found, by rw [if_pos fits, here]⟩

/-- The MAC is computed over the payload with the field cleared that the search has found. -/
theorem calculateMac_eq_some {hmac : Hmac} {kAut : List UInt8} {mac : Block UInt8 16}
    (computed : calculateMacForEapAkaPrime hmac kAut payload = some mac) :
    ∃ o, scanMac payload = some o ∧ truncated hmac kAut (cleared payload (o + 4)) = mac := by
  unfold calculateMacForEapAkaPrime at computed
  split_ifs at computed
  split at computed
  · cases computed
  · next o found =>
    split_ifs at computed
    exact ⟨o, found, Option.some.inj computed⟩

/-- Octets of the payload are those of XRES if the first seven are and the others are. -/
theorem field_eq_expectedRes {p : Nat}
    (first : field payload p 7 = ue.xres.toList.take 7)
    (others : field payload (p + 7) (ue.expectedRes.length - 7) = ue.expectedRes.drop 7) :
    field payload p ue.expectedRes.length = ue.expectedRes := by
  have whole : ue.xres.toList.take ue.expectedRes.length = ue.expectedRes := by
    rw [AusfUe.expectedRes, List.length_take, ← List.take_eq_take_min]
  by_cases short : ue.expectedRes.length ≤ 7
  · calc field payload p ue.expectedRes.length
        = (field payload p 7).take ue.expectedRes.length := by
          rw [field, field, List.take_take, Nat.min_eq_left short]
      _ = ue.expectedRes := by rw [first, List.take_take, Nat.min_eq_left short, whole]
  · have front : ue.xres.toList.take 7 = ue.expectedRes.take 7 := by
      rw [← whole, List.take_take, Nat.min_eq_left (by omega)]
    calc field payload p ue.expectedRes.length
        = field payload p 7 ++ field payload (p + 7) (ue.expectedRes.length - 7) := by
          rw [field, field, field, ← List.drop_drop, ← List.take_add]
          congr 1
          omega
      _ = ue.expectedRes := by rw [first, front, others, List.take_append_drop]

/-- If the handler compares RES and finds it equal, the response is in the attributes that it takes
exactly if the rest is as expected. -/
theorem carriesTaken_iff (compared : Compared prims ue payload)
    (agree : ¬ ResDiffers ue payload) :
    CarriesTaken prims ue payload ↔ RestAsExpected prims ue payload := by
  obtain ⟨mac, found, computed⟩ := compared.mac
  obtain ⟨q, isMac, fits, same⟩ := pointed_eq_some.mp found
  obtain ⟨o, scanned, mac_eq⟩ := calculateMac_eq_some computed
  constructor
  · rintro ⟨p, q', ⟨⟨-, inside, res⟩, ⟨-, -, mac_at⟩⟩, isRes, isMac'⟩
    obtain rfl := Option.some.inj (isMac.symm.trans isMac')
    refine ⟨p + 4, q' + 4, o, isRes, inside, ?_, isMac', scanned, ?_⟩
    · have behind := congrArg (List.drop 7) res
      rwa [field, List.drop_take, List.drop_drop] at behind
    · rw [mac_eq]
      exact Subtype.ext (mac_at.symm.trans same)
  · rintro ⟨p, q', o', isRes, inside, others, isMac', scanned', cleared_eq⟩
    obtain rfl := Option.some.inj (isMac.symm.trans isMac')
    obtain rfl := Option.some.inj (scanned.symm.trans scanned')
    obtain ⟨types, types'⟩ := parseEapAkaPrime_types payload
    obtain ⟨t, rfl, isAtRes⟩ := types p isRes
    obtain ⟨t', rfl, isAtMac⟩ := types' q isMac
    refine ⟨t, t', ⟨⟨isAtRes, inside, field_eq_expectedRes ?_ others⟩, isAtMac, by omega, ?_⟩,
      isRes, isMac⟩
    · have seven : (parseEapAkaPrime payload).resLen = 7 := by
        rcases parseEapAkaPrime_resLen payload with ⟨null, -⟩ | ⟨-, seven⟩
        · rw [null] at isRes
          cases isRes
        · exact seven
      rw [ResDiffers, not_not, isRes, seven] at agree
      exact agree
    · rw [same, cleared_eq, mac_eq]

end Expected

/-- K_aut of 0x42s, and XRES from 1 to 8. -/
def someAusfUe : AusfUe where
  supi := someImsi
  xres := ⟨[1, 2, 3, 4, 5, 6, 7, 8, 0, 0, 0, 0, 0, 0, 0, 0], rfl⟩
  xresLen := 8
  kAut := Block.fill 32 0x42
  ikPrime := Block.fill 16 0
  ckPrime := Block.fill 16 0
  privKey := Block.fill 32 0
  mlkemSk := Block.fill 2400 0
  mkEcdhe := Block.fill 208 0
  mkHybrid := Block.fill 208 0
  kRe := []
  msk := []
  emsk := []
  kausf := []

def bareMac : List UInt8 :=
  [2, 0, 0, 28, 50, 1, 0, 0] ++ [11, 5, 0, 0] ++
    [173, 228, 126, 231, 203, 84, 219, 155, 215, 36, 102, 118, 8, 33, 4, 216]

end EdhocAuth.Aka
