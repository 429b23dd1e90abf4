/-
The response of the UE to an AKA'-Challenge, and how the AUSF takes it apart.

The UE puts AT_RES, AT_MAC, AT_KDF and the public value of its mode into the response, in
this order (`ue/nas/mm/auth.cpp`). `parse_eap_aka_prime` (`src/ausf/nausf-handler.c`) starts
at offset 7 and advances by a fixed amount for each type it knows, by one octet for all
others; what it returns are pointers into the payload, here offsets. It takes seven octets for
RES, which has eight: `response_never_recovered`.
-/

import EdhocAuth.Eap.Pdu
import EdhocAuth.Aka.Kdf

namespace EdhocAuth.Aka

open Octets Eap

/-! ### The UE -/

def atPubHybrid : UInt8 := 160

/-- The public value in a response: none, that of FS mode, or that of HPQC mode. -/
inductive PublicValue where
  | absent
  | ecdhe (value : Block UInt8 36)
  | hybrid (value : Block UInt8 1120)

/-- `akaPrimeResponse->attributes` before the MAC is calculated. -/
def responseAttributes (res : Block UInt8 8) (pub : PublicValue) : EapAttributes :=
  let as := ((EapAttributes.empty.putRes res.toList).putMac (List.replicate 16 0)).putKdf 1
  match pub with
  | .absent => as
  | .ecdhe value => as.putRawAttribute atPubEcdhe value.toList
  | .hybrid value => as.putRawAttributeWith2ByteLength atPubHybrid value.toList

/-- `akaPrimeResponse` with its MAC: `RESPONSE`, `AKA_CHALLENGE`. -/
def akaPrimeResponse (id : UInt8) (res : Block UInt8 8) (mac : Block UInt8 16) (pub : PublicValue) :
    EapPdu :=
  ⟨2, id, .akaPrime 1 ((responseAttributes res pub).replaceMac mac.toList)⟩

def copyAttributes (as : EapAttributes) : EapAttributes :=
  as.orderReceived.foldl (fun copy key =>
    match as.attributes key with
    | none => copy
    | some v =>
      if key = atPubHybrid then copy.putRawAttributeWith2ByteLength key v
      else copy.putRawAttribute key v)
    EapAttributes.empty

def ueCalculateMac (hmac : Hmac) (kaut : List UInt8) (code id subType : UInt8)
    (as : EapAttributes) :
    Block UInt8 16 :=
  Block.read 0 16 (hmac kaut (encodeEapPdu
    ⟨code, id, .akaPrime subType ((copyAttributes as).replaceMac (List.replicate 16 0))⟩)).toList

def sentResponse (hmac : Hmac) (kaut : List UInt8) (id : UInt8) (res : Block UInt8 8)
    (pub : PublicValue) :
    EapPdu :=
  akaPrimeResponse id res (ueCalculateMac hmac kaut 2 id 1 (responseAttributes res pub)) pub

/-! ### Its octets -/

def PublicValue.octets : PublicValue → List UInt8
  | .absent => []
  | .ecdhe value => [152, 10] ++ value.toList
  | .hybrid value => [160, 1, 25] ++ value.toList

/-- What stands in front of AT_MAC: the header and AT_RES. -/
def responseFront (id : UInt8) (res : Block UInt8 8) (pub : PublicValue) : List UInt8 :=
  [2, id] ++ Octets.ofNat 2 (44 + pub.octets.length) ++ [50, 1, 0, 0] ++ [3, 3, 0, 64] ++ res.toList

/-- AT_RES, AT_MAC, AT_KDF and the public value of the mode follow one another. -/
theorem encode_responseAttributes (res : Block UInt8 8) (mac : Block UInt8 16) (pub : PublicValue) :
    ((responseAttributes res pub).replaceMac mac.toList).encode =
      [3, 3, 0, 64] ++ res.toList ++ ([11, 5, 0, 0] ++ mac.toList) ++
        ([24, 1, 0, 1] ++ pub.octets) := by
  cases pub <;>
    simp [responseAttributes, EapAttributes.encode, EapAttributes.encodeEntry, EapAttributes.putRes,
      EapAttributes.putMac, EapAttributes.putKdf, EapAttributes.replaceMac,
      EapAttributes.putRawAttribute,
      EapAttributes.putRawAttributeWith2ByteLength, EapAttributes.empty, PublicValue.octets, atRes,
      atMac,
      atKdf, atPubEcdhe, atPubHybrid, Octets.ofNat, Function.update]

/-- The octets of a response. -/
theorem encode_akaPrimeResponse (id : UInt8) (res : Block UInt8 8) (mac : Block UInt8 16)
    (pub : PublicValue) :
    encodeEapPdu (akaPrimeResponse id res mac pub) =
      responseFront id res pub ++ ([11, 5, 0, 0] ++ mac.toList) ++
        ([24, 1, 0, 1] ++ pub.octets) := by
  have body : (PduBody.akaPrime 1 ((responseAttributes res pub).replaceMac mac.toList)).encode =
      [1, 0, 0] ++ ([3, 3, 0, 64] ++ res.toList ++ ([11, 5, 0, 0] ++ mac.toList) ++
        ([24, 1, 0, 1] ++ pub.octets)) := by
    rw [PduBody.encode, encode_responseAttributes]
    rfl
  have size :
      5 + (PduBody.akaPrime 1 ((responseAttributes res pub).replaceMac mac.toList)).encode.length =
      44 + pub.octets.length := by
    rw [body]
    simp only [List.length_append, List.length_cons, List.length_nil, List.Vector.toList_length]
    omega
  rw [akaPrimeResponse, encodeEapPdu]
  dsimp only
  rw [size, body, responseFront]
  simp [PduBody.eapType]

@[simp] theorem length_responseFront (id : UInt8) (res : Block UInt8 8) (pub : PublicValue) :
    (responseFront id res pub).length = 20 := by
  simp [responseFront]

/-- The octets that the UE authenticates: its response with a MAC of zeros. -/
theorem ueCalculateMac_eq (hmac : Hmac) (kaut : List UInt8) (id : UInt8) (res : Block UInt8 8)
    (pub : PublicValue) :
    ueCalculateMac hmac kaut 2 id 1 (responseAttributes res pub) =
      Block.read 0 16 (hmac kaut
        (encodeEapPdu (akaPrimeResponse id res (Block.fill 16 0) pub))).toList := by
  have copied : (copyAttributes (responseAttributes res pub)).replaceMac (List.replicate 16 0) =
      (responseAttributes res pub).replaceMac (List.replicate 16 0) := by
    cases pub <;> rfl
  rw [ueCalculateMac, copied]
  rfl

/-! ### The AUSF -/

/-- `EapMessage`: offsets into the payload for pointers, and lengths. -/
structure EapMessage where
  res : Option Nat
  resLen : Nat
  mac : Option Nat
  macLen : Nat
  kdf : Option Nat
  kdfLen : Nat
  pubEcdhe : Option Nat
  pubEcdheLen : Nat
  pubHybrid : Option Nat
  pubHybridLen : Nat
deriving DecidableEq

def EapMessage.empty : EapMessage := ⟨none, 0, none, 0, none, 0, none, 0, none, 0⟩

def parseAttribute (payload : List UInt8) (pos : Nat) (msg : EapMessage) : Nat × EapMessage :=
  let type := Octets.octet payload pos
  let pos := pos + 1
  if type = 0x03 then (pos + 3 + 7, { msg with res := some (pos + 3), resLen := 7 })
  else if type = 0x0B then (pos + 3 + 13, { msg with mac := some (pos + 3), macLen := 13 })
  else if type = 0x18 then (pos + 3, { msg with kdf := some pos, kdfLen := 3 })
  else if type = 0x98 then
    (pos + 1 + 36, { msg with pubEcdhe := some (pos + 1), pubEcdheLen := 36 })
  else if type = 0xA0 then
    (pos + 2 + 1120, { msg with pubHybrid := some (pos + 2), pubHybridLen := 1120 })
  else (pos, msg)

/-- `while (pos < length)`, for at most `fuel` iterations. -/
def parseLoop (payload : List UInt8) : Nat → Nat × EapMessage → EapMessage
  | 0, s => s.2
  | fuel + 1, s =>
    if s.1 < payload.length then parseLoop payload fuel (parseAttribute payload s.1 s.2) else s.2

def parseEapAkaPrime (payload : List UInt8) : EapMessage :=
  parseLoop payload payload.length (7, EapMessage.empty)

/-- Each iteration advances, so the fuel does not run out. -/
theorem parseAttribute_advances (payload : List UInt8) (pos : Nat) (msg : EapMessage) :
    pos < (parseAttribute payload pos msg).1 := by
  simp only [parseAttribute]
  split_ifs <;> dsimp only <;> omega

/-- More fuel than octets left changes nothing. -/
theorem parseLoop_enough {payload : List UInt8} {fuel fuel' : Nat} {s : Nat × EapMessage}
    (enough : payload.length ≤ s.1 + fuel) (more : fuel ≤ fuel') :
    parseLoop payload fuel' s = parseLoop payload fuel s := by
  induction fuel generalizing fuel' s with
  | zero =>
    cases fuel' with
    | zero => rfl
    | succ fuel' => rw [parseLoop, parseLoop, if_neg (by omega)]
  | succ fuel ih =>
    obtain ⟨fuel', rfl⟩ : ∃ k, fuel' = k + 1 := ⟨fuel' - 1, by omega⟩
    rw [parseLoop, parseLoop]
    have advances := parseAttribute_advances payload s.1 s.2
    split
    · exact ih (by omega) (by omega)
    · rfl

/-- What a property of `EapMessage` needs to hold of every result. -/
theorem parseEapAkaPrime_inv (Inv : EapMessage → Prop) {payload : List UInt8}
    (start : Inv EapMessage.empty)
    (step : ∀ pos msg, Inv msg → Inv (parseAttribute payload pos msg).2) :
    Inv (parseEapAkaPrime payload) := by
  have loop (fuel : Nat) (s : Nat × EapMessage) (inv : Inv s.2) :
      Inv (parseLoop payload fuel s) := by
    induction fuel generalizing s with
    | zero => exact inv
    | succ fuel ih =>
      rw [parseLoop]
      split
      · exact ih _ (step s.1 s.2 inv)
      · exact inv
  exact loop payload.length _ start

/-- RES has no or seven octets. -/
theorem parseEapAkaPrime_resLen (payload : List UInt8) :
    ((parseEapAkaPrime payload).res = none ∧ (parseEapAkaPrime payload).resLen = 0) ∨
      ((∃ p, (parseEapAkaPrime payload).res = some p) ∧ (parseEapAkaPrime payload).resLen = 7) := by
  refine parseEapAkaPrime_inv (fun msg => (msg.res = none ∧ msg.resLen = 0) ∨
    ((∃ p, msg.res = some p) ∧ msg.resLen = 7)) (.inl ⟨rfl, rfl⟩) ?_
  intro pos msg inv
  simp only [parseAttribute]
  split_ifs
  · exact .inr ⟨⟨_, rfl⟩, rfl⟩
  all_goals exact inv

/-! ### What the AUSF should recover -/

/-- The octets behind a pointer; `none` for `NULL` and for octets that are not all inside the
payload. -/
def pointed (payload : List UInt8) (ptr : Option Nat) (len : Nat) : Option (List UInt8) :=
  ptr.bind fun p => if p + len ≤ payload.length then some (field payload p len) else none

/-- The parser returns RES, MAC and the public value of the mode, each in full, nothing for the
other mode, and no pointer to octets outside of the payload. -/
structure Recovered (payload : List UInt8) (res : Block UInt8 8) (mac : Block UInt8 16)
    (pub : PublicValue) (msg : EapMessage) : Prop where
  res : pointed payload msg.res msg.resLen = some res.toList
  mac : pointed payload msg.mac msg.macLen = some mac.toList
  kdf : ∀ p, msg.kdf = some p → p + msg.kdfLen ≤ payload.length
  ecdhe : match pub with
    | .ecdhe value => pointed payload msg.pubEcdhe msg.pubEcdheLen = some value.toList
    | _ => msg.pubEcdhe = none
  hybrid : match pub with
    | .hybrid value => pointed payload msg.pubHybrid msg.pubHybridLen = some value.toList
    | _ => msg.pubHybrid = none

/-- Whatever the UE sends, its RES is not recovered. -/
theorem response_never_recovered (id : UInt8) (res : Block UInt8 8) (mac : Block UInt8 16)
    (pub : PublicValue) :
    ¬ Recovered (encodeEapPdu (akaPrimeResponse id res mac pub)) res mac pub
      (parseEapAkaPrime (encodeEapPdu (akaPrimeResponse id res mac pub))) := by
  intro recovered
  have found := recovered.res
  rcases parseEapAkaPrime_resLen (encodeEapPdu (akaPrimeResponse id res mac pub)) with ⟨null, -⟩ |
    ⟨-, seven⟩
  · rw [pointed, null] at found
    cases found
  · rw [pointed, Option.bind_eq_some_iff] at found
    obtain ⟨p, -, inside⟩ := found
    split at inside
    · next fits =>
      have size := congrArg List.length (Option.some.inj inside)
      rw [length_field_of_le fits, seven, res.toList_length] at size
      cases size
    · cases inside

/-- A response without a public value. -/
theorem someResponse_not_recovered :
    ¬ ∀ (id : UInt8) (res : Block UInt8 8) (mac : Block UInt8 16) (pub : PublicValue),
      Recovered (encodeEapPdu (akaPrimeResponse id res mac pub)) res mac pub
        (parseEapAkaPrime (encodeEapPdu (akaPrimeResponse id res mac pub))) := by
  intro recovered
  have found := (recovered 1 (Block.fill 8 0x55) (Block.fill 16 0x77) .absent).res
  have seven :
      pointed (encodeEapPdu (akaPrimeResponse 1 (Block.fill 8 0x55) (Block.fill 16 0x77) .absent))
      (parseEapAkaPrime (encodeEapPdu
        (akaPrimeResponse 1 (Block.fill 8 0x55) (Block.fill 16 0x77) .absent))).res
      (parseEapAkaPrime (encodeEapPdu
        (akaPrimeResponse 1 (Block.fill 8 0x55) (Block.fill 16 0x77) .absent))).resLen =
      some (List.replicate 7 0x55) := by
    decide +kernel
  rw [seven] at found
  revert found
  decide

end EdhocAuth.Aka
