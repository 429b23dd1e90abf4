/-
`oscore_lite.py`: the protection of the first contact.

AES-CCM is a parameter; `aesCcm` is AES-128-CCM itself. `unprotect_protect`: what one side of a mirrored pair of contexts has
protected is what the other side gets.
-/

import EdhocAuth.Bootstrap.KeySchedule
import EdhocAuth.Lib.Ccm

namespace EdhocAuth.Bootstrap

open Octets

/-- `AESCCM` with a tag of 8 octets: key, nonce, data and associated data. -/
structure AesCcm where
  encrypt : List UInt8 → List UInt8 → List UInt8 → List UInt8 → Option (List UInt8)
  decrypt : List UInt8 → List UInt8 → List UInt8 → List UInt8 → Option (List UInt8)

/-- What is documented of it: a nonce of 13 octets leaves two octets for the length of the data. -/
structure AesCcm.Lawful (ccm : AesCcm) : Prop where
  encrypts {key nonce data aad : List UInt8} (keySize : key.length = 16)
    (nonceSize : nonce.length = 13)
    (short : data.length < 65536) : ∃ ct, ccm.encrypt key nonce data aad = some ct
  decrypts {key nonce data aad ct : List UInt8}
    (sealed : ccm.encrypt key nonce data aad = some ct) :
    ccm.decrypt key nonce ct aad = some data

/-- `AESCCM(key, tag_length=8)` for keys of 16 octets, which all derived keys have. -/
def aesCcm : AesCcm where
  encrypt key nonce data aad :=
    if key.length = 16 then Ccm.encrypt (Aes.encrypt key) nonce data aad else none
  decrypt key nonce ct aad :=
    if key.length = 16 then Ccm.decrypt (Aes.encrypt key) nonce ct aad else none

/-- What decrypts is what was encrypted. -/
theorem aesCcm_decrypt_eq_some_iff {key nonce data aad ct : List UInt8} :
    aesCcm.decrypt key nonce ct aad = some data ↔ aesCcm.encrypt key nonce data aad = some ct := by
  simp only [aesCcm]
  by_cases size : key.length = 16
  · rw [if_pos size, if_pos size]
    exact Ccm.decrypt_eq_some_iff
  · rw [if_neg size, if_neg size]
    constructor <;> intro failed <;> cases failed

/-- AES-CCM behaves as documented. -/
theorem aesCcm_lawful : aesCcm.Lawful where
  encrypts {key nonce data aad} keySize nonceSize short := by
    have fits : Ccm.Fits nonce data.length := by
      refine ⟨by omega, by omega, ?_⟩
      rw [nonceSize]
      exact short
    exact ⟨_, (if_pos keySize).trans (if_pos fits)⟩
  decrypts := aesCcm_decrypt_eq_some_iff.mpr

namespace Oscore

open Py (OscoreContext)

inductive Error where
  | valueError (text : String)
  | overflowError
  | aesCcm
  | invalidTag
deriving DecidableEq

def toBytes5 (n : Nat) : Except Error (List UInt8) :=
  if n < 2 ^ 40 then .ok (Octets.ofNat 5 n) else .error .overflowError

def oscoreNonce (commonIv idPiv : List UInt8) (partialIv : Nat) : Except Error (List UInt8) := do
  let piv ← toBytes5 partialIv
  let padIdLen := Py.oscoreIvLen - 6
  if padIdLen < idPiv.length then
    .error (.valueError "sender id too long for OSCORE nonce")
  else
    let idPadded := List.replicate (padIdLen - idPiv.length) 0x00 ++ idPiv
    return List.zipWith (· ^^^ ·) ([UInt8.ofNat idPiv.length] ++ idPadded ++ piv) commonIv

def externalAad (alg : Nat) (requestKid : List UInt8) (partialIv : Nat) :
    Except Error (List UInt8) := do
  let piv ← toBytes5 partialIv
  return octetsOf "oscore-lite|" ++ [UInt8.ofNat alg] ++ octetsOf "|" ++ requestKid ++
    octetsOf "|" ++ piv

variable (ccm : AesCcm)

def protect (ctx : OscoreContext) (payload : List UInt8) (partialIv : Nat) :
    Except Error (List UInt8) := do
  let nonce ← oscoreNonce ctx.commonIv ctx.senderId partialIv
  let aad ← externalAad Py.oscoreAeadAlg ctx.senderId partialIv
  match ccm.encrypt ctx.senderKey nonce payload aad with
  | none => .error .aesCcm
  | some ct =>
    let piv ← toBytes5 partialIv
    return [UInt8.ofNat ctx.senderId.length] ++ ctx.senderId ++ piv ++ ct

def unprotect (ctx : OscoreContext) (message : List UInt8) : Except Error (List UInt8) :=
  match message with
  | [] => .error (.valueError "empty OSCORE message")
  | idLen :: rest => do
    let requestKid := rest.take idLen.toNat
    let partialIv := Octets.toNat (field rest idLen.toNat 5)
    let ct := rest.drop (idLen.toNat + 5)
    if requestKid ≠ ctx.recipientId then
      .error (.valueError "unexpected OSCORE sender id (kid mismatch)")
    else
      let nonce ← oscoreNonce ctx.commonIv requestKid partialIv
      let aad ← externalAad Py.oscoreAeadAlg requestKid partialIv
      match ccm.decrypt ctx.recipientKey nonce ct aad with
      | none => .error .invalidTag
      | some payload => return payload

/-! ### What the pieces compute -/

section Pieces

variable {commonIv id nonce payload message : List UInt8} {ctx : OscoreContext} {partialIv : Nat}

/-- The nonce of a partial IV that fits, for an identifier that fits. -/
def nonceOf (commonIv id : List UInt8) (partialIv : Nat) : List UInt8 :=
  List.zipWith (· ^^^ ·)
    ([UInt8.ofNat id.length] ++ (List.replicate (7 - id.length) 0x00 ++ id) ++
      Octets.ofNat 5 partialIv) commonIv

/-- The associated data of a partial IV that fits. -/
def aadOf (id : List UInt8) (partialIv : Nat) : List UInt8 :=
  octetsOf "oscore-lite|" ++ [UInt8.ofNat Py.oscoreAeadAlg] ++ octetsOf "|" ++ id ++ octetsOf "|" ++
    Octets.ofNat 5 partialIv

theorem toBytes5_eq (fits : partialIv < 2 ^ 40) :
    toBytes5 partialIv = .ok (Octets.ofNat 5 partialIv) := if_pos fits

/-- The nonce of a partial IV and an identifier that fit. -/
theorem oscoreNonce_eq (fits : partialIv < 2 ^ 40) (short : id.length ≤ 7) :
    oscoreNonce commonIv id partialIv = .ok (nonceOf commonIv id partialIv) := by
  rw [oscoreNonce, toBytes5_eq fits]
  exact if_neg (Nat.not_lt.mpr short)

/-- A nonce is made just if the partial IV and the identifier fit. -/
theorem oscoreNonce_eq_ok :
    oscoreNonce commonIv id partialIv = .ok nonce ↔
      partialIv < 2 ^ 40 ∧ id.length ≤ 7 ∧ nonceOf commonIv id partialIv = nonce := by
  by_cases fits : partialIv < 2 ^ 40
  · by_cases short : id.length ≤ 7
    · rw [oscoreNonce_eq fits short]
      simp only [fits, short, true_and, Except.ok.injEq]
    · have refused : oscoreNonce commonIv id partialIv =
          .error (.valueError "sender id too long for OSCORE nonce") := by
        rw [oscoreNonce, toBytes5_eq fits]
        exact if_pos (Nat.not_le.mp short)
      simp only [refused, short, false_and, and_false, reduceCtorEq]
  · have refused : oscoreNonce commonIv id partialIv = .error .overflowError := by
      rw [oscoreNonce, toBytes5, if_neg fits]
      rfl
    simp only [refused, fits, false_and, reduceCtorEq]

/-- The associated data of a partial IV that fits. -/
theorem externalAad_eq (fits : partialIv < 2 ^ 40) :
    externalAad Py.oscoreAeadAlg id partialIv = .ok (aadOf id partialIv) := by
  rw [externalAad, toBytes5_eq fits]
  rfl

theorem length_nonceOf (iv : commonIv.length = 13) (short : id.length ≤ 7) :
    (nonceOf commonIv id partialIv).length = 13 := by
  simp only [nonceOf, List.length_zipWith, List.length_append, List.length_replicate,
    List.length_singleton, length_ofNat, iv]
  omega

def messageOf (id : List UInt8) (partialIv : Nat) (ct : List UInt8) : List UInt8 :=
  UInt8.ofNat id.length :: (id ++ (Octets.ofNat 5 partialIv ++ ct))

variable {ccm}

/-- Protection is encryption, for a partial IV and an identifier that fit. -/
theorem protect_eq (fits : partialIv < 2 ^ 40) (short : ctx.senderId.length ≤ 7) :
    protect ccm ctx payload partialIv =
      match ccm.encrypt ctx.senderKey (nonceOf ctx.commonIv ctx.senderId partialIv) payload
        (aadOf ctx.senderId partialIv) with
      | none => .error .aesCcm
      | some ct => .ok (messageOf ctx.senderId partialIv ct) := by
  rw [protect, oscoreNonce_eq fits short, externalAad_eq fits, toBytes5_eq fits]
  show (match ccm.encrypt _ _ _ _ with
    | none => _
    | some ct => _) = _
  split
  · rfl
  · next ct _ =>
    show Except.ok _ = Except.ok _
    simp [messageOf]

/-- What a protected message consists of. -/
theorem protect_eq_ok :
    protect ccm ctx payload partialIv = .ok message ↔
      partialIv < 2 ^ 40 ∧ ctx.senderId.length ≤ 7 ∧ ∃ ct,
        ccm.encrypt ctx.senderKey (nonceOf ctx.commonIv ctx.senderId partialIv) payload
          (aadOf ctx.senderId partialIv) = some ct ∧
            messageOf ctx.senderId partialIv ct = message := by
  constructor
  · intro ok
    have parts : ∃ nonce, oscoreNonce ctx.commonIv ctx.senderId partialIv = .ok nonce := by
      rw [protect] at ok
      generalize oscoreNonce ctx.commonIv ctx.senderId partialIv = nonce at ok
      cases nonce with
      | error e => cases ok
      | ok nonce => exact ⟨nonce, rfl⟩
    obtain ⟨nonce, computed⟩ := parts
    obtain ⟨fits, short, -⟩ := oscoreNonce_eq_ok.mp computed
    rw [protect_eq fits short] at ok
    split at ok
    · cases ok
    · next ct sealed => exact ⟨fits, short, ct, sealed, Except.ok.inj ok⟩
  · rintro ⟨fits, short, ct, sealed, rfl⟩
    rw [protect_eq fits short, sealed]

/-- A message that names the peer and a partial IV is taken apart again. -/
theorem unprotect_messageOf {ct : List UInt8} (fits : partialIv < 2 ^ 40) (short : id.length ≤ 7)
    (peer : ctx.recipientId = id) :
    unprotect ccm ctx (messageOf id partialIv ct) =
      match ccm.decrypt ctx.recipientKey (nonceOf ctx.commonIv id partialIv) ct
        (aadOf id partialIv) with
      | none => .error .invalidTag
      | some payload => .ok payload := by
  have idLen : (UInt8.ofNat id.length).toNat = id.length := by
    rw [UInt8.toNat_ofNat']
    omega
  have kid : (id ++ (Octets.ofNat 5 partialIv ++ ct)).take id.length = id := List.take_left
  have piv :
      Octets.toNat (field (id ++ (Octets.ofNat 5 partialIv ++ ct)) id.length 5) = partialIv := by
    rw [field_eq id (Octets.ofNat 5 partialIv) ct rfl rfl (length_ofNat 5 _)]
    exact toNat_ofNat (by omega)
  have rest : (id ++ (Octets.ofNat 5 partialIv ++ ct)).drop (id.length + 5) = ct := by
    rw [← List.drop_drop, List.drop_left]
    exact List.drop_left' (length_ofNat 5 _)
  simp only [messageOf, unprotect, idLen, kid, piv, rest]
  rw [if_neg (by simp [peer]), oscoreNonce_eq fits short, externalAad_eq fits]
  rfl

end Pieces

/-! ### The two ends -/

section Ends

variable {ccm} {ue server : OscoreContext} {payload message : List UInt8} {partialIv : Nat}

/-- What `ue` sends under, `server` receives under. -/
structure Mirrored (ue server : OscoreContext) : Prop where
  id : server.recipientId = ue.senderId
  key : server.recipientKey = ue.senderKey
  iv : server.commonIv = ue.commonIv

/-- The sizes of a context that messages can be protected under. -/
structure Sized (ctx : OscoreContext) : Prop where
  id : ctx.senderId.length ≤ 7
  key : ctx.senderKey.length = 16
  iv : ctx.commonIv.length = 13

/-- A protected message is opened under the mirrored context. -/
theorem unprotect_protect (lawful : ccm.Lawful) (mirrored : Mirrored ue server)
    (ok : protect ccm ue payload partialIv = .ok message) :
    unprotect ccm server message = .ok payload := by
  obtain ⟨fits, short, ct, sealed, rfl⟩ := protect_eq_ok.mp ok
  rw [unprotect_messageOf fits short mirrored.id, mirrored.key, mirrored.iv, lawful.decrypts sealed]

/-- A context of the right sizes protects every short payload. -/
theorem protect_ok (lawful : ccm.Lawful) (sized : Sized ue) (fits : partialIv < 2 ^ 40)
    (short : payload.length < 65536) :
    ∃ message, protect ccm ue payload partialIv = .ok message := by
  obtain ⟨ct, sealed⟩ := lawful.encrypts sized.key (length_nonceOf sized.iv sized.id) short
  exact ⟨_, protect_eq_ok.mpr ⟨fits, sized.id, ct, sealed, rfl⟩⟩

/-- The context that the key schedule gives for a DSRK and two identifiers. -/
def contextFor (hmac : Hmac) (dsrk : List UInt8) (senderId recipientId : UInt8) : OscoreContext :=
  (contextOf hmac dsrk senderId recipientId).toPy

variable (hmac : Hmac) (dsrk : List UInt8) (s r : UInt8)

/-- The two contexts of one DSRK mirror each other. -/
theorem mirrored_contextFor : Mirrored (contextFor hmac dsrk s r) (contextFor hmac dsrk r s) :=
  ⟨rfl, rfl, rfl⟩

/-- A derived context has the sizes that the cipher asks for. -/
theorem sized_contextFor : Sized (contextFor hmac dsrk s r) where
  id := Nat.le_of_sub_eq_zero rfl
  key := (congrArg List.length (C.hkdfExpand_eq _ _)).trans (length_okm ..)
  iv := (congrArg List.length (C.hkdfExpand_eq _ _)).trans (length_okm ..)

end Ends

end Oscore

end EdhocAuth.Bootstrap
