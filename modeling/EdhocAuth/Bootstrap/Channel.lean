/-
OSCORE-lite as a channel.

`unprotect` takes a message apart by slices, which are silently shorter where the message ends too
early. A cipher that rejects what is shorter than its tag makes up for it: what is accepted has all
of its header, and is a message that `protect` has written (`unprotect_eq_ok_iff`).
`channel_correct` says it of the contexts that both ends derive from one DSRK.
-/

import EdhocAuth.Bootstrap.Separation

namespace EdhocAuth.Bootstrap

open Octets Py

/-- What is assumed of AES-CCM with a tag of 8 octets. -/
structure AesCcm.Exact (ccm : AesCcm) : Prop where
  decrypts (key nonce data aad ct : List UInt8) :
    ccm.decrypt key nonce ct aad = some data ↔ ccm.encrypt key nonce data aad = some ct
  tagged {key nonce aad ct : List UInt8} (short : ct.length < 8) :
    ccm.decrypt key nonce ct aad = none

/-! ### Contexts of a DSRK -/

section Contexts

variable (hmac : Hmac) (dsrk senderId recipientId idContext : List UInt8)

def masterSecretOf : List UInt8 := okm hmac dsrk oscoreMasterSecretLabel 16

def masterSaltOf : List UInt8 := okm hmac dsrk oscoreMasterSaltLabel 8

/-- What is expanded from the master secret of a DSRK, for parts that fit. -/
def derivedKey (id type : List UInt8) (length : Nat) : List UInt8 :=
  okm hmac (Py.hkdfExtract hmac (some (masterSaltOf hmac dsrk)) (masterSecretOf hmac dsrk))
    (infoOf id idContext oscoreAeadAlg type length) length

/-- The context of a DSRK, for identifiers that fit. -/
def contextFrom : OscoreContext where
  masterSecret := masterSecretOf hmac dsrk
  masterSalt := masterSaltOf hmac dsrk
  senderId := senderId
  recipientId := recipientId
  idContext := idContext
  senderKey := derivedKey hmac dsrk idContext senderId (octetsOf "Key") oscoreKeyLen
  recipientKey := derivedKey hmac dsrk idContext recipientId (octetsOf "Key") oscoreKeyLen
  commonIv := derivedKey hmac dsrk idContext [] (octetsOf "IV") oscoreIvLen

variable {senderId recipientId idContext}

/-- With identifiers that fit, the context of a DSRK can be derived. -/
theorem oscoreContextFromDsrk_eq_contextFrom (senderFits : senderId.length < 256)
    (recipientFits : recipientId.length < 256) (contextFits : idContext.length < 256) :
    Py.oscoreContextFromDsrk hmac dsrk senderId recipientId idContext =
      .ok (contextFrom hmac dsrk senderId recipientId idContext) := by
  have secret : Py.deriveOscoreMasterSecret hmac dsrk = .ok (masterSecretOf hmac dsrk) :=
    Py.hkdfExpand_eq _ _ (by decide)
  have salt : Py.deriveOscoreMasterSalt hmac dsrk = .ok (masterSaltOf hmac dsrk) :=
    Py.hkdfExpand_eq _ _ (by decide)
  have expanded {id type : List UInt8} {length : Nat} (idFits : id.length < 256)
      (typeFits : type.length < 24) (fits : length < 256) :
      expandInfo hmac
          (Py.hkdfExtract hmac (some (masterSaltOf hmac dsrk)) (masterSecretOf hmac dsrk)) id
          idContext type length =
        .ok (derivedKey hmac dsrk idContext id type length) :=
    (expandInfo_eq_ok (by omega)).mpr
      ⟨_, oscoreInfo_eq_infoOf idFits contextFits (by decide) typeFits fits, rfl⟩
  rw [Py.oscoreContextFromDsrk, secret, salt]
  show Py.deriveOscoreContext hmac (masterSecretOf hmac dsrk) (masterSaltOf hmac dsrk) senderId
    recipientId idContext = _
  rw [Py.deriveOscoreContext, expanded senderFits (by decide) (by decide),
    expanded recipientFits (by decide) (by decide), expanded (by decide) (by decide) (by decide)]
  rfl

end Contexts

/-! ### Messages -/

namespace Oscore

variable {ccm : AesCcm} {ue server : OscoreContext} {message payload : List UInt8}

/-- A header is complete if a tag follows it. -/
theorem eq_messageOf {idLen : UInt8} {rest id : List UInt8} (kid : rest.take idLen.toNat = id)
    (follows : 8 ≤ (rest.drop (idLen.toNat + 5)).length) :
    idLen :: rest =
      messageOf id (Octets.toNat (field rest idLen.toNat 5)) (rest.drop (idLen.toNat + 5)) := by
  rw [List.length_drop] at follows
  have size : id.length = idLen.toNat := by
    rw [← kid, List.length_take]
    omega
  have piv : (field rest idLen.toNat 5).length = 5 := length_field_of_le (by omega)
  have back :
      (field rest idLen.toNat 5) ++ rest.drop (idLen.toNat + 5) = rest.drop idLen.toNat := by
    rw [field, ← List.drop_drop]
    exact List.take_append_drop 5 _
  rw [messageOf, ofNat_toNat piv, back, size, UInt8.ofNat_toNat, ← kid, List.take_append_drop]

/-- What is accepted names the peer, and a ciphertext follows its header. -/
theorem unprotect_cons_eq_ok {idLen : UInt8} {rest : List UInt8}
    (peer : server.recipientId.length ≤ 7)
    (accepted : unprotect ccm server (idLen :: rest) = .ok payload) :
    Octets.toNat (field rest idLen.toNat 5) < 2 ^ 40 ∧
      rest.take idLen.toNat = server.recipientId ∧
      ccm.decrypt server.recipientKey
        (nonceOf server.commonIv server.recipientId (Octets.toNat (field rest idLen.toNat 5)))
        (rest.drop (idLen.toNat + 5))
        (aadOf server.recipientId (Octets.toNat (field rest idLen.toNat 5))) = some payload := by
  have fits : Octets.toNat (field rest idLen.toNat 5) < 2 ^ 40 := by
    have size : (field rest idLen.toNat 5).length ≤ 5 := by
      rw [length_field]
      omega
    calc Octets.toNat (field rest idLen.toNat 5)
        < 256 ^ (field rest idLen.toNat 5).length := toNat_lt _
      _ ≤ 256 ^ 5 := Nat.pow_le_pow_right (by decide) size
  by_cases kid : rest.take idLen.toNat = server.recipientId
  · refine ⟨fits, kid, ?_⟩
    simp only [unprotect, kid] at accepted
    rw [if_neg (not_not.mpr rfl), oscoreNonce_eq fits peer, externalAad_eq fits] at accepted
    dsimp only [bind, Except.bind] at accepted
    split at accepted
    · cases accepted
    · next opened =>
      rw [opened, Except.ok.inj accepted]
  · simp only [unprotect] at accepted
    rw [if_pos kid] at accepted
    cases accepted

/-- What one end accepts is what the other end has protected under some partial IV. -/
theorem unprotect_eq_ok_iff (exact : ccm.Exact) (mirrored : Mirrored ue server)
    (short : ue.senderId.length ≤ 7) :
    unprotect ccm server message = .ok payload ↔
      ∃ n < 2 ^ 40, protect ccm ue payload n = .ok message := by
  constructor
  · intro accepted
    cases message with
    | nil => cases accepted
    | cons idLen rest =>
      obtain ⟨fits, kid, opened⟩ := unprotect_cons_eq_ok (by rwa [mirrored.id]) accepted
      -- a message that ends inside its header leaves no ciphertext
      have follows : 8 ≤ (rest.drop (idLen.toNat + 5)).length := by
        by_contra early
        rw [exact.tagged (not_le.mp early)] at opened
        cases opened
      rw [exact.decrypts, mirrored.id, mirrored.key, mirrored.iv] at opened
      rw [mirrored.id] at kid
      exact ⟨_, fits, protect_eq_ok.mpr ⟨fits, short, _, opened, (eq_messageOf kid follows).symm⟩⟩
  · rintro ⟨n, -, ok⟩
    obtain ⟨fits, short, ct, sealed, rfl⟩ := protect_eq_ok.mp ok
    rw [unprotect_messageOf fits short mirrored.id, mirrored.key, mirrored.iv,
      (exact.decrypts _ _ _ _ _).mpr sealed]

end Oscore

/-- The contexts of the two ends are mirrored, and one end accepts just the messages that the other
end protects under some partial IV. -/
theorem channel_correct {ccm : AesCcm} (exact : ccm.Exact) (hmac : Hmac)
    {dsrk s r idContext : List UInt8} (sFits : s.length ≤ 7) (rFits : r.length ≤ 7)
    (contextFits : idContext.length ≤ 255) :
    ∃ ue server, Py.oscoreContextFromDsrk hmac dsrk s r idContext = .ok ue ∧
      Py.oscoreContextFromDsrk hmac dsrk r s idContext = .ok server ∧
      ue.senderKey = server.recipientKey ∧ ue.recipientKey = server.senderKey ∧
      ue.commonIv = server.commonIv ∧
      ∀ message payload, Oscore.unprotect ccm server message = .ok payload ↔
        ∃ n < 2 ^ 40, Oscore.protect ccm ue payload n = .ok message := by
  refine ⟨contextFrom hmac dsrk s r idContext, contextFrom hmac dsrk r s idContext,
    oscoreContextFromDsrk_eq_contextFrom hmac dsrk (by omega) (by omega) (by omega),
    oscoreContextFromDsrk_eq_contextFrom hmac dsrk (by omega) (by omega) (by omega), rfl, rfl, rfl,
    fun message payload => ?_⟩
  exact Oscore.unprotect_eq_ok_iff exact ⟨rfl, rfl, rfl⟩ sFits

/-- AES-CCM opens just what it has sealed. -/
theorem aesCcm_exact : aesCcm.Exact where
  decrypts _ _ _ _ _ := aesCcm_decrypt_eq_some_iff
  tagged {key nonce aad ct} short := by
    simp only [aesCcm]
    by_cases size : key.length = 16
    · rw [if_pos size]
      exact Ccm.decrypt_short short
    · rw [if_neg size]

/-- The two ends of the first contact, with HMAC-SHA256 and AES-CCM. -/
theorem channel_correct_first_contact :
    ∃ ue server,
      Py.oscoreContextFromDsrk Sha256.hmac (List.replicate 64 0x0b) [1] [0] [] = .ok ue ∧
      Py.oscoreContextFromDsrk Sha256.hmac (List.replicate 64 0x0b) [0] [1] [] = .ok server ∧
      ue.senderKey = server.recipientKey ∧ ue.recipientKey = server.senderKey ∧
      ue.commonIv = server.commonIv ∧
      ∀ message payload, Oscore.unprotect aesCcm server message = .ok payload ↔
        ∃ n < 2 ^ 40, Oscore.protect aesCcm ue payload n = .ok message :=
  channel_correct aesCcm_exact Sha256.hmac (by decide) (by decide) (by decide)

end EdhocAuth.Bootstrap
