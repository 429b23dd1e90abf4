/-
Methods 0 to 3 between two honest parties over an unmodified channel.

`authenticate` is the whole of the argument for one direction: what one side sends
the other accepts, and both arrive at the same PRK. `Libsodium.exchange` puts two of
them into the five calls of a handshake. Of the libraries only libsodium is used.
-/

import EdhocAuth.Edhoc03.Spec
import EdhocAuth.Crypto.Transparent

namespace EdhocAuth.Edhoc03

open Proc Primitives

variable {B : Type} [Octet B] {P : Primitives B}

/-- Credentials as `edhoc03_gen_creds` leaves them, with any `ID_CRED`. -/
structure Creds.Valid (P : Primitives B) (c : Creds B) : Prop where
  sig : ∃ seed, P.edKeypair seed = (c.sigVk, c.sigSk)
  dh : c.dhPk = P.scalarmultBase c.dhSk

/-- What an honest run of methods 0 to 3 relies on in libsodium. -/
structure Libsodium (P : Primitives B) : Prop where
  aead (k : Block B 32) (n : Block B 12) (ad pt : List B) :
    ∃ ct, P.aeadEncrypt k n ad pt = some ct ∧ P.aeadDecrypt k n ad ct = some pt ∧
      ct.length = pt.length + 16
  x25519 (a b : Block B 32) :
    ∃ ss, P.scalarmult a (P.scalarmultBase b) = some ss ∧
      P.scalarmult b (P.scalarmultBase a) = some ss
  ed25519 (seed : Block B 32) (msg : List B) :
    ∃ sig, P.edSign msg (P.edKeypair seed).2 = some sig ∧
      P.edVerify sig msg (P.edKeypair seed).1 = true

omit [Octet B] in
/-- What is assumed of all libraries holds of libsodium. -/
theorem Libsodium.of_correct (correct : P.Correct) : Libsodium P :=
  ⟨correct.aead, correct.x25519, correct.ed25519⟩

/-- The proof one side makes for the ephemeral key of the other is accepted there. -/
theorem authenticate (sodium : Libsodium P) (auth : Auth) {self : Creds B} (valid : self.Valid P)
    (ephSk prk th : Block B 32) :
    ∃ prk' pt, SelfAuth P auth self (P.scalarmultBase ephSk) prk th prk' pt ∧
      PeerAuth P auth self.pub ephSk prk th prk' self.idCred pt ∧ pt.length ≤ 99 := by
  cases auth with
  | stat =>
    obtain ⟨ss, here, there⟩ := sodium.x25519 self.dhSk ephSk
    rw [← valid.dh] at there
    refine ⟨_, _, ⟨⟨ss, here, rfl⟩, rfl⟩, ⟨⟨ss, there, rfl⟩, rfl⟩, ?_⟩
    rw [AuthPt.length_write]
    decide
  | sig =>
    obtain ⟨seed, pair⟩ := valid.sig
    have signs := sodium.ed25519 seed
    rw [pair] at signs
    obtain ⟨sig, signed, verified⟩ :=
      signs (sigMessage th self.idCred (computeMac P prk th self.idCred self.sigVk))
    refine ⟨_, _, ⟨rfl, sig, signed, rfl⟩, ⟨rfl, sig, verified, rfl⟩, ?_⟩
    rw [AuthPt.length_write]

structure RunCoins (B : Type) where
  x : Block B 32
  y : Block B 32

variable [DecidableEq B]

/-- The five calls of an unmodified exchange, all returning OK, with each side
pinned to the other's public keys. -/
structure Exchange (P : Primitives B) (method : Int) (I R : Creds B) (coins : RunCoins B) where
  m1 : List B
  m2 : List B
  m3 : List B
  i₁ : Ctx B
  i₂ : Ctx B
  i₃ : Ctx B
  r₁ : Ctx B
  r₂ : Ctx B
  makeMsg1 : iMakeMsg1 P coins.x maxMsg (initInitiator method I R.pub) = (.ok m1, i₁)
  handleMsg1 : rHandleMsg1 P m1 coins.y maxMsg (initResponder R I.pub) = (.ok m2, r₁)
  handleMsg2 : iHandleMsg2 P m2 maxMsg i₁ = (.ok m3, i₂)
  handleMsg3 : rHandleMsg3 P m3 r₁ = (.ok [], r₂)
  handleMsg4 : iHandleMsg4 [] i₂ = (.ok (), i₃)

/-- Both contexts are done and hold the same transcript hashes and keys. -/
structure Agrees (i r : Ctx B) : Prop where
  iDone : i.done = true
  rDone : r.done = true
  th2 : i.th2 = r.th2
  th3 : i.th3 = r.th3
  th4 : i.th4 = r.th4
  prk2e : i.prk2e = r.prk2e
  prk3e2m : i.prk3e2m = r.prk3e2m
  prk4e3m : i.prk4e3m = r.prk4e3m
  prkOut : i.prkOut = r.prkOut
  msk : i.msk = r.msk
  emsk : i.emsk = r.emsk

/-- How a context authenticates itself and its peer. -/
def Ctx.auths (c : Ctx B) : Auth × Auth := (c.selfAuth, c.peerAuth)

/-- The exchange exists for every method and its contexts agree; each side authenticates
as the method table says. -/
theorem Libsodium.exchange (sodium : Libsodium P) {method : Int}
    (valid : methodValid method = true) {I R : Creds B} (hI : I.Valid P) (hR : R.Valid P)
    (coins : RunCoins B) :
    ∃ x : Exchange P method I R coins, Agrees x.i₃ x.r₂ ∧
      x.i₃.auths = (methodInitAuth method, methodRespAuth method) ∧
      x.r₂.auths = (methodRespAuth method, methodInitAuth method) := by
  let gX := P.scalarmultBase coins.x
  let gY := P.scalarmultBase coins.y
  let b := UInt8.ofNat method.toNat
  have byte : (b.toNat : Int) = method := toNat_ofNat_method valid
  let m1 : List B := Octet.ofByte b :: (gX.toList ++ (octet 0x10 : Block B 1).toList)
  obtain ⟨ssE, mulI, mulR⟩ := sodium.x25519 coins.x coins.y
  let th2 := P.sha256 (gY.toList ++ ((P.sha256 m1).toList ++ (octet 0x20 : Block B 1).toList))
  let prk2e := P.hkdfExtract th2 ssE
  -- message_2 is authenticated towards `x`, message_3 towards `y`
  obtain ⟨prk3e2m, pt2, made2, checked2, short2⟩ :=
    authenticate sodium (methodRespAuth method) hR coins.x prk2e th2
  obtain ⟨ct2, seal2, open2, len2⟩ := sodium.aead _ _ _ pt2
  let th3 := P.sha256 (th2.toList ++ pt2)
  obtain ⟨prk4e3m, pt3, made3, checked3, short3⟩ :=
    authenticate sodium (methodInitAuth method) hI coins.y prk3e2m th3
  obtain ⟨ct3, seal3, open3, len3⟩ := sodium.aead _ _ _ pt3
  have fits2 : xPk + ct2.length ≤ maxMsg := by
    show 32 + ct2.length ≤ 512
    omega
  have tag2 : aeadTag ≤ ct2.length := by
    show 16 ≤ ct2.length
    omega
  have fits3 : ct3.length ≤ maxMsg := by
    show ct3.length ≤ 512
    omega
  have keys : rHandleMsg1Keys P m1 coins.y (initResponder R I.pub) = (.ok (), _) :=
    rHandleMsg1Keys_eq_ok.mpr
      ⟨rfl, b, gX, octet 0x10, rfl, by rw [byte]; exact valid, ssE, mulR, th2, rfl, rfl⟩
  rw [byte] at keys
  refine ⟨{
    m1 := m1, m2 := gY.toList ++ ct2, m3 := ct3
    i₁ := _, i₂ := _, i₃ := _, r₁ := _, r₂ := _
    makeMsg1 := iMakeMsg1_eq_ok.mpr ⟨rfl, valid, by decide, rfl, rfl⟩
    handleMsg1 := rHandleMsg1_eq_ok.mpr ⟨_, keys,
      rMakeMsg2_eq_ok.mpr ⟨prk3e2m, pt2, made2, ct2, seal2, fits2, rfl, rfl⟩⟩
    handleMsg2 := iHandleMsg2_eq_ok.mpr ⟨_, _,
      iHandleMsg2Open_eq_ok.mpr ⟨rfl, gY, ct2, rfl, tag2, ssE, mulI, th2, rfl, rfl, rfl⟩,
      pt2, open2, prk3e2m, R.idCred, checked2,
      iMakeMsg3_eq_ok.mpr ⟨prk4e3m, pt3, made3, seal3, fits3, rfl⟩⟩
    handleMsg3 := rHandleMsg3_eq_ok.mpr
      ⟨rfl, rfl, pt3, open3, prk4e3m, I.idCred, checked3, rfl⟩
    handleMsg4 := iHandleMsg4_eq_ok.mpr ⟨rfl, rfl, rfl⟩ }, ?_⟩
  exact ⟨⟨rfl, rfl, rfl, rfl, rfl, rfl, rfl, rfl, rfl, rfl, rfl⟩, rfl, rfl⟩

/-- There is an honest exchange for every method, and it ends in agreement. -/
theorem exchange_exists (correct : P.Correct) {method : Int} (valid : methodValid method = true)
    {I R : Creds B} (hI : I.Valid P) (hR : R.Valid P) (coins : RunCoins B) :
    ∃ x : Exchange P method I R coins, Agrees x.i₃ x.r₂ := by
  obtain ⟨x, agrees, -⟩ := (Libsodium.of_correct correct).exchange valid hI hR coins
  exact ⟨x, agrees⟩

/-- Each side authenticates the way the other one expects it to. -/
structure Mirrors (i r : Ctx B) : Prop where
  self : r.selfAuth = i.peerAuth
  peer : r.peerAuth = i.selfAuth

/-- Between honest parties every method runs to its end, whatever the credentials, the
identifiers and the randomness: all five calls return OK, and the two contexts are done
with the same hashes and keys and with mirrored ways of authentication. -/
theorem methods_run_to_agreement (sodium : Libsodium P) {method : Int}
    (valid : methodValid method = true) {I R : Creds B} (hI : I.Valid P) (hR : R.Valid P)
    (coins : RunCoins B) :
    ∃ x : Exchange P method I R coins, Agrees x.i₃ x.r₂ ∧ Mirrors x.i₃ x.r₂ := by
  obtain ⟨x, agrees, initiator, responder⟩ := sodium.exchange valid hI hR coins
  obtain ⟨selfI, peerI⟩ := Prod.mk.inj initiator
  obtain ⟨selfR, peerR⟩ := Prod.mk.inj responder
  exact ⟨x, agrees, selfR.trans peerI.symm, peerR.trans selfI.symm⟩

/-- Credentials `edhoc03_gen_creds` makes from one octet when nothing is hidden. -/
def transparentCreds (b : UInt8) : Creds UInt8 :=
  genCreds Transparent.primitives (Block.fill 32 b) (Block.fill 32 b) (some (Block.fill _ b))

/-- In method 1 the initiator signs and the responder has a static key. -/
theorem method1_runs_to_agreement :
    ∃ x : Exchange Transparent.primitives 1 (transparentCreds 1) (transparentCreds 2)
        ⟨Block.fill 32 3, Block.fill 32 4⟩,
      Agrees x.i₃ x.r₂ ∧ Mirrors x.i₃ x.r₂ :=
  methods_run_to_agreement (.of_correct Transparent.primitives_correct) rfl
    ⟨⟨_, rfl⟩, rfl⟩ ⟨⟨_, rfl⟩, rfl⟩ _

end EdhocAuth.Edhoc03
