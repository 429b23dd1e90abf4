/-
Method 4 between two honest parties over an unmodified channel.

`exchange_exists` runs the five calls of `selftest.c` for arbitrary valid
credentials and arbitrary randomness, shows that all of them return OK and
compares the two contexts. The ML-DSA key of the peer is never an input of a
context: the exchange succeeds for every ML-DSA key pair either side may hold
next to its static X-Wing key, and `not_pinned` draws the consequence.
-/

import EdhocAuth.Edhoc4.Spec
import EdhocAuth.Crypto.Parties

namespace EdhocAuth.Edhoc4

open Proc Primitives

variable {B : Type} [Octet B] {P : Primitives B}

/-! ### X-Wing -/

/-- Credentials as `edhoc4_gen_creds` leaves them, with any `ID_CRED`. -/
structure Creds.Valid (P : Primitives B) (c : Creds B) : Prop where
  kem : ∃ coins, xwingKeypair P coins = some (c.kemPk, c.kemSk)
  sig : ∃ seed, P.mldsaKeypair seed = some (c.sigVk, c.sigSk)

omit [Octet B] in
/-- A key pair can be made from any coins. -/
theorem xwingKeypair_exists (correct : P.Correct) (coins : KeyCoins B) :
    ∃ pk sk, xwingKeypair P coins = some (pk, sk) := by
  obtain ⟨pk, sk, h⟩ := correct.mlkemKeypair coins.mlkem
  exact ⟨_, _, by rw [xwingKeypair, h]; rfl⟩

/-- X-Wing decapsulates what was encapsulated to the matching key. -/
theorem xwingDecaps_xwingEncaps (correct : P.Correct) {coins : KeyCoins B}
    {pk : Block B xwingPk} {sk : Block B xwingSk} (pair : xwingKeypair P coins = some (pk, sk))
    (enc : EncCoins B) :
    ∃ ct ss, xwingEncaps P enc pk = some (ct, ss) ∧ xwingDecaps P ct sk = some ss := by
  obtain ⟨⟨pkM, skM⟩, mlkem, halves⟩ := Option.map_eq_some_iff.mp pair
  obtain ⟨rfl, rfl⟩ := Prod.mk.inj halves
  obtain ⟨ctM, ssM, encM, decM⟩ := correct.mlkem mlkem enc.mlkem
  obtain ⟨ssX, here, there⟩ := correct.x25519 enc.x coins.x
  refine ⟨Block.cat ctM (P.scalarmultBase enc.x),
    xwingCombine P ssM ssX (P.scalarmultBase enc.x) (P.scalarmultBase coins.x), ?_, ?_⟩
  · simp [xwingEncaps, encM, here]
  · simp [xwingDecaps, decM, there]

/-! ### The exchange -/

structure RunCoins (B : Type) where
  msg1 : Msg1Coins B
  msg2 : Msg2Coins B
  msg3 : Msg3Coins B
  msg4 : KeyCoins B

def RunCoins.zero : RunCoins B where
  msg1 := ⟨⟨zeros _, zeros _⟩, ⟨zeros _, zeros _⟩⟩
  msg2 := ⟨⟨zeros _, zeros _⟩, ⟨zeros _, zeros _⟩, zeros _⟩
  msg3 := ⟨⟨zeros _, zeros _⟩, zeros _⟩
  msg4 := ⟨zeros _, zeros _⟩

variable [DecidableEq B]

/-- The five calls of an unmodified exchange, all returning OK, with each side
given the other's static X-Wing public key. -/
structure Exchange (P : Primitives B) (I R : Creds B) (coins : RunCoins B) where
  m1 : List B
  m2 : List B
  m3 : List B
  m4 : List B
  i₁ : Ctx B
  i₂ : Ctx B
  i₃ : Ctx B
  r₁ : Ctx B
  r₂ : Ctx B
  makeMsg1 : iMakeMsg1 P coins.msg1 maxMsg (initInitiator I R.kemPk) = (.ok m1, i₁)
  handleMsg1 : rHandleMsg1 P m1 coins.msg2 maxMsg (initResponder R I.kemPk) = (.ok m2, r₁)
  handleMsg2 : iHandleMsg2 P m2 coins.msg3 maxMsg i₁ = (.ok m3, i₂)
  handleMsg3 : rHandleMsg3 P m3 coins.msg4 maxMsg r₁ = (.ok m4, r₂)
  handleMsg4 : iHandleMsg4 P m4 i₂ = (.ok (), i₃)

/-- Both contexts are done and hold the same transcript hashes and keys, and each
has learnt the other's next static key. -/
structure Agrees (i r : Ctx B) : Prop where
  iDone : i.done = true
  rDone : r.done = true
  th2 : i.th2 = r.th2
  th3 : i.th3 = r.th3
  th4 : i.th4 = r.th4
  prk2e : i.prk2e = r.prk2e
  prk3e2m : i.prk3e2m = r.prk3e2m
  prk4e3m : i.prk4e3m = r.prk4e3m
  prkOut : i.prkOut = r.prkOut
  msk : i.msk = r.msk
  emsk : i.emsk = r.emsk
  iPeerNewPk : i.peerNewPk = r.newPk
  rPeerNewPk : r.peerNewPk = i.newPk

/-- The exchange exists, its contexts agree, and each side has verified the other's
signature under the key the other holds. -/
theorem exchange_exists (correct : P.Correct) {I R : Creds B} (hI : I.Valid P) (hR : R.Valid P)
    (coins : RunCoins B) :
    ∃ x : Exchange P I R coins, Agrees x.i₃ x.r₂ ∧
      x.i₃.peerSigVk = R.sigVk ∧ x.r₂.peerSigVk = I.sigVk := by
  obtain ⟨kI, pairI⟩ := hI.kem
  obtain ⟨seedI, signI⟩ := hI.sig
  obtain ⟨kR, pairR⟩ := hR.kem
  obtain ⟨seedR, signR⟩ := hR.sig
  -- message_1
  obtain ⟨pkX, skX, pairX⟩ := xwingKeypair_exists correct coins.msg1.eph
  obtain ⟨ctB, ssB, encB, decB⟩ := xwingDecaps_xwingEncaps correct pairR coins.msg1.encB
  let th1 := P.sha256 (pkX.toList ++ ctB.toList)
  let pt1 : List B := Octet.ofByte 0x04 :: (octet 0x10 : Block B 1).toList
  obtain ⟨ct1, seal1, open1, len1⟩ :=
    correct.aeadOpen_aeadSeal "E4KEY" (P.hkdfExtract th1 ssB) th1 pt1 64
  let m1 := ctB.toList ++ (pkX.toList ++ ct1)
  -- message_2
  obtain ⟨cte, ssE, encE, decE⟩ := xwingDecaps_xwingEncaps correct pairX coins.msg2.encE
  obtain ⟨ctA, ssA, encA, decA⟩ := xwingDecaps_xwingEncaps correct pairI coins.msg2.encA
  let th2 := P.sha256 ((P.sha256 m1).toList ++ (cte.toList ++ (octet 0x20 : Block B 1).toList))
  let prk2e := P.hkdfExtract th2 ssE
  let prk3e2m := P.hkdfExtract prk2e ssB
  let mac2 := computeMac P prk3e2m th2 R.idCred []
  obtain ⟨sigR, signedR, verifiedR⟩ :=
    correct.mldsa signR (sigMessage th2 R.idCred mac2) coins.msg2.sig
  let p2 : Pt2 B := ⟨ctA, octet 0x20, R.idCred, R.sigVk, mac2, sigR⟩
  obtain ⟨ct2, seal2, open2, len2⟩ :=
    correct.aeadOpen_aeadSeal "E4KEY" prk2e th2 p2.write (pt2Len + 16)
  -- message_3
  let th3 := P.sha256 (th2.toList ++ p2.write)
  let prk4e3m := P.hkdfExtract prk3e2m ssA
  obtain ⟨newPkI, newSkI, pairNewI⟩ := xwingKeypair_exists correct coins.msg3.new
  let mac3 := computeMac P prk4e3m th3 I.idCred newPkI.toList
  obtain ⟨sigI, signedI, verifiedI⟩ :=
    correct.mldsa signI (sigMessage th3 I.idCred mac3) coins.msg3.sig
  let p3 : Pt3 B := ⟨I.idCred, newPkI, mac3, I.sigVk, sigI⟩
  obtain ⟨ct3, seal3, open3, len3⟩ :=
    correct.aeadOpen_aeadSeal "E4KEY" prk3e2m th3 p3.write (pt3Len + 16)
  -- message_4
  let th4 := P.sha256 (th3.toList ++ p3.write)
  obtain ⟨newPkR, newSkR, pairNewR⟩ := xwingKeypair_exists correct coins.msg4
  obtain ⟨ct4, seal4, open4, len4⟩ :=
    correct.aeadOpen_aeadSeal "E4KEY" prk4e3m th4 newPkR.toList (xwingPk + 16)
  rw [Pt2.length_write] at len2
  rw [Pt3.length_write] at len3
  rw [List.Vector.toList_length] at len4
  have len1 : ct1.length = 18 := by simpa [pt1, octet] using len1
  refine ⟨{
    m1 := m1, m2 := cte.toList ++ ct2, m3 := ct3, m4 := ct4
    i₁ := _, i₂ := _, i₃ := _, r₁ := _, r₂ := _
    makeMsg1 := iMakeMsg1_eq_ok.mpr ⟨rfl, (pkX, skX), pairX, (ctB, ssB), encB, ct1, seal1,
      by rw [len1]; decide, rfl, rfl⟩
    handleMsg1 := rHandleMsg1_eq_ok.mpr ⟨_, _,
      rHandleMsg1Open_eq_ok.mpr ⟨rfl, ctB, pkX, ct1, rfl, len1.ge, ssB, decB, _, rfl, rfl, rfl⟩,
      pt1, open1, ⟨le_refl _, rfl⟩,
      rMakeMsg2_eq_ok.mpr ⟨(cte, ssE), encE, th2, rfl, _, rfl, (ctA, ssA), encA, _, rfl, mac2, rfl,
        (sigR, mldsaSig), signedR, rfl, p2.write, rfl, ct2, seal2, by rw [len2]; decide,
        rfl, rfl⟩⟩
    handleMsg2 := iHandleMsg2_eq_ok.mpr ⟨_, _,
      iHandleMsg2Open_eq_ok.mpr ⟨rfl, cte, ct2, rfl, by rw [len2]; decide, ssE, decE, th2, rfl,
        rfl, rfl⟩,
      p2.write, open2, _,
      iVerifyMsg2_eq_ok.mpr ⟨p2, rfl, _, rfl, rfl, verifiedR, ssA, decA, rfl⟩,
      iMakeMsg3_eq_ok.mpr ⟨(newPkI, newSkI), pairNewI, mac3, rfl, (sigI, mldsaSig), signedI,
        p3.write, rfl, seal3, by rw [len3]; decide, rfl⟩⟩
    handleMsg3 := rHandleMsg3_eq_ok.mpr ⟨_, _, rHandleMsg3Open_eq_ok.mpr ⟨rfl, rfl, rfl⟩,
      p3.write, open3, _,
      rVerifyMsg3_eq_ok.mpr ⟨p3, rfl, rfl, verifiedI, rfl⟩,
      rMakeMsg4_eq_ok.mpr ⟨(newPkR, newSkR), pairNewR, seal4, by rw [len4]; decide, rfl⟩⟩
    handleMsg4 := iHandleMsg4_eq_ok.mpr ⟨rfl, newPkR, open4, rfl⟩ }, ?_, rfl, rfl⟩
  exact ⟨rfl, rfl, rfl, rfl, rfl, rfl, rfl, rfl, rfl, rfl, rfl, rfl, rfl⟩

/-- An unmodified exchange between valid credentials always completes and both sides
end with the same keys. -/
theorem honest_agreement (correct : P.Correct) {I R : Creds B} (hI : I.Valid P) (hR : R.Valid P)
    (coins : RunCoins B) : ∃ x : Exchange P I R coins, Agrees x.i₃ x.r₂ := by
  obtain ⟨x, agrees, -, -⟩ := exchange_exists correct hI hR coins
  exact ⟨x, agrees⟩

/-- The exchange with randomness that is drawn only when a call needs it. -/
theorem exchange_staged (correct : P.Correct) {I R : Creds B} (hI : I.Valid P) (hR : R.Valid P)
    (c₁ : Msg1Coins B) :
    ∃ m1 i₁, iMakeMsg1 P c₁ maxMsg (initInitiator I R.kemPk) = (.ok m1, i₁) ∧ ∀ c₂,
    ∃ m2 r₁, rHandleMsg1 P m1 c₂ maxMsg (initResponder R I.kemPk) = (.ok m2, r₁) ∧ ∀ c₃,
    ∃ m3 i₂, iHandleMsg2 P m2 c₃ maxMsg i₁ = (.ok m3, i₂) ∧ ∀ c₄,
    ∃ m4 r₂ i₃, rHandleMsg3 P m3 c₄ maxMsg r₁ = (.ok m4, r₂) ∧
      iHandleMsg4 P m4 i₂ = (.ok (), i₃) ∧ Agrees i₃ r₂ := by
  have any := exchange_exists correct hI hR
  have same {a b : List B} {c d : Ctx B} {call : Except Err (List B) × Ctx B}
      (first : call = (.ok a, c)) (second : call = (.ok b, d)) : a = b ∧ c = d := by
    simpa using first.symm.trans second
  -- the calls made so far do not depend on the randomness of the later ones
  obtain ⟨x, -⟩ := any { RunCoins.zero with msg1 := c₁ }
  refine ⟨x.m1, x.i₁, x.makeMsg1, fun c₂ => ?_⟩
  obtain ⟨y, -⟩ := any { RunCoins.zero with msg1 := c₁, msg2 := c₂ }
  obtain ⟨m1, i₁⟩ := same x.makeMsg1 y.makeMsg1
  rw [m1, i₁]
  refine ⟨y.m2, y.r₁, y.handleMsg1, fun c₃ => ?_⟩
  obtain ⟨z, -⟩ := any { RunCoins.zero with msg1 := c₁, msg2 := c₂, msg3 := c₃ }
  obtain ⟨m1, i₁⟩ := same y.makeMsg1 z.makeMsg1
  have handled := y.handleMsg1
  rw [m1] at handled
  obtain ⟨m2, r₁⟩ := same handled z.handleMsg1
  rw [m2, i₁, r₁]
  refine ⟨z.m3, z.i₂, z.handleMsg2, fun c₄ => ?_⟩
  obtain ⟨w, agrees, -⟩ := any ⟨c₁, c₂, c₃, c₄⟩
  obtain ⟨m1, i₁⟩ := same z.makeMsg1 w.makeMsg1
  have handled := z.handleMsg1
  rw [m1] at handled
  obtain ⟨m2, r₁⟩ := same handled w.handleMsg1
  have handled := z.handleMsg2
  rw [m2, i₁] at handled
  obtain ⟨m3, i₂⟩ := same handled w.handleMsg2
  rw [m3, i₂, r₁]
  exact ⟨w.m4, w.r₂, w.i₃, w.handleMsg3, w.handleMsg4, agrees⟩

/-! ### Sizes of the messages -/

section Sizes

variable {c c' : Ctx B} {inp out : List B} {outCap : Nat}

omit [DecidableEq B] in
/-- A message_1 has room for its keys and fits the caller's buffer. -/
theorem iMakeMsg1_length {coins : Msg1Coins B} (ok : iMakeMsg1 P coins outCap c = (.ok out, c')) :
    xwingCt + xwingPk ≤ out.length ∧ out.length ≤ outCap := by
  obtain ⟨-, eph, -, enc, -, ct1, -, fits, rfl, -⟩ := iMakeMsg1_eq_ok.mp ok
  simp only [List.length_append, List.Vector.toList_length]
  omega

/-- A message_2 holds its ciphertext and fits the caller's buffer. -/
theorem rHandleMsg1_length {coins : Msg2Coins B}
    (ok : rHandleMsg1 P inp coins outCap c = (.ok out, c')) :
    xwingCt ≤ out.length ∧ out.length ≤ outCap := by
  obtain ⟨_, _, -, _, -, -, made⟩ := rHandleMsg1_eq_ok.mp ok
  obtain ⟨enc, -, _, -, _, -, _, -, _, -, _, -, _, -, -, _, -, ct2, -, fits, rfl, -⟩ :=
    rMakeMsg2_eq_ok.mp made
  simp only [List.length_append, List.Vector.toList_length]
  omega

omit [DecidableEq B] in
/-- What was sealed is longer than its tag. -/
theorem aeadSeal_length (correct : P.Correct) {prk th : Block B 32} {pt : List B}
    (sealed : aeadSeal P prk th pt = some out) : aeadTag ≤ out.length := by
  obtain ⟨ct, same, -, length⟩ := correct.aeadOpen_aeadSeal "E4KEY" prk th pt 0
  obtain rfl : out = ct := Option.some.inj (sealed.symm.trans same)
  show 16 ≤ out.length
  omega

/-- A message_3 holds a tag and fits the caller's buffer. -/
theorem iHandleMsg2_length (correct : P.Correct) {coins : Msg3Coins B}
    (ok : iHandleMsg2 P inp coins outCap c = (.ok out, c')) :
    aeadTag ≤ out.length ∧ out.length ≤ outCap := by
  obtain ⟨_, _, -, _, -, _, -, made⟩ := iHandleMsg2_eq_ok.mp ok
  obtain ⟨_, -, _, -, _, -, _, -, sealed, fits, -⟩ := iMakeMsg3_eq_ok.mp made
  exact ⟨aeadSeal_length correct sealed, fits⟩

/-- A message_4 holds a tag and fits the caller's buffer. -/
theorem rHandleMsg3_length (correct : P.Correct) {coins : KeyCoins B}
    (ok : rHandleMsg3 P inp coins outCap c = (.ok out, c')) :
    aeadTag ≤ out.length ∧ out.length ≤ outCap := by
  obtain ⟨_, _, -, _, -, _, -, made⟩ := rHandleMsg3_eq_ok.mp ok
  obtain ⟨_, -, sealed, fits, -⟩ := rMakeMsg4_eq_ok.mp made
  exact ⟨aeadSeal_length correct sealed, fits⟩

end Sizes

/-! ### The next static keys -/

/-- The initiator ends with the key pair that the randomness of message_3 gave it. -/
theorem initiator_newKey {coins : Msg3Coins B} {c c₂ c₃ : Ctx B} {m2 m3 m4 : List B} {outCap : Nat}
    (made : iHandleMsg2 P m2 coins outCap c = (.ok m3, c₂))
    (accepted : iHandleMsg4 P m4 c₂ = (.ok (), c₃)) :
    xwingKeypair P coins.new = some (c₃.newPk, c₃.newSk) := by
  obtain ⟨_, _, -, _, -, _, -, made⟩ := iHandleMsg2_eq_ok.mp made
  obtain ⟨_, pair, _, -, _, -, _, -, -, -, rfl⟩ := iMakeMsg3_eq_ok.mp made
  obtain ⟨-, _, -, rfl⟩ := iHandleMsg4_eq_ok.mp accepted
  exact pair

/-- The responder ends with the key pair that the randomness of message_4 gave it. -/
theorem responder_newKey {coins : KeyCoins B} {c c' : Ctx B} {m3 m4 : List B} {outCap : Nat}
    (made : rHandleMsg3 P m3 coins outCap c = (.ok m4, c')) :
    xwingKeypair P coins = some (c'.newPk, c'.newSk) := by
  obtain ⟨_, _, -, _, -, _, -, made⟩ := rHandleMsg3_eq_ok.mp made
  obtain ⟨_, pair, -, -, rfl⟩ := rMakeMsg4_eq_ok.mp made
  exact pair

/-! ### The symbolic parties -/

open Symbolic in
/-- The credentials of a party are valid. -/
theorem creds4_valid (ids : Ids) (party : Party) : (creds4 ids party).Valid primitives :=
  ⟨⟨staticCoins party, rfl⟩, ⟨fresh 32 (.longTerm party 4), rfl⟩⟩

open Symbolic in
/-- The randomness of an exchange whose calls are steps 0, 1, 2 and 3 of a run. -/
def runCoins : RunCoins Sym := ⟨msg1Coins 0, msg2Coins 1, msg3Coins 2, msg4Coins 3⟩

open Symbolic in
/-- The credentials of `selftest.c` are valid, so its exchange ends in agreement. -/
theorem honest_agreement_selftest :
    ∃ x : Exchange primitives (creds4 selftestIds .initiator) (creds4 selftestIds .responder)
      runCoins, Agrees x.i₃ x.r₂ :=
  honest_agreement primitives_correct (creds4_valid _ _) (creds4_valid _ _) runCoins

/-! ### The signature key is not pinned -/

/-- The same party with another ML-DSA key pair. -/
def Creds.withSigner (c : Creds B) (vk : Block B mldsaPk) (sk : Block B mldsaSk) : Creds B :=
  { c with sigVk := vk, sigSk := sk }

/-- Whatever message_2 an initiator provisioned for `R` accepts, sigma_R was checked
under the ML-DSA key of `R`. -/
def PinsResponder (P : Primitives B) (I R : Creds B) : Prop :=
  ∀ (coins₁ : Msg1Coins B) (cap₁ : Nat) (m1 : List B) (i₁ : Ctx B)
    (coins₃ : Msg3Coins B) (cap₃ : Nat) (m2 m3 : List B) (i₂ : Ctx B),
    iMakeMsg1 P coins₁ cap₁ (initInitiator I R.kemPk) = (.ok m1, i₁) →
    iHandleMsg2 P m2 coins₃ cap₃ i₁ = (.ok m3, i₂) → i₂.peerSigVk = R.sigVk

/-- Whatever message_3 a responder provisioned for `I` accepts, sigma_I was checked
under the ML-DSA key of `I`. -/
def PinsInitiator (P : Primitives B) (I R : Creds B) : Prop :=
  ∀ (coins₂ : Msg2Coins B) (cap₂ : Nat) (m1 m2 : List B) (r₁ : Ctx B)
    (coins₄ : KeyCoins B) (cap₄ : Nat) (m3 m4 : List B) (r₂ : Ctx B),
    rHandleMsg1 P m1 coins₂ cap₂ (initResponder R I.kemPk) = (.ok m2, r₁) →
    rHandleMsg3 P m3 coins₄ cap₄ r₁ = (.ok m4, r₂) → r₂.peerSigVk = I.sigVk

/-- Peer authentication by signature in both directions. -/
structure PeerAuthentication (P : Primitives B) (I R : Creds B) : Prop where
  responder : PinsResponder P I R
  initiator : PinsInitiator P I R

omit [Octet B] [DecidableEq B] in
/-- Valid credentials stay valid with another signing key pair. -/
theorem Creds.Valid.withSigner {c : Creds B} (valid : c.Valid P) {seed : Block B 32}
    {vk : Block B mldsaPk} {sk : Block B mldsaSk} (pair : P.mldsaKeypair seed = some (vk, sk)) :
    (c.withSigner vk sk).Valid P :=
  ⟨valid.kem, seed, pair⟩

/-- An initiator accepts the holder of the provisioned X-Wing key with any ML-DSA key pair. -/
theorem initiator_accepts_any_signer (correct : P.Correct) {I R : Creds B} (hI : I.Valid P)
    (hR : R.Valid P) (coins : RunCoins B) {seed : Block B 32} {vk : Block B mldsaPk}
    {sk : Block B mldsaSk} (pair : P.mldsaKeypair seed = some (vk, sk))
    (pins : PinsResponder P I R) : vk = R.sigVk := by
  obtain ⟨x, -, learnt, -⟩ := exchange_exists correct hI (hR.withSigner pair) coins
  -- message_4 leaves the key recorded by the message_2 handler alone
  obtain ⟨-, _, -, last⟩ := iHandleMsg4_eq_ok.mp x.handleMsg4
  rw [last] at learnt
  have checked := pins _ _ _ _ _ _ _ _ _ x.makeMsg1 x.handleMsg2
  exact learnt.symm.trans checked

/-- A responder accepts the holder of the provisioned X-Wing key with any ML-DSA key pair. -/
theorem responder_accepts_any_signer (correct : P.Correct) {I R : Creds B} (hI : I.Valid P)
    (hR : R.Valid P) (coins : RunCoins B) {seed : Block B 32} {vk : Block B mldsaPk}
    {sk : Block B mldsaSk} (pair : P.mldsaKeypair seed = some (vk, sk))
    (pins : PinsInitiator P I R) : vk = I.sigVk := by
  obtain ⟨x, -, -, learnt⟩ := exchange_exists correct (hI.withSigner pair) hR coins
  have checked := pins _ _ _ _ _ _ _ _ _ _ x.handleMsg1 x.handleMsg3
  exact learnt.symm.trans checked

/-- Key generation is not constant: some two seeds give different verification keys. -/
def TwoSigners (P : Primitives B) : Prop :=
  ∃ seed vk sk seed' vk' sk', P.mldsaKeypair seed = some (vk, sk) ∧
    P.mldsaKeypair seed' = some (vk', sk') ∧ vk ≠ vk'

/-- Neither direction pins the signature key, whoever the two parties are. -/
theorem not_pinned (correct : P.Correct) (signers : TwoSigners P) {I R : Creds B}
    (hI : I.Valid P) (hR : R.Valid P) : ¬ PinsResponder P I R ∧ ¬ PinsInitiator P I R := by
  obtain ⟨seed, vk, sk, seed', vk', sk', pair, pair', differ⟩ := signers
  constructor
  · intro pins
    have first := initiator_accepts_any_signer correct hI hR .zero pair pins
    have second := initiator_accepts_any_signer correct hI hR .zero pair' pins
    exact differ (first.trans second.symm)
  · intro pins
    have first := responder_accepts_any_signer correct hI hR .zero pair pins
    have second := responder_accepts_any_signer correct hI hR .zero pair' pins
    exact differ (first.trans second.symm)

section SymbolicSigners

open Symbolic

/-- The ML-DSA key pair of the attacker's seed `n`. -/
noncomputable def attackerVk (n : Nat) : Block Sym mldsaPk :=
  out 1312 (.sigVk .mldsa (fresh 32 (.attacker n)).toList)

noncomputable def attackerSk (n : Nat) : Block Sym mldsaSk :=
  out 2560 (.sigSk .mldsa (fresh 32 (.attacker n)).toList)

theorem mldsaKeypair_attacker (n : Nat) :
    primitives.mldsaKeypair (fresh 32 (.attacker n)) = some (attackerVk n, attackerSk n) := rfl

/-- Verification keys of different seeds differ. -/
theorem mldsaVk_inj {o o' : Origin}
    (h : out 1312 (.sigVk .mldsa (fresh 32 o).toList) =
      out 1312 (.sigVk .mldsa (fresh 32 o').toList)) :
    o = o' := by
  have seeds := (Sym.sigVk.inj (out_inj (by decide) h)).2.1
  have heads := out_inj (by decide) (List.Vector.eq (fresh 32 o) (fresh 32 o') seeds)
  exact (Sym.rnd.inj heads).1

theorem twoSigners_primitives : TwoSigners primitives := by
  refine ⟨_, _, _, _, _, _, mldsaKeypair_attacker 0, mldsaKeypair_attacker 1, ?_⟩
  intro same
  cases mldsaVk_inj same

/-- The symbolic library has two signing keys, and the credentials of `selftest.c` are valid. -/
theorem not_pinned_selftest :
    ¬ PinsResponder primitives (creds4 selftestIds .initiator) (creds4 selftestIds .responder) ∧
      ¬ PinsInitiator primitives (creds4 selftestIds .initiator) (creds4 selftestIds .responder) :=
  not_pinned primitives_correct twoSigners_primitives (creds4_valid _ _) (creds4_valid _ _)

/-- A responder that holds the provisioned X-Wing key and an ML-DSA key pair of the
attacker is accepted, and so is the provisioned one. -/
theorem foreign_signer_accepted :
    (∃ x : Exchange primitives (creds4 selftestIds .initiator)
        ((creds4 selftestIds .responder).withSigner (attackerVk 0) (attackerSk 0)) runCoins,
      x.i₂.peerSigVk ≠ (creds4 selftestIds .responder).sigVk) ∧
    Nonempty (Exchange primitives (creds4 selftestIds .initiator) (creds4 selftestIds .responder)
      runCoins) ∧
    ¬ PeerAuthentication primitives (creds4 selftestIds .initiator)
      (creds4 selftestIds .responder) := by
  have hI := creds4_valid selftestIds .initiator
  have hR := creds4_valid selftestIds .responder
  obtain ⟨x, -, learnt, -⟩ :=
    exchange_exists primitives_correct hI (hR.withSigner (mldsaKeypair_attacker 0)) runCoins
  obtain ⟨-, _, -, last⟩ := iHandleMsg4_eq_ok.mp x.handleMsg4
  rw [last] at learnt
  have foreign : x.i₂.peerSigVk ≠ (creds4 selftestIds .responder).sigVk := by
    intro same
    cases mldsaVk_inj (learnt.symm.trans same)
  obtain ⟨y, -⟩ := exchange_exists primitives_correct hI hR runCoins
  exact ⟨⟨x, foreign⟩, ⟨y⟩, fun auth =>
    foreign (auth.responder _ _ _ _ _ _ _ _ _ x.makeMsg1 x.handleMsg2)⟩

end SymbolicSigners

end EdhocAuth.Edhoc4
