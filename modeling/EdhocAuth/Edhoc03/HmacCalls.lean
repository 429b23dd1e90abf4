/-
The HMAC computations of a handshake of methods 0 to 3.

In the signature modes PRK_3e2m is PRK_2e and PRK_4e3m is PRK_3e2m. `hmacCalls` lists what a side
computes in a run, and `Run.Completes.replay` says that the list is complete: a run does not
notice if HMAC is changed anywhere else.
-/

import EdhocAuth.Edhoc03.Honest
import EdhocAuth.Crypto.HmacCalls

namespace EdhocAuth.Edhoc03

open Proc Primitives

variable {B : Type} [Octet B] {P : Primitives B}

/-! ### The computations -/

/-- The credential that a side authenticates with, and the secret of its static key, if it uses
it. -/
structure Side (B : Type) where
  idCred : Block B idCredLen
  key : Block B 32
  secret : Option (Block B 32)

/-- The side itself, which meets the ephemeral key `peerEph`. -/
def selfSide (P : Primitives B) (auth : Auth) (self : Creds B) (peerEph : Block B 32) : Side B :=
  match auth with
  | .stat => ⟨self.idCred, self.dhPk, P.scalarmult self.dhSk peerEph⟩
  | .sig => ⟨self.idCred, self.sigVk, none⟩

/-- The other side, which `ephSk` meets. -/
def peerSide (P : Primitives B) (auth : Auth) (peer : Peer B) (ephSk : Block B 32)
    (idCred : Block B idCredLen) :
    Side B :=
  match auth with
  | .stat => ⟨idCred, peer.dhPk, P.scalarmult ephSk peer.dhPk⟩
  | .sig => ⟨idCred, peer.sigVk, none⟩

/-- The computations by which a side is authenticated in a message. -/
def authCalls (P : Primitives B) (message : Nat) (prk prk' th : Block B 32) (side : Side B) :
    List (HmacCall B) :=
  side.secret.toList.map (extractCall prk) ++
    expandCalls P (.mac message) prk' (th.toList ++ (side.idCred.toList ++ side.key.toList)) macLen

def Ctx.responderSide (P : Primitives B) (c : Ctx B) : Side B :=
  match c.role with
  | .initiator => peerSide P c.peerAuth c.peer c.ephSk c.peerIdCred
  | .responder => selfSide P c.selfAuth c.self c.peerEphPk

def Ctx.initiatorSide (P : Primitives B) (c : Ctx B) : Side B :=
  match c.role with
  | .initiator => selfSide P c.selfAuth c.self c.peerEphPk
  | .responder => peerSide P c.peerAuth c.peer c.ephSk c.peerIdCred

/-- The HMAC computations of the handshake that left the context behind. -/
def hmacCalls (P : Primitives B) (c : Ctx B) : List (HmacCall B) :=
  extractCall c.th2 c.ssE ::
    (expandCalls P (.aead 2) c.prk2e (c.th2.toList ++ ascii "E3KEY") 44 ++
      (authCalls P 2 c.prk2e c.prk3e2m c.th2 (c.responderSide P) ++
        (authCalls P 3 c.prk3e2m c.prk4e3m c.th3 (c.initiatorSide P) ++
          (expandCalls P (.aead 3) c.prk3e2m (c.th3.toList ++ ascii "E3KEY") 44 ++
            exportCalls P c.prk4e3m c.th4 c.prkOut))))

/-- The calls of one side from its first to its last, with what it is given and what it sends. -/
inductive Run (B : Type) where
  | initiator (start : Ctx B) (ephSk : Block B 32) (cap₁ : Nat) (msg₁ msg₂ : List B) (cap₃ : Nat)
      (msg₃ msg₄ : List B)
  | responder (start : Ctx B) (msg₁ : List B) (ephSk : Block B 32) (cap₂ : Nat)
      (msg₂ msg₃ msg₄ : List B)

variable [DecidableEq B]

def Run.Completes (P : Primitives B) : Run B → Ctx B → Prop
  | .initiator start ephSk cap₁ msg₁ msg₂ cap₃ msg₃ msg₄, c =>
    ∃ c₁ c₂, iMakeMsg1 P ephSk cap₁ start = (.ok msg₁, c₁) ∧
    iHandleMsg2 P msg₂ cap₃ c₁ = (.ok msg₃, c₂) ∧
      iHandleMsg4 msg₄ c₂ = (.ok (), c)
  | .responder start msg₁ ephSk cap₂ msg₂ msg₃ msg₄, c =>
    ∃ c₁, rHandleMsg1 P msg₁ ephSk cap₂ start = (.ok msg₂, c₁) ∧
      rHandleMsg3 P msg₃ c₁ = (.ok msg₄, c)

/-! ### The list is complete -/

section Replay

variable {hmac : Block B 32 → List B → Block B 32} {c c' : Ctx B}

omit [DecidableEq B] in
/-- Sealing depends on the HMAC of its own computations only. -/
theorem agree_seal {i : Nat} {prk th : Block B 32}
    (agree : AgreeOn P hmac (expandCalls P (.aead i) prk (th.toList ++ ascii "E3KEY") 44))
    (pt : List B) :
    aeadSeal { P with hmac := hmac } prk th pt = aeadSeal P prk th pt := by
  rw [aeadSeal, aeadSeal, Primitives.aeadSeal, Primitives.aeadSeal, agree.deriveKey]

omit [DecidableEq B] in
/-- Opening depends on the HMAC of its own computations only. -/
theorem agree_open {i : Nat} {prk th : Block B 32}
    (agree : AgreeOn P hmac (expandCalls P (.aead i) prk (th.toList ++ ascii "E3KEY") 44))
    (ct : List B) (cap : Nat) :
    aeadOpen { P with hmac := hmac } ⟨prk, th, ct, cap⟩ = aeadOpen P ⟨prk, th, ct, cap⟩ := by
  rw [aeadOpen, aeadOpen, Primitives.aeadOpen, Primitives.aeadOpen, agree.deriveKey]

omit [DecidableEq B] in
/-- A MAC depends on the HMAC of its own computations only. -/
theorem agree_mac {i : Nat} {prk prk' th : Block B 32} {side : Side B}
    (agree : AgreeOn P hmac (authCalls P i prk prk' th side)) :
    computeMac { P with hmac := hmac } prk' th side.idCred side.key =
      computeMac P prk' th side.idCred side.key := by
  have mac := agree.append.2.expand
  rw [computeMac, computeMac, List.append_assoc]
  exact mac

omit [DecidableEq B] in
/-- The own authentication is the same under an HMAC that agrees on its computations. -/
theorem SelfAuth.replay {i : Nat} {auth : Auth} {self : Creds B} {peerEph prk th prk' : Block B 32}
    {pt : List B} (made : SelfAuth P auth self peerEph prk th prk' pt)
    (agree : AgreeOn P hmac (authCalls P i prk prk' th (selfSide P auth self peerEph))) :
    SelfAuth { P with hmac := hmac } auth self peerEph prk th prk' pt := by
  have mac := agree_mac agree
  cases auth with
  | stat =>
    obtain ⟨⟨ss, mul, rfl⟩, rfl⟩ := made
    have extract : AgreeOn P hmac [extractCall prk ss] := by
      have first := agree.append.1
      rwa [show (selfSide P .stat self peerEph).secret = some ss from mul] at first
    exact ⟨⟨ss, mul, extract.extract.symm⟩,
      congrArg (fun m => AuthPt.write ⟨self.idCred, self.dhPk, m⟩) mac.symm⟩
  | sig =>
    obtain ⟨rfl, sig, signed, rfl⟩ := made
    refine ⟨rfl, sig, ?_, rfl⟩
    rw [show computeMac { P with hmac := hmac } prk' th self.idCred self.sigVk = _ from mac]
    exact signed

omit [DecidableEq B] in
/-- The check of the peer is the same under an HMAC that agrees on its computations. -/
theorem PeerAuth.replay {i : Nat} {auth : Auth} {peer : Peer B} {ephSk prk th prk' : Block B 32}
    {idCred : Block B idCredLen} {pt : List B}
    (checked : PeerAuth P auth peer ephSk prk th prk' idCred pt)
    (agree : AgreeOn P hmac (authCalls P i prk prk' th (peerSide P auth peer ephSk idCred))) :
    PeerAuth { P with hmac := hmac } auth peer ephSk prk th prk' idCred pt := by
  have mac := agree_mac agree
  cases auth with
  | stat =>
    obtain ⟨⟨ss, mul, rfl⟩, rfl⟩ := checked
    have extract : AgreeOn P hmac [extractCall prk ss] := by
      have first := agree.append.1
      rwa [show (peerSide P .stat peer ephSk idCred).secret = some ss from mul] at first
    exact ⟨⟨ss, mul, extract.extract.symm⟩,
      congrArg (fun m => AuthPt.write ⟨idCred, peer.dhPk, m⟩) mac.symm⟩
  | sig =>
    obtain ⟨rfl, sig, verified, rfl⟩ := checked
    refine ⟨rfl, sig, ?_, rfl⟩
    rw [show computeMac { P with hmac := hmac } prk' th idCred peer.sigVk = _ from mac]
    exact verified

omit [DecidableEq B] in
/-- The exported keys are the same under an HMAC that agrees on their computations. -/
theorem deriveMsk_replay
    (agree : AgreeOn P hmac (exportCalls P c.prk4e3m c.th4 (deriveMsk P c).prkOut)) :
    deriveMsk { P with hmac := hmac } c = deriveMsk P c := by
  obtain ⟨prkOut, msk, emsk⟩ := agree.exports
  simp only [deriveMsk] at msk emsk ⊢
  rw [prkOut, msk, emsk]

/-- A run does not notice if HMAC is changed anywhere else. -/
theorem Run.Completes.replay {run : Run B} (completes : run.Completes P c)
    (agree : AgreeOn P hmac (hmacCalls P c)) :
    run.Completes { P with hmac := hmac } c := by
  obtain ⟨aead2, rest⟩ := AgreeOn.append fun x mem => agree x (List.mem_cons_of_mem _ mem)
  have first : AgreeOn P hmac [extractCall c.th2 c.ssE] := fun x mem =>
    agree x (List.mem_cons.mpr (.inl (List.mem_singleton.mp mem)))
  obtain ⟨auth2, rest⟩ := rest.append
  obtain ⟨auth3, rest⟩ := rest.append
  obtain ⟨aead3, exports⟩ := rest.append
  cases run with
  | initiator start ephSk cap₁ msg₁ msg₂ cap₃ msg₃ msg₄ =>
    obtain ⟨c₁, c₂, made1, handled2, handled4⟩ := completes
    obtain ⟨call, c₃, opened, pt2, dec2, prk3e2m, idCred, checked2, made3⟩ :=
      iHandleMsg2_eq_ok.mp handled2
    obtain ⟨role, gY, ct2, split, tag, ssE, mul, th2, hash, rfl, rfl⟩ :=
      iHandleMsg2Open_eq_ok.mp opened
    obtain ⟨prk4e3m, pt3, self3, sealed3, room, rfl⟩ := iMakeMsg3_eq_ok.mp made3
    obtain ⟨role4, empty, rfl⟩ := iHandleMsg4_eq_ok.mp handled4
    have extract : { P with hmac := hmac }.hkdfExtract th2 ssE = P.hkdfExtract th2 ssE :=
      first.extract
    simp only [Ctx.responderSide, Ctx.initiatorSide, deriveMsk, role] at auth2 auth3
    refine ⟨c₁, _, made1, iHandleMsg2_eq_ok.mpr ⟨_, _, iHandleMsg2Open_eq_ok.mpr
      ⟨role, gY, ct2, split, tag, ssE, mul, th2, hash, rfl, rfl⟩, pt2, ?_, prk3e2m, idCred, ?_,
      iMakeMsg3_eq_ok.mpr ⟨prk4e3m, pt3, self3.replay auth3, (agree_seal aead3 pt3).trans sealed3,
      room, ?_⟩⟩, handled4⟩
    · rw [extract]
      exact (agree_open aead2 ct2 ptCap).trans dec2
    · rw [extract]
      exact checked2.replay auth2
    · rw [extract]
      exact (deriveMsk_replay exports).symm
  | responder start msg₁ ephSk cap₂ msg₂ msg₃ msg₄ =>
    obtain ⟨c₁, handled1, handled3⟩ := completes
    obtain ⟨c₂, keys, made2⟩ := rHandleMsg1_eq_ok.mp handled1
    obtain ⟨role, b, gX, cI, split, valid, ssE, mul, th2, hash, rfl⟩ :=
      rHandleMsg1Keys_eq_ok.mp keys
    obtain ⟨prk3e2m, pt2, self2, ct2, sealed2, room, out, rfl⟩ := rMakeMsg2_eq_ok.mp made2
    obtain ⟨role3, empty, pt3, dec3, prk4e3m, idCred, checked3, rfl⟩ :=
      rHandleMsg3_eq_ok.mp handled3
    have extract : { P with hmac := hmac }.hkdfExtract th2 ssE = P.hkdfExtract th2 ssE :=
      first.extract
    simp only [Ctx.responderSide, Ctx.initiatorSide, deriveMsk, role] at auth2 auth3
    refine ⟨_, rHandleMsg1_eq_ok.mpr ⟨_, rHandleMsg1Keys_eq_ok.mpr
      ⟨role, b, gX, cI, split, valid, ssE, mul, th2, hash, rfl⟩,
      rMakeMsg2_eq_ok.mpr ⟨prk3e2m, pt2, ?_, ct2, ?_, room, out, rfl⟩⟩,
      rHandleMsg3_eq_ok.mpr
      ⟨role3, empty, pt3, (agree_open aead3 msg₃ ptCap).trans dec3, prk4e3m, idCred,
        checked3.replay auth3, ?_⟩⟩
    · dsimp only
      rw [extract]
      exact self2.replay auth2
    · dsimp only
      rw [extract]
      exact (agree_seal aead2 pt2).trans sealed2
    · rw [extract]
      exact (deriveMsk_replay exports).symm

end Replay

/-! ### Separation -/

section Separation

variable {c c' : Ctx B}

def Ctx.gY (c : Ctx B) : Block B xPk :=
  match c.role with
  | .initiator => c.peerEphPk
  | .responder => c.ephPk

/-- What the transcript hashes of a context are the hashes of. -/
structure HashedTranscript (P : Primitives B) (c : Ctx B) where
  pt2 : List B
  pt3 : List B
  th2 : c.th2 = P.sha256 (c.gY.toList ++ (c.hMsg1.toList ++ c.cR.toList))
  th3 : c.th3 = P.sha256 (c.th2.toList ++ pt2)
  th4 : c.th4 = P.sha256 (c.th3.toList ++ pt3)
  size2 : pt2.length = 43 ∨ pt2.length = 99
  size3 : pt3.length = 43 ∨ pt3.length = 99

def HashedTranscript.inputs (t : HashedTranscript P c) : List (List B) :=
  [c.gY.toList ++ (c.hMsg1.toList ++ c.cR.toList), c.th2.toList ++ t.pt2, c.th3.toList ++ t.pt3]

/-- A plaintext has 43 octets or 99. -/
theorem Auth.ptLen_cases (auth : Auth) : auth.ptLen = 43 ∨ auth.ptLen = 99 := by
  cases auth with
  | stat => exact .inl rfl
  | sig => exact .inr rfl

/-- The transcript hashes of a completed run are hashes of its messages and plaintexts. -/
theorem Run.Completes.transcript {run : Run B} (completes : run.Completes P c) :
    Nonempty (HashedTranscript P c) := by
  cases run with
  | initiator start ephSk cap₁ msg₁ msg₂ cap₃ msg₃ msg₄ =>
    obtain ⟨c₁, c₂, -, handled2, handled4⟩ := completes
    obtain ⟨call, c₃, opened, pt2, -, prk3e2m, idCred, checked2, made3⟩ :=
      iHandleMsg2_eq_ok.mp handled2
    obtain ⟨role, gY, ct2, -, -, ssE, -, th2, rfl, rfl, rfl⟩ := iHandleMsg2Open_eq_ok.mp opened
    obtain ⟨prk4e3m, pt3, self3, -, -, rfl⟩ := iMakeMsg3_eq_ok.mp made3
    obtain ⟨-, -, rfl⟩ := iHandleMsg4_eq_ok.mp handled4
    refine ⟨⟨pt2, pt3, ?_, rfl, rfl, checked2.length ▸ Auth.ptLen_cases _, self3.length ▸ Auth.ptLen_cases _⟩⟩
    simp only [Ctx.gY, deriveMsk, role]
  | responder start msg₁ ephSk cap₂ msg₂ msg₃ msg₄ =>
    obtain ⟨c₁, handled1, handled3⟩ := completes
    obtain ⟨c₂, keys, made2⟩ := rHandleMsg1_eq_ok.mp handled1
    obtain ⟨role, b, gX, cI, -, -, ssE, -, th2, rfl, rfl⟩ := rHandleMsg1Keys_eq_ok.mp keys
    obtain ⟨prk3e2m, pt2, self2, ct2, -, -, -, rfl⟩ := rMakeMsg2_eq_ok.mp made2
    obtain ⟨-, -, pt3, -, prk4e3m, idCred, checked3, rfl⟩ := rHandleMsg3_eq_ok.mp handled3
    refine ⟨⟨pt2, pt3, ?_, rfl, rfl, self2.length ▸ Auth.ptLen_cases _, checked3.length ▸ Auth.ptLen_cases _⟩⟩
    simp only [Ctx.gY, deriveMsk, role]

/-- The transcript hash of the AEAD key and the MAC of a message. -/
def Ctx.th (c : Ctx B) (message : Nat) : Block B 32 := if message = 2 then c.th2 else c.th3

omit [DecidableEq B] in
/-- The computations of a run have the shape that separates them. -/
theorem shaped_hmacCalls (c : Ctx B) : ∀ x ∈ hmacCalls P c, Shaped [2, 3] c.th (fun _ => 68) x := by
  have auth {i : Nat} {prk prk' : Block B 32} {side : Side B} (inside : i ∈ [2, 3]) :
      ∀ x ∈ authCalls P i prk prk' (c.th i) side, Shaped [2, 3] c.th (fun _ => 68) x := by
    intro x mem
    rcases List.mem_append.mp mem with mem | mem
    · obtain ⟨ss, -, rfl⟩ := List.mem_map.mp mem
      exact shaped_extract
    · have size : 33 + (side.idCred.toList ++ side.key.toList).length = 68 := by
        rw [List.length_append, side.idCred.toList_length, side.key.toList_length]
        rfl
      exact shaped_mac inside size mem
  intro x mem
  rcases List.mem_cons.mp mem with rfl | mem
  · exact shaped_extract
  rcases List.mem_append.mp mem with mem | mem
  · exact shaped_aead "E3KEY" (by decide) (by decide) mem
  rcases List.mem_append.mp mem with mem | mem
  · exact auth (i := 2) (by decide) x mem
  rcases List.mem_append.mp mem with mem | mem
  · exact auth (i := 3) (by decide) x mem
  rcases List.mem_append.mp mem with mem | mem
  · exact shaped_aead "E3KEY" (by decide) (by decide) mem
  · exact shaped_export mem

omit [Octet B] [DecidableEq B] in
/-- The hashes of different messages have inputs of different lengths. -/
theorem HashedTranscript.differ (t : HashedTranscript P c) (t' : HashedTranscript P c')
    (injective : Set.InjOn P.sha256 { x | x ∈ t.inputs ++ t'.inputs }) : c.th2 ≠ c'.th3 := by
  intro same
  rw [t.th2, t'.th3] at same
  have inputs := congrArg List.length (injective (by simp [inputs]) (by simp [inputs]) same)
  simp only [List.length_append, List.Vector.toList_length, xPk, connId] at inputs
  have size := t'.size2
  omega

omit [DecidableEq B] in
/-- Without collisions among the transcripts, computations for different purposes have different
inputs. -/
theorem HashedTranscript.separated (t : HashedTranscript P c) (t' : HashedTranscript P c')
    (injective : Set.InjOn P.sha256 { x | x ∈ t.inputs ++ t'.inputs }) :
    Separated (hmacCalls P c) (hmacCalls P c') := by
  have forth := t.differ t' injective
  have back := t'.differ t (injective.mono fun x mem => by simpa [or_comm] using mem)
  refine separated_of_shaped (shaped_hmacCalls c) (shaped_hmacCalls c') (by decide) ?_
  intro i inside j inside' other
  simp only [List.mem_cons, List.not_mem_nil, or_false] at inside inside'
  rcases inside with rfl | rfl <;> rcases inside' with rfl | rfl
  · exact absurd rfl other
  · exact forth
  · exact back.symm
  · exact absurd rfl other

/-- Where both sides sign, all PRKs are one key. -/
theorem Run.Completes.one_key {run : Run B} (completes : run.Completes P c)
    (auths : c.auths = (.sig, .sig)) :
    c.prk3e2m = c.prk2e ∧ c.prk4e3m = c.prk3e2m := by
  obtain ⟨self, peer⟩ := Prod.mk.inj auths
  cases run with
  | initiator start ephSk cap₁ msg₁ msg₂ cap₃ msg₃ msg₄ =>
    obtain ⟨c₁, c₂, -, handled2, handled4⟩ := completes
    obtain ⟨call, c₃, opened, pt2, -, prk3e2m, idCred, checked2, made3⟩ :=
      iHandleMsg2_eq_ok.mp handled2
    obtain ⟨-, gY, ct2, -, -, ssE, -, th2, -, rfl, rfl⟩ := iHandleMsg2Open_eq_ok.mp opened
    obtain ⟨prk4e3m, pt3, self3, -, -, rfl⟩ := iMakeMsg3_eq_ok.mp made3
    obtain ⟨-, -, rfl⟩ := iHandleMsg4_eq_ok.mp handled4
    simp only [deriveMsk] at self peer
    rw [peer] at checked2
    rw [self] at self3
    exact ⟨checked2.1, self3.1⟩
  | responder start msg₁ ephSk cap₂ msg₂ msg₃ msg₄ =>
    obtain ⟨c₁, handled1, handled3⟩ := completes
    obtain ⟨c₂, -, made2⟩ := rHandleMsg1_eq_ok.mp handled1
    obtain ⟨prk3e2m, pt2, self2, ct2, -, -, -, rfl⟩ := rMakeMsg2_eq_ok.mp made2
    obtain ⟨-, -, pt3, -, prk4e3m, idCred, checked3, rfl⟩ := rHandleMsg3_eq_ok.mp handled3
    simp only [deriveMsk] at self peer
    rw [self] at self2
    rw [peer] at checked3
    exact ⟨self2.1, checked3.1⟩

end Separation

/-! ### The two sides of an exchange -/

/-- The initiator of an honest exchange completes its run. -/
theorem Exchange.initiator_completes {method : Int} {I R : Creds B} {coins : RunCoins B}
    (x : Exchange P method I R coins) :
    Run.Completes P (.initiator
      (initInitiator method I R.pub) coins.x maxMsg x.m1 x.m2 maxMsg x.m3 []) x.i₃ :=
  ⟨x.i₁, x.i₂, x.makeMsg1, x.handleMsg2, x.handleMsg4⟩

/-- The responder of an honest exchange completes its run. -/
theorem Exchange.responder_completes {method : Int} {I R : Creds B} {coins : RunCoins B}
    (x : Exchange P method I R coins) :
    Run.Completes P (.responder (initResponder R I.pub) x.m1 coins.y maxMsg x.m2 x.m3 []) x.r₂ :=
  ⟨x.r₁, x.handleMsg1, x.handleMsg3⟩

end EdhocAuth.Edhoc03
