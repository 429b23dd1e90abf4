/-
The HMAC computations of a handshake of method 4.

`hmacCalls` lists what a side computes in a run, and `Run.Completes.replay` says that the list is
complete: a run does not notice if HMAC is changed anywhere else.
-/

import EdhocAuth.Edhoc4.Honest
import EdhocAuth.Crypto.HmacCalls

namespace EdhocAuth.Edhoc4

open Proc Primitives

variable {B : Type} [Octet B] {P : Primitives B}

/-! ### The computations -/

def Ctx.idCredR (c : Ctx B) : Block B idCredLen :=
  match c.role with
  | .initiator => c.peerIdCred
  | .responder => c.self.idCred

def Ctx.idCredI (c : Ctx B) : Block B idCredLen :=
  match c.role with
  | .initiator => c.self.idCred
  | .responder => c.peerIdCred

/-- EAD_3, the next static key of the initiator, as a context sees it. -/
def Ctx.ead3 (c : Ctx B) : Block B xwingPk :=
  match c.role with
  | .initiator => c.newPk
  | .responder => c.peerNewPk

def aeadCalls (P : Primitives B) (message : Nat) (prk th : Block B 32) : List (HmacCall B) :=
  expandCalls P (.aead message) prk (th.toList ++ ascii "E4KEY") 44

/-- The HMAC computations of the handshake that left the context behind. -/
def hmacCalls (P : Primitives B) (c : Ctx B) : List (HmacCall B) :=
  [extractCall c.th1 c.ssB, extractCall c.th2 c.ssE, extractCall c.prk2e c.ssB,
    extractCall c.prk3e2m c.ssA] ++
    (aeadCalls P 1 c.prk1e c.th1 ++
      (aeadCalls P 2 c.prk2e c.th2 ++ (aeadCalls P 3 c.prk3e2m c.th3 ++
      (aeadCalls P 4 c.prk4e3m c.th4 ++
        (expandCalls P (.mac 2) c.prk3e2m (c.th2.toList ++ c.idCredR.toList) macLen ++
          (expandCalls P (.mac 3) c.prk4e3m
          (c.th3.toList ++ (c.idCredI.toList ++ c.ead3.toList)) macLen ++
            exportCalls P c.prk4e3m c.th4 c.prkOut))))))

/-- The calls of one side from its first to its last, with what it is given and what it sends. -/
inductive Run (B : Type) where
  | initiator (start : Ctx B) (coins₁ : Msg1Coins B) (cap₁ : Nat) (msg₁ msg₂ : List B)
      (coins₃ : Msg3Coins B)
      (cap₃ : Nat) (msg₃ msg₄ : List B)
  | responder (start : Ctx B) (msg₁ : List B) (coins₂ : Msg2Coins B) (cap₂ : Nat)
      (msg₂ msg₃ : List B)
      (coins₄ : KeyCoins B) (cap₄ : Nat) (msg₄ : List B)

variable [DecidableEq B]

def Run.Completes (P : Primitives B) : Run B → Ctx B → Prop
  | .initiator start coins₁ cap₁ msg₁ msg₂ coins₃ cap₃ msg₃ msg₄, c =>
    ∃ c₁ c₂, iMakeMsg1 P coins₁ cap₁ start = (.ok msg₁, c₁) ∧
    iHandleMsg2 P msg₂ coins₃ cap₃ c₁ = (.ok msg₃, c₂) ∧
      iHandleMsg4 P msg₄ c₂ = (.ok (), c)
  | .responder start msg₁ coins₂ cap₂ msg₂ msg₃ coins₄ cap₄ msg₄, c =>
    ∃ c₁, rHandleMsg1 P msg₁ coins₂ cap₂ start = (.ok msg₂, c₁) ∧
      rHandleMsg3 P msg₃ coins₄ cap₄ c₁ = (.ok msg₄, c)

/-! ### The list is complete -/

section Replay

variable {hmac : Block B 32 → List B → Block B 32} {c : Ctx B}

omit [DecidableEq B] in
theorem agree_seal {i : Nat} {prk th : Block B 32} (agree : AgreeOn P hmac (aeadCalls P i prk th))
    (pt : List B) :
    aeadSeal { P with hmac := hmac } prk th pt = aeadSeal P prk th pt := by
  rw [aeadSeal, aeadSeal, Primitives.aeadSeal, Primitives.aeadSeal, AgreeOn.deriveKey agree]

omit [DecidableEq B] in
theorem agree_open {i : Nat} {prk th : Block B 32} (agree : AgreeOn P hmac (aeadCalls P i prk th))
    (ct : List B) (cap : Nat) :
    aeadOpen { P with hmac := hmac } ⟨prk, th, ct, cap⟩ = aeadOpen P ⟨prk, th, ct, cap⟩ := by
  rw [aeadOpen, aeadOpen, Primitives.aeadOpen, Primitives.aeadOpen, AgreeOn.deriveKey agree]

omit [DecidableEq B] in
/-- The exported keys are the same under an HMAC that agrees on their computations. -/
theorem derivePrkOutAndMsk_replay (c : Ctx B)
    (agree : AgreeOn P hmac (exportCalls P c.prk4e3m c.th4 (derivePrkOutAndMsk P c).prkOut)) :
    derivePrkOutAndMsk { P with hmac := hmac } c = derivePrkOutAndMsk P c := by
  obtain ⟨prkOut, msk, emsk⟩ := agree.exports
  simp only [derivePrkOutAndMsk] at msk emsk ⊢
  rw [prkOut, msk, emsk]

variable {c' : Ctx B} {inp out : List B} {outCap : Nat}

omit [Octet B] [DecidableEq B] in
/-- The changed primitives extract the same. -/
abbrev SameExtract (P : Primitives B) (hmac : Block B 32 → List B → Block B 32)
    (salt ikm : Block B 32) : Prop :=
  { P with hmac := hmac }.hkdfExtract salt ikm = P.hkdfExtract salt ikm

omit [DecidableEq B] in
/-- Message_1 is the same under an HMAC that agrees on its computations. -/
theorem iMakeMsg1_replay {coins : Msg1Coins B} (ok : iMakeMsg1 P coins outCap c = (.ok out, c'))
    (extract : SameExtract P hmac c'.th1 c'.ssB)
    (aead : AgreeOn P hmac (aeadCalls P 1 c'.prk1e c'.th1)) :
    iMakeMsg1 { P with hmac := hmac } coins outCap c = (.ok out, c') := by
  obtain ⟨role, eph, pair, enc, encB, ct1, sealed, room, out, rfl⟩ := iMakeMsg1_eq_ok.mp ok
  dsimp only at extract aead
  refine iMakeMsg1_eq_ok.mpr ⟨role, eph, pair, enc, encB, ct1, ?_, room, out, ?_⟩
  · rw [extract]
    exact (agree_seal aead _).trans sealed
  · rw [extract]

omit [DecidableEq B] in
/-- Message_2 opens alike under an HMAC that agrees on the extraction. -/
theorem iHandleMsg2Open_replay {call : OpenCall B} (ok : iHandleMsg2Open P inp c = (.ok call, c'))
    (extract : SameExtract P hmac c'.th2 c'.ssE) :
    iHandleMsg2Open { P with hmac := hmac } inp c = (.ok call, c') := by
  obtain ⟨role, cte, ct2, split, tag, ssE, dec, th2, hash, rfl, rfl⟩ := iHandleMsg2Open_eq_ok.mp ok
  dsimp only at extract
  refine iHandleMsg2Open_eq_ok.mpr ⟨role, cte, ct2, split, tag, ssE, dec, th2, hash, ?_, ?_⟩
  · rw [extract]
  · rw [extract]

/-- Message_2 is checked alike under an HMAC that agrees on its computations. -/
theorem iVerifyMsg2_replay {pt2 : List B} (ok : iVerifyMsg2 P pt2 c = (.ok (), c'))
    (first : SameExtract P hmac c.prk2e c.ssB) (second : SameExtract P hmac c'.prk3e2m c'.ssA)
    (mac : AgreeOn P hmac
      (expandCalls P (.mac 2) c'.prk3e2m (c.th2.toList ++ c'.peerIdCred.toList) macLen)) :
    iVerifyMsg2 { P with hmac := hmac } pt2 c = (.ok (), c') := by
  obtain ⟨p, write, prk3e2m, rfl, check, sig, ssA, dec, rfl⟩ := iVerifyMsg2_eq_ok.mp ok
  dsimp only at first second mac
  refine iVerifyMsg2_eq_ok.mpr ⟨p, write, _, first.symm, ?_, sig, ssA, dec, ?_⟩
  · rw [← check, computeMac, computeMac, List.append_nil]
    exact mac.expand
  · rw [second]

omit [DecidableEq B] in
/-- Message_3 is the same under an HMAC that agrees on its computations. -/
theorem iMakeMsg3_replay {coins : Msg3Coins B} (ok : iMakeMsg3 P coins outCap c = (.ok out, c'))
    (mac : AgreeOn P hmac (expandCalls P (.mac 3) c.prk4e3m
      (c.th3.toList ++ (c.self.idCred.toList ++ c'.newPk.toList)) macLen))
    (aead : AgreeOn P hmac (aeadCalls P 3 c.prk3e2m c.th3))
    (exports : AgreeOn P hmac (exportCalls P c.prk4e3m c'.th4 c'.prkOut)) :
    iMakeMsg3 { P with hmac := hmac } coins outCap c = (.ok out, c') := by
  obtain ⟨new, pair, mac3, rfl, sigI, signed, pt3, rfl, sealed, room, rfl⟩ := iMakeMsg3_eq_ok.mp ok
  have same : computeMac { P with hmac := hmac } c.prk4e3m c.th3 c.self.idCred new.1.toList =
      computeMac P c.prk4e3m c.th3 c.self.idCred new.1.toList := by
    rw [computeMac, computeMac, List.append_assoc]
    exact mac.expand
  refine iMakeMsg3_eq_ok.mpr
    ⟨new, pair, _, same.symm, sigI, signed, _, rfl, (agree_seal aead _).trans sealed, room, ?_⟩
  have keys := derivePrkOutAndMsk_replay { c with newPk := new.1, newSk := new.2, th4 := _ } exports
  exact congrArg (fun d : Ctx B => { d with done := false }) keys.symm

omit [DecidableEq B] in
/-- Message_4 is accepted under an HMAC that agrees on its AEAD key. -/
theorem iHandleMsg4_replay (ok : iHandleMsg4 P inp c = (.ok (), c'))
    (aead : AgreeOn P hmac (aeadCalls P 4 c.prk4e3m c.th4)) :
    iHandleMsg4 { P with hmac := hmac } inp c = (.ok (), c') := by
  obtain ⟨role, pk, dec, rfl⟩ := iHandleMsg4_eq_ok.mp ok
  exact iHandleMsg4_eq_ok.mpr ⟨role, pk, (agree_open aead _ _).trans dec, rfl⟩

omit [DecidableEq B] in
/-- Message_1 opens alike under an HMAC that agrees on the extraction. -/
theorem rHandleMsg1Open_replay {call : OpenCall B} (ok : rHandleMsg1Open P inp c = (.ok call, c'))
    (extract : SameExtract P hmac c'.th1 c'.ssB) :
    rHandleMsg1Open { P with hmac := hmac } inp c = (.ok call, c') := by
  obtain ⟨role, ctB, pkX, ct1, split, long, ssB, dec, th1, hash, rfl, rfl⟩ :=
    rHandleMsg1Open_eq_ok.mp ok
  dsimp only at extract
  refine rHandleMsg1Open_eq_ok.mpr ⟨role, ctB, pkX, ct1, split, long, ssB, dec, th1, hash, ?_, ?_⟩
  · rw [extract]
  · rw [extract]

omit [DecidableEq B] in
/-- Message_2 is the same under an HMAC that agrees on its computations. -/
theorem rMakeMsg2_replay {coins : Msg2Coins B} (ok : rMakeMsg2 P inp coins outCap c = (.ok out, c'))
    (first : SameExtract P hmac c'.th2 c'.ssE) (second : SameExtract P hmac c'.prk2e c.ssB)
    (mac : AgreeOn P hmac
      (expandCalls P (.mac 2) c'.prk3e2m (c'.th2.toList ++ c.self.idCred.toList) macLen))
    (aead : AgreeOn P hmac (aeadCalls P 2 c'.prk2e c'.th2)) :
    rMakeMsg2 { P with hmac := hmac } inp coins outCap c = (.ok out, c') := by
  obtain ⟨enc, encE, th2, hash, prk2e, rfl, encA, encaps, prk3e2m, rfl, mac2, rfl, sigR, signed,
      size, pt2, rfl, ct2,
    sealed, room, out, rfl⟩ := rMakeMsg2_eq_ok.mp ok
  dsimp only at first second mac aead
  have same :
    computeMac { P with hmac := hmac }
    (P.hkdfExtract (P.hkdfExtract th2 enc.2) c.ssB) th2 c.self.idCred [] =
      computeMac P (P.hkdfExtract (P.hkdfExtract th2 enc.2) c.ssB) th2 c.self.idCred [] := by
    rw [computeMac, computeMac, List.append_nil]
    exact mac.expand
  exact rMakeMsg2_eq_ok.mpr
    ⟨enc, encE, th2, hash, _, first.symm, encA, encaps, _, second.symm, _, same.symm, sigR, signed,
    size, _, rfl, ct2, (agree_seal aead _).trans sealed, room, out, rfl⟩

omit [Octet B] [DecidableEq B] in
/-- Message_3 opens alike under an HMAC that agrees on the extraction. -/
theorem rHandleMsg3Open_replay {call : OpenCall B} (ok : rHandleMsg3Open P inp c = (.ok call, c'))
    (extract : SameExtract P hmac c.prk3e2m c.ssA) :
    rHandleMsg3Open { P with hmac := hmac } inp c = (.ok call, c') := by
  obtain ⟨role, rfl, rfl⟩ := rHandleMsg3Open_eq_ok.mp ok
  refine rHandleMsg3Open_eq_ok.mpr ⟨role, rfl, ?_⟩
  rw [extract]

/-- Message_3 is checked alike under an HMAC that agrees on its computations. -/
theorem rVerifyMsg3_replay {pt3 : List B} (ok : rVerifyMsg3 P pt3 c = (.ok (), c'))
    (mac : AgreeOn P hmac (expandCalls P (.mac 3) c.prk4e3m
      (c.th3.toList ++ (c'.peerIdCred.toList ++ c'.peerNewPk.toList)) macLen))
    (exports : AgreeOn P hmac (exportCalls P c.prk4e3m c'.th4 c'.prkOut)) :
    rVerifyMsg3 { P with hmac := hmac } pt3 c = (.ok (), c') := by
  obtain ⟨p, write, check, sig, rfl⟩ := rVerifyMsg3_eq_ok.mp ok
  refine rVerifyMsg3_eq_ok.mpr ⟨p, write, ?_, sig, (derivePrkOutAndMsk_replay _ exports).symm⟩
  rw [← check, computeMac, computeMac, List.append_assoc]
  exact mac.expand

omit [DecidableEq B] in
/-- Message_4 is the same under an HMAC that agrees on its AEAD key. -/
theorem rMakeMsg4_replay {coins : KeyCoins B} (ok : rMakeMsg4 P coins outCap c = (.ok out, c'))
    (aead : AgreeOn P hmac (aeadCalls P 4 c.prk4e3m c.th4)) :
    rMakeMsg4 { P with hmac := hmac } coins outCap c = (.ok out, c') := by
  obtain ⟨new, pair, sealed, room, rfl⟩ := rMakeMsg4_eq_ok.mp ok
  exact rMakeMsg4_eq_ok.mpr ⟨new, pair, (agree_seal aead _).trans sealed, room, rfl⟩

/-- A run does not notice if HMAC is changed anywhere else. -/
theorem Run.Completes.replay {run : Run B} (completes : run.Completes P c)
    (agree : AgreeOn P hmac (hmacCalls P c)) :
    run.Completes { P with hmac := hmac } c := by
  obtain ⟨extracts, rest⟩ := agree.append
  obtain ⟨aead1, rest⟩ := rest.append
  obtain ⟨aead2, rest⟩ := rest.append
  obtain ⟨aead3, rest⟩ := rest.append
  obtain ⟨aead4, rest⟩ := rest.append
  obtain ⟨mac2, rest⟩ := rest.append
  obtain ⟨mac3, exports⟩ := rest.append
  have extract1 : SameExtract P hmac c.th1 c.ssB := extracts (extractCall c.th1 c.ssB) (by simp)
  have extract2 : SameExtract P hmac c.th2 c.ssE := extracts (extractCall c.th2 c.ssE) (by simp)
  have extract3 : SameExtract P hmac c.prk2e c.ssB := extracts (extractCall c.prk2e c.ssB) (by simp)
  have extract4 : SameExtract P hmac c.prk3e2m c.ssA :=
    extracts (extractCall c.prk3e2m c.ssA) (by simp)
  cases run with
  | initiator start coins₁ cap₁ msg₁ msg₂ coins₃ cap₃ msg₃ msg₄ =>
    obtain ⟨c₁, c₂, made1, handled2, handled4⟩ := completes
    obtain ⟨call, c₃, opened, pt2, dec2, c₄, verified, made3⟩ := iHandleMsg2_eq_ok.mp handled2
    obtain ⟨role, _, _, _, _, _, _, _, _, rfl⟩ := iMakeMsg1_eq_ok.mp made1
    obtain ⟨_, _, _, _, _, _, _, _, _, rfl, rfl⟩ := iHandleMsg2Open_eq_ok.mp opened
    obtain ⟨_, _, _, rfl, _, _, _, _, rfl⟩ := iVerifyMsg2_eq_ok.mp verified
    obtain ⟨_, _, _, rfl, _, _, _, rfl, _, _, rfl⟩ := iMakeMsg3_eq_ok.mp made3
    obtain ⟨_, _, _, rfl⟩ := iHandleMsg4_eq_ok.mp handled4
    simp only [Ctx.idCredR, Ctx.idCredI, Ctx.ead3, derivePrkOutAndMsk, role] at mac2 mac3
    refine ⟨_, _, iMakeMsg1_replay made1 extract1 aead1, iHandleMsg2_eq_ok.mpr ⟨_, _,
      iHandleMsg2Open_replay opened extract2, pt2, (agree_open aead2 _ _).trans dec2, _,
      iVerifyMsg2_replay verified extract3 extract4 mac2,
      iMakeMsg3_replay made3 mac3 aead3 exports⟩,
      iHandleMsg4_replay handled4 aead4⟩
  | responder start msg₁ coins₂ cap₂ msg₂ msg₃ coins₄ cap₄ msg₄ =>
    obtain ⟨c₁, handled1, handled3⟩ := completes
    obtain ⟨call, c₂, opened, pt1, dec1, head, made2⟩ := rHandleMsg1_eq_ok.mp handled1
    obtain ⟨call3, c₃, opened3, pt3, dec3, c₄, verified, made4⟩ := rHandleMsg3_eq_ok.mp handled3
    obtain ⟨role, _, _, _, _, _, _, _, _, _, rfl, rfl⟩ := rHandleMsg1Open_eq_ok.mp opened
    obtain ⟨_, _, _, _, _, rfl, _, _, _, rfl, _, rfl, _, _, _, _, rfl, _, _, _, _, rfl⟩ :=
      rMakeMsg2_eq_ok.mp made2
    obtain ⟨_, rfl, rfl⟩ := rHandleMsg3Open_eq_ok.mp opened3
    obtain ⟨_, _, _, _, rfl⟩ := rVerifyMsg3_eq_ok.mp verified
    obtain ⟨_, _, _, _, rfl⟩ := rMakeMsg4_eq_ok.mp made4
    simp only [Ctx.idCredR, Ctx.idCredI, Ctx.ead3, derivePrkOutAndMsk, role] at mac2 mac3
    refine ⟨_, rHandleMsg1_eq_ok.mpr ⟨_, _, rHandleMsg1Open_replay opened extract1, pt1,
      (agree_open aead1 _ _).trans dec1, head, rMakeMsg2_replay made2 extract2 extract3 mac2 aead2⟩,
      rHandleMsg3_eq_ok.mpr
      ⟨_, _, rHandleMsg3Open_replay opened3 extract4, pt3, (agree_open aead3 _ _).trans dec3, _,
        rVerifyMsg3_replay verified mac3 exports, rMakeMsg4_replay made4 aead4⟩⟩

end Replay

/-! ### Separation -/

section Separation

variable {c c' : Ctx B}

/-- What the transcript hashes of a context are the hashes of. -/
structure HashedTranscript (P : Primitives B) (c : Ctx B) where
  ctB : Block B xwingCt
  hMsg1 : Block B 32
  cte : Block B xwingCt
  cR : Block B 1
  pt2 : List B
  pt3 : List B
  th1 : c.th1 = P.sha256 (c.ephPk.toList ++ ctB.toList)
  th2 : c.th2 = P.sha256 (hMsg1.toList ++ (cte.toList ++ cR.toList))
  th3 : c.th3 = P.sha256 (c.th2.toList ++ pt2)
  th4 : c.th4 = P.sha256 (c.th3.toList ++ pt3)
  size2 : pt2.length = pt2Len
  size3 : pt3.length = pt3Len

def HashedTranscript.input (t : HashedTranscript P c) : Nat → List B
  | 1 => c.ephPk.toList ++ t.ctB.toList
  | 2 => t.hMsg1.toList ++ (t.cte.toList ++ t.cR.toList)
  | 3 => c.th2.toList ++ t.pt2
  | _ => c.th3.toList ++ t.pt3

def HashedTranscript.inputs (t : HashedTranscript P c) : List (List B) := [1, 2, 3, 4].map t.input

/-- The transcript hashes of a completed run are hashes of its messages and plaintexts. -/
theorem Run.Completes.transcript {run : Run B} (completes : run.Completes P c) :
    Nonempty (HashedTranscript P c) := by
  cases run with
  | initiator start coins₁ cap₁ msg₁ msg₂ coins₃ cap₃ msg₃ msg₄ =>
    obtain ⟨c₁, c₂, made1, handled2, handled4⟩ := completes
    obtain ⟨call, c₃, opened, pt2, -, c₄, verified, made3⟩ := iHandleMsg2_eq_ok.mp handled2
    obtain ⟨-, eph, -, enc, -, ct1, -, -, -, rfl⟩ := iMakeMsg1_eq_ok.mp made1
    obtain ⟨-, cte, ct2, -, -, ssE, -, th2, rfl, rfl, rfl⟩ := iHandleMsg2Open_eq_ok.mp opened
    obtain ⟨p, rfl, prk3e2m, rfl, -, -, ssA, -, rfl⟩ := iVerifyMsg2_eq_ok.mp verified
    obtain ⟨new, -, mac3, rfl, sigI, -, pt3, rfl, -, -, rfl⟩ := iMakeMsg3_eq_ok.mp made3
    obtain ⟨-, pk, -, rfl⟩ := iHandleMsg4_eq_ok.mp handled4
    exact ⟨⟨enc.1, _, cte, _, _, _, rfl, rfl, rfl, rfl, p.length_write, Pt3.length_write _⟩⟩
  | responder start msg₁ coins₂ cap₂ msg₂ msg₃ coins₄ cap₄ msg₄ =>
    obtain ⟨c₁, handled1, handled3⟩ := completes
    obtain ⟨call, c₂, opened, pt1, -, -, made2⟩ := rHandleMsg1_eq_ok.mp handled1
    obtain ⟨call3, c₃, opened3, pt3, -, c₄, verified, made4⟩ := rHandleMsg3_eq_ok.mp handled3
    obtain ⟨-, ctB, pkX, ct1, -, -, ssB, -, th1, rfl, rfl, rfl⟩ := rHandleMsg1Open_eq_ok.mp opened
    obtain ⟨enc, -, th2, rfl, prk2e, rfl, encA, -, prk3e2m, rfl, mac2, rfl, sigR, -, -, pt2, rfl,
        ct2, -, -, -, rfl⟩ :=
      rMakeMsg2_eq_ok.mp made2
    obtain ⟨-, rfl, rfl⟩ := rHandleMsg3Open_eq_ok.mp opened3
    obtain ⟨p, rfl, -, -, rfl⟩ := rVerifyMsg3_eq_ok.mp verified
    obtain ⟨new, -, -, -, rfl⟩ := rMakeMsg4_eq_ok.mp made4
    exact ⟨⟨ctB, _, enc.1, _, _, _, rfl, rfl, rfl, rfl, Pt2.length_write _, p.length_write⟩⟩

/-- The transcript hash of the AEAD key and the MAC of a message. -/
def Ctx.th (c : Ctx B) : Nat → Block B 32
  | 1 => c.th1
  | 2 => c.th2
  | 3 => c.th3
  | _ => c.th4

/-- The sizes of the inputs for MAC_2 and MAC_3. -/
def macSize (message : Nat) : Nat := if message = 2 then 36 else 1252

omit [DecidableEq B] in
theorem shaped_hmacCalls (c : Ctx B) : ∀ x ∈ hmacCalls P c, Shaped [1, 2, 3, 4] c.th macSize x := by
  have aead {i : Nat} {prk : Block B 32} (inside : i ∈ [1, 2, 3, 4]) :
      ∀ x ∈ aeadCalls P i prk (c.th i), Shaped [1, 2, 3, 4] c.th macSize x :=
    fun x mem => shaped_aead "E4KEY" (by decide) inside mem
  intro x mem
  rcases List.mem_append.mp mem with mem | mem
  · simp only [List.mem_cons, List.not_mem_nil, or_false] at mem
    rcases mem with rfl | rfl | rfl | rfl <;> exact shaped_extract
  rcases List.mem_append.mp mem with mem | mem
  · exact aead (i := 1) (by decide) x mem
  rcases List.mem_append.mp mem with mem | mem
  · exact aead (i := 2) (by decide) x mem
  rcases List.mem_append.mp mem with mem | mem
  · exact aead (i := 3) (by decide) x mem
  rcases List.mem_append.mp mem with mem | mem
  · exact aead (i := 4) (by decide) x mem
  rcases List.mem_append.mp mem with mem | mem
  · have size : 33 + c.idCredR.toList.length = macSize 2 := by
      rw [c.idCredR.toList_length]
      rfl
    exact shaped_mac (i := 2) (by decide) size mem
  rcases List.mem_append.mp mem with mem | mem
  · have size : 33 + (c.idCredI.toList ++ c.ead3.toList).length = macSize 3 := by
      rw [List.length_append, c.idCredI.toList_length, c.ead3.toList_length]
      rfl
    exact shaped_mac (i := 3) (by decide) size mem
  · exact shaped_export mem

/-- The lengths of the inputs of SHA-256 in TH_1 to TH_4. -/
def inputSize : Nat → Nat
  | 1 => xwingPk + xwingCt
  | 2 => 32 + (xwingCt + 1)
  | 3 => 32 + pt2Len
  | _ => 32 + pt3Len

omit [Octet B] [DecidableEq B] in
theorem HashedTranscript.length_input (t : HashedTranscript P c) (i : Nat) :
    (t.input i).length = inputSize i := by
  unfold input inputSize
  split <;> simp only [List.length_append, List.Vector.toList_length, t.size2, t.size3]

omit [Octet B] [DecidableEq B] in
theorem HashedTranscript.th_eq (t : HashedTranscript P c) (i : Nat) :
    c.th i = P.sha256 (t.input i) := by
  unfold input Ctx.th
  split
  · exact t.th1
  · exact t.th2
  · exact t.th3
  · exact t.th4

omit [DecidableEq B] in
/-- Without collisions among the transcripts, computations for different purposes have different
inputs. -/
theorem HashedTranscript.separated (t : HashedTranscript P c) (t' : HashedTranscript P c')
    (injective : Set.InjOn P.sha256 { x | x ∈ t.inputs ++ t'.inputs }) :
    Separated (hmacCalls P c) (hmacCalls P c') := by
  refine separated_of_shaped (shaped_hmacCalls c) (shaped_hmacCalls c') (by decide) ?_
  intro i inside j inside' other same
  have sizes : ∀ i ∈ [1, 2, 3, 4], ∀ j ∈ [1, 2, 3, 4], i ≠ j → inputSize i ≠ inputSize j := by
    decide
  refine sizes i inside j inside' other ?_
  rw [t.th_eq, t'.th_eq] at same
  have mem : t.input i ∈ t.inputs ++ t'.inputs :=
    List.mem_append_left _ (List.mem_map_of_mem inside)
  have mem' : t'.input j ∈ t.inputs ++ t'.inputs :=
    List.mem_append_right _ (List.mem_map_of_mem inside')
  rw [← t.length_input, ← t'.length_input, injective mem mem' same]

end Separation

/-! ### The two sides of an exchange -/

theorem Exchange.initiator_completes {I R : Creds B} {coins : RunCoins B}
    (x : Exchange P I R coins) :
    Run.Completes P (.initiator
      (initInitiator I R.kemPk) coins.msg1 maxMsg x.m1 x.m2 coins.msg3 maxMsg x.m3 x.m4) x.i₃ :=
  ⟨x.i₁, x.i₂, x.makeMsg1, x.handleMsg2, x.handleMsg4⟩

theorem Exchange.responder_completes {I R : Creds B} {coins : RunCoins B}
    (x : Exchange P I R coins) :
    Run.Completes P (.responder
      (initResponder R I.kemPk) x.m1 coins.msg2 maxMsg x.m2 x.m3 coins.msg4 maxMsg x.m4) x.r₂ :=
  ⟨x.r₁, x.handleMsg1, x.handleMsg3⟩

end EdhocAuth.Edhoc4
