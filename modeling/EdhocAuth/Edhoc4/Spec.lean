/-
What a successful call of each method-4 handler went through.

Every lemma `…_eq_ok` is an equivalence: the call returned OK with this output
and this context exactly when its checks passed, in the source's order, and the
context is the old one with the listed fields assigned. Honest runs use these
lemmas from right to left and every security argument uses them from left to
right, so no later proof unfolds a handler. The lemmas `…_frame` are about every
call, successful or not: they list the fields a handler may assign.
-/

import EdhocAuth.Edhoc4.Core

namespace EdhocAuth.Edhoc4

open Proc Primitives

variable {B : Type} [Octet B]

/-! ### Layouts -/

@[simp] theorem Pt2.read_write (p : Pt2 B) : Pt2.read p.write = p := by
  simp only [Pt2.read, Pt2.write, readBlock, Block.drop_toList_append,
    Block.read_toList_append, Block.read_toList]

omit [Octet B] in
@[simp] theorem Pt2.length_write (p : Pt2 B) : p.write.length = pt2Len := by
  simp only [Pt2.write, List.length_append, List.Vector.toList_length]
  rfl

/-- A buffer of exactly this size is the plaintext that is read from it. -/
theorem Pt2.write_read {buf : List B} (exact : buf.length = pt2Len) :
    (Pt2.read buf).write = buf := by
  simp only [Pt2.read, Pt2.write, readBlock, List.drop_drop]
  apply Block.read_append_of_eq_drop _ (by rw [exact]; decide)
  apply Block.read_drop_append _ (by rw [exact]; decide)
  apply Block.read_drop_append _ (by rw [exact]; decide)
  apply Block.read_drop_append _ (by rw [exact]; decide)
  apply Block.read_drop_append _ (by rw [exact]; decide)
  exact Block.toList_read _ (by rw [List.length_drop, exact]; rfl)

@[simp] theorem Pt3.read_write (p : Pt3 B) : Pt3.read p.write = p := by
  simp only [Pt3.read, Pt3.write, readBlock, Block.drop_toList_append,
    Block.read_toList_append, Block.read_toList]

omit [Octet B] in
@[simp] theorem Pt3.length_write (p : Pt3 B) : p.write.length = pt3Len := by
  simp only [Pt3.write, List.length_append, List.Vector.toList_length]
  rfl

theorem Pt3.write_read {buf : List B} (exact : buf.length = pt3Len) :
    (Pt3.read buf).write = buf := by
  simp only [Pt3.read, Pt3.write, readBlock, List.drop_drop]
  apply Block.read_append_of_eq_drop _ (by rw [exact]; decide)
  apply Block.read_drop_append _ (by rw [exact]; decide)
  apply Block.read_drop_append _ (by rw [exact]; decide)
  apply Block.read_drop_append _ (by rw [exact]; decide)
  exact Block.toList_read _ (by rw [List.length_drop, exact]; rfl)

/-! ### Files -/

/-- What was saved is loaded. -/
theorem credsLoad_credsSave (c : Creds B) : credsLoad (some (credsSave c)) = .ok c := by
  have long : ¬ (credsSave c).length < xwingSk + xwingPk + mldsaSk + mldsaPk + idCredLen := by
    simp only [credsSave, List.length_append, List.Vector.toList_length]
    omega
  rw [credsLoad, if_neg long]
  simp only [credsSave, readBlock, Block.drop_toList_append, Block.read_toList_append,
    Block.read_toList]

/-- The public file has the static key. -/
theorem pubLoad_pubSave (c : Creds B) : pubLoad (some (pubSave c)) = .ok c.kemPk := by
  have long : ¬ (pubSave c).length < xwingPk := by
    rw [pubSave, List.Vector.toList_length]
    exact lt_irrefl _
  rw [pubLoad, if_neg long, pubSave, readBlock, Block.read_toList]

variable {P : Primitives B} {c c' : Ctx B} {inp out : List B} {outCap : Nat}

/-! ### The initiator's message_1 -/

theorem iMakeMsg1_eq_ok {coins : Msg1Coins B} :
    iMakeMsg1 P coins outCap c = (.ok out, c') ↔
      c.role = .initiator ∧
      ∃ eph, xwingKeypair P coins.eph = some eph ∧
      ∃ enc, xwingEncaps P coins.encB c.peerKemPk = some enc ∧
      ∃ ct1, aeadSeal P (P.hkdfExtract (P.sha256 (eph.1.toList ++ enc.1.toList)) enc.2)
          (P.sha256 (eph.1.toList ++ enc.1.toList)) (Octet.ofByte 0x04 :: c.cI.toList) = some ct1 ∧
        xwingCt + xwingPk + ct1.length ≤ outCap ∧
        out = enc.1.toList ++ (eph.1.toList ++ ct1) ∧
        c' = { c with
          ephPk := eph.1, ephSk := eph.2, ssB := enc.2
          th1 := P.sha256 (eph.1.toList ++ enc.1.toList)
          prk1e := P.hkdfExtract (P.sha256 (eph.1.toList ++ enc.1.toList)) enc.2
          hMsg1 := P.sha256 (enc.1.toList ++ (eph.1.toList ++ ct1)) } := by
  simp only [iMakeMsg1, bind_eq_ok, load_eq_ok, require_eq_ok, demand_eq_ok, store_eq_ok,
    pure_eq_ok, and_assoc, exists_and_left, exists_eq_left, exists_const]

/-! ### The responder's message_1 handler -/

/-- What a message_1 consists of that comes to the AEAD, and what it leaves. -/
theorem rHandleMsg1Open_eq_ok {call : OpenCall B} :
    rHandleMsg1Open P inp c = (.ok call, c') ↔
      c.role = .responder ∧
      ∃ (ctB : Block B xwingCt) (pkX : Block B xwingPk) (ct1 : List B),
        inp = ctB.toList ++ (pkX.toList ++ ct1) ∧ 2 + aeadTag ≤ ct1.length ∧
      ∃ ssB, xwingDecaps P ctB c.self.kemSk = some ssB ∧
      ∃ th1, th1 = P.sha256 (pkX.toList ++ ctB.toList) ∧
        call = { prk := P.hkdfExtract th1 ssB, th := th1, ct := ct1, cap := 64 } ∧
        c' = { c with
          ephPk := pkX, ssB := ssB, th1 := th1, prk1e := P.hkdfExtract th1 ssB } := by
  simp only [rHandleMsg1Open, bind_eq_ok, load_eq_ok, require_eq_ok, demand_eq_ok, store_eq_ok,
    pure_eq_ok, and_assoc, exists_and_left, exists_eq_left, exists_const]
  refine and_congr_right fun _ => ?_
  constructor
  · rintro ⟨long, h⟩
    refine ⟨_, _, _, ?_, ?_, h⟩
    · refine (Block.read_append_of_eq_drop _ (by omega) ?_).symm
      exact Block.read_append_of_eq_drop _ (by simp; omega) List.drop_drop.symm
    · simp only [List.length_drop]
      omega
  · rintro ⟨ctB, pkX, ct1, rfl, long, h⟩
    have rest : (ctB.toList ++ (pkX.toList ++ ct1)).drop (xwingCt + xwingPk) = ct1 := by
      rw [← List.drop_drop, Block.drop_toList_append, Block.drop_toList_append]
    refine ⟨by simp only [List.length_append, List.Vector.toList_length]; omega, ?_⟩
    simpa only [readBlock, rest, Block.drop_toList_append, Block.read_toList_append] using h

theorem rMakeMsg2_eq_ok {coins : Msg2Coins B} :
    rMakeMsg2 P inp coins outCap c = (.ok out, c') ↔
      ∃ enc, xwingEncaps P coins.encE c.ephPk = some enc ∧
      ∃ th2, th2 = P.sha256 ((P.sha256 inp).toList ++ (enc.1.toList ++ c.cR.toList)) ∧
      ∃ prk2e, prk2e = P.hkdfExtract th2 enc.2 ∧
      ∃ encA, xwingEncaps P coins.encA c.peerKemPk = some encA ∧
      ∃ prk3e2m, prk3e2m = P.hkdfExtract prk2e c.ssB ∧
      ∃ mac2, mac2 = computeMac P prk3e2m th2 c.self.idCred [] ∧
      ∃ sigR, P.mldsaSign (sigMessage th2 c.self.idCred mac2) c.self.sigSk coins.sig = some sigR ∧
        sigR.2 = mldsaSig ∧
      ∃ pt2, pt2 = Pt2.write ⟨encA.1, c.cR, c.self.idCred, c.self.sigVk, mac2, sigR.1⟩ ∧
      ∃ ct2, aeadSeal P prk2e th2 pt2 = some ct2 ∧
        xwingCt + ct2.length ≤ outCap ∧
        out = enc.1.toList ++ ct2 ∧
        c' = { c with
          ssE := enc.2, th2 := th2, prk2e := prk2e, ctA := encA.1, ssA := encA.2
          prk3e2m := prk3e2m, th3 := P.sha256 (th2.toList ++ pt2) } := by
  simp only [rMakeMsg2, bind_eq_ok, load_eq_ok, require_eq_ok, demand_eq_ok, store_eq_ok,
    pure_eq_ok, and_assoc, exists_and_left, exists_eq_left, exists_const]

/-- A message_1 that is accepted opens, has the method and C_I, and is answered. -/
theorem rHandleMsg1_eq_ok [DecidableEq B] {coins : Msg2Coins B} :
    rHandleMsg1 P inp coins outCap c = (.ok out, c') ↔
      ∃ call c₁, rHandleMsg1Open P inp c = (.ok call, c₁) ∧
      ∃ pt1, aeadOpen P call = some pt1 ∧
        (2 ≤ pt1.length ∧ pt1.head? = some (Octet.ofByte 0x04)) ∧
        rMakeMsg2 P inp coins outCap { c₁ with cI := readBlock 1 (pt1.drop 1) } =
          (.ok out, c') := by
  simp only [rHandleMsg1, bind_eq_ok, require_eq_ok, demand_eq_ok, store_eq_ok,
    and_assoc, exists_and_left, exists_eq_left, exists_const]

/-! ### The initiator's message_2 handler -/

theorem iHandleMsg2Open_eq_ok {call : OpenCall B} :
    iHandleMsg2Open P inp c = (.ok call, c') ↔
      c.role = .initiator ∧
      ∃ (cte : Block B xwingCt) (ct2 : List B),
        inp = cte.toList ++ ct2 ∧ aeadTag ≤ ct2.length ∧
      ∃ ssE, xwingDecaps P cte c.ephSk = some ssE ∧
      ∃ th2, th2 = P.sha256 (c.hMsg1.toList ++ (cte.toList ++ (octet 0x20 : Block B 1).toList)) ∧
        call = { prk := P.hkdfExtract th2 ssE, th := th2, ct := ct2, cap := pt2Len + 16 } ∧
        c' = { c with
          ssE := ssE, cR := octet 0x20, th2 := th2, prk2e := P.hkdfExtract th2 ssE } := by
  simp only [iHandleMsg2Open, bind_eq_ok, load_eq_ok, require_eq_ok, demand_eq_ok, store_eq_ok,
    pure_eq_ok, and_assoc, exists_and_left, exists_eq_left, exists_const]
  refine and_congr_right fun _ => ?_
  constructor
  · rintro ⟨long, h⟩
    refine ⟨_, _, (Block.read_append_of_eq_drop _ (by omega) rfl).symm, ?_, h⟩
    simp only [List.length_drop]
    omega
  · rintro ⟨cte, ct2, rfl, long, h⟩
    refine ⟨by simp only [List.length_append, List.Vector.toList_length]; omega, ?_⟩
    simpa only [readBlock, Block.drop_toList_append, Block.read_toList_append] using h

/-- What the check of message_2 compares, and what it leaves. -/
theorem iVerifyMsg2_eq_ok [DecidableEq B] {pt2 : List B} {u : Unit} :
    iVerifyMsg2 P pt2 c = (.ok u, c') ↔
      ∃ p : Pt2 B, pt2 = p.write ∧
      ∃ prk3e2m, prk3e2m = P.hkdfExtract c.prk2e c.ssB ∧
        computeMac P prk3e2m c.th2 p.idCred [] = p.mac ∧
        P.mldsaVerify p.sig (sigMessage c.th2 p.idCred p.mac) p.sigVk = true ∧
      ∃ ssA, xwingDecaps P p.ctA c.self.kemSk = some ssA ∧
        c' = { c with
          ctA := p.ctA, cR := p.cR, peerIdCred := p.idCred, peerSigVk := p.sigVk
          prk3e2m := prk3e2m, th3 := P.sha256 (c.th2.toList ++ pt2)
          ssA := ssA, prk4e3m := P.hkdfExtract prk3e2m ssA } := by
  simp only [iVerifyMsg2, bind_eq_ok, load_eq_ok, require_eq_ok, demand_eq_ok, store_eq_ok,
    and_assoc, exists_and_left, exists_eq_left, exists_const]
  constructor
  · rintro ⟨exact, mac, rest⟩
    rw [mac] at rest
    exact ⟨Pt2.read pt2, (Pt2.write_read exact).symm, mac, rest⟩
  · rintro ⟨p, rfl, mac, rest⟩
    rw [Pt2.read_write, mac]
    exact ⟨p.length_write, rfl, rest⟩

theorem iMakeMsg3_eq_ok {coins : Msg3Coins B} :
    iMakeMsg3 P coins outCap c = (.ok out, c') ↔
      ∃ new, xwingKeypair P coins.new = some new ∧
      ∃ mac3, mac3 = computeMac P c.prk4e3m c.th3 c.self.idCred new.1.toList ∧
      ∃ sigI, P.mldsaSign (sigMessage c.th3 c.self.idCred mac3) c.self.sigSk coins.sig = some sigI ∧
      ∃ pt3, pt3 = Pt3.write ⟨c.self.idCred, new.1, mac3, c.self.sigVk, sigI.1⟩ ∧
        aeadSeal P c.prk3e2m c.th3 pt3 = some out ∧
        out.length ≤ outCap ∧
        c' = { derivePrkOutAndMsk P { c with
          newPk := new.1, newSk := new.2, th4 := P.sha256 (c.th3.toList ++ pt3) } with
            done := false } := by
  simp only [iMakeMsg3, bind_eq_ok, load_eq_ok, require_eq_ok, demand_eq_ok, store_eq_ok,
    pure_eq_ok, and_assoc, exists_and_left, exists_eq_left, exists_const]
  constructor
  · rintro ⟨new, hnew, sigI, hsig, ct3, hseal, hcap, rfl, rfl⟩
    exact ⟨new, hnew, sigI, hsig, hseal, hcap, rfl⟩
  · rintro ⟨new, hnew, sigI, hsig, hseal, hcap, rfl⟩
    exact ⟨new, hnew, sigI, hsig, out, hseal, hcap, rfl, rfl⟩

/-- A message_2 that is accepted opens, passes the check and is answered. -/
theorem iHandleMsg2_eq_ok [DecidableEq B] {coins : Msg3Coins B} :
    iHandleMsg2 P inp coins outCap c = (.ok out, c') ↔
      ∃ call c₁, iHandleMsg2Open P inp c = (.ok call, c₁) ∧
      ∃ pt2, aeadOpen P call = some pt2 ∧
      ∃ c₂, iVerifyMsg2 P pt2 c₁ = (.ok (), c₂) ∧
        iMakeMsg3 P coins outCap c₂ = (.ok out, c') := by
  simp only [iHandleMsg2, bind_eq_ok, demand_eq_ok, and_assoc, exists_and_left, exists_eq_left,
    Unique.exists_iff, PUnit.default_eq_unit]

/-! ### The responder's message_3 handler -/

omit [Octet B] in
/-- What a message_3 consists of that comes to the AEAD, and what it leaves. -/
theorem rHandleMsg3Open_eq_ok {call : OpenCall B} :
    rHandleMsg3Open P inp c = (.ok call, c') ↔
      c.role = .responder ∧
        call = { prk := c.prk3e2m, th := c.th3, ct := inp, cap := pt3Len + 16 } ∧
        c' = { c with prk4e3m := P.hkdfExtract c.prk3e2m c.ssA } := by
  simp only [rHandleMsg3Open, bind_eq_ok, load_eq_ok, require_eq_ok, store_eq_ok,
    pure_eq_ok, and_assoc, exists_and_left, exists_eq_left, exists_const]

/-- What the check of message_3 compares, and what it leaves. -/
theorem rVerifyMsg3_eq_ok [DecidableEq B] {pt3 : List B} {u : Unit} :
    rVerifyMsg3 P pt3 c = (.ok u, c') ↔
      ∃ p : Pt3 B, pt3 = p.write ∧
        computeMac P c.prk4e3m c.th3 p.idCred p.ead.toList = p.mac ∧
        P.mldsaVerify p.sig (sigMessage c.th3 p.idCred p.mac) p.sigVk = true ∧
        c' = derivePrkOutAndMsk P { c with
          peerIdCred := p.idCred, peerNewPk := p.ead, peerSigVk := p.sigVk
          th4 := P.sha256 (c.th3.toList ++ pt3) } := by
  simp only [rVerifyMsg3, bind_eq_ok, load_eq_ok, require_eq_ok, store_eq_ok,
    and_assoc, exists_and_left, exists_eq_left, exists_const]
  constructor
  · rintro ⟨exact, mac, rest⟩
    rw [mac] at rest
    exact ⟨Pt3.read pt3, (Pt3.write_read exact).symm, mac, rest⟩
  · rintro ⟨p, rfl, mac, rest⟩
    rw [Pt3.read_write, mac]
    exact ⟨p.length_write, rfl, rest⟩

/-- What message_4 consists of, and what it leaves. -/
theorem rMakeMsg4_eq_ok {coins : KeyCoins B} :
    rMakeMsg4 P coins outCap c = (.ok out, c') ↔
      ∃ new, xwingKeypair P coins = some new ∧
        aeadSeal P c.prk4e3m c.th4 new.1.toList = some out ∧
        out.length ≤ outCap ∧
        c' = { c with newPk := new.1, newSk := new.2 } := by
  simp only [rMakeMsg4, bind_eq_ok, load_eq_ok, require_eq_ok, demand_eq_ok, store_eq_ok,
    pure_eq_ok, and_assoc, exists_and_left, exists_eq_left, exists_const]
  constructor
  · rintro ⟨new, hnew, ct4, hseal, hcap, rfl, rfl⟩
    exact ⟨new, hnew, hseal, hcap, rfl⟩
  · rintro ⟨new, hnew, hseal, hcap, rfl⟩
    exact ⟨new, hnew, out, hseal, hcap, rfl, rfl⟩

/-- A message_3 that is accepted opens, passes the check and is answered. -/
theorem rHandleMsg3_eq_ok [DecidableEq B] {coins : KeyCoins B} :
    rHandleMsg3 P inp coins outCap c = (.ok out, c') ↔
      ∃ call c₁, rHandleMsg3Open P inp c = (.ok call, c₁) ∧
      ∃ pt3, aeadOpen P call = some pt3 ∧
      ∃ c₂, rVerifyMsg3 P pt3 c₁ = (.ok (), c₂) ∧
        rMakeMsg4 P coins outCap c₂ = (.ok out, c') := by
  simp only [rHandleMsg3, bind_eq_ok, demand_eq_ok, and_assoc, exists_and_left, exists_eq_left,
    Unique.exists_iff, PUnit.default_eq_unit]

/-! ### The initiator's message_4 handler -/

omit [Octet B] in
theorem iHandleMsg4Open_eq_ok {call : OpenCall B} :
    iHandleMsg4Open inp c = (.ok call, c') ↔
      c.role = .initiator ∧
        call = { prk := c.prk4e3m, th := c.th4, ct := inp, cap := xwingPk + 16 } ∧ c' = c := by
  simp only [iHandleMsg4Open, bind_eq_ok, load_eq_ok, require_eq_ok, pure_eq_ok, and_assoc,
    exists_and_left, exists_eq_left, exists_const]

/-- A message_4 that is accepted holds the new key of the responder, and sets `done`. -/
theorem iHandleMsg4_eq_ok {u : Unit} :
    iHandleMsg4 P inp c = (.ok u, c') ↔
      c.role = .initiator ∧
      ∃ pk : Block B xwingPk,
        aeadOpen P { prk := c.prk4e3m, th := c.th4, ct := inp, cap := xwingPk + 16 } =
          some pk.toList ∧
        c' = { c with peerNewPk := pk, done := true } := by
  simp only [iHandleMsg4, iHandleMsg4Open_eq_ok, bind_eq_ok, require_eq_ok, demand_eq_ok,
    store_eq_ok, and_assoc, exists_and_left, exists_eq_left, exists_const]
  refine and_congr_right fun _ => ?_
  constructor
  · rintro ⟨pt4, opened, exact, rfl⟩
    exact ⟨readBlock _ pt4, by rw [readBlock, Block.toList_read _ exact, opened], rfl⟩
  · rintro ⟨pk, opened, rfl⟩
    exact ⟨_, opened, pk.toList_length, by rw [readBlock, Block.read_toList]⟩

/-! ### What a call leaves alone -/

theorem iMakeMsg1_frame (coins : Msg1Coins B) (outCap : Nat) :
    Keeps (fun c => { c with
      ephPk := zeros _, ephSk := zeros _, ssB := zeros _, th1 := zeros _, prk1e := zeros _
      hMsg1 := zeros _ }) (iMakeMsg1 P coins outCap) := by
  unfold iMakeMsg1
  repeat' first
    | refine Keeps.bind ?_ fun _ => ?_
    | exact Keeps.store fun _ => rfl
    | simp only [Keeps.load, Keeps.require, Keeps.demand, Keeps.pure]

variable [DecidableEq B]

theorem rHandleMsg1_frame (inp : List B) (coins : Msg2Coins B) (outCap : Nat) :
    Keeps (fun c => { c with
      ephPk := zeros _, ssB := zeros _, th1 := zeros _, prk1e := zeros _, cI := zeros _
      ssE := zeros _, th2 := zeros _, prk2e := zeros _, ctA := zeros _, ssA := zeros _
      prk3e2m := zeros _, th3 := zeros _ }) (rHandleMsg1 P inp coins outCap) := by
  unfold rHandleMsg1 rHandleMsg1Open rMakeMsg2
  repeat' first
    | refine Keeps.bind ?_ fun _ => ?_
    | exact Keeps.store fun _ => rfl
    | simp only [Keeps.load, Keeps.require, Keeps.demand, Keeps.pure]

theorem iHandleMsg2_frame (inp : List B) (coins : Msg3Coins B) (outCap : Nat) :
    Keeps (fun c => { c with
      ssE := zeros _, cR := zeros _, th2 := zeros _, prk2e := zeros _, ctA := zeros _
      peerIdCred := zeros _, peerSigVk := zeros _, prk3e2m := zeros _, th3 := zeros _
      ssA := zeros _, prk4e3m := zeros _, newPk := zeros _, newSk := zeros _, th4 := zeros _
      prkOut := zeros _, msk := zeros _, emsk := zeros _, done := false })
      (iHandleMsg2 P inp coins outCap) := by
  unfold iHandleMsg2 iHandleMsg2Open iVerifyMsg2 iMakeMsg3
  repeat' first
    | refine Keeps.bind ?_ fun _ => ?_
    | exact Keeps.store fun _ => rfl
    | simp only [Keeps.load, Keeps.require, Keeps.demand, Keeps.pure]

theorem rHandleMsg3_frame (inp : List B) (coins : KeyCoins B) (outCap : Nat) :
    Keeps (fun c => { c with
      prk4e3m := zeros _, peerIdCred := zeros _, peerNewPk := zeros _, peerSigVk := zeros _
      th4 := zeros _, prkOut := zeros _, msk := zeros _, emsk := zeros _, done := false
      newPk := zeros _, newSk := zeros _ }) (rHandleMsg3 P inp coins outCap) := by
  unfold rHandleMsg3 rHandleMsg3Open rVerifyMsg3 rMakeMsg4
  repeat' first
    | refine Keeps.bind ?_ fun _ => ?_
    | exact Keeps.store fun _ => rfl
    | simp only [Keeps.load, Keeps.require, Keeps.demand, Keeps.pure]

omit [DecidableEq B] in
theorem iHandleMsg4_frame (inp : List B) :
    Keeps (fun c => { c with peerNewPk := zeros _, done := false }) (iHandleMsg4 P inp) := by
  unfold iHandleMsg4 iHandleMsg4Open
  repeat' first
    | refine Keeps.bind ?_ fun _ => ?_
    | exact Keeps.store fun _ => rfl
    | simp only [Keeps.load, Keeps.require, Keeps.demand, Keeps.pure]

end EdhocAuth.Edhoc4
