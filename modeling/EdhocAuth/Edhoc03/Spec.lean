/-
What a successful call of each handler of methods 0 to 3 went through.

`SelfAuth` and `PeerAuth` say what the two sides of one authentication compute and
check, for both kinds of authentication; the lemmas `…_eq_ok` are equivalences and
no later proof unfolds a handler. The lemmas `…_frame` are about every call, successful
or not: they list the fields a handler may assign.
-/

import EdhocAuth.Edhoc03.Core

namespace EdhocAuth.Edhoc03

open Proc Primitives

variable {B : Type} [Octet B]

/-! ### The method table -/

theorem methodValid_iff {m : Int} : methodValid m = true ↔ 0 ≤ m ∧ m ≤ 3 := by
  simp [methodValid]

theorem Auth.eq_sig {a : Auth} (h : a ≠ .stat) : a = .sig := by
  cases a <;> simp_all

/-- A valid method survives its one-byte encoding. -/
theorem toNat_ofNat_method {m : Int} (valid : methodValid m = true) :
    ((UInt8.ofNat m.toNat).toNat : Int) = m := by
  obtain ⟨low, high⟩ := methodValid_iff.mp valid
  have small : m.toNat < 256 := by omega
  rw [UInt8.toNat_ofNat', Nat.mod_eq_of_lt small]
  omega

/-! ### Layout -/

@[simp] theorem AuthPt.read_write {n : Nat} (p : AuthPt B n) : AuthPt.read n p.write = p := by
  simp only [AuthPt.read, AuthPt.write, readBlock, Block.drop_toList_append,
    Block.read_toList_append, Block.read_toList]

omit [Octet B] in
@[simp] theorem AuthPt.length_write {n : Nat} (p : AuthPt B n) :
    p.write.length = idCredLen + 32 + n := by
  simp only [AuthPt.write, List.length_append, List.Vector.toList_length]
  omega

/-- A buffer of exactly this size is the plaintext that is read from it. -/
theorem AuthPt.write_read {n : Nat} {buf : List B} (exact : buf.length = idCredLen + 32 + n) :
    (AuthPt.read n buf).write = buf := by
  simp only [AuthPt.read, AuthPt.write, readBlock, List.drop_drop]
  apply Block.read_append_of_eq_drop _ (by omega)
  apply Block.read_drop_append _ (by omega)
  exact Block.toList_read _ (by rw [List.length_drop]; omega)

omit [Octet B] in
theorem AuthPt.write_inj {n : Nat} {p q : AuthPt B n} (h : p.write = q.write) : p = q := by
  obtain ⟨idCred, rest⟩ := Block.append_inj h
  obtain ⟨key, proof⟩ := Block.append_inj rest
  obtain ⟨idCred', key', proof'⟩ := p
  obtain rfl : proof' = q.proof := List.Vector.eq _ _ proof
  subst idCred key
  rfl

/-! ### Both sides of one authentication -/

variable {P : Primitives B}

/-- A side with credentials `self` authenticates towards `peerEph`: from `prk` and `th`
it gets to `prk'` and sends `pt`. -/
def SelfAuth (P : Primitives B) (auth : Auth) (self : Creds B) (peerEph prk th prk' : Block B 32)
    (pt : List B) : Prop :=
  match auth with
  | .stat => (∃ ss, P.scalarmult self.dhSk peerEph = some ss ∧ prk' = P.hkdfExtract prk ss) ∧
      pt = AuthPt.write ⟨self.idCred, self.dhPk, computeMac P prk' th self.idCred self.dhPk⟩
  | .sig => prk' = prk ∧
      ∃ sig, P.edSign (sigMessage th self.idCred (computeMac P prk' th self.idCred self.sigVk))
          self.sigSk = some sig ∧
        pt = AuthPt.write ⟨self.idCred, self.sigVk, sig⟩

/-- A side with the pinned keys `peer` and the ephemeral key `ephSk` accepts `pt`: from
`prk` and `th` it gets to `prk'` and records `idCred`. -/
def PeerAuth (P : Primitives B) (auth : Auth) (peer : Peer B) (ephSk prk th prk' : Block B 32)
    (idCred : Block B idCredLen) (pt : List B) : Prop :=
  match auth with
  | .stat => (∃ ss, P.scalarmult ephSk peer.dhPk = some ss ∧ prk' = P.hkdfExtract prk ss) ∧
      pt = AuthPt.write ⟨idCred, peer.dhPk, computeMac P prk' th idCred peer.dhPk⟩
  | .sig => prk' = prk ∧
      ∃ sig, P.edVerify sig (sigMessage th idCred (computeMac P prk' th idCred peer.sigVk))
          peer.sigVk = true ∧
        pt = AuthPt.write ⟨idCred, peer.sigVk, sig⟩

/-- The length of the plaintext with which a side authenticates. -/
def Auth.ptLen : Auth → Nat
  | .stat => idCredLen + xPk + macLen
  | .sig => idCredLen + edPk + edSig

/-- The own authentication has the length of its kind. -/
theorem SelfAuth.length {auth : Auth} {self : Creds B} {peerEph prk th prk' : Block B 32}
    {pt : List B} (made : SelfAuth P auth self peerEph prk th prk' pt) :
    pt.length = auth.ptLen := by
  cases auth with
  | stat =>
    obtain ⟨-, rfl⟩ := made
    exact AuthPt.length_write _
  | sig =>
    obtain ⟨-, sig, -, rfl⟩ := made
    exact AuthPt.length_write _

/-- A plaintext that is accepted has the length of its kind. -/
theorem PeerAuth.length {auth : Auth} {peer : Peer B} {ephSk prk th prk' : Block B 32}
    {idCred : Block B idCredLen} {pt : List B}
    (checked : PeerAuth P auth peer ephSk prk th prk' idCred pt) : pt.length = auth.ptLen := by
  cases auth with
  | stat =>
    obtain ⟨-, rfl⟩ := checked
    exact AuthPt.length_write _
  | sig =>
    obtain ⟨-, sig, -, rfl⟩ := checked
    exact AuthPt.length_write _

variable {c c' : Ctx B} {inp out : List B} {outCap : Nat} {prk th : Block B 32}
  {put : Block B 32 → Ctx B → Ctx B}

theorem makeStat_eq_ok {pt : List B} :
    makeStat P put prk th c = (.ok pt, c') ↔
      ∃ prk', SelfAuth P .stat c.self c.peerEphPk prk th prk' pt ∧ c' = put prk' c := by
  simp only [makeStat, SelfAuth, bind_eq_ok, load_eq_ok, demand_eq_ok, store_eq_ok, pure_eq_ok,
    and_assoc, exists_and_left, exists_eq_left, exists_const]
  constructor
  · rintro ⟨ss, mul, rfl, rfl⟩
    exact ⟨_, ⟨ss, mul, rfl⟩, rfl, rfl⟩
  · rintro ⟨_, ⟨ss, mul, rfl⟩, rfl, rfl⟩
    exact ⟨ss, mul, rfl, rfl⟩

theorem makeSig_eq_ok {pt : List B} :
    makeSig P put prk th c = (.ok pt, c') ↔
      ∃ prk', SelfAuth P .sig c.self c.peerEphPk prk th prk' pt ∧ c' = put prk' c := by
  simp only [makeSig, SelfAuth, bind_eq_ok, load_eq_ok, demand_eq_ok, store_eq_ok, pure_eq_ok,
    and_assoc, exists_and_left, exists_eq_left, exists_const]
  constructor
  · rintro ⟨sig, signed, rfl, rfl⟩
    exact ⟨⟨sig, signed, rfl⟩, rfl⟩
  · rintro ⟨⟨sig, signed, rfl⟩, rfl⟩
    exact ⟨sig, signed, rfl, rfl⟩

/-- The own authentication is made by either kind. -/
theorem makeAuth_eq_ok {pt : List B} :
    makeAuth P put prk th c = (.ok pt, c') ↔
      ∃ prk', SelfAuth P c.selfAuth c.self c.peerEphPk prk th prk' pt ∧ c' = put prk' c := by
  simp only [makeAuth, bind_eq_ok, load_eq_ok, and_assoc, exists_and_left, exists_eq_left]
  by_cases auth : c.selfAuth = .stat
  · rw [if_pos auth, makeStat_eq_ok, auth]
  · rw [if_neg auth, makeSig_eq_ok, Auth.eq_sig auth]

section Check

variable [DecidableEq B] {pt : List B} {u : Unit}

theorem checkStat_eq_ok :
    checkStat P put prk th pt c = (.ok u, c') ↔
      ∃ prk' idCred, PeerAuth P .stat c.peer c.ephSk prk th prk' idCred pt ∧
        c' = put prk' { c with peerIdCred := idCred } := by
  simp only [checkStat, PeerAuth, bind_eq_ok, load_eq_ok, require_eq_ok, demand_eq_ok, store_eq_ok,
    and_assoc, exists_and_left, exists_eq_left, exists_const]
  constructor
  · rintro ⟨exact, pinned, ss, mul, mac, rfl⟩
    have whole := AuthPt.write_read exact
    rw [pinned] at mul mac
    refine ⟨_, ⟨ss, mul, rfl⟩, _, ?_, rfl⟩
    rw [mac, ← pinned]
    exact whole.symm
  · rintro ⟨prk', ⟨ss, mul, rfl⟩, idCred, rfl, rfl⟩
    rw [AuthPt.read_write]
    exact ⟨AuthPt.length_write _, rfl, ss, mul, rfl, rfl⟩

theorem checkSig_eq_ok :
    checkSig P put prk th pt c = (.ok u, c') ↔
      ∃ prk' idCred, PeerAuth P .sig c.peer c.ephSk prk th prk' idCred pt ∧
        c' = put prk' { c with peerIdCred := idCred } := by
  simp only [checkSig, PeerAuth, bind_eq_ok, load_eq_ok, require_eq_ok, store_eq_ok, and_assoc,
    exists_and_left, exists_eq_left, exists_const]
  constructor
  · rintro ⟨exact, pinned, verified, rfl⟩
    have whole := AuthPt.write_read exact
    rw [pinned] at verified
    refine ⟨_, ⟨_, verified, ?_⟩, rfl⟩
    rw [← pinned]
    exact whole.symm
  · rintro ⟨idCred, ⟨sig, verified, rfl⟩, rfl⟩
    rw [AuthPt.read_write]
    exact ⟨AuthPt.length_write _, rfl, verified, rfl⟩

/-- The peer's authentication is checked by either kind. -/
theorem checkAuth_eq_ok :
    checkAuth P put prk th pt c = (.ok u, c') ↔
      ∃ prk' idCred, PeerAuth P c.peerAuth c.peer c.ephSk prk th prk' idCred pt ∧
        c' = put prk' { c with peerIdCred := idCred } := by
  simp only [checkAuth, bind_eq_ok, load_eq_ok, and_assoc, exists_and_left, exists_eq_left]
  by_cases auth : c.peerAuth = .stat
  · rw [if_pos auth, checkStat_eq_ok]
    simp only [auth]
  · rw [if_neg auth, checkSig_eq_ok]
    simp only [Auth.eq_sig auth]

end Check

/-! ### The handlers -/

/-- What message_1 consists of, and what it leaves. -/
theorem iMakeMsg1_eq_ok {ephSk : Block B 32} :
    iMakeMsg1 P ephSk outCap c = (.ok out, c') ↔
      c.role = .initiator ∧ methodValid c.method = true ∧ 1 + xPk + connId ≤ outCap ∧
        out = Octet.ofByte (UInt8.ofNat c.method.toNat) ::
          ((P.scalarmultBase ephSk).toList ++ c.cI.toList) ∧
        c' = { c with
          ephSk := ephSk, ephPk := P.scalarmultBase ephSk
          hMsg1 := P.sha256 (Octet.ofByte (UInt8.ofNat c.method.toNat) ::
            ((P.scalarmultBase ephSk).toList ++ c.cI.toList)) } := by
  simp only [iMakeMsg1, bind_eq_ok, load_eq_ok, require_eq_ok, store_eq_ok, pure_eq_ok, and_assoc,
    exists_and_left, exists_eq_left, exists_const]

/-- What a message_1 consists of that passes the key derivation, and what it leaves. -/
theorem rHandleMsg1Keys_eq_ok {ephSk : Block B 32} {u : Unit} :
    rHandleMsg1Keys P inp ephSk c = (.ok u, c') ↔
      c.role = .responder ∧
      ∃ (b : UInt8) (gX : Block B xPk) (cI : Block B connId),
        inp = Octet.ofByte b :: (gX.toList ++ cI.toList) ∧ methodValid b.toNat = true ∧
      ∃ ssE, P.scalarmult ephSk gX = some ssE ∧
      ∃ th2, th2 = P.sha256 ((P.scalarmultBase ephSk).toList ++
          ((P.sha256 inp).toList ++ c.cR.toList)) ∧
        c' = { c with
          method := b.toNat, selfAuth := methodRespAuth b.toNat, peerAuth := methodInitAuth b.toNat
          peerEphPk := gX, cI := cI, hMsg1 := P.sha256 inp
          ephSk := ephSk, ephPk := P.scalarmultBase ephSk
          ssE := ssE, th2 := th2, prk2e := P.hkdfExtract th2 ssE } := by
  simp only [rHandleMsg1Keys, bind_eq_ok, load_eq_ok, require_eq_ok, demand_eq_ok, store_eq_ok,
    and_assoc, exists_and_left, exists_eq_left, exists_const]
  refine and_congr_right fun _ => ?_
  constructor
  · rintro ⟨exact, b, first, valid, h⟩
    obtain ⟨x, head, byte⟩ := Option.bind_eq_some_iff.mp first
    obtain ⟨rest, rfl⟩ := List.head?_eq_some_iff.mp head
    rw [Octet.toByte?_eq_some.mp byte] at exact h ⊢
    have len : rest.length = xPk + connId := by
      rw [List.length_cons] at exact
      omega
    refine ⟨b, _, _, ?_, valid, h⟩
    congr 1
    refine (Block.read_append_of_eq_drop _ (by simp [len]) ?_).symm
    exact Block.toList_read _ (by rw [List.length_drop, List.length_cons, len]; omega)
  · rintro ⟨b, gX, cI, rfl, valid, h⟩
    refine ⟨?_, b, ?_, valid, ?_⟩
    · simp only [List.length_cons, List.length_append, List.Vector.toList_length]
      omega
    · exact Octet.toByte?_eq_some.mpr rfl
    · have drop₁ : (Octet.ofByte b :: (gX.toList ++ cI.toList) : List B).drop 1 =
          gX.toList ++ cI.toList := rfl
      rw [← List.drop_drop, drop₁, Block.drop_toList_append]
      simpa only [readBlock, Block.read_toList_append, Block.read_toList] using h

/-- What message_2 consists of, and what it leaves. -/
theorem rMakeMsg2_eq_ok :
    rMakeMsg2 P outCap c = (.ok out, c') ↔
      ∃ prk3e2m pt2, SelfAuth P c.selfAuth c.self c.peerEphPk c.prk2e c.th2 prk3e2m pt2 ∧
      ∃ ct2, aeadSeal P c.prk2e c.th2 pt2 = some ct2 ∧
        xPk + ct2.length ≤ outCap ∧
        out = c.ephPk.toList ++ ct2 ∧
        c' = { c with prk3e2m := prk3e2m, th3 := P.sha256 (c.th2.toList ++ pt2) } := by
  simp only [rMakeMsg2, bind_eq_ok, load_eq_ok, require_eq_ok, demand_eq_ok, store_eq_ok,
    pure_eq_ok, makeAuth_eq_ok, putPrk3e2m, and_assoc, exists_and_left, exists_eq_left,
    exists_const]
  constructor
  · rintro ⟨pt2, c₁, ⟨prk, auth, rfl⟩, h⟩
    exact ⟨prk, pt2, auth, h⟩
  · rintro ⟨prk, pt2, auth, h⟩
    exact ⟨pt2, _, ⟨prk, auth, rfl⟩, h⟩

theorem rHandleMsg1_eq_ok {ephSk : Block B 32} :
    rHandleMsg1 P inp ephSk outCap c = (.ok out, c') ↔
      ∃ c₁, rHandleMsg1Keys P inp ephSk c = (.ok (), c₁) ∧
        rMakeMsg2 P outCap c₁ = (.ok out, c') := by
  simp only [rHandleMsg1, bind_eq_ok, Unique.exists_iff, PUnit.default_eq_unit]

/-- What a message_2 consists of that comes to the AEAD, and what it leaves. -/
theorem iHandleMsg2Open_eq_ok {call : OpenCall B} :
    iHandleMsg2Open P inp c = (.ok call, c') ↔
      c.role = .initiator ∧
      ∃ (gY : Block B xPk) (ct2 : List B),
        inp = gY.toList ++ ct2 ∧ aeadTag ≤ ct2.length ∧
      ∃ ssE, P.scalarmult c.ephSk gY = some ssE ∧
      ∃ th2, th2 = P.sha256 (gY.toList ++ (c.hMsg1.toList ++ c.cR.toList)) ∧
        call = { prk := P.hkdfExtract th2 ssE, th := th2, ct := ct2, cap := ptCap } ∧
        c' = { c with
          peerEphPk := gY, ssE := ssE, th2 := th2, prk2e := P.hkdfExtract th2 ssE } := by
  simp only [iHandleMsg2Open, bind_eq_ok, load_eq_ok, require_eq_ok, demand_eq_ok, store_eq_ok,
    pure_eq_ok, and_assoc, exists_and_left, exists_eq_left, exists_const]
  refine and_congr_right fun _ => ?_
  constructor
  · rintro ⟨long, h⟩
    refine ⟨_, _, (Block.read_append_of_eq_drop _ (by omega) rfl).symm, ?_, h⟩
    simp only [List.length_drop]
    omega
  · rintro ⟨gY, ct2, rfl, long, h⟩
    refine ⟨by simp only [List.length_append, List.Vector.toList_length]; omega, ?_⟩
    simpa only [readBlock, Block.drop_toList_append, Block.read_toList_append] using h

/-- What message_3 consists of, and what it leaves. -/
theorem iMakeMsg3_eq_ok :
    iMakeMsg3 P outCap c = (.ok out, c') ↔
      ∃ prk4e3m pt3, SelfAuth P c.selfAuth c.self c.peerEphPk c.prk3e2m c.th3 prk4e3m pt3 ∧
        aeadSeal P c.prk3e2m c.th3 pt3 = some out ∧
        out.length ≤ outCap ∧
        c' = deriveMsk P { c with
          prk4e3m := prk4e3m, th4 := P.sha256 (c.th3.toList ++ pt3) } := by
  simp only [iMakeMsg3, bind_eq_ok, load_eq_ok, require_eq_ok, demand_eq_ok, store_eq_ok,
    pure_eq_ok, makeAuth_eq_ok, putPrk4e3m, and_assoc, exists_and_left, exists_eq_left,
    exists_const]
  constructor
  · rintro ⟨pt3, c₁, ⟨prk, auth, rfl⟩, ct3, hseal, hcap, rfl, rfl⟩
    exact ⟨prk, pt3, auth, hseal, hcap, rfl⟩
  · rintro ⟨prk, pt3, auth, hseal, hcap, rfl⟩
    exact ⟨pt3, _, ⟨prk, auth, rfl⟩, out, hseal, hcap, rfl, rfl⟩

/-- A message_2 that is accepted opens, authenticates the peer and is answered. -/
theorem iHandleMsg2_eq_ok [DecidableEq B] :
    iHandleMsg2 P inp outCap c = (.ok out, c') ↔
      ∃ call c₁, iHandleMsg2Open P inp c = (.ok call, c₁) ∧
      ∃ pt2, aeadOpen P call = some pt2 ∧
      ∃ prk3e2m idCred,
        PeerAuth P c₁.peerAuth c₁.peer c₁.ephSk call.prk call.th prk3e2m idCred pt2 ∧
        iMakeMsg3 P outCap { c₁ with
          peerIdCred := idCred, prk3e2m := prk3e2m
          th3 := P.sha256 (call.th.toList ++ pt2) } = (.ok out, c') := by
  simp only [iHandleMsg2, bind_eq_ok, demand_eq_ok, store_eq_ok, checkAuth_eq_ok, putPrk3e2m,
    and_assoc, exists_and_left, exists_eq_left, exists_const]
  constructor
  · rintro ⟨call, c₁, opened, pt2, dec, c₂, ⟨prk, idCred, auth, rfl⟩, h⟩
    exact ⟨call, c₁, opened, pt2, dec, prk, idCred, auth, h⟩
  · rintro ⟨call, c₁, opened, pt2, dec, prk, idCred, auth, h⟩
    exact ⟨call, c₁, opened, pt2, dec, _, ⟨prk, idCred, auth, rfl⟩, h⟩

omit [Octet B] in
/-- A message_3 comes to the AEAD as it is. -/
theorem rHandleMsg3Open_eq_ok {call : OpenCall B} :
    rHandleMsg3Open inp c = (.ok call, c') ↔
      c.role = .responder ∧
        call = { prk := c.prk3e2m, th := c.th3, ct := inp, cap := ptCap } ∧ c' = c := by
  simp only [rHandleMsg3Open, bind_eq_ok, load_eq_ok, require_eq_ok, pure_eq_ok, and_assoc,
    exists_and_left, exists_eq_left, exists_const]

/-- A message_3 that is accepted opens and authenticates the peer. -/
theorem rHandleMsg3_eq_ok [DecidableEq B] :
    rHandleMsg3 P inp c = (.ok out, c') ↔
      c.role = .responder ∧ out = [] ∧
      ∃ pt3, aeadOpen P { prk := c.prk3e2m, th := c.th3, ct := inp, cap := ptCap } = some pt3 ∧
      ∃ prk4e3m idCred,
        PeerAuth P c.peerAuth c.peer c.ephSk c.prk3e2m c.th3 prk4e3m idCred pt3 ∧
        c' = deriveMsk P { c with
          peerIdCred := idCred, prk4e3m := prk4e3m, th4 := P.sha256 (c.th3.toList ++ pt3) } := by
  simp only [rHandleMsg3, bind_eq_ok, demand_eq_ok, store_eq_ok, pure_eq_ok, checkAuth_eq_ok,
    rHandleMsg3Open_eq_ok, putPrk4e3m, and_assoc, exists_and_left, exists_eq_left, exists_const]
  refine and_congr_right fun _ => ?_
  constructor
  · rintro ⟨pt3, dec, c₂, ⟨prk, idCred, auth, rfl⟩, rfl, h⟩
    exact ⟨rfl, pt3, dec, prk, idCred, auth, h⟩
  · rintro ⟨rfl, pt3, dec, prk, idCred, auth, h⟩
    exact ⟨pt3, dec, _, ⟨prk, idCred, auth, rfl⟩, rfl, h⟩

omit [Octet B] in
/-- Only the empty message_4 is accepted. -/
theorem iHandleMsg4_eq_ok {u : Unit} :
    iHandleMsg4 inp c = (.ok u, c') ↔
      c.role = .initiator ∧ inp = [] ∧ c' = { c with done := true } := by
  simp only [iHandleMsg4, bind_eq_ok, load_eq_ok, require_eq_ok, store_eq_ok, and_assoc,
    exists_and_left, exists_eq_left, exists_const, List.length_eq_zero_iff]

/-! ### What a call leaves alone -/

theorem iMakeMsg1_frame (ephSk : Block B 32) (outCap : Nat) :
    Keeps (fun c => { c with ephSk := zeros _, ephPk := zeros _, hMsg1 := zeros _ })
      (iMakeMsg1 P ephSk outCap) := by
  unfold iMakeMsg1
  repeat' first
    | refine Keeps.bind ?_ fun _ => ?_
    | exact Keeps.store fun _ => rfl
    | simp only [Keeps.load, Keeps.require, Keeps.pure]

theorem rHandleMsg1_frame (inp : List B) (ephSk : Block B 32) (outCap : Nat) :
    Keeps (fun c => { c with
      method := 0, selfAuth := .sig, peerAuth := .sig, peerEphPk := zeros _, cI := zeros _
      hMsg1 := zeros _, ephSk := zeros _, ephPk := zeros _, ssE := zeros _, th2 := zeros _
      prk2e := zeros _, prk3e2m := zeros _, th3 := zeros _ }) (rHandleMsg1 P inp ephSk outCap) := by
  unfold rHandleMsg1 rHandleMsg1Keys rMakeMsg2 makeAuth makeStat makeSig
  repeat' first
    | refine Keeps.bind ?_ fun _ => ?_
    | refine Keeps.ite ?_ ?_
    | exact Keeps.store fun _ => rfl
    | simp only [Keeps.load, Keeps.require, Keeps.demand, Keeps.pure]

variable [DecidableEq B]

theorem iHandleMsg2_frame (inp : List B) (outCap : Nat) :
    Keeps (fun c => { c with
      peerEphPk := zeros _, ssE := zeros _, th2 := zeros _, prk2e := zeros _
      peerIdCred := zeros _, prk3e2m := zeros _, th3 := zeros _, prk4e3m := zeros _
      th4 := zeros _, prkOut := zeros _, msk := zeros _, emsk := zeros _, done := false })
      (iHandleMsg2 P inp outCap) := by
  unfold iHandleMsg2 iHandleMsg2Open checkAuth checkStat checkSig iMakeMsg3 makeAuth makeStat
    makeSig
  repeat' first
    | refine Keeps.bind ?_ fun _ => ?_
    | refine Keeps.ite ?_ ?_
    | exact Keeps.store fun _ => rfl
    | simp only [Keeps.load, Keeps.require, Keeps.demand, Keeps.pure]

theorem rHandleMsg3_frame (inp : List B) :
    Keeps (fun c => { c with
      peerIdCred := zeros _, prk4e3m := zeros _, th4 := zeros _, prkOut := zeros _
      msk := zeros _, emsk := zeros _, done := false }) (rHandleMsg3 P inp) := by
  unfold rHandleMsg3 rHandleMsg3Open checkAuth checkStat checkSig
  repeat' first
    | refine Keeps.bind ?_ fun _ => ?_
    | refine Keeps.ite ?_ ?_
    | exact Keeps.store fun _ => rfl
    | simp only [Keeps.load, Keeps.require, Keeps.demand, Keeps.pure]

omit [Octet B] [DecidableEq B] in
theorem iHandleMsg4_frame (inp : List B) :
    Keeps (fun c : Ctx B => { c with done := false }) (iHandleMsg4 inp) := by
  unfold iHandleMsg4
  repeat' first
    | refine Keeps.bind ?_ fun _ => ?_
    | exact Keeps.store fun _ => rfl
    | simp only [Keeps.load, Keeps.require]

end EdhocAuth.Edhoc03
