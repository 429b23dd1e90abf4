/-
Agreement for method 4 over any number of contexts and any schedule.

The development follows the one for methods 0 to 3: slots, projections the handlers
keep, one relation `Transcript` for both sides, and its uniqueness under idealised
primitives. Message_3 fixes PRK3e2m, TH3 and PT3; TH3 fixes TH2 and PT2, and TH2
the whole of message_1 and the KEM ciphertext of message_2, although the initiator
takes C_R for granted; MAC3 inside PT3 fixes PRK4e3m.
-/

import EdhocAuth.Lib.Pool
import EdhocAuth.Edhoc4.Honest

namespace EdhocAuth.Edhoc4

open Proc Primitives

variable {B : Type} [Octet B] [DecidableEq B] {P : Primitives B}

/-! ### Slots -/

inductive Call (B : Type) where
  | iMakeMsg1 (coins : Msg1Coins B) (outCap : Nat)
  | rHandleMsg1 (inp : List B) (coins : Msg2Coins B) (outCap : Nat)
  | iHandleMsg2 (inp : List B) (coins : Msg3Coins B) (outCap : Nat)
  | rHandleMsg3 (inp : List B) (coins : KeyCoins B) (outCap : Nat)
  | iHandleMsg4 (inp : List B)

/-- A context with the message_1 of its last `edhoc4_i_make_msg1`, the message_1 and
message_2 of its last `edhoc4_r_handle_msg1`, and the messages 1 to 3 of its last
`edhoc4_i_handle_msg2`; `none` if there was no such call or it failed. -/
structure Slot (B : Type) where
  ctx : Ctx B
  sent : Option (List B)
  answered : Option (List B × List B)
  accepted : Option (List B × List B × List B)

/-- An accepted message, with the messages around it and the context as of that call. -/
inductive Event (B : Type) where
  | accepted2 (m1 m2 m3 : List B) (ctx : Ctx B)
  | accepted3 (m1 m2 m3 m4 : List B) (ctx : Ctx B)
  | accepted4 (before : Option (List B × List B × List B)) (m4 : List B) (ctx : Ctx B)

def Slot.call (P : Primitives B) (s : Slot B) : Call B → Slot B × List (Event B)
  | .iMakeMsg1 coins outCap =>
    match iMakeMsg1 P coins outCap s.ctx with
    | (.ok m1, c) => ({ s with ctx := c, sent := some m1 }, [])
    | (.error _, c) => ({ s with ctx := c, sent := none }, [])
  | .rHandleMsg1 m1 coins outCap =>
    match rHandleMsg1 P m1 coins outCap s.ctx with
    | (.ok m2, c) => ({ s with ctx := c, answered := some (m1, m2) }, [])
    | (.error _, c) => ({ s with ctx := c, answered := none }, [])
  | .iHandleMsg2 m2 coins outCap =>
    match iHandleMsg2 P m2 coins outCap s.ctx, s.sent with
    | (.ok m3, c), some m1 =>
      ({ s with ctx := c, accepted := some (m1, m2, m3) }, [.accepted2 m1 m2 m3 c])
    | (_, c), _ => ({ s with ctx := c, accepted := none }, [])
  | .rHandleMsg3 m3 coins outCap =>
    match rHandleMsg3 P m3 coins outCap s.ctx, s.answered with
    | (.ok m4, c), some (m1, m2) => ({ s with ctx := c }, [.accepted3 m1 m2 m3 m4 c])
    | (_, c), _ => ({ s with ctx := c }, [])
  | .iHandleMsg4 m4 =>
    match iHandleMsg4 P m4 s.ctx with
    | (.ok _, c) => ({ s with ctx := c }, [.accepted4 s.accepted m4 c])
    | (.error _, c) => ({ s with ctx := c }, [])

/-- A slot right after `edhoc4_init_initiator` or `edhoc4_init_responder`. -/
inductive Slot.Fresh : Slot B → Prop
  | initiator (self : Creds B) (peerKemPk : Block B xwingPk) :
      Slot.Fresh ⟨initInitiator self peerKemPk, none, none, none⟩
  | responder (self : Creds B) (peerKemPk : Block B xwingPk) :
      Slot.Fresh ⟨initResponder self peerKemPk, none, none, none⟩

/-! ### Views of a context -/

structure Offer (B : Type) where
  role : Role
  hMsg1 : Block B 32

structure Answer (B : Type) where
  role : Role
  cR : Block B 1
  th2 : Block B 32
  th3 : Block B 32
  prk2e : Block B 32
  prk3e2m : Block B 32

structure Outcome (B : Type) where
  role : Role
  th2 : Block B 32
  th3 : Block B 32
  th4 : Block B 32
  prk2e : Block B 32
  prk3e2m : Block B 32
  prk4e3m : Block B 32
  prkOut : Block B 32
  msk : Block B mskLen
  emsk : Block B mskLen
  newPk : Block B xwingPk

def Ctx.offer (c : Ctx B) : Offer B := ⟨c.role, c.hMsg1⟩

def Ctx.answer (c : Ctx B) : Answer B := ⟨c.role, c.cR, c.th2, c.th3, c.prk2e, c.prk3e2m⟩

def Ctx.outcome (c : Ctx B) : Outcome B :=
  ⟨c.role, c.th2, c.th3, c.th4, c.prk2e, c.prk3e2m, c.prk4e3m, c.prkOut, c.msk, c.emsk, c.newPk⟩

/-! ### What the handlers keep -/

section Keeps

omit [DecidableEq B] in
theorem iMakeMsg1_keeps_outcome (coins : Msg1Coins B) (outCap : Nat) :
    Keeps Ctx.outcome (iMakeMsg1 P coins outCap) :=
  (iMakeMsg1_frame coins outCap).of_reads fun _ => rfl

theorem rHandleMsg1_keeps_cR (inp : List B) (coins : Msg2Coins B) (outCap : Nat) :
    Keeps (fun c => (c.role, c.cR)) (rHandleMsg1 P inp coins outCap) :=
  (rHandleMsg1_frame inp coins outCap).of_reads fun _ => rfl

theorem iHandleMsg2_keeps_offer (inp : List B) (coins : Msg3Coins B) (outCap : Nat) :
    Keeps Ctx.offer (iHandleMsg2 P inp coins outCap) :=
  (iHandleMsg2_frame inp coins outCap).of_reads fun _ => rfl

theorem rHandleMsg3_keeps_answer (inp : List B) (coins : KeyCoins B) (outCap : Nat) :
    Keeps Ctx.answer (rHandleMsg3 P inp coins outCap) :=
  (rHandleMsg3_frame inp coins outCap).of_reads fun _ => rfl

omit [DecidableEq B] in
theorem iHandleMsg4_keeps (inp : List B) :
    Keeps (fun c => (c.offer, c.outcome)) (iHandleMsg4 P inp) :=
  (iHandleMsg4_frame inp).of_reads fun _ => rfl

end Keeps

/-! ### Calls in the wrong role change nothing -/

section WrongRole

variable {c : Ctx B} {inp : List B} {outCap : Nat}

omit [DecidableEq B] in
theorem iMakeMsg1_of_responder {coins : Msg1Coins B} (h : c.role = .responder) :
    iMakeMsg1 P coins outCap c = (.error .state, c) :=
  load_require_error (by simp [h])

theorem rHandleMsg1_of_initiator {coins : Msg2Coins B} (h : c.role = .initiator) :
    rHandleMsg1 P inp coins outCap c = (.error .state, c) :=
  bind_error (load_require_error (by simp [h]))

theorem iHandleMsg2_of_responder {coins : Msg3Coins B} (h : c.role = .responder) :
    iHandleMsg2 P inp coins outCap c = (.error .state, c) :=
  bind_error (load_require_error (by simp [h]))

theorem rHandleMsg3_of_initiator {coins : KeyCoins B} (h : c.role = .initiator) :
    rHandleMsg3 P inp coins outCap c = (.error .state, c) :=
  bind_error (load_require_error (by simp [h]))

omit [DecidableEq B] in
theorem iHandleMsg4_of_responder (h : c.role = .responder) :
    iHandleMsg4 P inp c = (.error .state, c) :=
  bind_error (load_require_error (by simp [h]))

end WrongRole

/-! ### What both sides of an accepted message_3 satisfy -/

/-- The transcript of a handshake as one context saw it; `p` is the plaintext of
message_3. Neither the role nor the side's own secrets appear. -/
structure Transcript (P : Primitives B) (m1 m2 : List B) (p : Pt3 B) (o : Outcome B) : Prop where
  msg2 : ∃ (cte : Block B xwingCt) (ct2 pt2 : List B), m2 = cte.toList ++ ct2 ∧
    o.th2 = P.sha256 ((P.sha256 m1).toList ++ (cte.toList ++ (octet 0x20 : Block B 1).toList)) ∧
    aeadSeal P o.prk2e o.th2 pt2 = some ct2 ∧ o.th3 = P.sha256 (o.th2.toList ++ pt2)
  mixed : ∃ ssB, o.prk3e2m = P.hkdfExtract o.prk2e ssB
  proved : computeMac P o.prk4e3m o.th3 p.idCred p.ead.toList = p.mac
  th4 : o.th4 = P.sha256 (o.th3.toList ++ p.write)
  prkOut : o.prkOut = P.hkdfExpand o.prk4e3m o.th4.toList 32
  msk : o.msk = P.hkdfExpand o.prkOut (ascii "EDHOC-EAP-MSK") mskLen
  emsk : o.emsk = P.hkdfExpand o.prkOut (ascii "EDHOC-EAP-EMSK") mskLen

/-- Agreement of an initiator that sent `m1` and accepted `m2` with a responder that
answered `m1'` with `m2'`. -/
structure Agreement (m1 m2 m1' m2' : List B) (i r : Outcome B) : Prop where
  msg1 : m1' = m1
  msg2 : m2' = m2
  th2 : i.th2 = r.th2
  th3 : i.th3 = r.th3
  th4 : i.th4 = r.th4
  prkOut : i.prkOut = r.prkOut
  msk : i.msk = r.msk
  emsk : i.emsk = r.emsk

omit [DecidableEq B] in
/-- Two contexts whose message_3 is bound to one PRK, one TH3 and one plaintext saw the
same handshake. -/
theorem Transcript.unique (ideal : P.Ideal) {m1 m2 m1' m2' : List B} {p : Pt3 B} {i r : Outcome B}
    (hi : Transcript P m1 m2 p i) (hr : Transcript P m1' m2' p r) (prk : i.prk3e2m = r.prk3e2m)
    (th : i.th3 = r.th3) : Agreement m1 m2 m1' m2' i r := by
  obtain ⟨cte, ct2, pt2, m2eq, th2eq, sealed, th3eq⟩ := hi.msg2
  obtain ⟨cte', ct2', pt2', m2eq', th2eq', sealed', th3eq'⟩ := hr.msg2
  obtain ⟨th2, text⟩ := Block.append_inj (ideal.sha256 (th3eq.symm.trans (th.trans th3eq')))
  obtain ⟨hash, rest⟩ := Block.append_inj (ideal.sha256 (th2eq.symm.trans (th2.trans th2eq')))
  obtain ⟨kem, -⟩ := Block.append_inj rest
  have msg1 : m1 = m1' := ideal.sha256 hash
  have prk2e : i.prk2e = r.prk2e := by
    obtain ⟨ssB, mixed⟩ := hi.mixed
    obtain ⟨ssB', mixed'⟩ := hr.mixed
    exact (ideal.hkdfExtract (mixed.symm.trans (prk.trans mixed'))).1
  have prk4e3m : i.prk4e3m = r.prk4e3m :=
    (ideal.hkdfExpand (by decide) (hi.proved.trans hr.proved.symm)).1
  have th4 : i.th4 = r.th4 := by rw [hi.th4, hr.th4, th]
  have prkOut : i.prkOut = r.prkOut := by rw [hi.prkOut, hr.prkOut, prk4e3m, th4]
  have ct : ct2 = ct2' := by
    rw [prk2e, th2, text, sealed'] at sealed
    exact (Option.some.inj sealed).symm
  exact ⟨msg1.symm, by rw [m2eq, m2eq', kem, ct], th2, th, th4, prkOut,
    by rw [hi.msk, hr.msk, prkOut], by rw [hi.emsk, hr.emsk, prkOut]⟩

/-! ### The invariant of a slot -/

/-- `m1` is the message_1 of an initiator. -/
structure Offer.Sent (P : Primitives B) (o : Offer B) (m1 : List B) : Prop where
  role : o.role = .initiator
  hash : o.hMsg1 = P.sha256 m1

/-- `m2` is what a responder answered to `m1`. -/
structure Answer.Sent (P : Primitives B) (a : Answer B) (m1 m2 : List B) : Prop where
  role : a.role = .responder
  msg2 : ∃ (cte : Block B xwingCt) (ct2 pt2 : List B), m2 = cte.toList ++ ct2 ∧
    a.th2 = P.sha256 ((P.sha256 m1).toList ++ (cte.toList ++ (octet 0x20 : Block B 1).toList)) ∧
    aeadSeal P a.prk2e a.th2 pt2 = some ct2 ∧ a.th3 = P.sha256 (a.th2.toList ++ pt2)
  mixed : ∃ ssB, a.prk3e2m = P.hkdfExtract a.prk2e ssB

/-- An initiator that sent `m1` accepted `m2` and answered with `m3`. -/
structure Outcome.Sent (P : Primitives B) (o : Outcome B) (m1 m2 m3 : List B) : Prop where
  role : o.role = .initiator
  msg3 : ∃ p, Transcript P m1 m2 p o ∧ aeadSeal P o.prk3e2m o.th3 p.write = some m3 ∧
    o.newPk = p.ead

structure Slot.Inv (P : Primitives B) (s : Slot B) : Prop where
  cR : s.ctx.role = .responder → s.ctx.cR = octet 0x20
  sent : ∀ m1, s.sent = some m1 → s.ctx.offer.Sent P m1
  answered : ∀ m1 m2, s.answered = some (m1, m2) → s.ctx.answer.Sent P m1 m2
  accepted : ∀ m1 m2 m3, s.accepted = some (m1, m2, m3) → s.ctx.outcome.Sent P m1 m2 m3

section Invariant

variable {s : Slot B} {c : Ctx B} {m1 m2 m3 m4 : List B} {outCap : Nat}

omit [DecidableEq B] in
theorem Slot.Fresh.inv (fresh : s.Fresh) : s.Inv P := by
  cases fresh with
  | initiator self peer =>
    exact ⟨fun h => (nomatch h), fun _ h => (nomatch h), fun _ _ h => (nomatch h),
      fun _ _ _ h => (nomatch h)⟩
  | responder self peer =>
    exact ⟨fun _ => rfl, fun _ h => (nomatch h), fun _ _ h => (nomatch h),
      fun _ _ _ h => (nomatch h)⟩

omit [DecidableEq B] in
/-- The invariant of an initiator, which answers no message_1. -/
theorem Slot.Inv.initiator (inv : s.Inv P) (role : s.ctx.role = .initiator)
    {sent : Option (List B)} {accepted : Option (List B × List B × List B)}
    (same : c.role = s.ctx.role) (hsent : ∀ m1, sent = some m1 → c.offer.Sent P m1)
    (haccepted : ∀ m1 m2 m3, accepted = some (m1, m2, m3) → c.outcome.Sent P m1 m2 m3) :
    Slot.Inv P ⟨c, sent, s.answered, accepted⟩ where
  cR h := nomatch (same.trans role).symm.trans h
  sent := hsent
  answered m1 m2 h := nomatch role.symm.trans (inv.answered m1 m2 h).role
  accepted := haccepted

omit [DecidableEq B] in
/-- The invariant of a responder, which sends no message_1 and accepts no message_2. -/
theorem Slot.Inv.responder (inv : s.Inv P) (role : s.ctx.role = .responder)
    {answered : Option (List B × List B)} (cR : c.cR = s.ctx.cR)
    (hanswered : ∀ m1 m2, answered = some (m1, m2) → c.answer.Sent P m1 m2) :
    Slot.Inv P ⟨c, s.sent, answered, s.accepted⟩ where
  cR _ := cR.trans (inv.cR role)
  sent m1 h := nomatch role.symm.trans (inv.sent m1 h).role
  answered := hanswered
  accepted m1 m2 m3 h := nomatch role.symm.trans (inv.accepted m1 m2 m3 h).role

omit [DecidableEq B] in
theorem iMakeMsg1_sent {coins : Msg1Coins B} (ok : iMakeMsg1 P coins outCap s.ctx = (.ok m1, c)) :
    c.offer.Sent P m1 := by
  obtain ⟨role, eph, -, enc, -, ct1, -, -, rfl, rfl⟩ := iMakeMsg1_eq_ok.mp ok
  exact ⟨role, rfl⟩

theorem rHandleMsg1_sent {coins : Msg2Coins B} (cR : s.ctx.cR = octet 0x20)
    (ok : rHandleMsg1 P m1 coins outCap s.ctx = (.ok m2, c)) : c.answer.Sent P m1 m2 := by
  obtain ⟨call, c₁, opened, pt1, -, -, make⟩ := rHandleMsg1_eq_ok.mp ok
  obtain ⟨role, ctB, pkX, ct1, -, -, ssB, -, th1, rfl, rfl, rfl⟩ := rHandleMsg1Open_eq_ok.mp opened
  obtain ⟨enc, -, th2, rfl, prk2e, rfl, encA, -, prk3e2m, rfl, mac2, rfl, sigR, -, -, pt2, -, ct2,
    sealed, -, rfl, rfl⟩ := rMakeMsg2_eq_ok.mp make
  exact ⟨role, ⟨enc.1, ct2, pt2, rfl, by rw [← cR]; rfl, sealed, rfl⟩, ssB, rfl⟩

/-- A context that answered message_2 holds the hashes of all three messages. -/
theorem iHandleMsg2_sent (ideal : P.Ideal) {coins : Msg3Coins B} (sent : s.ctx.offer.Sent P m1)
    (ok : iHandleMsg2 P m2 coins outCap s.ctx = (.ok m3, c)) : c.outcome.Sent P m1 m2 m3 := by
  obtain ⟨call, c₁, opened, pt2, dec, c₂, verify, make⟩ := iHandleMsg2_eq_ok.mp ok
  obtain ⟨role, cte, ct2, rfl, -, ssE, -, th2, rfl, rfl, rfl⟩ := iHandleMsg2Open_eq_ok.mp opened
  obtain ⟨p2, rfl, prk3e2m, rfl, -, -, ssA, -, rfl⟩ := iVerifyMsg2_eq_ok.mp verify
  obtain ⟨new, -, mac3, rfl, sigI, -, pt3, rfl, sealed, -, rfl⟩ := iMakeMsg3_eq_ok.mp make
  refine ⟨role, _, ⟨⟨cte, ct2, p2.write, rfl, ?_, ideal.opened dec, rfl⟩, ⟨_, rfl⟩, rfl, rfl, rfl,
    rfl, rfl⟩, sealed, rfl⟩
  rw [← sent.hash]
  rfl

theorem Slot.call_inv_initiator (ideal : P.Ideal) (inv : s.Inv P)
    (role : s.ctx.role = .initiator) (k : Call B) : (s.call P k).1.Inv P := by
  cases k with
  | iMakeMsg1 coins outCap =>
    have kept := iMakeMsg1_keeps_outcome (P := P) coins outCap s.ctx
    rw [Slot.call]
    split <;> next ok =>
      rw [ok] at kept
      refine inv.initiator role (congrArg Outcome.role kept) (fun m h => ?_)
        fun m1 m2 m3 h => kept.symm ▸ inv.accepted m1 m2 m3 h
      cases h
      try exact iMakeMsg1_sent ok
  | rHandleMsg1 inp coins outCap =>
    simp only [Slot.call, rHandleMsg1_of_initiator role]
    exact ⟨inv.cR, inv.sent, fun _ _ h => (nomatch h), inv.accepted⟩
  | iHandleMsg2 inp coins outCap =>
    have kept := iHandleMsg2_keeps_offer (P := P) inp coins outCap s.ctx
    rw [Slot.call]
    split <;> next ok hsent =>
      rw [ok] at kept
      refine inv.initiator role (congrArg Offer.role kept)
        (fun m h => kept.symm ▸ inv.sent m h) fun m1 m2 m3 h => ?_
      cases h
      try exact iHandleMsg2_sent ideal (inv.sent _ hsent) ok
  | rHandleMsg3 inp coins outCap =>
    simp only [Slot.call, rHandleMsg3_of_initiator role]
    exact inv
  | iHandleMsg4 inp =>
    have kept := iHandleMsg4_keeps (P := P) inp s.ctx
    rw [Slot.call]
    split <;> next ok =>
      rw [ok] at kept
      obtain ⟨offer, outcome⟩ := Prod.mk.inj kept
      exact inv.initiator role (congrArg Offer.role offer) (fun m h => offer.symm ▸ inv.sent m h)
        fun m1 m2 m3 h => outcome.symm ▸ inv.accepted m1 m2 m3 h

theorem Slot.call_inv_responder (inv : s.Inv P) (role : s.ctx.role = .responder) (k : Call B) :
    (s.call P k).1.Inv P := by
  cases k with
  | iMakeMsg1 coins outCap =>
    simp only [Slot.call, iMakeMsg1_of_responder role]
    exact ⟨inv.cR, fun _ h => (nomatch h), inv.answered, inv.accepted⟩
  | rHandleMsg1 inp coins outCap =>
    have kept := rHandleMsg1_keeps_cR (P := P) inp coins outCap s.ctx
    rw [Slot.call]
    split <;> next ok =>
      rw [ok] at kept
      refine inv.responder role (Prod.mk.inj kept).2 fun m1 m2 h => ?_
      cases h
      try exact rHandleMsg1_sent (inv.cR role) ok
  | iHandleMsg2 inp coins outCap =>
    simp only [Slot.call, iHandleMsg2_of_responder role]
    exact ⟨inv.cR, inv.sent, inv.answered, fun _ _ _ h => (nomatch h)⟩
  | rHandleMsg3 inp coins outCap =>
    have kept := rHandleMsg3_keeps_answer (P := P) inp coins outCap s.ctx
    rw [Slot.call]
    split <;> next ok _ =>
      rw [ok] at kept
      exact inv.responder role (congrArg Answer.cR kept)
        fun m1 m2 h => kept.symm ▸ inv.answered m1 m2 h
  | iHandleMsg4 inp =>
    simp only [Slot.call, iHandleMsg4_of_responder role]
    exact inv

theorem Slot.call_inv (ideal : P.Ideal) (inv : s.Inv P) (k : Call B) : (s.call P k).1.Inv P := by
  cases role : s.ctx.role with
  | initiator => exact Slot.call_inv_initiator ideal inv role k
  | responder => exact Slot.call_inv_responder inv role k

end Invariant

/-! ### Accepted messages -/

/-- What an accepted message says about the context that accepted it. -/
def Event.Sound (P : Primitives B) : Event B → Prop
  | .accepted2 m1 m2 m3 c => c.outcome.Sent P m1 m2 m3
  | .accepted3 m1 m2 m3 m4 c => ∃ p, Transcript P m1 m2 p c.outcome ∧
      aeadOpen P { prk := c.prk3e2m, th := c.th3, ct := m3, cap := pt3Len + 16 } = some p.write ∧
      c.peerNewPk = p.ead ∧ aeadSeal P c.prk4e3m c.th4 c.newPk.toList = some m4
  | .accepted4 before m4 c =>
      aeadOpen P { prk := c.prk4e3m, th := c.th4, ct := m4, cap := xwingPk + 16 } =
        some c.peerNewPk.toList ∧
      ∀ m1 m2 m3, before = some (m1, m2, m3) → c.outcome.Sent P m1 m2 m3

section Events

variable {s : Slot B} {c : Ctx B} {m1 m2 m3 m4 : List B} {outCap : Nat}

theorem rHandleMsg3_sound {coins : KeyCoins B} (answered : s.ctx.answer.Sent P m1 m2)
    (ok : rHandleMsg3 P m3 coins outCap s.ctx = (.ok m4, c)) :
    (Event.accepted3 m1 m2 m3 m4 c).Sound P := by
  obtain ⟨call, c₁, opened, pt3, dec, c₂, verify, make⟩ := rHandleMsg3_eq_ok.mp ok
  obtain ⟨-, rfl, rfl⟩ := rHandleMsg3Open_eq_ok.mp opened
  obtain ⟨p, rfl, mac, -, rfl⟩ := rVerifyMsg3_eq_ok.mp verify
  obtain ⟨new, -, sealed, -, rfl⟩ := rMakeMsg4_eq_ok.mp make
  exact ⟨p, ⟨answered.msg2, answered.mixed, mac, rfl, rfl, rfl, rfl⟩, dec, rfl, sealed⟩

omit [DecidableEq B] in
/-- An accepted message_4 was sealed under the keys of this context. -/
theorem iHandleMsg4_sound (inv : s.Inv P) {u : Unit} (ok : iHandleMsg4 P m4 s.ctx = (.ok u, c)) :
    (Event.accepted4 s.accepted m4 c).Sound P := by
  obtain ⟨-, pk, opened, rfl⟩ := iHandleMsg4_eq_ok.mp ok
  exact ⟨opened, inv.accepted⟩

theorem Slot.call_sound (ideal : P.Ideal) (inv : s.Inv P) (k : Call B) (e : Event B)
    (mem : e ∈ (s.call P k).2) : e.Sound P := by
  cases k with
  | iMakeMsg1 coins outCap =>
    rw [Slot.call] at mem
    split at mem <;> cases mem
  | rHandleMsg1 inp coins outCap =>
    rw [Slot.call] at mem
    split at mem <;> cases mem
  | iHandleMsg2 inp coins outCap =>
    rw [Slot.call] at mem
    split at mem
    · next ok sent =>
      obtain rfl := List.mem_singleton.mp mem
      exact iHandleMsg2_sent ideal (inv.sent _ sent) ok
    · cases mem
  | rHandleMsg3 inp coins outCap =>
    rw [Slot.call] at mem
    split at mem
    · next ok answered =>
      obtain rfl := List.mem_singleton.mp mem
      exact rHandleMsg3_sound (inv.answered _ _ answered) ok
    · cases mem
  | iHandleMsg4 inp =>
    rw [Slot.call] at mem
    split at mem
    · next ok =>
      obtain rfl := List.mem_singleton.mp mem
      exact iHandleMsg4_sound inv ok
    · cases mem

omit [DecidableEq B] in
/-- Both sides of one message_3 agree, and the responder learnt the initiator's next key. -/
theorem agree_of_message3 (ideal : P.Ideal) {m1' m2' : List B} {o : Outcome B} {cr : Ctx B}
    (hi : o.Sent P m1 m2 m3) (hr : (Event.accepted3 m1' m2' m3 m4 cr).Sound P) :
    Agreement m1 m2 m1' m2' o cr.outcome ∧ cr.peerNewPk = o.newPk := by
  obtain ⟨p, ti, sealed, newPk⟩ := hi.msg3
  obtain ⟨p', tr, opened, peerNewPk, -⟩ := hr
  obtain ⟨prk, th, text⟩ := ideal.aeadOpen_of_aeadSeal sealed opened
  obtain rfl : p = p' := by rw [← Pt3.read_write p, text, Pt3.read_write]
  exact ⟨ti.unique ideal tr prk th, peerNewPk.trans newPk.symm⟩

end Events

/-- In every run of any number of contexts: if an initiator accepted `m2` and answered
with `m3`, a responder accepted `m3` and answered with `m4`, and the initiator accepted
`m4`, then they agree on the handshake as of these calls and each has the other's next
key. If no other message_2 was handled in between, the initiator's context after
message_4 still agrees. -/
theorem agreement4 {ι : Type} [DecidableEq ι] (ideal : P.Ideal) {pool : ι → Slot B}
    (fresh : ∀ n, (pool n).Fresh) (calls : List (ι × Call B)) {i r : ι}
    {m1 m2 m1' m2' m3 m4 : List B} {before : Option (List B × List B × List B)}
    {ci cr ci' : Ctx B}
    (initiator : (i, .accepted2 m1 m2 m3 ci) ∈ (Pool.run (Slot.call P) pool calls).2)
    (responder : (r, .accepted3 m1' m2' m3 m4 cr) ∈ (Pool.run (Slot.call P) pool calls).2)
    (finish : (i, .accepted4 before m4 ci') ∈ (Pool.run (Slot.call P) pool calls).2) :
    Agreement m1 m2 m1' m2' ci.outcome cr.outcome ∧ cr.peerNewPk = ci.newPk ∧
      ci'.peerNewPk = cr.newPk ∧
      (before = some (m1, m2, m3) → Agreement m1 m2 m1' m2' ci'.outcome cr.outcome ∧
        cr.peerNewPk = ci'.newPk) := by
  have sound {n : ι} {e : Event B} (mem : (n, e) ∈ (Pool.run (Slot.call P) pool calls).2) :
      e.Sound P :=
    Pool.run_events (fun _ k inv => Slot.call_inv ideal inv k)
      (fun _ k e inv mem => Slot.call_sound ideal inv k e mem) calls (fun n => (fresh n).inv) mem
  have hr := sound responder
  obtain ⟨opened4, kept⟩ := sound finish
  obtain ⟨agree, learnt⟩ := agree_of_message3 ideal (sound initiator) hr
  obtain ⟨-, -, -, -, sealed4⟩ := hr
  have next : ci'.peerNewPk = cr.newPk :=
    (List.Vector.eq _ _ (ideal.aeadOpen_of_aeadSeal sealed4 opened4).2.2).symm
  exact ⟨agree, learnt, next, fun h => agree_of_message3 ideal (kept _ _ _ h) (sound responder)⟩

/-! ### A run of two symbolic parties -/

section SymbolicRun

open Symbolic

/-- Context 0 is the initiator, every other one a responder. -/
noncomputable def symbolicPool (ids : Ids) : Nat → Slot Sym
  | 0 => ⟨initInitiator (creds4 ids .initiator) (creds4 ids .responder).kemPk, none, none, none⟩
  | _ + 1 => ⟨initResponder (creds4 ids .responder) (creds4 ids .initiator).kemPk, none, none, none⟩

theorem symbolicPool_fresh (ids : Ids) (n : Nat) : (symbolicPool ids n).Fresh := by
  cases n with
  | zero => exact .initiator _ _
  | succ n => exact .responder _ _

def exchangeCalls {P : Primitives Sym} {I R : Creds Sym} {coins : RunCoins Sym}
    (x : Exchange P I R coins) : List (Nat × Call Sym) :=
  [(0, .iMakeMsg1 coins.msg1 maxMsg), (1, .rHandleMsg1 x.m1 coins.msg2 maxMsg),
    (0, .iHandleMsg2 x.m2 coins.msg3 maxMsg), (1, .rHandleMsg3 x.m3 coins.msg4 maxMsg),
    (0, .iHandleMsg4 x.m4)]

theorem exchange_events {ids : Ids} {coins : RunCoins Sym}
    (x : Exchange primitives (creds4 ids .initiator) (creds4 ids .responder) coins) :
    (Pool.run (Slot.call primitives) (symbolicPool ids) (exchangeCalls x)).2 =
      [(0, .accepted2 x.m1 x.m2 x.m3 x.i₂), (1, .accepted3 x.m1 x.m2 x.m3 x.m4 x.r₂),
        (0, .accepted4 (some (x.m1, x.m2, x.m3)) x.m4 x.i₃)] := by
  simp [Pool.run, exchangeCalls, symbolicPool, Slot.call, x.makeMsg1, x.handleMsg1, x.handleMsg2,
    x.handleMsg3, x.handleMsg4]

/-- The calls of `selftest.c` on two contexts. -/
theorem agreement4_selftest :
    ∃ (calls : List (Nat × Call Sym)) (m1 m2 m3 m4 : List Sym) (i r i' : Ctx Sym),
      (Pool.run (Slot.call primitives) (symbolicPool selftestIds) calls).2 =
        [(0, .accepted2 m1 m2 m3 i), (1, .accepted3 m1 m2 m3 m4 r),
          (0, .accepted4 (some (m1, m2, m3)) m4 i')] ∧
      Agreement m1 m2 m1 m2 i'.outcome r.outcome ∧ r.peerNewPk = i'.newPk ∧
      i'.peerNewPk = r.newPk := by
  obtain ⟨x, -⟩ := exchange_exists primitives_correct (creds4_valid selftestIds .initiator)
    (creds4_valid selftestIds .responder) runCoins
  have events := exchange_events x
  obtain ⟨-, -, next, kept⟩ := agreement4 primitives_ideal (symbolicPool_fresh selftestIds)
    (exchangeCalls x) (events ▸ List.mem_cons_self)
    (events ▸ List.mem_cons_of_mem _ List.mem_cons_self)
    (events ▸ List.mem_cons_of_mem _ (List.mem_cons_of_mem _ List.mem_cons_self))
  exact ⟨exchangeCalls x, x.m1, x.m2, x.m3, x.m4, x.i₂, x.r₂, x.i₃, events, (kept rfl).1,
    (kept rfl).2, next⟩

end SymbolicRun

end EdhocAuth.Edhoc4
