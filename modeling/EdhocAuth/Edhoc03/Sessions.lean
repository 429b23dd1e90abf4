/-
Agreement for methods 0 to 3 over any number of contexts and any schedule.

A slot is one context together with what its last `edhoc03_i_make_msg1` and its
last `edhoc03_r_handle_msg1` produced. Calls take arbitrary inputs, randomness and
capacities, and a failed call leaves the context as the handler left it.

The argument has three parts. What a context fixed with its first message survives
every later call (`Slot.Inv`, by the projections the handlers keep). Both sides of
an accepted message_3 satisfy one relation, `Transcript`. And under idealised
primitives `Transcript` is determined by the PRK, the transcript hash and the
plaintext that message_3 is bound to (`Transcript.unique`).
-/

import EdhocAuth.Lib.Pool
import EdhocAuth.Edhoc03.Honest
import EdhocAuth.Crypto.Parties

namespace EdhocAuth.Edhoc03

open Proc Primitives

variable {B : Type} [Octet B] [DecidableEq B] {P : Primitives B}

/-! ### Slots -/

inductive Call (B : Type) where
  | iMakeMsg1 (ephSk : Block B 32) (outCap : Nat)
  | rHandleMsg1 (inp : List B) (ephSk : Block B 32) (outCap : Nat)
  | iHandleMsg2 (inp : List B) (outCap : Nat)
  | rHandleMsg3 (inp : List B)
  | iHandleMsg4 (inp : List B)

/-- A context, the message_1 its last `edhoc03_i_make_msg1` produced, and the message_1
and message_2 of its last `edhoc03_r_handle_msg1`; `none` if there was no such call or
it failed. -/
structure Slot (B : Type) where
  ctx : Ctx B
  sent : Option (List B)
  answered : Option (List B × List B)

/-- An accepted message, with the messages before it and the context as of that call. -/
inductive Event (B : Type) where
  | accepted2 (m1 m2 m3 : List B) (ctx : Ctx B)
  | accepted3 (m1 m2 m3 : List B) (ctx : Ctx B)

def Slot.call (P : Primitives B) (s : Slot B) : Call B → Slot B × List (Event B)
  | .iMakeMsg1 ephSk outCap =>
    match iMakeMsg1 P ephSk outCap s.ctx with
    | (.ok m1, c) => ({ s with ctx := c, sent := some m1 }, [])
    | (.error _, c) => ({ s with ctx := c, sent := none }, [])
  | .rHandleMsg1 m1 ephSk outCap =>
    match rHandleMsg1 P m1 ephSk outCap s.ctx with
    | (.ok m2, c) => ({ s with ctx := c, answered := some (m1, m2) }, [])
    | (.error _, c) => ({ s with ctx := c, answered := none }, [])
  | .iHandleMsg2 m2 outCap =>
    match iHandleMsg2 P m2 outCap s.ctx, s.sent with
    | (.ok m3, c), some m1 => ({ s with ctx := c }, [.accepted2 m1 m2 m3 c])
    | (_, c), _ => ({ s with ctx := c }, [])
  | .rHandleMsg3 m3 =>
    match rHandleMsg3 P m3 s.ctx, s.answered with
    | (.ok _, c), some (m1, m2) => ({ s with ctx := c }, [.accepted3 m1 m2 m3 c])
    | (_, c), _ => ({ s with ctx := c }, [])
  | .iHandleMsg4 m4 => ({ s with ctx := (iHandleMsg4 m4 s.ctx).2 }, [])

/-- A slot right after `edhoc03_init_initiator` or `edhoc03_init_responder`. -/
inductive Slot.Fresh : Slot B → Prop
  | initiator (method : Int) (self : Creds B) (peer : Peer B) :
      Slot.Fresh ⟨initInitiator method self peer, none, none⟩
  | responder (self : Creds B) (peer : Peer B) : Slot.Fresh ⟨initResponder self peer, none, none⟩

/-! ### Views of a context -/

/-- What initialisation fixes for an initiator. -/
structure Setup (B : Type) where
  role : Role
  method : Int
  selfAuth : Auth
  peerAuth : Auth
  cR : Block B connId

/-- What is fixed once message_1 is out. -/
structure Offer (B : Type) extends Setup B where
  hMsg1 : Block B 32

/-- What is fixed once message_2 is out. -/
structure Answer (B : Type) extends Setup B where
  th2 : Block B 32
  th3 : Block B 32
  prk2e : Block B 32
  prk3e2m : Block B 32

def Ctx.setup (c : Ctx B) : Setup B := ⟨c.role, c.method, c.selfAuth, c.peerAuth, c.cR⟩

def Ctx.offer (c : Ctx B) : Offer B := ⟨c.setup, c.hMsg1⟩

def Ctx.answer (c : Ctx B) : Answer B := ⟨c.setup, c.th2, c.th3, c.prk2e, c.prk3e2m⟩

/-! ### What the handlers keep -/

section Keeps

omit [DecidableEq B] in
theorem iMakeMsg1_keeps_setup (ephSk : Block B 32) (outCap : Nat) :
    Keeps Ctx.setup (iMakeMsg1 P ephSk outCap) :=
  (iMakeMsg1_frame ephSk outCap).of_reads fun _ => rfl

omit [DecidableEq B] in
theorem rHandleMsg1_keeps_cR (inp : List B) (ephSk : Block B 32) (outCap : Nat) :
    Keeps (fun c => (c.role, c.cR)) (rHandleMsg1 P inp ephSk outCap) :=
  (rHandleMsg1_frame inp ephSk outCap).of_reads fun _ => rfl

theorem iHandleMsg2_keeps_offer (inp : List B) (outCap : Nat) :
    Keeps Ctx.offer (iHandleMsg2 P inp outCap) :=
  (iHandleMsg2_frame inp outCap).of_reads fun _ => rfl

theorem rHandleMsg3_keeps_answer (inp : List B) : Keeps Ctx.answer (rHandleMsg3 P inp) :=
  (rHandleMsg3_frame inp).of_reads fun _ => rfl

omit [Octet B] [DecidableEq B] in
theorem iHandleMsg4_keeps_offer (inp : List B) : Keeps Ctx.offer (iHandleMsg4 inp) :=
  (iHandleMsg4_frame inp).of_reads fun _ => rfl

end Keeps

/-! ### Calls in the wrong role change nothing -/

section WrongRole

variable {c : Ctx B} {inp : List B} {outCap : Nat} {ephSk : Block B 32}

omit [DecidableEq B] in
/-- A call in the other role is refused. -/
theorem iMakeMsg1_of_responder (h : c.role = .responder) :
    iMakeMsg1 P ephSk outCap c = (.error .state, c) :=
  load_require_error (by simp [h])

omit [DecidableEq B] in
theorem rHandleMsg1_of_initiator (h : c.role = .initiator) :
    rHandleMsg1 P inp ephSk outCap c = (.error .state, c) :=
  bind_error (load_require_error (by simp [h]))

theorem iHandleMsg2_of_responder (h : c.role = .responder) :
    iHandleMsg2 P inp outCap c = (.error .state, c) :=
  bind_error (load_require_error (by simp [h]))

theorem rHandleMsg3_of_initiator (h : c.role = .initiator) :
    rHandleMsg3 P inp c = (.error .state, c) :=
  bind_error (load_require_error (by simp [h]))

omit [Octet B] [DecidableEq B] in
theorem iHandleMsg4_of_responder (h : c.role = .responder) :
    iHandleMsg4 inp c = (.error .state, c) :=
  load_require_error (by simp [h])

end WrongRole

/-! ### What both sides of an accepted message_3 satisfy -/

/-- How an authentication moves the PRK, whichever side looks at it. -/
def Mixed (P : Primitives B) (auth : Auth) (prk prk' : Block B 32) : Prop :=
  match auth with
  | .sig => prk' = prk
  | .stat => ∃ ss, prk' = P.hkdfExtract prk ss

/-- The plaintext of a STAT authentication carries a MAC under the new PRK. -/
def Proved (P : Primitives B) (auth : Auth) (prk th prk' : Block B 32) (pt : List B) : Prop :=
  Mixed P auth prk prk' ∧
    (auth = .stat → ∃ id key, pt = AuthPt.write ⟨id, key, computeMac P prk' th id key⟩)

section Auth

variable {auth : Auth} {prk prk' th : Block B 32} {pt : List B}

omit [DecidableEq B] in
/-- The own authentication proves itself. -/
theorem SelfAuth.proved {self : Creds B} {peerEph : Block B 32}
    (h : SelfAuth P auth self peerEph prk th prk' pt) : Proved P auth prk th prk' pt := by
  cases auth with
  | stat =>
    obtain ⟨⟨ss, -, mixed⟩, written⟩ := h
    exact ⟨⟨ss, mixed⟩, fun _ => ⟨_, _, written⟩⟩
  | sig => exact ⟨h.1, fun no => nomatch no⟩

omit [DecidableEq B] in
/-- An authentication that is accepted was proved by the peer. -/
theorem PeerAuth.proved {peer : Peer B} {ephSk : Block B 32} {idCred : Block B idCredLen}
    (h : PeerAuth P auth peer ephSk prk th prk' idCred pt) : Proved P auth prk th prk' pt := by
  cases auth with
  | stat =>
    obtain ⟨⟨ss, -, mixed⟩, written⟩ := h
    exact ⟨⟨ss, mixed⟩, fun _ => ⟨_, _, written⟩⟩
  | sig => exact ⟨h.1, fun no => nomatch no⟩

omit [Octet B] [DecidableEq B] in
/-- The PRK before an authentication is determined by the one after it. -/
theorem Mixed.back (ideal : P.Ideal) {prk₁ prk₂ : Block B 32} (h₁ : Mixed P auth prk₁ prk')
    (h₂ : Mixed P auth prk₂ prk') : prk₁ = prk₂ := by
  cases auth with
  | sig => exact Eq.trans h₁.symm h₂
  | stat =>
    obtain ⟨ss₁, h₁⟩ := h₁
    obtain ⟨ss₂, h₂⟩ := h₂
    exact (ideal.hkdfExtract (h₁.symm.trans h₂)).1

omit [DecidableEq B] in
/-- The PRK after an authentication is determined by the one before and the plaintext. -/
theorem Proved.unique (ideal : P.Ideal) {prk₁ prk₂ : Block B 32}
    (h₁ : Proved P auth prk th prk₁ pt) (h₂ : Proved P auth prk th prk₂ pt) : prk₁ = prk₂ := by
  cases auth with
  | sig => exact Eq.trans h₁.1 h₂.1.symm
  | stat =>
    obtain ⟨id₁, key₁, written₁⟩ := h₁.2 rfl
    obtain ⟨id₂, key₂, written₂⟩ := h₂.2 rfl
    have macs := congrArg AuthPt.proof (AuthPt.write_inj (written₁.symm.trans written₂))
    exact (ideal.hkdfExpand (by decide) macs).1

end Auth

/-- The transcript of a handshake as one context saw it, up to the plaintext of
message_3. Neither the role nor the side's own secrets appear. -/
structure Transcript (P : Primitives B) (m1 m2 pt3 : List B) (initAuth respAuth : Auth)
    (c : Ctx B) : Prop where
  method : ∃ (b : UInt8) (rest : List B), m1 = Octet.ofByte b :: rest ∧
    initAuth = methodInitAuth b.toNat ∧ respAuth = methodRespAuth b.toNat
  msg2 : ∃ (gY : Block B xPk) (ct2 pt2 : List B), m2 = gY.toList ++ ct2 ∧
    c.th2 = P.sha256 (gY.toList ++ ((P.sha256 m1).toList ++ (octet 0x20 : Block B connId).toList)) ∧
    aeadSeal P c.prk2e c.th2 pt2 = some ct2 ∧ c.th3 = P.sha256 (c.th2.toList ++ pt2)
  mixed : Mixed P respAuth c.prk2e c.prk3e2m
  proved : Proved P initAuth c.prk3e2m c.th3 c.prk4e3m pt3
  th4 : c.th4 = P.sha256 (c.th3.toList ++ pt3)
  exported : c = deriveMsk P c

/-- Agreement of an initiator context that sent `m1` and accepted `m2` with a responder
context that answered `m1'` with `m2'`. -/
structure Agreement (m1 m2 m1' m2' : List B) (i r : Ctx B) : Prop where
  msg1 : m1' = m1
  msg2 : m2' = m2
  initAuth : i.selfAuth = r.peerAuth
  respAuth : i.peerAuth = r.selfAuth
  th2 : i.th2 = r.th2
  th3 : i.th3 = r.th3
  th4 : i.th4 = r.th4
  msk : i.msk = r.msk
  emsk : i.emsk = r.emsk

omit [DecidableEq B] in
/-- Two contexts whose message_3 is bound to one PRK, one TH3 and one plaintext saw the
same handshake. The method comes back through TH2, TH2 through TH3, and PRK2e through
the method. -/
theorem Transcript.unique (ideal : P.Ideal) {m1 m2 m1' m2' pt3 : List B} {i r : Ctx B}
    (hi : Transcript P m1 m2 pt3 i.selfAuth i.peerAuth i)
    (hr : Transcript P m1' m2' pt3 r.peerAuth r.selfAuth r)
    (prk : i.prk3e2m = r.prk3e2m) (th : i.th3 = r.th3) : Agreement m1 m2 m1' m2' i r := by
  obtain ⟨gY, ct2, pt2, m2eq, th2eq, sealed, th3eq⟩ := hi.msg2
  obtain ⟨gY', ct2', pt2', m2eq', th2eq', sealed', th3eq'⟩ := hr.msg2
  -- TH3 fixes TH2 and PT2, TH2 fixes G_Y and the hash of message_1
  obtain ⟨th2, text⟩ := Block.append_inj (ideal.sha256 (th3eq.symm.trans (th.trans th3eq')))
  obtain ⟨eph, rest⟩ := Block.append_inj (ideal.sha256 (th2eq.symm.trans (th2.trans th2eq')))
  obtain ⟨hash, -⟩ := Block.append_inj rest
  have msg1 : m1 = m1' := ideal.sha256 hash
  obtain ⟨b, m, first, initAuth, respAuth⟩ := hi.method
  obtain ⟨b', m', first', initAuth', respAuth'⟩ := hr.method
  have byte : b = b' := by
    rw [msg1, first'] at first
    exact (Octet.ofByte_inj.mp (List.cons.inj first).1).symm
  subst byte
  have sameInit : i.selfAuth = r.peerAuth := initAuth.trans initAuth'.symm
  have sameResp : i.peerAuth = r.selfAuth := respAuth.trans respAuth'.symm
  have prk2e : i.prk2e = r.prk2e := by
    have mixed := hi.mixed
    rw [sameResp, prk] at mixed
    exact mixed.back ideal hr.mixed
  have prk4e3m : i.prk4e3m = r.prk4e3m := by
    have proved := hi.proved
    rw [sameInit, prk, th] at proved
    exact proved.unique ideal hr.proved
  have th4 : i.th4 = r.th4 := by rw [hi.th4, hr.th4, th]
  have ct : ct2 = ct2' := by
    rw [prk2e, th2, text, sealed'] at sealed
    exact (Option.some.inj sealed).symm
  refine ⟨msg1.symm, by rw [m2eq, m2eq', eph, ct], sameInit, sameResp, th2, th, th4, ?_, ?_⟩
  · rw [hi.exported, hr.exported]
    simp only [deriveMsk, prk4e3m, th4]
  · rw [hi.exported, hr.exported]
    simp only [deriveMsk, prk4e3m, th4]

/-! ### The invariant of a slot -/

/-- Initialisation fixes C_R and the method of an initiator. -/
structure Setup.WellFormed (o : Setup B) : Prop where
  cR : o.cR = octet 0x20
  auth : o.role = .initiator →
    o.selfAuth = methodInitAuth o.method ∧ o.peerAuth = methodRespAuth o.method

/-- `m1` is the message_1 of an initiator. -/
structure Offer.Sent (P : Primitives B) (o : Offer B) (m1 : List B) : Prop where
  role : o.role = .initiator
  hash : o.hMsg1 = P.sha256 m1
  method : ∃ (b : UInt8) (rest : List B), m1 = Octet.ofByte b :: rest ∧ (b.toNat : Int) = o.method

/-- `m2` is what a responder answered to `m1`. -/
structure Answer.Sent (P : Primitives B) (a : Answer B) (m1 m2 : List B) : Prop where
  role : a.role = .responder
  method : ∃ (b : UInt8) (rest : List B), m1 = Octet.ofByte b :: rest ∧
    a.peerAuth = methodInitAuth b.toNat ∧ a.selfAuth = methodRespAuth b.toNat
  msg2 : ∃ (gY : Block B xPk) (ct2 pt2 : List B), m2 = gY.toList ++ ct2 ∧
    a.th2 = P.sha256 (gY.toList ++ ((P.sha256 m1).toList ++ (octet 0x20 : Block B connId).toList)) ∧
    aeadSeal P a.prk2e a.th2 pt2 = some ct2 ∧ a.th3 = P.sha256 (a.th2.toList ++ pt2)
  mixed : Mixed P a.selfAuth a.prk2e a.prk3e2m

structure Slot.Inv (P : Primitives B) (s : Slot B) : Prop where
  setup : s.ctx.setup.WellFormed
  sent : ∀ m1, s.sent = some m1 → s.ctx.offer.Sent P m1
  answered : ∀ m1 m2, s.answered = some (m1, m2) → s.ctx.answer.Sent P m1 m2

section Invariant

variable {s : Slot B} {c : Ctx B}

omit [DecidableEq B] in
/-- A new context has the invariant. -/
theorem Slot.Fresh.inv (fresh : s.Fresh) : s.Inv P := by
  cases fresh with
  | initiator method self peer =>
    exact ⟨⟨rfl, fun _ => ⟨rfl, rfl⟩⟩, fun _ h => (nomatch h), fun _ _ h => (nomatch h)⟩
  | responder self peer =>
    exact ⟨⟨rfl, fun h => (nomatch h)⟩, fun _ h => (nomatch h), fun _ _ h => (nomatch h)⟩

omit [DecidableEq B] in
/-- An initiator has answered nothing. -/
theorem Slot.Inv.not_answered (inv : s.Inv P) (role : s.ctx.role = .initiator) (m1 m2 : List B) :
    s.answered ≠ some (m1, m2) := by
  intro h
  have other : s.ctx.role = .responder := (inv.answered m1 m2 h).role
  rw [role] at other
  cases other

omit [DecidableEq B] in
/-- A responder has sent no message_1. -/
theorem Slot.Inv.not_sent (inv : s.Inv P) (role : s.ctx.role = .responder) (m1 : List B) :
    s.sent ≠ some m1 := by
  intro h
  have other : s.ctx.role = .initiator := (inv.sent m1 h).role
  rw [role] at other
  cases other

omit [DecidableEq B] in
/-- An initiator whose offer is kept keeps the invariant. -/
theorem Slot.Inv.offer_kept (inv : s.Inv P) (role : s.ctx.role = .initiator)
    (kept : c.offer = s.ctx.offer) : Slot.Inv P { s with ctx := c } where
  setup := by
    have setup : c.setup = s.ctx.setup := congrArg Offer.toSetup kept
    exact setup.symm ▸ inv.setup
  sent m1 h := kept.symm ▸ inv.sent m1 h
  answered m1 m2 h := (inv.not_answered role m1 m2 h).elim

omit [DecidableEq B] in
/-- A responder whose answer is kept keeps the invariant. -/
theorem Slot.Inv.answer_kept (inv : s.Inv P) (role : s.ctx.role = .responder)
    (kept : c.answer = s.ctx.answer) : Slot.Inv P { s with ctx := c } where
  setup := by
    have setup : c.setup = s.ctx.setup := congrArg Answer.toSetup kept
    exact setup.symm ▸ inv.setup
  sent m1 h := (inv.not_sent role m1 h).elim
  answered m1 m2 h := kept.symm ▸ inv.answered m1 m2 h

omit [DecidableEq B] in
/-- A context that sent message_1 holds its hash. -/
theorem iMakeMsg1_sent {ephSk : Block B 32} {outCap : Nat} {m1 : List B}
    (ok : iMakeMsg1 P ephSk outCap s.ctx = (.ok m1, c)) : c.offer.Sent P m1 := by
  obtain ⟨role, valid, -, rfl, rfl⟩ := iMakeMsg1_eq_ok.mp ok
  exact ⟨role, rfl, _, _, rfl, toNat_ofNat_method valid⟩

omit [DecidableEq B] in
/-- A context that answered message_1 holds the hashes of both messages. -/
theorem rHandleMsg1_sent {ephSk : Block B 32} {outCap : Nat} {m1 m2 : List B}
    (cR : s.ctx.cR = octet 0x20) (ok : rHandleMsg1 P m1 ephSk outCap s.ctx = (.ok m2, c)) :
    c.answer.Sent P m1 m2 := by
  obtain ⟨c₁, keys, make⟩ := rHandleMsg1_eq_ok.mp ok
  obtain ⟨role, b, gX, cI, rfl, -, ssE, -, th2, rfl, rfl⟩ := rHandleMsg1Keys_eq_ok.mp keys
  obtain ⟨prk3e2m, pt2, auth, ct2, sealed, -, rfl, rfl⟩ := rMakeMsg2_eq_ok.mp make
  exact ⟨role, ⟨b, _, rfl, rfl, rfl⟩, ⟨_, ct2, pt2, rfl, by rw [← cR]; rfl, sealed, rfl⟩,
    auth.proved.1⟩

/-- Every call to an initiator keeps the invariant. -/
theorem Slot.call_inv_initiator (inv : s.Inv P) (role : s.ctx.role = .initiator) (k : Call B) :
    (s.call P k).1.Inv P := by
  cases k with
  | iMakeMsg1 ephSk outCap =>
    have kept := iMakeMsg1_keeps_setup (P := P) ephSk outCap s.ctx
    rw [Slot.call]
    split <;> next ok =>
      rw [ok] at kept
      refine ⟨kept.symm ▸ inv.setup, fun m h => ?_,
        fun m1 m2 h => (inv.not_answered role m1 m2 h).elim⟩
      cases h
      try exact iMakeMsg1_sent ok
  | rHandleMsg1 inp ephSk outCap =>
    simp only [Slot.call, rHandleMsg1_of_initiator role]
    exact ⟨inv.setup, inv.sent, fun _ _ h => (nomatch h)⟩
  | iHandleMsg2 inp outCap =>
    have kept := iHandleMsg2_keeps_offer (P := P) inp outCap s.ctx
    rw [Slot.call]
    split <;> next ok _ =>
      rw [ok] at kept
      exact inv.offer_kept role kept
  | rHandleMsg3 inp =>
    simp only [Slot.call, rHandleMsg3_of_initiator role]
    exact inv
  | iHandleMsg4 inp => exact inv.offer_kept role (iHandleMsg4_keeps_offer inp s.ctx)

/-- Every call to a responder keeps the invariant. -/
theorem Slot.call_inv_responder (inv : s.Inv P) (role : s.ctx.role = .responder) (k : Call B) :
    (s.call P k).1.Inv P := by
  cases k with
  | iMakeMsg1 ephSk outCap =>
    simp only [Slot.call, iMakeMsg1_of_responder role]
    exact ⟨inv.setup, fun _ h => (nomatch h), inv.answered⟩
  | rHandleMsg1 inp ephSk outCap =>
    have kept := rHandleMsg1_keeps_cR (P := P) inp ephSk outCap s.ctx
    have setup (c : Ctx B) (h : (c.role, c.cR) = (s.ctx.role, s.ctx.cR)) : c.setup.WellFormed := by
      obtain ⟨sameRole, sameCR⟩ := Prod.mk.inj h
      refine ⟨sameCR.trans inv.setup.cR, fun initiator => ?_⟩
      rw [role] at sameRole
      exact nomatch sameRole.symm.trans initiator
    rw [Slot.call]
    split <;> next ok =>
      rw [ok] at kept
      refine ⟨setup _ kept, fun m1 h => (inv.not_sent role m1 h).elim, fun m1 m2 h => ?_⟩
      cases h
      try exact rHandleMsg1_sent inv.setup.cR ok
  | iHandleMsg2 inp outCap =>
    simp only [Slot.call, iHandleMsg2_of_responder role]
    exact inv
  | rHandleMsg3 inp =>
    have kept := rHandleMsg3_keeps_answer (P := P) inp s.ctx
    rw [Slot.call]
    split <;> next ok _ =>
      rw [ok] at kept
      exact inv.answer_kept role kept
  | iHandleMsg4 inp =>
    simp only [Slot.call, iHandleMsg4_of_responder role]
    exact inv

/-- Every call keeps the invariant. -/
theorem Slot.call_inv (inv : s.Inv P) (k : Call B) : (s.call P k).1.Inv P := by
  cases role : s.ctx.role with
  | initiator => exact Slot.call_inv_initiator inv role k
  | responder => exact Slot.call_inv_responder inv role k

end Invariant

/-! ### Accepted messages -/

/-- What an accepted message says about the context that accepted it. -/
def Event.Sound (P : Primitives B) : Event B → Prop
  | .accepted2 m1 m2 m3 c => ∃ pt3, Transcript P m1 m2 pt3 c.selfAuth c.peerAuth c ∧
      aeadSeal P c.prk3e2m c.th3 pt3 = some m3
  | .accepted3 m1 m2 m3 c => ∃ pt3, Transcript P m1 m2 pt3 c.peerAuth c.selfAuth c ∧
      aeadOpen P { prk := c.prk3e2m, th := c.th3, ct := m3, cap := ptCap } = some pt3

section Events

variable {s : Slot B} {c : Ctx B} {m1 m2 m3 out : List B}

/-- An accepted message_2 was proved on the transcript of this context. -/
theorem iHandleMsg2_sound (ideal : P.Ideal) (setup : s.ctx.setup.WellFormed)
    (sent : s.ctx.offer.Sent P m1) {outCap : Nat}
    (ok : iHandleMsg2 P m2 outCap s.ctx = (.ok m3, c)) :
    (Event.accepted2 m1 m2 m3 c).Sound P := by
  obtain ⟨call, c₁, opened, pt2, dec, prk3e2m, idCred, peer, make⟩ := iHandleMsg2_eq_ok.mp ok
  obtain ⟨-, gY, ct2, rfl, -, ssE, -, th2, rfl, rfl, rfl⟩ := iHandleMsg2Open_eq_ok.mp opened
  obtain ⟨prk4e3m, pt3, self, sealed, -, rfl⟩ := iMakeMsg3_eq_ok.mp make
  obtain ⟨selfAuth, peerAuth⟩ := setup.auth sent.role
  obtain ⟨b, rest, first, method⟩ := sent.method
  refine ⟨pt3, ⟨⟨b, rest, first, ?_, ?_⟩, ⟨gY, ct2, pt2, rfl, ?_, ideal.opened dec, rfl⟩,
    peer.proved.1, self.proved, rfl, rfl⟩, sealed⟩
  · rw [method]
    exact selfAuth
  · rw [method]
    exact peerAuth
  · rw [← sent.hash, ← setup.cR]
    rfl

/-- An accepted message_3 was proved on the transcript of this context. -/
theorem rHandleMsg3_sound (answered : s.ctx.answer.Sent P m1 m2)
    (ok : rHandleMsg3 P m3 s.ctx = (.ok out, c)) : (Event.accepted3 m1 m2 m3 c).Sound P := by
  obtain ⟨-, -, pt3, dec, prk4e3m, idCred, peer, rfl⟩ := rHandleMsg3_eq_ok.mp ok
  exact ⟨pt3, ⟨answered.method, answered.msg2, answered.mixed, peer.proved, rfl, rfl⟩, dec⟩

/-- Every event of a call is sound. -/
theorem Slot.call_sound (ideal : P.Ideal) (inv : s.Inv P) (k : Call B) (e : Event B)
    (mem : e ∈ (s.call P k).2) : e.Sound P := by
  cases k with
  | iMakeMsg1 ephSk outCap =>
    rw [Slot.call] at mem
    split at mem <;> cases mem
  | rHandleMsg1 inp ephSk outCap =>
    rw [Slot.call] at mem
    split at mem <;> cases mem
  | iHandleMsg2 inp outCap =>
    rw [Slot.call] at mem
    split at mem
    · next ok sent =>
      obtain rfl := List.mem_singleton.mp mem
      exact iHandleMsg2_sound ideal inv.setup (inv.sent _ sent) ok
    · cases mem
  | rHandleMsg3 inp =>
    rw [Slot.call] at mem
    split at mem
    · next ok answered =>
      obtain rfl := List.mem_singleton.mp mem
      exact rHandleMsg3_sound (inv.answered _ _ answered) ok
    · cases mem
  | iHandleMsg4 inp => cases mem

end Events

/-- In every run of any number of contexts, an initiator and a responder that accepted
one message_3 agree on the whole handshake, the method included. -/
theorem agreement {ι : Type} [DecidableEq ι] (ideal : P.Ideal) {pool : ι → Slot B}
    (fresh : ∀ n, (pool n).Fresh) (calls : List (ι × Call B)) {i r : ι}
    {m1 m2 m1' m2' m3 : List B} {ci cr : Ctx B}
    (initiator : (i, .accepted2 m1 m2 m3 ci) ∈ (Pool.run (Slot.call P) pool calls).2)
    (responder : (r, .accepted3 m1' m2' m3 cr) ∈ (Pool.run (Slot.call P) pool calls).2) :
    Agreement m1 m2 m1' m2' ci cr := by
  have sound {n : ι} {e : Event B} (mem : (n, e) ∈ (Pool.run (Slot.call P) pool calls).2) :
      e.Sound P :=
    Pool.run_events (fun _ k inv => Slot.call_inv inv k)
      (fun _ k e inv mem => Slot.call_sound ideal inv k e mem) calls (fun n => (fresh n).inv) mem
  obtain ⟨pt3, hi, sealed⟩ := sound initiator
  obtain ⟨pt3', hr, opened⟩ := sound responder
  obtain ⟨prk, th, rfl⟩ := ideal.aeadOpen_of_aeadSeal sealed opened
  exact hi.unique ideal hr prk th

/-! ### A run of two symbolic parties -/

section SymbolicRun

open Symbolic

/-- Context 0 is the initiator with the given method, every other one a responder. -/
noncomputable def symbolicPool (ids : Ids) (method : Int) : Nat → Slot Sym
  | 0 => ⟨initInitiator method (creds03 ids .initiator) (creds03 ids .responder).pub, none, none⟩
  | _ + 1 => ⟨initResponder (creds03 ids .responder) (creds03 ids .initiator).pub, none, none⟩

theorem symbolicPool_fresh (ids : Ids) (method : Int) (n : Nat) :
    (symbolicPool ids method n).Fresh := by
  cases n with
  | zero => exact .initiator _ _ _
  | succ n => exact .responder _ _

def exchangeCalls {P : Primitives Sym} {method : Int} {I R : Creds Sym} {coins : RunCoins Sym}
    (x : Exchange P method I R coins) : List (Nat × Call Sym) :=
  [(0, .iMakeMsg1 coins.x maxMsg), (1, .rHandleMsg1 x.m1 coins.y maxMsg),
    (0, .iHandleMsg2 x.m2 maxMsg), (1, .rHandleMsg3 x.m3)]

/-- The two events of an honest exchange. -/
theorem exchange_events {ids : Ids} {method : Int} {coins : RunCoins Sym}
    (x : Exchange primitives method (creds03 ids .initiator) (creds03 ids .responder) coins) :
    (Pool.run (Slot.call primitives) (symbolicPool ids method) (exchangeCalls x)).2 =
      [(0, .accepted2 x.m1 x.m2 x.m3 x.i₂), (1, .accepted3 x.m1 x.m2 x.m3 x.r₂)] := by
  simp [Pool.run, exchangeCalls, symbolicPool, Slot.call, x.makeMsg1, x.handleMsg1, x.handleMsg2,
    x.handleMsg3]

/-- Method 3, static keys on both sides: the run has both acceptances, and they agree. -/
theorem agreement_method3 :
    ∃ (calls : List (Nat × Call Sym)) (m1 m2 m3 : List Sym) (i r : Ctx Sym),
      (0, .accepted2 m1 m2 m3 i) ∈ (Pool.run (Slot.call primitives)
        (symbolicPool selftestIds 3) calls).2 ∧
      (1, .accepted3 m1 m2 m3 r) ∈ (Pool.run (Slot.call primitives)
        (symbolicPool selftestIds 3) calls).2 ∧
      Agreement m1 m2 m1 m2 i r := by
  obtain ⟨x, -⟩ := exchange_exists primitives_correct (show methodValid 3 = true by decide)
    (creds03_valid selftestIds .initiator) (creds03_valid selftestIds .responder)
    ⟨fresh 32 (.session 0 0), fresh 32 (.session 1 0)⟩
  have hi : (0, .accepted2 x.m1 x.m2 x.m3 x.i₂) ∈ (Pool.run (Slot.call primitives)
      (symbolicPool selftestIds 3) (exchangeCalls x)).2 := by
    rw [exchange_events]
    exact List.mem_cons_self
  have hr : (1, .accepted3 x.m1 x.m2 x.m3 x.r₂) ∈ (Pool.run (Slot.call primitives)
      (symbolicPool selftestIds 3) (exchangeCalls x)).2 := by
    rw [exchange_events]
    exact List.mem_cons_of_mem _ List.mem_cons_self
  exact ⟨exchangeCalls x, x.m1, x.m2, x.m3, x.i₂, x.r₂, hi, hr,
    agreement primitives_ideal (symbolicPool_fresh _ _) _ hi hr⟩

end SymbolicRun

end EdhocAuth.Edhoc03
