/-
The API of the two cores as calls on one context.

Both cores have the same five handlers, told apart by `Handler`; `invoke` is a call
with its input, randomness and capacity. The handlers that consume a message fall into
a receiving half, which checks it, and a sending half, which builds the answer. When a
receiving half returns, the message was authentic for what the context held before the
call (`Ctx.Authentic2` and so on): nothing else about the order of the calls is checked.
-/

import EdhocAuth.Lib.Runs
import EdhocAuth.Edhoc03.Sessions
import EdhocAuth.Edhoc4.Sessions

namespace EdhocAuth

open Proc Primitives

inductive Handler where
  | iMakeMsg1 | rHandleMsg1 | iHandleMsg2 | rHandleMsg3 | iHandleMsg4
deriving DecidableEq, Repr

/-- The handler before this one on the same side of a handshake. -/
def Handler.needs : Handler → Option Handler
  | .iMakeMsg1 => none
  | .rHandleMsg1 => none
  | .iHandleMsg2 => some .iMakeMsg1
  | .rHandleMsg3 => some .rHandleMsg1
  | .iHandleMsg4 => some .iHandleMsg2

variable {B : Type} [Octet B] [DecidableEq B] {P : Primitives B}

/-! ### Method 4 -/

namespace Edhoc4

def Call.handler : Call B → Handler
  | .iMakeMsg1 _ _ => .iMakeMsg1
  | .rHandleMsg1 _ _ _ => .rHandleMsg1
  | .iHandleMsg2 _ _ _ => .iHandleMsg2
  | .rHandleMsg3 _ _ _ => .rHandleMsg3
  | .iHandleMsg4 _ => .iHandleMsg4

def Call.role : Call B → Role
  | .iMakeMsg1 _ _ => .initiator
  | .rHandleMsg1 _ _ _ => .responder
  | .iHandleMsg2 _ _ _ => .initiator
  | .rHandleMsg3 _ _ _ => .responder
  | .iHandleMsg4 _ => .initiator

/-- A call of the API; `edhoc4_i_handle_msg4` has no output. -/
def invoke (P : Primitives B) : Call B → Proc (Ctx B) Err (List B)
  | .iMakeMsg1 coins outCap => iMakeMsg1 P coins outCap
  | .rHandleMsg1 inp coins outCap => rHandleMsg1 P inp coins outCap
  | .iHandleMsg2 inp coins outCap => iHandleMsg2 P inp coins outCap
  | .rHandleMsg3 inp coins outCap => rHandleMsg3 P inp coins outCap
  | .iHandleMsg4 inp => do
    iHandleMsg4 P inp
    return []

/-- A context right after `edhoc4_init_initiator` or `edhoc4_init_responder`. -/
inductive Ctx.Fresh : Ctx B → Prop
  | initiator (self : Creds B) (peerKemPk : Block B xwingPk) :
      Ctx.Fresh (initInitiator self peerKemPk)
  | responder (self : Creds B) (peerKemPk : Block B xwingPk) :
      Ctx.Fresh (initResponder self peerKemPk)

theorem Role.eq_initiator {r : Role} (other : r ≠ .responder) : r = .initiator := by
  cases r with
  | initiator => rfl
  | responder => exact absurd rfl other

theorem Role.eq_responder {r : Role} (other : r ≠ .initiator) : r = .responder := by
  cases r with
  | initiator => exact absurd rfl other
  | responder => rfl

/-- A call in the wrong role is refused and changes nothing. -/
theorem invoke_of_other_role {k : Call B} {c : Ctx B} (other : c.role ≠ k.role) :
    invoke P k c = (.error .state, c) := by
  cases k with
  | iMakeMsg1 coins outCap => exact iMakeMsg1_of_responder (Role.eq_responder other)
  | rHandleMsg1 inp coins outCap => exact rHandleMsg1_of_initiator (Role.eq_initiator other)
  | iHandleMsg2 inp coins outCap => exact iHandleMsg2_of_responder (Role.eq_responder other)
  | rHandleMsg3 inp coins outCap => exact rHandleMsg3_of_initiator (Role.eq_initiator other)
  | iHandleMsg4 inp => exact bind_error (iHandleMsg4_of_responder (Role.eq_responder other))

/-- No call changes the role of a context. -/
theorem invoke_keeps_role (k : Call B) : Keeps Ctx.role (invoke P k) := by
  cases k with
  | iMakeMsg1 coins outCap => exact (iMakeMsg1_frame coins outCap).of_reads fun _ => rfl
  | rHandleMsg1 inp coins outCap => exact (rHandleMsg1_frame inp coins outCap).of_reads fun _ => rfl
  | iHandleMsg2 inp coins outCap => exact (iHandleMsg2_frame inp coins outCap).of_reads fun _ => rfl
  | rHandleMsg3 inp coins outCap => exact (rHandleMsg3_frame inp coins outCap).of_reads fun _ => rfl
  | iHandleMsg4 inp =>
    have keeps : Keeps Ctx.role (iHandleMsg4 P inp) := (iHandleMsg4_frame inp).of_reads fun _ => rfl
    exact keeps.bind fun _ => Keeps.pure []

/-! #### Authentic messages -/

/-- `inp` is a message_1 with the ephemeral key `pkX`, for the static key of the context. -/
def Ctx.Authentic1 (P : Primitives B) (c : Ctx B) (inp : List B) (pkX : Block B xwingPk) : Prop :=
  c.role = .responder ∧
  ∃ (ctB : Block B xwingCt) (ct1 : List B),
    inp = ctB.toList ++ (pkX.toList ++ ct1) ∧ 2 + aeadTag ≤ ct1.length ∧
  ∃ ssB, xwingDecaps P ctB c.self.kemSk = some ssB ∧
  ∃ th1, th1 = P.sha256 (pkX.toList ++ ctB.toList) ∧
  ∃ pt1, aeadOpen P { prk := P.hkdfExtract th1 ssB, th := th1, ct := ct1, cap := 64 } =
      some pt1 ∧
    2 ≤ pt1.length ∧ pt1.head? = some (Octet.ofByte 0x04)

/-- `inp` is a message_2 with a valid MAC and signature under the ephemeral key, the
hash of message_1 and `ss_b` of the context. -/
def Ctx.Authentic2 (P : Primitives B) (c : Ctx B) (inp : List B) : Prop :=
  c.role = .initiator ∧
  ∃ (cte : Block B xwingCt) (ct2 : List B), inp = cte.toList ++ ct2 ∧ aeadTag ≤ ct2.length ∧
  ∃ ssE, xwingDecaps P cte c.ephSk = some ssE ∧
  ∃ th2, th2 = P.sha256 (c.hMsg1.toList ++ (cte.toList ++ (octet 0x20 : Block B 1).toList)) ∧
  ∃ prk2e, prk2e = P.hkdfExtract th2 ssE ∧
  ∃ p : Pt2 B, aeadOpen P { prk := prk2e, th := th2, ct := ct2, cap := pt2Len + 16 } =
      some p.write ∧
    computeMac P (P.hkdfExtract prk2e c.ssB) th2 p.idCred [] = p.mac ∧
    P.mldsaVerify p.sig (sigMessage th2 p.idCred p.mac) p.sigVk = true ∧
    (xwingDecaps P p.ctA c.self.kemSk).isSome

/-- `inp` is a message_3 with a valid MAC and signature under PRK3e2m, TH3 and `ss_a`
of the context. -/
def Ctx.Authentic3 (P : Primitives B) (c : Ctx B) (inp : List B) : Prop :=
  c.role = .responder ∧
  ∃ p : Pt3 B, aeadOpen P { prk := c.prk3e2m, th := c.th3, ct := inp, cap := pt3Len + 16 } =
      some p.write ∧
    computeMac P (P.hkdfExtract c.prk3e2m c.ssA) c.th3 p.idCred p.ead.toList = p.mac ∧
    P.mldsaVerify p.sig (sigMessage c.th3 p.idCred p.mac) p.sigVk = true

/-- `inp` is a message_4 under PRK4e3m and TH4 of the context. -/
def Ctx.Authentic4 (P : Primitives B) (c : Ctx B) (inp : List B) : Prop :=
  c.role = .initiator ∧
  ∃ pk : Block B xwingPk,
    aeadOpen P { prk := c.prk4e3m, th := c.th4, ct := inp, cap := xwingPk + 16 } = some pk.toList

/-! #### Receiving halves -/

/-- `edhoc4_r_handle_msg1` up to `C_I`. -/
def rReceiveMsg1 (P : Primitives B) (inp : List B) : Proc (Ctx B) Err Unit := do
  let call ← rHandleMsg1Open P inp
  let pt1 ← demand (aeadOpen P call) .aead
  require (2 ≤ pt1.length ∧ pt1.head? = some (Octet.ofByte 0x04)) .parse
  store fun c => { c with cI := readBlock 1 (pt1.drop 1) }

/-- `edhoc4_i_handle_msg2` up to PRK4e3m. -/
def iReceiveMsg2 (P : Primitives B) (inp : List B) : Proc (Ctx B) Err Unit := do
  let call ← iHandleMsg2Open P inp
  let pt2 ← demand (aeadOpen P call) .aead
  iVerifyMsg2 P pt2

def rReceiveMsg3 (P : Primitives B) (inp : List B) : Proc (Ctx B) Err Unit := do
  let call ← rHandleMsg3Open P inp
  let pt3 ← demand (aeadOpen P call) .aead
  rVerifyMsg3 P pt3

section Halves

variable {c c' : Ctx B} {inp out : List B} {outCap : Nat}

/-- The handler is the check of message_1 followed by message_2. -/
theorem rHandleMsg1_eq_halves (inp : List B) (coins : Msg2Coins B) (outCap : Nat) :
    rHandleMsg1 P inp coins outCap =
      rReceiveMsg1 P inp >>= fun _ => rMakeMsg2 P inp coins outCap := by
  simp only [rHandleMsg1, rReceiveMsg1, bind_assoc]

/-- The handler is the check of message_2 followed by message_3. -/
theorem iHandleMsg2_eq_halves (inp : List B) (coins : Msg3Coins B) (outCap : Nat) :
    iHandleMsg2 P inp coins outCap = iReceiveMsg2 P inp >>= fun _ => iMakeMsg3 P coins outCap := by
  simp only [iHandleMsg2, iReceiveMsg2, bind_assoc]

/-- The handler is the check of message_3 followed by message_4. -/
theorem rHandleMsg3_eq_halves (inp : List B) (coins : KeyCoins B) (outCap : Nat) :
    rHandleMsg3 P inp coins outCap = rReceiveMsg3 P inp >>= fun _ => rMakeMsg4 P coins outCap := by
  simp only [rHandleMsg3, rReceiveMsg3, bind_assoc]

/-- A message_1 that is accepted is authentic for the key it leaves. -/
theorem rReceiveMsg1_authentic {u : Unit} (ok : rReceiveMsg1 P inp c = (.ok u, c')) :
    c.Authentic1 P inp c'.ephPk := by
  simp only [rReceiveMsg1, bind_eq_ok, demand_eq_ok, require_eq_ok, store_eq_ok, and_assoc,
    exists_and_left, exists_eq_left, exists_const] at ok
  obtain ⟨call, c₁, opened, pt1, dec, long, method, rfl⟩ := ok
  obtain ⟨role, ctB, pkX, ct1, rfl, tagged, ssB, decaps, th1, rfl, rfl, rfl⟩ :=
    rHandleMsg1Open_eq_ok.mp opened
  exact ⟨role, ctB, ct1, rfl, tagged, ssB, decaps, _, rfl, pt1, dec, long, method⟩

theorem iReceiveMsg2_eq_ok {u : Unit} :
    iReceiveMsg2 P inp c = (.ok u, c') ↔
      ∃ call c₁, iHandleMsg2Open P inp c = (.ok call, c₁) ∧
      ∃ pt2, aeadOpen P call = some pt2 ∧ iVerifyMsg2 P pt2 c₁ = (.ok u, c') := by
  simp only [iReceiveMsg2, bind_eq_ok, demand_eq_ok, and_assoc, exists_and_left, exists_eq_left]

theorem rReceiveMsg3_eq_ok {u : Unit} :
    rReceiveMsg3 P inp c = (.ok u, c') ↔
      ∃ call c₁, rHandleMsg3Open P inp c = (.ok call, c₁) ∧
      ∃ pt3, aeadOpen P call = some pt3 ∧ rVerifyMsg3 P pt3 c₁ = (.ok u, c') := by
  simp only [rReceiveMsg3, bind_eq_ok, demand_eq_ok, and_assoc, exists_and_left, exists_eq_left]

/-- A message_2 that passes the first half is authentic. -/
theorem iReceiveMsg2_authentic {u : Unit} (ok : iReceiveMsg2 P inp c = (.ok u, c')) :
    c.Authentic2 P inp := by
  obtain ⟨call, c₁, opened, pt2, dec, verified⟩ := iReceiveMsg2_eq_ok.mp ok
  obtain ⟨role, cte, ct2, rfl, long, ssE, decaps, th2, rfl, rfl, rfl⟩ :=
    iHandleMsg2Open_eq_ok.mp opened
  obtain ⟨p, rfl, prk3e2m, rfl, mac, sig, ssA, decapsA, -⟩ := iVerifyMsg2_eq_ok.mp verified
  exact ⟨role, cte, ct2, rfl, long, ssE, decaps, _, rfl, _, rfl, p, dec, mac, sig,
    Option.isSome_of_eq_some decapsA⟩

/-- A message_3 that passes the first half is authentic. -/
theorem rReceiveMsg3_authentic {u : Unit} (ok : rReceiveMsg3 P inp c = (.ok u, c')) :
    c.Authentic3 P inp := by
  obtain ⟨call, c₁, opened, pt3, dec, verified⟩ := rReceiveMsg3_eq_ok.mp ok
  obtain ⟨role, rfl, rfl⟩ := rHandleMsg3Open_eq_ok.mp opened
  obtain ⟨p, rfl, mac, sig, -⟩ := rVerifyMsg3_eq_ok.mp verified
  exact ⟨role, p, dec, mac, sig⟩

/-- A message_2 that is accepted is authentic. -/
theorem iHandleMsg2_authentic {coins : Msg3Coins B}
    (ok : iHandleMsg2 P inp coins outCap c = (.ok out, c')) : c.Authentic2 P inp := by
  rw [iHandleMsg2_eq_halves] at ok
  obtain ⟨u, c₁, received, -⟩ := bind_eq_ok.mp ok
  exact iReceiveMsg2_authentic received

/-- A message_3 that is accepted is authentic. -/
theorem rHandleMsg3_authentic {coins : KeyCoins B}
    (ok : rHandleMsg3 P inp coins outCap c = (.ok out, c')) : c.Authentic3 P inp := by
  rw [rHandleMsg3_eq_halves] at ok
  obtain ⟨u, c₁, received, -⟩ := bind_eq_ok.mp ok
  exact rReceiveMsg3_authentic received

omit [DecidableEq B] in
/-- A message_4 that is accepted is authentic. -/
theorem iHandleMsg4_authentic {u : Unit} (ok : iHandleMsg4 P inp c = (.ok u, c')) :
    c.Authentic4 P inp := by
  obtain ⟨role, pk, opened, -⟩ := iHandleMsg4_eq_ok.mp ok
  exact ⟨role, pk, opened⟩

/-- The fields that the check of message_1 may assign. -/
theorem rReceiveMsg1_frame (inp : List B) :
    Keeps (fun c => { c with
      ephPk := zeros _, ssB := zeros _, th1 := zeros _, prk1e := zeros _, cI := zeros _ })
      (rReceiveMsg1 P inp) := by
  unfold rReceiveMsg1 rHandleMsg1Open
  repeat' first
    | refine Keeps.bind ?_ fun _ => ?_
    | exact Keeps.store fun _ => rfl
    | simp only [Keeps.load, Keeps.require, Keeps.demand, Keeps.pure]

/-- The receiving half of the message_2 handler assigns PRK4e3m when nothing can fail any
more. -/
theorem iReceiveMsg2_failsClean (inp : List B) :
    FailsClean (fun c => { c with
      ssE := zeros _, cR := zeros _, th2 := zeros _, prk2e := zeros _, ctA := zeros _
      peerIdCred := zeros _, peerSigVk := zeros _, prk3e2m := zeros _, th3 := zeros _ })
      (iReceiveMsg2 P inp) := by
  unfold iReceiveMsg2 iHandleMsg2Open iVerifyMsg2
  repeat' first
    | exact FailsClean.of_returns fun _ => ⟨_, _, rfl⟩
    | refine FailsClean.bind ?_ fun _ => ?_
    | refine Keeps.bind ?_ fun _ => ?_
    | exact Keeps.store fun _ => rfl
    | simp only [Keeps.load, Keeps.require, Keeps.demand, Keeps.pure]

/-- The message_2 handler exports keys when nothing can fail any more. -/
theorem iHandleMsg2_failsClean (inp : List B) (coins : Msg3Coins B) (outCap : Nat) :
    FailsClean (fun c => { c with
      ssE := zeros _, cR := zeros _, th2 := zeros _, prk2e := zeros _, ctA := zeros _
      peerIdCred := zeros _, peerSigVk := zeros _, prk3e2m := zeros _, th3 := zeros _
      ssA := zeros _, prk4e3m := zeros _, newPk := zeros _, newSk := zeros _, th4 := zeros _ })
      (iHandleMsg2 P inp coins outCap) := by
  unfold iHandleMsg2 iHandleMsg2Open iVerifyMsg2 iMakeMsg3
  repeat' first
    | exact FailsClean.of_returns fun _ => ⟨_, _, rfl⟩
    | refine FailsClean.bind ?_ fun _ => ?_
    | refine Keeps.bind ?_ fun _ => ?_
    | exact Keeps.store fun _ => rfl
    | simp only [Keeps.load, Keeps.require, Keeps.demand, Keeps.pure]

/-- The receiving half of the message_3 handler derives keys when nothing can fail any
more; the other half can still fail. -/
theorem rReceiveMsg3_failsClean (inp : List B) :
    FailsClean (fun c => { c with
      prk4e3m := zeros _, peerIdCred := zeros _, peerNewPk := zeros _, peerSigVk := zeros _ })
      (rReceiveMsg3 P inp) := by
  unfold rReceiveMsg3 rHandleMsg3Open rVerifyMsg3
  repeat' first
    | exact FailsClean.of_returns fun _ => ⟨_, _, rfl⟩
    | refine FailsClean.bind ?_ fun _ => ?_
    | refine Keeps.bind ?_ fun _ => ?_
    | exact Keeps.store fun _ => rfl
    | simp only [Keeps.load, Keeps.require, Keeps.demand, Keeps.pure]

/-- The message_4 handler assigns only when nothing can fail any more. -/
theorem iHandleMsg4_failsClean (inp : List B) : FailsClean id (invoke P (.iHandleMsg4 inp)) := by
  simp only [invoke, iHandleMsg4, iHandleMsg4Open, bind_assoc]
  repeat' first
    | exact FailsClean.of_returns fun _ => ⟨_, _, rfl⟩
    | refine FailsClean.bind ?_ fun _ => ?_
    | simp only [Keeps.load, Keeps.require, Keeps.demand, Keeps.pure]

end Halves

end Edhoc4

/-! ### Methods 0 to 3 -/

namespace Edhoc03

def Call.handler : Call B → Handler
  | .iMakeMsg1 _ _ => .iMakeMsg1
  | .rHandleMsg1 _ _ _ => .rHandleMsg1
  | .iHandleMsg2 _ _ => .iHandleMsg2
  | .rHandleMsg3 _ => .rHandleMsg3
  | .iHandleMsg4 _ => .iHandleMsg4

def Call.role : Call B → Role
  | .iMakeMsg1 _ _ => .initiator
  | .rHandleMsg1 _ _ _ => .responder
  | .iHandleMsg2 _ _ => .initiator
  | .rHandleMsg3 _ => .responder
  | .iHandleMsg4 _ => .initiator

/-- A call of the API; `edhoc03_i_handle_msg4` has no output. -/
def invoke (P : Primitives B) : Call B → Proc (Ctx B) Err (List B)
  | .iMakeMsg1 ephSk outCap => iMakeMsg1 P ephSk outCap
  | .rHandleMsg1 inp ephSk outCap => rHandleMsg1 P inp ephSk outCap
  | .iHandleMsg2 inp outCap => iHandleMsg2 P inp outCap
  | .rHandleMsg3 inp => rHandleMsg3 P inp
  | .iHandleMsg4 inp => do
    iHandleMsg4 inp
    return []

/-- A context right after `edhoc03_init_initiator` or `edhoc03_init_responder`. -/
inductive Ctx.Fresh : Ctx B → Prop
  | initiator (method : Int) (self : Creds B) (peer : Peer B) :
      Ctx.Fresh (initInitiator method self peer)
  | responder (self : Creds B) (peer : Peer B) : Ctx.Fresh (initResponder self peer)

theorem Role.eq_initiator {r : Role} (other : r ≠ .responder) : r = .initiator := by
  cases r with
  | initiator => rfl
  | responder => exact absurd rfl other

theorem Role.eq_responder {r : Role} (other : r ≠ .initiator) : r = .responder := by
  cases r with
  | initiator => exact absurd rfl other
  | responder => rfl

theorem invoke_of_other_role {k : Call B} {c : Ctx B} (other : c.role ≠ k.role) :
    invoke P k c = (.error .state, c) := by
  cases k with
  | iMakeMsg1 ephSk outCap => exact iMakeMsg1_of_responder (Role.eq_responder other)
  | rHandleMsg1 inp ephSk outCap => exact rHandleMsg1_of_initiator (Role.eq_initiator other)
  | iHandleMsg2 inp outCap => exact iHandleMsg2_of_responder (Role.eq_responder other)
  | rHandleMsg3 inp => exact rHandleMsg3_of_initiator (Role.eq_initiator other)
  | iHandleMsg4 inp => exact bind_error (iHandleMsg4_of_responder (Role.eq_responder other))

theorem invoke_keeps_role (k : Call B) : Keeps Ctx.role (invoke P k) := by
  cases k with
  | iMakeMsg1 ephSk outCap => exact (iMakeMsg1_frame ephSk outCap).of_reads fun _ => rfl
  | rHandleMsg1 inp ephSk outCap => exact (rHandleMsg1_frame inp ephSk outCap).of_reads fun _ => rfl
  | iHandleMsg2 inp outCap => exact (iHandleMsg2_frame inp outCap).of_reads fun _ => rfl
  | rHandleMsg3 inp => exact (rHandleMsg3_frame inp).of_reads fun _ => rfl
  | iHandleMsg4 inp =>
    have keeps : Keeps Ctx.role (iHandleMsg4 inp : Proc (Ctx B) Err Unit) :=
      (iHandleMsg4_frame inp).of_reads fun _ => rfl
    exact keeps.bind fun _ => Keeps.pure []

/-- `inp` is a message_2 in which the pinned peer authenticates towards the ephemeral key
and the hash of message_1 of the context. -/
def Ctx.Authentic2 (P : Primitives B) (c : Ctx B) (inp : List B) : Prop :=
  c.role = .initiator ∧
  ∃ (gY : Block B xPk) (ct2 : List B), inp = gY.toList ++ ct2 ∧ aeadTag ≤ ct2.length ∧
  ∃ ssE, P.scalarmult c.ephSk gY = some ssE ∧
  ∃ th2, th2 = P.sha256 (gY.toList ++ (c.hMsg1.toList ++ c.cR.toList)) ∧
  ∃ prk2e, prk2e = P.hkdfExtract th2 ssE ∧
  ∃ pt2, aeadOpen P { prk := prk2e, th := th2, ct := ct2, cap := ptCap } = some pt2 ∧
  ∃ prk3e2m idCred, PeerAuth P c.peerAuth c.peer c.ephSk prk2e th2 prk3e2m idCred pt2

/-- `inp` is a message_3 in which the pinned peer authenticates under PRK3e2m, TH3 and
the ephemeral key of the context. -/
def Ctx.Authentic3 (P : Primitives B) (c : Ctx B) (inp : List B) : Prop :=
  c.role = .responder ∧
  ∃ pt3, aeadOpen P { prk := c.prk3e2m, th := c.th3, ct := inp, cap := ptCap } = some pt3 ∧
  ∃ prk4e3m idCred, PeerAuth P c.peerAuth c.peer c.ephSk c.prk3e2m c.th3 prk4e3m idCred pt3

section Halves

variable {c c' : Ctx B} {inp out : List B} {outCap : Nat}

theorem iHandleMsg2_authentic (ok : iHandleMsg2 P inp outCap c = (.ok out, c')) :
    c.Authentic2 P inp := by
  obtain ⟨call, c₁, opened, pt2, dec, prk3e2m, idCred, auth, -⟩ := iHandleMsg2_eq_ok.mp ok
  obtain ⟨role, gY, ct2, rfl, long, ssE, mul, th2, rfl, rfl, rfl⟩ := iHandleMsg2Open_eq_ok.mp opened
  exact ⟨role, gY, ct2, rfl, long, ssE, mul, _, rfl, _, rfl, pt2, dec, prk3e2m, idCred, auth⟩

theorem rHandleMsg3_authentic (ok : rHandleMsg3 P inp c = (.ok out, c')) : c.Authentic3 P inp := by
  obtain ⟨role, -, pt3, dec, prk4e3m, idCred, auth, -⟩ := rHandleMsg3_eq_ok.mp ok
  exact ⟨role, pt3, dec, prk4e3m, idCred, auth⟩

theorem iHandleMsg2_failsClean (inp : List B) (outCap : Nat) :
    FailsClean (fun c => { c with
      peerEphPk := zeros _, ssE := zeros _, th2 := zeros _, prk2e := zeros _
      peerIdCred := zeros _, prk3e2m := zeros _, th3 := zeros _, prk4e3m := zeros _
      th4 := zeros _ }) (iHandleMsg2 P inp outCap) := by
  unfold iHandleMsg2 iHandleMsg2Open checkAuth checkStat checkSig iMakeMsg3 makeAuth makeStat
    makeSig
  repeat' first
    | exact FailsClean.of_returns fun _ => ⟨_, _, rfl⟩
    | refine FailsClean.bind ?_ fun _ => ?_
    | refine Keeps.bind ?_ fun _ => ?_
    | refine Keeps.ite ?_ ?_
    | exact Keeps.store fun _ => rfl
    | simp only [Keeps.load, Keeps.require, Keeps.demand, Keeps.pure]

/-- So does the message_3 handler. -/
theorem rHandleMsg3_failsClean (inp : List B) :
    FailsClean (fun c => { c with peerIdCred := zeros _, prk4e3m := zeros _ })
      (rHandleMsg3 P inp) := by
  unfold rHandleMsg3 rHandleMsg3Open checkAuth checkStat checkSig
  repeat' first
    | exact FailsClean.of_returns fun _ => ⟨_, _, rfl⟩
    | refine FailsClean.bind ?_ fun _ => ?_
    | refine Keeps.bind ?_ fun _ => ?_
    | refine Keeps.ite ?_ ?_
    | exact Keeps.store fun _ => rfl
    | simp only [Keeps.load, Keeps.require, Keeps.demand, Keeps.pure]

theorem iHandleMsg4_failsClean (inp : List B) : FailsClean id (invoke P (.iHandleMsg4 inp)) := by
  simp only [invoke, iHandleMsg4, bind_assoc]
  repeat' first
    | exact FailsClean.of_returns fun _ => ⟨_, _, rfl⟩
    | refine FailsClean.bind ?_ fun _ => ?_
    | simp only [Keeps.load, Keeps.require]

end Halves

end Edhoc03

end EdhocAuth
