/-
Failed calls on one context.

A handler overwrites fields before its checks, so a failed call leaves a trace in the
context. Whether a later call can see it depends on which fields are read before they
are written again: `asInitiator` and `asResponder` are those fields, for the calls that
a context of this role answers, and contexts that agree on them cannot be told apart.
A failed call that did not get as far as to write one of them leaves no trace.

In method 4 that is every call that fails before its message is found authentic; a call
that fails while it builds its answer has overwritten keys, `edhoc4_i_make_msg1` has from
its first step on, and `edhoc4_r_handle_msg3` has even derived the exported keys.
In methods 0 to 3 the keys are derived last; only the two handlers that draw an
ephemeral key overwrite it before they can fail.
-/

import EdhocAuth.Typestate

namespace EdhocAuth

open Proc Primitives

variable {B : Type} [Octet B] [DecidableEq B] {P : Primitives B}

/-! ### Method 4 -/

namespace Edhoc4

/-- What a handshake exports. -/
def Ctx.keys (c : Ctx B) : Bool × Block B mskLen × Block B mskLen := (c.done, c.msk, c.emsk)

/-- What a call returned is all that can be seen of it: the exported keys are as before,
and every later sequence of calls gives the same results and keys as without it. -/
structure NoTrace (P : Primitives B) (c : Ctx B) (k : Call B) : Prop where
  keys : (invoke P k c).2.keys = c.keys
  later : ∀ calls, observe (invoke P) Ctx.keys calls (invoke P k c).2 =
    observe (invoke P) Ctx.keys calls c

/-- The call does not get to its answer: there is no initiator or no key pair to start
with, and a message that is handled is not authentic or, for message_1, cannot be
answered. -/
def Call.Unanswered (P : Primitives B) (c : Ctx B) : Call B → Prop
  | .iMakeMsg1 coins _ => c.role = .responder ∨ xwingKeypair P coins.eph = none
  | .rHandleMsg1 inp coins _ => ∀ pkX, c.Authentic1 P inp pkX →
    xwingEncaps P coins.encE pkX = none ∨ xwingEncaps P coins.encA c.peerKemPk = none
  | .iHandleMsg2 inp _ _ => ¬ c.Authentic2 P inp
  | .rHandleMsg3 inp _ _ => ¬ c.Authentic3 P inp
  | .iHandleMsg4 _ => True

/-! #### What a later call can see -/

/-- The fields an initiator's calls read before they write them, and the exported keys. -/
structure InitiatorView (B : Type) where
  role : Role
  self : Creds B
  peerKemPk : Block B xwingPk
  cI : Block B 1
  ephSk : Block B xwingSk
  hMsg1 : Block B 32
  ssB : Block B xwingSs
  prk4e3m : Block B 32
  th4 : Block B 32
  done : Bool
  msk : Block B mskLen
  emsk : Block B mskLen

/-- The fields a responder's calls read before they write them, and the exported keys. -/
structure ResponderView (B : Type) where
  role : Role
  self : Creds B
  peerKemPk : Block B xwingPk
  cR : Block B 1
  ssA : Block B xwingSs
  prk3e2m : Block B 32
  th3 : Block B 32
  done : Bool
  msk : Block B mskLen
  emsk : Block B mskLen

def Ctx.asInitiator (c : Ctx B) : InitiatorView B :=
  ⟨c.role, c.self, c.peerKemPk, c.cI, c.ephSk, c.hMsg1, c.ssB, c.prk4e3m, c.th4, c.done, c.msk,
    c.emsk⟩

def Ctx.asResponder (c : Ctx B) : ResponderView B :=
  ⟨c.role, c.self, c.peerKemPk, c.cR, c.ssA, c.prk3e2m, c.th3, c.done, c.msk, c.emsk⟩

/-- Contexts of one role that agree on what calls in this role see. -/
inductive Ctx.Alike (c d : Ctx B) : Prop
  | initiator (role : c.role = .initiator) (view : c.asInitiator = d.asInitiator)
  | responder (role : c.role = .responder) (view : c.asResponder = d.asResponder)

section Views

variable {c d : Ctx B} {inp : List B} {outCap : Nat}

omit [Octet B] [DecidableEq B] in
theorem Ctx.Alike.refl (c : Ctx B) : c.Alike c := by
  cases role : c.role with
  | initiator => exact .initiator role rfl
  | responder => exact .responder role rfl

omit [Octet B] [DecidableEq B] in
theorem Ctx.Alike.role (alike : c.Alike d) : c.role = d.role := by
  cases alike with
  | initiator _ view => exact congrArg (·.role) view
  | responder _ view => exact congrArg (·.role) view

omit [Octet B] [DecidableEq B] in
/-- Contexts that are alike export the same. -/
theorem Ctx.Alike.keys (alike : c.Alike d) : c.keys = d.keys := by
  cases alike with
  | initiator _ view => exact congrArg (fun v => (v.done, v.msk, v.emsk)) view
  | responder _ view => exact congrArg (fun v => (v.done, v.msk, v.emsk)) view

omit [DecidableEq B] in
/-- Message_1 depends on the initiator's view only. -/
theorem iMakeMsg1_sameOutcome (coins : Msg1Coins B) (view : c.asInitiator = d.asInitiator) :
    SameOutcome (Agree Ctx.asInitiator) (Agree Ctx.asInitiator)
      (iMakeMsg1 P coins outCap c) (iMakeMsg1 P coins outCap d) := by
  have role : c.role = d.role := congrArg (·.role) view
  have peerKemPk : c.peerKemPk = d.peerKemPk := congrArg (·.peerKemPk) view
  have cI : c.cI = d.cI := congrArg (·.cI) view
  unfold iMakeMsg1
  refine .load ?_
  refine .require (by rw [role]) view ?_
  refine .demand rfl view fun eph => ?_
  have view := congrArg (fun v => { v with ephSk := eph.2 }) view
  refine .store ?_
  refine .demand (by rw [peerKemPk]) view fun enc => ?_
  have view := congrArg (fun v => { v with ssB := enc.2 }) view
  refine .store ?_
  refine .demand (by rw [cI]) view fun ct1 => ?_
  refine .require Iff.rfl view ?_
  refine .store ?_
  exact .pure rfl (congrArg (fun v =>
    { v with hMsg1 := P.sha256 (enc.1.toList ++ (eph.1.toList ++ ct1)) }) view)

omit [DecidableEq B] in
/-- Opening message_2 depends on the initiator's view only, and so do PRK_2e and TH_2. -/
theorem iHandleMsg2Open_sameOutcome (inp : List B) (view : c.asInitiator = d.asInitiator) :
    SameOutcome (fun c d => c.asInitiator = d.asInitiator ∧ c.prk2e = d.prk2e ∧ c.th2 = d.th2)
      (Agree Ctx.asInitiator) (iHandleMsg2Open P inp c) (iHandleMsg2Open P inp d) := by
  have role : c.role = d.role := congrArg (·.role) view
  have ephSk : c.ephSk = d.ephSk := congrArg (·.ephSk) view
  have hMsg1 : c.hMsg1 = d.hMsg1 := congrArg (·.hMsg1) view
  unfold iHandleMsg2Open
  refine .load ?_
  refine .require (by rw [role]) view ?_
  refine .require Iff.rfl view ?_
  refine .demand (by rw [ephSk]) view fun ssE => ?_
  refine .store ?_
  exact .pure (by rw [hMsg1]) ⟨view, by dsimp only; rw [hMsg1], by dsimp only; rw [hMsg1]⟩

/-- Checking message_2 reads the view and what the opening has assigned. -/
theorem iVerifyMsg2_sameOutcome (pt2 : List B) (view : c.asInitiator = d.asInitiator)
    (prk2e : c.prk2e = d.prk2e) (th2 : c.th2 = d.th2) :
    SameOutcome
      (fun c d => c.asInitiator = d.asInitiator ∧ c.prk3e2m = d.prk3e2m ∧ c.th3 = d.th3)
      (Agree Ctx.asInitiator) (iVerifyMsg2 P pt2 c) (iVerifyMsg2 P pt2 d) := by
  have ssB : c.ssB = d.ssB := congrArg (·.ssB) view
  have self : c.self = d.self := congrArg (·.self) view
  have prk3e2m : P.hkdfExtract c.prk2e c.ssB = P.hkdfExtract d.prk2e d.ssB := by rw [prk2e, ssB]
  unfold iVerifyMsg2
  refine .load ?_
  refine .require Iff.rfl view ?_
  refine .store ?_
  refine .require (by rw [prk3e2m, th2]) view ?_
  refine .require (by rw [prk3e2m, th2]) view ?_
  refine .store ?_
  refine .demand (by rw [self]) view fun ssA => ?_
  refine .stored ⟨?_, prk3e2m, by dsimp only; rw [th2]⟩
  show { c.asInitiator with prk4e3m := P.hkdfExtract (P.hkdfExtract c.prk2e c.ssB) ssA } =
    { d.asInitiator with prk4e3m := P.hkdfExtract (P.hkdfExtract d.prk2e d.ssB) ssA }
  rw [view, prk3e2m]

omit [DecidableEq B] in
/-- Message_3 depends on the view and on what the check has assigned. -/
theorem iMakeMsg3_sameOutcome (coins : Msg3Coins B) (view : c.asInitiator = d.asInitiator)
    (prk3e2m : c.prk3e2m = d.prk3e2m) (th3 : c.th3 = d.th3) :
    SameOutcome (Agree Ctx.asInitiator) (Agree Ctx.asInitiator)
      (iMakeMsg3 P coins outCap c) (iMakeMsg3 P coins outCap d) := by
  have self : c.self = d.self := congrArg (·.self) view
  have prk4e3m : c.prk4e3m = d.prk4e3m := congrArg (·.prk4e3m) view
  unfold iMakeMsg3
  refine .load ?_
  refine .demand rfl view fun new => ?_
  refine .store ?_
  refine .demand (by rw [self, prk4e3m, th3]) view fun sigI => ?_
  let pt3 (c : Ctx B) : List B := Pt3.write ⟨c.self.idCred, new.1,
    computeMac P c.prk4e3m c.th3 c.self.idCred new.1.toList, c.self.sigVk, sigI.1⟩
  have text : pt3 c = pt3 d := by simp only [pt3, self, prk4e3m, th3]
  have view : { c.asInitiator with th4 := P.sha256 (c.th3.toList ++ pt3 c) } =
      { d.asInitiator with th4 := P.sha256 (d.th3.toList ++ pt3 d) } := by rw [view, th3, text]
  refine .store ?_
  refine .demand ?_ view fun ct3 => ?_
  · show aeadSeal P c.prk3e2m c.th3 (pt3 c) = aeadSeal P d.prk3e2m d.th3 (pt3 d)
    rw [prk3e2m, th3, text]
  refine .require Iff.rfl view ?_
  refine .store ?_
  exact .pure rfl (congrArg (fun v =>
    { v with
      msk := P.hkdfExpand (P.hkdfExpand v.prk4e3m v.th4.toList 32) (ascii "EDHOC-EAP-MSK") mskLen
      emsk := P.hkdfExpand (P.hkdfExpand v.prk4e3m v.th4.toList 32) (ascii "EDHOC-EAP-EMSK") mskLen
      done := false }) view)

/-- No call of an initiator tells contexts with one view apart. -/
theorem invoke_sameOutcome_initiator {k : Call B} (own : k.role = .initiator)
    (view : c.asInitiator = d.asInitiator) :
    SameOutcome (Agree Ctx.asInitiator) (Agree Ctx.asInitiator) (invoke P k c) (invoke P k d) := by
  cases k with
  | iMakeMsg1 coins outCap => exact iMakeMsg1_sameOutcome coins view
  | rHandleMsg1 inp coins outCap => cases own
  | iHandleMsg2 inp coins outCap =>
    simp only [invoke, iHandleMsg2_eq_halves, iReceiveMsg2, bind_assoc]
    refine (iHandleMsg2Open_sameOutcome inp view).bind fun call c d opened => ?_
    obtain ⟨view, prk2e, th2⟩ := opened
    refine .demand rfl view fun pt2 => ?_
    refine (iVerifyMsg2_sameOutcome pt2 view prk2e th2).bind fun _ c d verified => ?_
    obtain ⟨view, prk3e2m, th3⟩ := verified
    exact iMakeMsg3_sameOutcome coins view prk3e2m th3
  | rHandleMsg3 inp coins outCap => cases own
  | iHandleMsg4 inp =>
    have role : c.role = d.role := congrArg (·.role) view
    have prk4e3m : c.prk4e3m = d.prk4e3m := congrArg (·.prk4e3m) view
    have th4 : c.th4 = d.th4 := congrArg (·.th4) view
    simp only [invoke, iHandleMsg4, iHandleMsg4Open, bind_assoc, pure_bind]
    refine .load ?_
    refine .require (by rw [role]) view ?_
    refine .demand (by rw [prk4e3m, th4]) view fun pt4 => ?_
    refine .require Iff.rfl view ?_
    refine .store ?_
    exact .pure rfl (congrArg (fun v => { v with done := true }) view)

omit [DecidableEq B] in
/-- Opening message_1 depends on the responder's view only, and so do the key and the secret in it.
-/
theorem rHandleMsg1Open_sameOutcome (inp : List B) (view : c.asResponder = d.asResponder) :
    SameOutcome (fun c d => c.asResponder = d.asResponder ∧ c.ephPk = d.ephPk ∧ c.ssB = d.ssB)
      (Agree Ctx.asResponder) (rHandleMsg1Open P inp c) (rHandleMsg1Open P inp d) := by
  have role : c.role = d.role := congrArg (·.role) view
  have self : c.self = d.self := congrArg (·.self) view
  unfold rHandleMsg1Open
  refine .load ?_
  refine .require (by rw [role]) view ?_
  refine .require Iff.rfl view ?_
  refine .store ?_
  refine .demand (by rw [self]) view fun ssB => ?_
  refine .store ?_
  exact .pure rfl ⟨view, rfl, rfl⟩

omit [DecidableEq B] in
/-- Message_2 depends on the view and on what the opening of message_1 has assigned. -/
theorem rMakeMsg2_sameOutcome (coins : Msg2Coins B) (view : c.asResponder = d.asResponder)
    (ephPk : c.ephPk = d.ephPk) (ssB : c.ssB = d.ssB) :
    SameOutcome (Agree Ctx.asResponder) (Agree Ctx.asResponder)
      (rMakeMsg2 P inp coins outCap c) (rMakeMsg2 P inp coins outCap d) := by
  have self : c.self = d.self := congrArg (·.self) view
  have cR : c.cR = d.cR := congrArg (·.cR) view
  have peerKemPk : c.peerKemPk = d.peerKemPk := congrArg (·.peerKemPk) view
  unfold rMakeMsg2
  refine .load ?_
  refine .demand (by rw [ephPk]) view fun enc => ?_
  refine .store ?_
  refine .demand (by rw [peerKemPk]) view fun encA => ?_
  let th2 (c : Ctx B) := P.sha256 ((P.sha256 inp).toList ++ (enc.1.toList ++ c.cR.toList))
  let prk3e2m (c : Ctx B) := P.hkdfExtract (P.hkdfExtract (th2 c) enc.2) c.ssB
  have hash : th2 c = th2 d := by simp only [th2, cR]
  have mixed : prk3e2m c = prk3e2m d := by simp only [prk3e2m, hash, ssB]
  have view : { c.asResponder with ssA := encA.2, prk3e2m := prk3e2m c } =
      { d.asResponder with ssA := encA.2, prk3e2m := prk3e2m d } := by rw [view, mixed]
  refine .store ?_
  refine .demand ?_ view fun sigR => ?_
  · show P.mldsaSign (sigMessage (th2 c) c.self.idCred
        (computeMac P (prk3e2m c) (th2 c) c.self.idCred [])) c.self.sigSk coins.sig = _
    rw [hash, mixed, self]
  refine .require Iff.rfl view ?_
  let pt2 (c : Ctx B) : List B := Pt2.write ⟨encA.1, c.cR, c.self.idCred, c.self.sigVk,
    computeMac P (prk3e2m c) (th2 c) c.self.idCred [], sigR.1⟩
  have text : pt2 c = pt2 d := by simp only [pt2, cR, self, mixed, hash]
  have view : { c.asResponder with
        ssA := encA.2, prk3e2m := prk3e2m c, th3 := P.sha256 ((th2 c).toList ++ pt2 c) } =
      { d.asResponder with
        ssA := encA.2, prk3e2m := prk3e2m d, th3 := P.sha256 ((th2 d).toList ++ pt2 d) } := by
    rw [hash, text]
    exact congrArg (fun v => { v with th3 := P.sha256 ((th2 d).toList ++ pt2 d) }) view
  refine .store ?_
  refine .demand ?_ view fun ct2 => ?_
  · show aeadSeal P (P.hkdfExtract (th2 c) enc.2) (th2 c) (pt2 c) = _
    rw [hash, text]
  refine .require Iff.rfl view ?_
  exact .pure rfl view

/-- Checking message_3 reads the view and PRK_4e3m. -/
theorem rVerifyMsg3_sameOutcome (pt3 : List B) (view : c.asResponder = d.asResponder)
    (prk4e3m : c.prk4e3m = d.prk4e3m) :
    SameOutcome
      (fun c d => c.asResponder = d.asResponder ∧ c.prk4e3m = d.prk4e3m ∧ c.th4 = d.th4)
      (Agree Ctx.asResponder) (rVerifyMsg3 P pt3 c) (rVerifyMsg3 P pt3 d) := by
  have th3 : c.th3 = d.th3 := congrArg (·.th3) view
  unfold rVerifyMsg3
  refine .load ?_
  refine .require Iff.rfl view ?_
  refine .store ?_
  refine .require (by rw [prk4e3m, th3]) view ?_
  refine .require (by rw [prk4e3m, th3]) view ?_
  let prkOut (c : Ctx B) : Block B 32 :=
    P.hkdfExpand c.prk4e3m (P.sha256 (c.th3.toList ++ pt3)).toList 32
  have exported : prkOut c = prkOut d := by simp only [prkOut, prk4e3m, th3]
  refine .stored ⟨?_, prk4e3m, by dsimp only [derivePrkOutAndMsk]; rw [th3]⟩
  show { c.asResponder with
      msk := P.hkdfExpand (prkOut c) (ascii "EDHOC-EAP-MSK") mskLen
      emsk := P.hkdfExpand (prkOut c) (ascii "EDHOC-EAP-EMSK") mskLen
      done := true } = { d.asResponder with
      msk := P.hkdfExpand (prkOut d) (ascii "EDHOC-EAP-MSK") mskLen
      emsk := P.hkdfExpand (prkOut d) (ascii "EDHOC-EAP-EMSK") mskLen
      done := true }
  rw [view, exported]

omit [DecidableEq B] in
/-- Message_4 depends on the view, PRK_4e3m and TH_4. -/
theorem rMakeMsg4_sameOutcome (coins : KeyCoins B) (view : c.asResponder = d.asResponder)
    (prk4e3m : c.prk4e3m = d.prk4e3m) (th4 : c.th4 = d.th4) :
    SameOutcome (Agree Ctx.asResponder) (Agree Ctx.asResponder)
      (rMakeMsg4 P coins outCap c) (rMakeMsg4 P coins outCap d) := by
  unfold rMakeMsg4
  refine .load ?_
  refine .demand rfl view fun new => ?_
  refine .store ?_
  refine .demand (by rw [prk4e3m, th4]) view fun ct4 => ?_
  refine .require Iff.rfl view ?_
  exact .pure rfl view

/-- No call of a responder tells contexts with one view apart. -/
theorem invoke_sameOutcome_responder {k : Call B} (own : k.role = .responder)
    (view : c.asResponder = d.asResponder) :
    SameOutcome (Agree Ctx.asResponder) (Agree Ctx.asResponder) (invoke P k c) (invoke P k d) := by
  cases k with
  | iMakeMsg1 coins outCap => cases own
  | rHandleMsg1 inp coins outCap =>
    simp only [invoke, rHandleMsg1]
    refine (rHandleMsg1Open_sameOutcome inp view).bind fun call c d opened => ?_
    obtain ⟨view, ephPk, ssB⟩ := opened
    refine .demand rfl view fun pt1 => ?_
    refine .require Iff.rfl view ?_
    refine .store ?_
    exact rMakeMsg2_sameOutcome coins view ephPk ssB
  | iHandleMsg2 inp coins outCap => cases own
  | rHandleMsg3 inp coins outCap =>
    have role : c.role = d.role := congrArg (·.role) view
    have prk3e2m : c.prk3e2m = d.prk3e2m := congrArg (·.prk3e2m) view
    have ssA : c.ssA = d.ssA := congrArg (·.ssA) view
    have th3 : c.th3 = d.th3 := congrArg (·.th3) view
    simp only [invoke, rHandleMsg3, rHandleMsg3Open, bind_assoc, pure_bind]
    refine .load ?_
    refine .require (by rw [role]) view ?_
    refine .store ?_
    refine .demand (by rw [prk3e2m, th3]) view fun pt3 => ?_
    refine .bind (rVerifyMsg3_sameOutcome pt3 view ?_) fun _ c d verified => ?_
    · dsimp only
      rw [prk3e2m, ssA]
    · obtain ⟨view, prk4e3m, th4⟩ := verified
      exact rMakeMsg4_sameOutcome coins view prk4e3m th4
  | iHandleMsg4 inp => cases own

/-- Any call has one result on contexts that are alike, and leaves them alike. -/
theorem Ctx.Alike.sameOutcome (alike : c.Alike d) (k : Call B) :
    SameOutcome Ctx.Alike Ctx.Alike (invoke P k c) (invoke P k d) := by
  by_cases own : c.role = k.role
  · have kept := invoke_keeps_role (P := P) k c
    cases alike with
    | initiator role view =>
      exact (invoke_sameOutcome_initiator (own.symm.trans role) view).imp
        (.initiator (kept.trans role))
    | responder role view =>
      exact (invoke_sameOutcome_responder (own.symm.trans role) view).imp
        (.responder (kept.trans role))
  · have other : d.role ≠ k.role := by
      rw [← alike.role]
      exact own
    rw [invoke_of_other_role own, invoke_of_other_role other]
    exact .error _ alike

/-- No sequence of calls tells contexts that are alike from each other. -/
theorem Ctx.Alike.observe_eq (alike : c.Alike d) (calls : List (Call B)) :
    observe (invoke P) Ctx.keys calls c = observe (invoke P) Ctx.keys calls d :=
  Proc.observe_eq (fun k _ _ alike => alike.sameOutcome k) (fun _ _ => Ctx.Alike.keys) calls alike

end Views

/-! #### Calls that fail before their answer -/

section Failures

variable {c c' : Ctx B} {e : Err} {inp : List B} {outCap : Nat}

omit [DecidableEq B] in
/-- Without an ephemeral key pair nothing is assigned. -/
theorem iMakeMsg1_without_key {coins : Msg1Coins B} (role : c.role = .initiator)
    (cannot : xwingKeypair P coins.eph = none) :
    iMakeMsg1 P coins outCap c = (.error .kem, c) := by
  unfold iMakeMsg1
  rw [bind_ok (load_eq_ok.mpr ⟨rfl, rfl⟩), bind_ok (require_ok role), cannot]
  rfl

/-- What message_1 assigns before its answer is not in the responder's view. -/
theorem rReceiveMsg1_keeps (inp : List B) : Keeps Ctx.asResponder (rReceiveMsg1 P inp) :=
  (rReceiveMsg1_frame inp).of_reads fun _ => rfl

omit [DecidableEq B] in
/-- The construction of message_2 writes nothing a later call sees before both
encapsulations succeeded. -/
theorem rMakeMsg2_failed {coins : Msg2Coins B}
    (failed : rMakeMsg2 P inp coins outCap c = (.error e, c')) (cannot :
      xwingEncaps P coins.encE c.ephPk = none ∨ xwingEncaps P coins.encA c.peerKemPk = none) :
    c'.asResponder = c.asResponder := by
  rw [rMakeMsg2, bind_ok (load_eq_ok.mpr ⟨rfl, rfl⟩)] at failed
  cases first : xwingEncaps P coins.encE c.ephPk with
  | none =>
    rw [first] at failed
    exact congrArg (fun out => out.2.asResponder) failed.symm
  | some enc =>
    rw [first, cannot.resolve_left (by rw [first]; exact Option.some_ne_none _)] at failed
    exact congrArg (fun out => out.2.asResponder) failed.symm

/-- A failed call that does not get to its answer leaves a context that cannot be told
from the one before. -/
theorem Call.Unanswered.alike {k : Call B} (unanswered : k.Unanswered P c)
    (failed : invoke P k c = (.error e, c')) : c.Alike c' := by
  by_cases own : c.role = k.role
  · cases k with
    | iMakeMsg1 coins outCap =>
      obtain other | cannot := unanswered
      · cases own.symm.trans other
      · simp only [invoke, iMakeMsg1_without_key own cannot] at failed
        cases failed
        exact .refl c
    | rHandleMsg1 inp coins outCap =>
      refine .responder own ?_
      simp only [invoke, rHandleMsg1_eq_halves] at failed
      obtain kept | ⟨u, c₁, received⟩ := (rReceiveMsg1_keeps inp).failsClean.of_bind failed
      · exact kept.symm
      · have kept := rReceiveMsg1_keeps (P := P) inp c
        rw [received] at kept
        rw [bind_ok received] at failed
        have cannot := unanswered _ (rReceiveMsg1_authentic received)
        rw [← show c₁.peerKemPk = c.peerKemPk from congrArg (·.peerKemPk) kept] at cannot
        exact kept.symm.trans (rMakeMsg2_failed failed cannot).symm
    | iHandleMsg2 inp coins outCap =>
      have clean : FailsClean Ctx.asInitiator (iReceiveMsg2 P inp) :=
        (iReceiveMsg2_failsClean inp).of_reads fun _ => rfl
      refine .initiator own ?_
      simp only [invoke, iHandleMsg2_eq_halves] at failed
      obtain kept | ⟨u, c₁, received⟩ := clean.of_bind failed
      · exact kept.symm
      · exact absurd (iReceiveMsg2_authentic received) unanswered
    | rHandleMsg3 inp coins outCap =>
      have clean : FailsClean Ctx.asResponder (rReceiveMsg3 P inp) :=
        (rReceiveMsg3_failsClean inp).of_reads fun _ => rfl
      refine .responder own ?_
      simp only [invoke, rHandleMsg3_eq_halves] at failed
      obtain kept | ⟨u, c₁, received⟩ := clean.of_bind failed
      · exact kept.symm
      · exact absurd (rReceiveMsg3_authentic received) unanswered
    | iHandleMsg4 inp =>
      obtain rfl : c' = c := iHandleMsg4_failsClean inp c c' e failed
      exact .refl c'
  · rw [invoke_of_other_role own] at failed
    cases failed
    exact .refl c

/-- Without room for message_4 the handler fails in the state in which it would return. -/
theorem rHandleMsg3_no_room {coins : KeyCoins B} {m4 : List B} {cap : Nat}
    (ok : rHandleMsg3 P inp coins outCap c = (.ok m4, c')) (small : cap < m4.length) :
    rHandleMsg3 P inp coins cap c = (.error .buf, c') := by
  rw [rHandleMsg3_eq_halves] at ok ⊢
  obtain ⟨u, c₂, received, made⟩ := bind_eq_ok.mp ok
  obtain ⟨new, pair, sealed, -, rfl⟩ := rMakeMsg4_eq_ok.mp made
  rw [bind_ok received, rMakeMsg4, bind_ok (load_eq_ok.mpr ⟨rfl, rfl⟩),
    bind_ok (demand_eq_ok.mpr ⟨pair, rfl⟩), bind_ok ((store_eq_ok (u := ())).mpr rfl),
    bind_ok (demand_eq_ok.mpr ⟨sealed, rfl⟩)]
  exact bind_error (require_error (by omega))

/-- A call that fails before its answer leaves no trace. -/
theorem Call.Unanswered.noTrace {k : Call B} (unanswered : k.Unanswered P c)
    (failed : (invoke P k c).1 = .error e) : NoTrace P c k := by
  have alike := unanswered.alike (Prod.ext failed rfl)
  exact ⟨alike.keys.symm, fun calls => (alike.observe_eq calls).symm⟩

end Failures

end Edhoc4

/-! ### Methods 0 to 3 -/

namespace Edhoc03

def Ctx.keys (c : Ctx B) : Bool × Block B mskLen × Block B mskLen := (c.done, c.msk, c.emsk)

structure NoTrace (P : Primitives B) (c : Ctx B) (k : Call B) : Prop where
  keys : (invoke P k c).2.keys = c.keys
  later : ∀ calls, observe (invoke P) Ctx.keys calls (invoke P k c).2 =
    observe (invoke P) Ctx.keys calls c

/-- `inp` has the form of a message_1. -/
def IsMsg1 (inp : List B) : Prop :=
  inp.length = 1 + xPk + connId ∧
    ∃ b : UInt8, inp.head? = some (Octet.ofByte b) ∧ methodValid b.toNat = true

/-- The call does not get to drawing an ephemeral key. -/
def Call.Unanswered (c : Ctx B) : Call B → Prop
  | .iMakeMsg1 _ _ => c.role = .responder ∨ methodValid c.method = false
  | .rHandleMsg1 inp _ _ => c.role = .initiator ∨ ¬ IsMsg1 inp
  | .iHandleMsg2 _ _ => True
  | .rHandleMsg3 _ => True
  | .iHandleMsg4 _ => True

/-! #### What a later call can see -/

structure InitiatorView (B : Type) where
  role : Role
  method : Int
  selfAuth : Auth
  peerAuth : Auth
  self : Creds B
  peer : Peer B
  cI : Block B connId
  cR : Block B connId
  ephSk : Block B 32
  hMsg1 : Block B 32
  done : Bool
  msk : Block B mskLen
  emsk : Block B mskLen

structure ResponderView (B : Type) where
  role : Role
  peerAuth : Auth
  self : Creds B
  peer : Peer B
  cR : Block B connId
  ephSk : Block B 32
  prk3e2m : Block B 32
  th3 : Block B 32
  done : Bool
  msk : Block B mskLen
  emsk : Block B mskLen

def Ctx.asInitiator (c : Ctx B) : InitiatorView B :=
  ⟨c.role, c.method, c.selfAuth, c.peerAuth, c.self, c.peer, c.cI, c.cR, c.ephSk, c.hMsg1, c.done,
    c.msk, c.emsk⟩

def Ctx.asResponder (c : Ctx B) : ResponderView B :=
  ⟨c.role, c.peerAuth, c.self, c.peer, c.cR, c.ephSk, c.prk3e2m, c.th3, c.done, c.msk, c.emsk⟩

inductive Ctx.Alike (c d : Ctx B) : Prop
  | initiator (role : c.role = .initiator) (view : c.asInitiator = d.asInitiator)
  | responder (role : c.role = .responder) (view : c.asResponder = d.asResponder)

section Views

variable {c d : Ctx B} {inp : List B} {outCap : Nat} {prk th : Block B 32}
  {put : Block B 32 → Ctx B → Ctx B} {S E : Ctx B → Ctx B → Prop}

omit [Octet B] [DecidableEq B] in
theorem Ctx.Alike.refl (c : Ctx B) : c.Alike c := by
  cases role : c.role with
  | initiator => exact .initiator role rfl
  | responder => exact .responder role rfl

omit [Octet B] [DecidableEq B] in
theorem Ctx.Alike.role (alike : c.Alike d) : c.role = d.role := by
  cases alike with
  | initiator _ view => exact congrArg (·.role) view
  | responder _ view => exact congrArg (·.role) view

omit [Octet B] [DecidableEq B] in
theorem Ctx.Alike.keys (alike : c.Alike d) : c.keys = d.keys := by
  cases alike with
  | initiator _ view => exact congrArg (fun v => (v.done, v.msk, v.emsk)) view
  | responder _ view => exact congrArg (fun v => (v.done, v.msk, v.emsk)) view

omit [DecidableEq B] in
/-- The plaintext of a side depends on its credentials and the ephemeral key of its peer. -/
theorem makeAuth_sameOutcome (selfAuth : c.selfAuth = d.selfAuth) (self : c.self = d.self)
    (peerEphPk : c.peerEphPk = d.peerEphPk) (early : E c d)
    (assigned : ∀ prk', E (put prk' c) (put prk' d) ∧ S (put prk' c) (put prk' d)) :
    SameOutcome S E (makeAuth P put prk th c) (makeAuth P put prk th d) := by
  unfold makeAuth
  refine .load ?_
  rw [selfAuth]
  split
  · unfold makeStat
    refine .load ?_
    refine .demand (by rw [self, peerEphPk]) early fun ss => ?_
    refine .store ?_
    exact .pure (by rw [self]) (assigned _).2
  · unfold makeSig
    refine .load ?_
    refine .store ?_
    refine .demand (by rw [self]) (assigned _).1 fun sig => ?_
    exact .pure (by rw [self]) (assigned _).2

/-- The checks on the plaintext of the peer depend on its pinned keys and the own
ephemeral key. -/
theorem checkAuth_sameOutcome {pt : List B} (peerAuth : c.peerAuth = d.peerAuth)
    (peer : c.peer = d.peer) (ephSk : c.ephSk = d.ephSk) (early : E c d)
    (named : ∀ idCred, E { c with peerIdCred := idCred } { d with peerIdCred := idCred })
    (assigned : ∀ prk' idCred,
      E (put prk' { c with peerIdCred := idCred }) (put prk' { d with peerIdCred := idCred }) ∧
      S (put prk' { c with peerIdCred := idCred }) (put prk' { d with peerIdCred := idCred })) :
    SameOutcome S E (checkAuth P put prk th pt c) (checkAuth P put prk th pt d) := by
  unfold checkAuth
  refine .load ?_
  rw [peerAuth]
  split
  · unfold checkStat
    refine .load ?_
    refine .require Iff.rfl early ?_
    refine .store ?_
    refine .require (by rw [peer]) (named _) ?_
    refine .demand (by rw [ephSk]) (named _) fun ss => ?_
    refine .store ?_
    exact .required Iff.rfl (assigned _ _).1 (assigned _ _).2
  · unfold checkSig
    refine .load ?_
    refine .require Iff.rfl early ?_
    refine .store ?_
    refine .require (by rw [peer]) (named _) ?_
    refine .store ?_
    exact .required Iff.rfl (assigned _ _).1 (assigned _ _).2

omit [DecidableEq B] in
/-- Opening message_2 depends on the initiator's view only, and so does the peer's key. -/
theorem iHandleMsg2Open_sameOutcome (inp : List B) (view : c.asInitiator = d.asInitiator) :
    SameOutcome (fun c d => c.asInitiator = d.asInitiator ∧ c.peerEphPk = d.peerEphPk)
      (Agree Ctx.asInitiator) (iHandleMsg2Open P inp c) (iHandleMsg2Open P inp d) := by
  have role : c.role = d.role := congrArg (·.role) view
  have ephSk : c.ephSk = d.ephSk := congrArg (·.ephSk) view
  have hMsg1 : c.hMsg1 = d.hMsg1 := congrArg (·.hMsg1) view
  have cR : c.cR = d.cR := congrArg (·.cR) view
  unfold iHandleMsg2Open
  refine .load ?_
  refine .require (by rw [role]) view ?_
  refine .require Iff.rfl view ?_
  refine .store ?_
  refine .demand (by rw [ephSk]) view fun ssE => ?_
  refine .store ?_
  exact .pure (by rw [hMsg1, cR]) ⟨view, rfl⟩

omit [DecidableEq B] in
/-- The exported keys depend on PRK4e3m and TH4 alone. -/
theorem deriveMsk_asInitiator (view : c.asInitiator = d.asInitiator)
    (prk4e3m : c.prk4e3m = d.prk4e3m) (th4 : c.th4 = d.th4) :
    (deriveMsk P c).asInitiator = (deriveMsk P d).asInitiator := by
  have prkOut : (deriveMsk P c).prkOut = (deriveMsk P d).prkOut := by
    simp only [deriveMsk, prk4e3m, th4]
  show { c.asInitiator with
      msk := P.hkdfExpand (deriveMsk P c).prkOut (ascii "EDHOC-EAP-MSK") mskLen
      emsk := P.hkdfExpand (deriveMsk P c).prkOut (ascii "EDHOC-EAP-EMSK") mskLen
      done := true } = (deriveMsk P d).asInitiator
  rw [view, prkOut]
  rfl

omit [DecidableEq B] in
/-- The exported keys depend on PRK_4e3m and TH_4 only. -/
theorem deriveMsk_asResponder (view : c.asResponder = d.asResponder)
    (prk4e3m : c.prk4e3m = d.prk4e3m) (th4 : c.th4 = d.th4) :
    (deriveMsk P c).asResponder = (deriveMsk P d).asResponder := by
  have prkOut : (deriveMsk P c).prkOut = (deriveMsk P d).prkOut := by
    simp only [deriveMsk, prk4e3m, th4]
  show { c.asResponder with
      msk := P.hkdfExpand (deriveMsk P c).prkOut (ascii "EDHOC-EAP-MSK") mskLen
      emsk := P.hkdfExpand (deriveMsk P c).prkOut (ascii "EDHOC-EAP-EMSK") mskLen
      done := true } = (deriveMsk P d).asResponder
  rw [view, prkOut]
  rfl

omit [DecidableEq B] in
/-- Message_3 depends on the view, the peer's key and what message_2 has assigned. -/
theorem iMakeMsg3_sameOutcome (view : c.asInitiator = d.asInitiator)
    (peerEphPk : c.peerEphPk = d.peerEphPk) (prk3e2m : c.prk3e2m = d.prk3e2m)
    (th3 : c.th3 = d.th3) :
    SameOutcome (Agree Ctx.asInitiator) (Agree Ctx.asInitiator)
      (iMakeMsg3 P outCap c) (iMakeMsg3 P outCap d) := by
  have selfAuth : c.selfAuth = d.selfAuth := congrArg (·.selfAuth) view
  have self : c.self = d.self := congrArg (·.self) view
  have made : SameOutcome (fun c d => c.asInitiator = d.asInitiator ∧ c.prk4e3m = d.prk4e3m)
      (Agree Ctx.asInitiator)
      (makeAuth P putPrk4e3m d.prk3e2m d.th3 c) (makeAuth P putPrk4e3m d.prk3e2m d.th3 d) :=
    makeAuth_sameOutcome selfAuth self peerEphPk view fun prk' => ⟨view, view, rfl⟩
  unfold iMakeMsg3
  refine .load ?_
  rw [prk3e2m, th3]
  refine made.bind fun pt3 c d made => ?_
  obtain ⟨view, prk4e3m⟩ := made
  refine .store ?_
  refine .demand rfl view fun ct3 => ?_
  refine .require Iff.rfl view ?_
  refine .store ?_
  refine .pure rfl ?_
  exact deriveMsk_asInitiator view prk4e3m rfl

/-- The handler of message_2 depends on the initiator's view only. -/
theorem iHandleMsg2_sameOutcome (view : c.asInitiator = d.asInitiator) :
    SameOutcome (Agree Ctx.asInitiator) (Agree Ctx.asInitiator)
      (iHandleMsg2 P inp outCap c) (iHandleMsg2 P inp outCap d) := by
  unfold iHandleMsg2
  refine (iHandleMsg2Open_sameOutcome inp view).bind fun call c d opened => ?_
  obtain ⟨view, peerEphPk⟩ := opened
  refine .demand rfl view fun pt2 => ?_
  have checked : SameOutcome (fun c d => c.asInitiator = d.asInitiator ∧
        c.peerEphPk = d.peerEphPk ∧ c.prk3e2m = d.prk3e2m)
      (Agree Ctx.asInitiator)
      (checkAuth P putPrk3e2m call.prk call.th pt2 c)
      (checkAuth P putPrk3e2m call.prk call.th pt2 d) :=
    checkAuth_sameOutcome (congrArg (·.peerAuth) view) (congrArg (·.peer) view)
      (congrArg (·.ephSk) view) view (fun _ => view) fun prk' _ => ⟨view, view, peerEphPk, rfl⟩
  refine checked.bind fun _ c d checked => ?_
  obtain ⟨view, peerEphPk, prk3e2m⟩ := checked
  refine .store ?_
  exact iMakeMsg3_sameOutcome view peerEphPk prk3e2m rfl

theorem invoke_sameOutcome_initiator {k : Call B} (own : k.role = .initiator)
    (view : c.asInitiator = d.asInitiator) :
    SameOutcome (Agree Ctx.asInitiator) (Agree Ctx.asInitiator) (invoke P k c) (invoke P k d) := by
  have role : c.role = d.role := congrArg (·.role) view
  cases k with
  | iMakeMsg1 ephSk outCap =>
    have method : c.method = d.method := congrArg (·.method) view
    have cI : c.cI = d.cI := congrArg (·.cI) view
    simp only [invoke, iMakeMsg1]
    refine .load ?_
    refine .require (by rw [role]) view ?_
    refine .require (by rw [method]) view ?_
    have view := congrArg (fun v => { v with ephSk := ephSk }) view
    refine .store ?_
    refine .require Iff.rfl view ?_
    refine .store ?_
    exact .pure (by rw [method, cI]) (congrArg (fun v => { v with
      hMsg1 := P.sha256 (Octet.ofByte (UInt8.ofNat v.method.toNat) ::
        ((P.scalarmultBase ephSk).toList ++ v.cI.toList)) }) view)
  | rHandleMsg1 inp ephSk outCap => cases own
  | iHandleMsg2 inp outCap => exact iHandleMsg2_sameOutcome view
  | rHandleMsg3 inp => cases own
  | iHandleMsg4 inp =>
    simp only [invoke, iHandleMsg4, bind_assoc]
    refine .load ?_
    refine .require (by rw [role]) view ?_
    refine .require Iff.rfl view ?_
    refine .store ?_
    exact .pure rfl (congrArg (fun v => { v with done := true }) view)

omit [DecidableEq B] in
/-- The key derivation of message_1 depends on the responder's view only. -/
theorem rHandleMsg1Keys_sameOutcome {ephSk : Block B 32} (view : c.asResponder = d.asResponder) :
    SameOutcome (fun c d => c.asResponder = d.asResponder ∧ c.selfAuth = d.selfAuth ∧
        c.peerEphPk = d.peerEphPk ∧ c.ephPk = d.ephPk ∧ c.th2 = d.th2 ∧ c.prk2e = d.prk2e)
      (Agree Ctx.asResponder)
      (rHandleMsg1Keys P inp ephSk c) (rHandleMsg1Keys P inp ephSk d) := by
  have role : c.role = d.role := congrArg (·.role) view
  have cR : c.cR = d.cR := congrArg (·.cR) view
  unfold rHandleMsg1Keys
  refine .load ?_
  refine .require (by rw [role]) view ?_
  refine .require Iff.rfl view ?_
  refine .demand rfl view fun b => ?_
  refine .require Iff.rfl view ?_
  have view := congrArg (fun v =>
    { v with peerAuth := methodInitAuth b.toNat, ephSk := ephSk }) view
  refine .store ?_
  refine .demand rfl view fun ssE => ?_
  refine .stored ⟨view, rfl, rfl, rfl, ?_, ?_⟩
  · dsimp only
    rw [cR]
  · dsimp only
    rw [cR]

omit [DecidableEq B] in
/-- Message_2 depends on the view and on what message_1 has assigned. -/
theorem rMakeMsg2_sameOutcome (view : c.asResponder = d.asResponder)
    (selfAuth : c.selfAuth = d.selfAuth) (peerEphPk : c.peerEphPk = d.peerEphPk)
    (ephPk : c.ephPk = d.ephPk) (th2 : c.th2 = d.th2) (prk2e : c.prk2e = d.prk2e) :
    SameOutcome (Agree Ctx.asResponder) (Agree Ctx.asResponder)
      (rMakeMsg2 P outCap c) (rMakeMsg2 P outCap d) := by
  have assigned (prk' : Block B 32) :
      (putPrk3e2m prk' c).asResponder = (putPrk3e2m prk' d).asResponder :=
    congrArg (fun v => { v with prk3e2m := prk' }) view
  have made : SameOutcome (Agree Ctx.asResponder)
      (Agree Ctx.asResponder)
      (makeAuth P putPrk3e2m d.prk2e d.th2 c) (makeAuth P putPrk3e2m d.prk2e d.th2 d) :=
    makeAuth_sameOutcome selfAuth (congrArg (·.self) view) peerEphPk view
      fun prk' => ⟨assigned prk', assigned prk'⟩
  unfold rMakeMsg2
  refine .load ?_
  rw [prk2e, th2, ephPk]
  refine made.bind fun pt2 c' d' view => ?_
  have view := congrArg (fun v => { v with th3 := P.sha256 (d.th2.toList ++ pt2) }) view
  refine .store ?_
  refine .demand rfl view fun ct2 => ?_
  refine .require Iff.rfl view ?_
  exact .pure rfl view

/-- The handler of message_3 depends on the responder's view only. -/
theorem rHandleMsg3_sameOutcome (view : c.asResponder = d.asResponder) :
    SameOutcome (Agree Ctx.asResponder) (Agree Ctx.asResponder)
      (rHandleMsg3 P inp c) (rHandleMsg3 P inp d) := by
  have role : c.role = d.role := congrArg (·.role) view
  have prk3e2m : c.prk3e2m = d.prk3e2m := congrArg (·.prk3e2m) view
  have th3 : c.th3 = d.th3 := congrArg (·.th3) view
  have checked (pt3 : List B) : SameOutcome
      (fun c d => c.asResponder = d.asResponder ∧ c.prk4e3m = d.prk4e3m)
      (Agree Ctx.asResponder)
      (checkAuth P putPrk4e3m d.prk3e2m d.th3 pt3 c)
      (checkAuth P putPrk4e3m d.prk3e2m d.th3 pt3 d) :=
    checkAuth_sameOutcome (congrArg (·.peerAuth) view) (congrArg (·.peer) view)
      (congrArg (·.ephSk) view) view (fun _ => view) fun prk' _ => ⟨view, view, rfl⟩
  simp only [rHandleMsg3, rHandleMsg3Open, bind_assoc, pure_bind]
  refine .load ?_
  refine .require (by rw [role]) view ?_
  rw [prk3e2m, th3]
  refine .demand rfl view fun pt3 => ?_
  refine (checked pt3).bind fun _ c' d' checked => ?_
  obtain ⟨view, prk4e3m⟩ := checked
  refine .store ?_
  exact .pure rfl (deriveMsk_asResponder view prk4e3m rfl)

theorem invoke_sameOutcome_responder {k : Call B} (own : k.role = .responder)
    (view : c.asResponder = d.asResponder) :
    SameOutcome (Agree Ctx.asResponder) (Agree Ctx.asResponder) (invoke P k c) (invoke P k d) := by
  cases k with
  | iMakeMsg1 ephSk outCap => cases own
  | rHandleMsg1 inp ephSk outCap =>
    simp only [invoke, rHandleMsg1]
    refine (rHandleMsg1Keys_sameOutcome view).bind fun _ c d keys => ?_
    obtain ⟨view, selfAuth, peerEphPk, ephPk, th2, prk2e⟩ := keys
    exact rMakeMsg2_sameOutcome view selfAuth peerEphPk ephPk th2 prk2e
  | iHandleMsg2 inp outCap => cases own
  | rHandleMsg3 inp => exact rHandleMsg3_sameOutcome view
  | iHandleMsg4 inp => cases own

theorem Ctx.Alike.sameOutcome (alike : c.Alike d) (k : Call B) :
    SameOutcome Ctx.Alike Ctx.Alike (invoke P k c) (invoke P k d) := by
  by_cases own : c.role = k.role
  · have kept := invoke_keeps_role (P := P) k c
    cases alike with
    | initiator role view =>
      exact (invoke_sameOutcome_initiator (own.symm.trans role) view).imp
        (.initiator (kept.trans role))
    | responder role view =>
      exact (invoke_sameOutcome_responder (own.symm.trans role) view).imp
        (.responder (kept.trans role))
  · have other : d.role ≠ k.role := by
      rw [← alike.role]
      exact own
    rw [invoke_of_other_role own, invoke_of_other_role other]
    exact .error _ alike

theorem Ctx.Alike.observe_eq (alike : c.Alike d) (calls : List (Call B)) :
    observe (invoke P) Ctx.keys calls c = observe (invoke P) Ctx.keys calls d :=
  Proc.observe_eq (fun k _ _ alike => alike.sameOutcome k) (fun _ _ => Ctx.Alike.keys) calls alike

end Views

/-! #### Calls that fail before they draw a key, or before they derive the keys -/

section Failures

variable {c c' : Ctx B} {e : Err} {inp : List B} {outCap : Nat} {ephSk : Block B 32}

omit [DecidableEq B] in
/-- Without a valid method nothing is assigned. -/
theorem iMakeMsg1_of_invalid (role : c.role = .initiator) (invalid : methodValid c.method = false) :
    iMakeMsg1 P ephSk outCap c = (.error .arg, c) := by
  have refused : ¬ methodValid c.method = true := by
    rw [invalid]
    exact Bool.false_ne_true
  unfold iMakeMsg1
  rw [bind_ok (load_eq_ok.mpr ⟨rfl, rfl⟩), bind_ok (require_ok role)]
  exact bind_error (require_error refused)

omit [DecidableEq B] in
/-- What is no message_1 is refused before anything is assigned. -/
theorem rHandleMsg1_of_not_isMsg1 (role : c.role = .responder) (malformed : ¬ IsMsg1 inp) :
    rHandleMsg1 P inp ephSk outCap c = (.error .parse, c) := by
  simp only [rHandleMsg1, rHandleMsg1Keys, bind_assoc]
  rw [bind_ok (load_eq_ok.mpr ⟨rfl, rfl⟩), bind_ok (require_ok role)]
  by_cases len : inp.length = 1 + xPk + connId
  · rw [bind_ok (require_ok len)]
    cases first : inp.head?.bind Octet.toByte? with
    | none => rfl
    | some b =>
      obtain ⟨x, head, byte⟩ := Option.bind_eq_some_iff.mp first
      rw [Octet.toByte?_eq_some.mp byte] at head
      rw [bind_ok (demand_eq_ok.mpr ⟨rfl, rfl⟩)]
      exact bind_error (require_error fun valid => malformed ⟨len, b, head, valid⟩)
  · exact bind_error (require_error len)

/-- A failed call that does not get to drawing an ephemeral key leaves a context that
cannot be told from the one before. -/
theorem Call.Unanswered.alike {k : Call B} (unanswered : k.Unanswered c)
    (failed : invoke P k c = (.error e, c')) : c.Alike c' := by
  by_cases own : c.role = k.role
  · cases k with
    | iMakeMsg1 ephSk outCap =>
      obtain other | invalid := unanswered
      · cases own.symm.trans other
      · simp only [invoke, iMakeMsg1_of_invalid own invalid] at failed
        cases failed
        exact .refl c
    | rHandleMsg1 inp ephSk outCap =>
      obtain other | malformed := unanswered
      · cases own.symm.trans other
      · simp only [invoke, rHandleMsg1_of_not_isMsg1 own malformed] at failed
        cases failed
        exact .refl c
    | iHandleMsg2 inp outCap =>
      have clean : FailsClean Ctx.asInitiator (Edhoc03.iHandleMsg2 P inp outCap) :=
        (iHandleMsg2_failsClean inp outCap).of_reads fun _ => rfl
      exact .initiator own (clean c c' e failed).symm
    | rHandleMsg3 inp =>
      have clean : FailsClean Ctx.asResponder (Edhoc03.rHandleMsg3 P inp) :=
        (rHandleMsg3_failsClean inp).of_reads fun _ => rfl
      exact .responder own (clean c c' e failed).symm
    | iHandleMsg4 inp =>
      obtain rfl : c' = c := iHandleMsg4_failsClean inp c c' e failed
      exact .refl c'
  · rw [invoke_of_other_role own] at failed
    cases failed
    exact .refl c

/-- A call that fails before it draws a key leaves no trace. -/
theorem Call.Unanswered.noTrace {k : Call B} (unanswered : k.Unanswered c)
    (failed : (invoke P k c).1 = .error e) : NoTrace P c k := by
  have alike := unanswered.alike (Prod.ext failed rfl)
  exact ⟨alike.keys.symm, fun calls => (alike.observe_eq calls).symm⟩

end Failures

end Edhoc03

/-! ### Both cores -/

/-- On every context of either core, a failed call that was not answered leaves no trace:
`done`, MSK and EMSK are as before, and every later sequence of calls returns the same
codes, messages and keys as if the call had not been made. -/
theorem failed_calls_leave_no_trace (P : Primitives B) :
    (∀ (c : Edhoc4.Ctx B) (k : Edhoc4.Call B) (e : Edhoc4.Err),
      (Edhoc4.invoke P k c).1 = .error e → k.Unanswered P c → Edhoc4.NoTrace P c k) ∧
    (∀ (c : Edhoc03.Ctx B) (k : Edhoc03.Call B) (e : Edhoc03.Err),
      (Edhoc03.invoke P k c).1 = .error e → k.Unanswered c → Edhoc03.NoTrace P c k) :=
  ⟨fun _ _ _ failed unanswered => unanswered.noTrace failed,
    fun _ _ _ failed unanswered => unanswered.noTrace failed⟩

section Selftest

open Symbolic

/-- An empty message_2 at a method-4 initiator and at a method-0 initiator. -/
theorem empty_message_2_leaves_no_trace :
    Edhoc4.NoTrace primitives
      (Edhoc4.initInitiator (creds4 selftestIds .initiator) (creds4 selftestIds .responder).kemPk)
      (.iHandleMsg2 [] (msg3Coins 0) Edhoc4.maxMsg) ∧
    Edhoc03.NoTrace primitives
      (Edhoc03.initInitiator 0 (creds03 selftestIds .initiator)
        (creds03 selftestIds .responder).pub)
      (.iHandleMsg2 [] Edhoc03.maxMsg) := by
  obtain ⟨method4, methods03⟩ := failed_calls_leave_no_trace primitives
  refine ⟨method4 _ _ .parse rfl ?_, methods03 _ _ .parse rfl trivial⟩
  rintro ⟨-, cte, ct2, split, -⟩
  have len := congrArg List.length split
  rw [List.length_append, List.Vector.toList_length, List.length_nil] at len
  have long : 0 < Edhoc4.xwingCt := by decide
  omega

/-- A responder that answered message_1 gets the right message_3 without room for
message_4: the call fails, and `done` is raised. -/
theorem failed_message_3_leaves_done :
    ∃ x : Edhoc4.Exchange primitives (creds4 selftestIds .initiator)
        (creds4 selftestIds .responder) Edhoc4.runCoins,
      (Edhoc4.invoke primitives (.rHandleMsg3 x.m3 (msg4Coins 3) 0) x.r₁).1 = .error .buf ∧
      ¬ Edhoc4.NoTrace primitives x.r₁ (.rHandleMsg3 x.m3 (msg4Coins 3) 0) := by
  obtain ⟨x, agrees, -⟩ := Edhoc4.exchange_exists primitives_correct
    (Edhoc4.creds4_valid selftestIds .initiator) (Edhoc4.creds4_valid selftestIds .responder)
    Edhoc4.runCoins
  have tagged := (Edhoc4.rHandleMsg3_length primitives_correct x.handleMsg3).1
  have nonempty : 0 < x.m4.length := lt_of_lt_of_le (by decide) tagged
  have failed := Edhoc4.rHandleMsg3_no_room x.handleMsg3 nonempty
  have before : x.r₁.done = false := by
    have kept := Edhoc4.rHandleMsg1_keeps_done (P := primitives) x.m1 (msg2Coins 1) Edhoc4.maxMsg
      (Edhoc4.initResponder (creds4 selftestIds .responder) (creds4 selftestIds .initiator).kemPk)
    rw [show Edhoc4.rHandleMsg1 primitives x.m1 (msg2Coins 1) Edhoc4.maxMsg _ = _ from
      x.handleMsg1] at kept
    exact kept
  refine ⟨x, congrArg Prod.fst failed, fun noTrace => ?_⟩
  have same : x.r₂.done = x.r₁.done := by
    have keys := noTrace.keys
    rw [show Edhoc4.invoke primitives (.rHandleMsg3 x.m3 (msg4Coins 3) 0) x.r₁ = _ from
      failed] at keys
    exact congrArg Prod.fst keys
  rw [before, agrees.rDone] at same
  cases same

end Selftest

end EdhocAuth
