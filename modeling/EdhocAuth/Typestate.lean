/-
The order of the calls on one context.

The handlers check the role of a context and nothing about the calls before. What
keeps an out-of-order call from returning OK is the key material of the context alone,
which is all zero at first and is also left behind by calls that had no room for their
message. `KeysMade` is what a run has to be for the order to be kept: no message is
authentic under blank or left-over keys, message_4 of `edhoc4_r_handle_msg3` has room, and
the empty message_4 of methods 0 to 3, which nothing protects, comes when TH_4 is made.
Then every run follows the protocol (`calls_follow_protocol`): the key material that a
message is checked against has been made by a call that returned OK.
-/

import EdhocAuth.Api

namespace EdhocAuth

open Proc Primitives

variable {B : Type} [Octet B] [DecidableEq B] {P : Primitives B}

omit [DecidableEq B] in
/-- Nothing fails behind the encryption of a message that has room. -/
theorem seal_returns {σ ε α : Type} (correct : P.Correct) {label : String} {prk th : Block B 32}
    {pt : List B} {fits : List B → Prop} [DecidablePred fits]
    (room : ∀ ct, ct.length = pt.length + 16 → fits ct) {e e' : ε} {k : List B → Proc σ ε α}
    (ends : ∀ ct s, ∃ a t, k ct s = (.ok a, t)) (s : σ) :
    ∃ a t, (demand (P.aeadSeal label prk th pt) e >>= fun ct =>
      Proc.require (fits ct) e' >>= fun _ => k ct) s = (.ok a, t) := by
  obtain ⟨ct, sealed, -, len⟩ := correct.aeadOpen_aeadSeal label prk th pt 0
  have encrypted : (demand (P.aeadSeal label prk th pt) e : Proc σ ε (List B)) s = (.ok ct, s) :=
    demand_eq_ok.mpr ⟨sealed, rfl⟩
  rw [bind_ok encrypted, bind_ok (require_ok (room ct len))]
  exact ends ct s

/-! ### Method 4 -/

namespace Edhoc4

/-- The handler whose success completes the handshake. -/
def Role.last : Role → Handler
  | .initiator => .iHandleMsg4
  | .responder => .rHandleMsg3

def FollowsProtocol (P : Primitives B) (c : Ctx B) (calls : List (Call B)) : Prop :=
  Typestate (invoke P) Call.handler Handler.needs (·.done = true) c.role.last calls c

/-- The call has no room for the message that it builds. -/
def Call.NoRoom : Call B → Ctx B → Prop
  | .rHandleMsg1 _ _ outCap, _ => outCap < xwingCt + (pt2Len + aeadTag)
  | .iHandleMsg2 _ _ outCap, _ => outCap < pt3Len + aeadTag
  | _, _ => False

/-- The key material that the call checks its message against, if that message is authentic
for it, is neither as `edhoc4_init_*` left it nor left over from a call without room; and
message_4 has room, unless the handshake is complete. `c` is the context at the start and
`before` are the calls since. -/
def Call.KeysMade (P : Primitives B) (before : List (Call B)) (c : Ctx B) : Call B → Prop
  | .iMakeMsg1 _ _ => True
  | .rHandleMsg1 _ _ _ => True
  | .iHandleMsg2 inp _ _ =>
    (after (invoke P) before c).Authentic2 P inp → Made (invoke P) Ctx.hMsg1 Call.NoRoom before c
  | .rHandleMsg3 inp _ outCap =>
    (after (invoke P) before c).Authentic3 P inp →
      Made (invoke P) Ctx.th3 Call.NoRoom before c ∧
        ((after (invoke P) before c).done = true ∨ xwingPk + aeadTag ≤ outCap)
  | .iHandleMsg4 inp =>
    (after (invoke P) before c).Authentic4 P inp → Made (invoke P) Ctx.th4 Call.NoRoom before c

/-- So it is for every call of the run. -/
def KeysMade (P : Primitives B) (c : Ctx B) (calls : List (Call B)) : Prop :=
  ∀ before k rest, calls = before ++ k :: rest → k.KeysMade P before c

/-- What the order needs of a call; `had` are the handlers that returned OK before. -/
def Call.InOrder (P : Primitives B) (had : Handler → Prop) (c : Ctx B) : Call B → Prop
  | .iMakeMsg1 _ _ => True
  | .rHandleMsg1 _ _ _ => True
  | .iHandleMsg2 inp _ _ => c.Authentic2 P inp → had .iMakeMsg1
  | .rHandleMsg3 inp _ outCap =>
    c.Authentic3 P inp → had .rHandleMsg1 ∧ (c.done = true ∨ xwingPk + aeadTag ≤ outCap)
  | .iHandleMsg4 inp => c.Authentic4 P inp → had .iHandleMsg2

section Steps

variable {c : Ctx B} {had : Handler → Prop}

omit [DecidableEq B] in
theorem iMakeMsg1_keeps_done (coins : Msg1Coins B) (outCap : Nat) :
    Keeps Ctx.done (iMakeMsg1 P coins outCap) :=
  (iMakeMsg1_frame coins outCap).of_reads fun _ => rfl

theorem rHandleMsg1_keeps_done (inp : List B) (coins : Msg2Coins B) (outCap : Nat) :
    Keeps Ctx.done (rHandleMsg1 P inp coins outCap) :=
  (rHandleMsg1_frame inp coins outCap).of_reads fun _ => rfl

/-- The message_2 handler raises `done` only to lower it again. -/
theorem iHandleMsg2_done {inp : List B} {coins : Msg3Coins B} {outCap : Nat}
    (done : (iHandleMsg2 P inp coins outCap c).2.done = true) : c.done = true := by
  obtain ⟨r, c', out⟩ : ∃ r c', iHandleMsg2 P inp coins outCap c = (r, c') := ⟨_, _, rfl⟩
  rw [out] at done
  cases r with
  | ok m3 =>
    obtain ⟨_, _, -, _, -, c₂, -, made⟩ := iHandleMsg2_eq_ok.mp out
    obtain ⟨_, -, _, -, _, -, _, -, -, -, rfl⟩ := iMakeMsg3_eq_ok.mp made
    cases done
  | error e =>
    have clean : FailsClean Ctx.done (iHandleMsg2 P inp coins outCap) :=
      (iHandleMsg2_failsClean inp coins outCap).of_reads fun _ => rfl
    exact (clean c c' e out).symm.trans done

omit [DecidableEq B] in
/-- With enough room for message_4 its construction does not fail. -/
theorem rMakeMsg4_ok (correct : P.Correct) (coins : KeyCoins B) {outCap : Nat}
    (room : xwingPk + aeadTag ≤ outCap) (c : Ctx B) :
    ∃ m4 c', rMakeMsg4 P coins outCap c = (.ok m4, c') := by
  obtain ⟨pk, sk, pair⟩ := xwingKeypair_exists correct coins
  obtain ⟨ct, sealed, -, len⟩ :=
    correct.aeadOpen_aeadSeal "E4KEY" c.prk4e3m c.th4 pk.toList (xwingPk + 16)
  rw [List.Vector.toList_length] at len
  exact ⟨ct, _, rMakeMsg4_eq_ok.mpr ⟨(pk, sk), pair, sealed, by rw [len]; exact room, rfl⟩⟩

/-- A message_3 handler that leaves `done` raised returned OK, unless its message was
authentic and message_4 had no room. -/
theorem rHandleMsg3_done (correct : P.Correct) {inp : List B} {coins : KeyCoins B} {outCap : Nat}
    (room : c.Authentic3 P inp → c.done = true ∨ xwingPk + aeadTag ≤ outCap)
    (done : (rHandleMsg3 P inp coins outCap c).2.done = true) :
    c.done = true ∨ ∃ m4, (rHandleMsg3 P inp coins outCap c).1 = .ok m4 := by
  obtain ⟨r, c', out⟩ : ∃ r c', rHandleMsg3 P inp coins outCap c = (r, c') := ⟨_, _, rfl⟩
  rw [out] at done ⊢
  cases r with
  | ok m4 => exact .inr ⟨m4, rfl⟩
  | error e =>
    have clean : FailsClean Ctx.done (rReceiveMsg3 P inp) :=
      (rReceiveMsg3_failsClean inp).of_reads fun _ => rfl
    rw [rHandleMsg3_eq_halves] at out
    obtain kept | ⟨u, c₂, received⟩ := clean.of_bind out
    · exact .inl (kept.symm.trans done)
    · obtain before | enough := room (rReceiveMsg3_authentic received)
      · exact .inl before
      · obtain ⟨m4, c₃, made⟩ := rMakeMsg4_ok correct coins enough c₂
        rw [bind_ok received, made] at out
        cases out

/-- One call keeps the order. -/
theorem keepsOrder (correct : P.Correct) {k : Call B} (inOrder : k.InOrder P had c) :
    KeepsOrder (invoke P) Call.handler Handler.needs (·.done = true) c.role.last had k c := by
  cases k with
  | iMakeMsg1 coins outCap =>
    refine ⟨fun _ k needed => (by cases needed), fun done => .inl ?_⟩
    exact (iMakeMsg1_keeps_done coins outCap c).symm.trans done
  | rHandleMsg1 inp coins outCap =>
    refine ⟨fun _ k needed => (by cases needed), fun done => .inl ?_⟩
    exact (rHandleMsg1_keeps_done inp coins outCap c).symm.trans done
  | iHandleMsg2 inp coins outCap =>
    refine ⟨fun ok k needed => ?_, fun done => .inl (iHandleMsg2_done done)⟩
    obtain ⟨m3, c', out⟩ := ok_iff.mp ok
    cases needed
    exact inOrder (iHandleMsg2_authentic out)
  | rHandleMsg3 inp coins outCap =>
    refine ⟨fun ok k needed => ?_, fun done => ?_⟩
    · obtain ⟨m4, c', out⟩ := ok_iff.mp ok
      cases needed
      exact (inOrder (rHandleMsg3_authentic out)).1
    · obtain before | ok := rHandleMsg3_done correct (fun authentic => (inOrder authentic).2) done
      · exact .inl before
      · obtain ⟨m4, c', out⟩ := ok_iff.mp ok
        refine .inr (.inr ⟨?_, ok⟩)
        rw [(rHandleMsg3_authentic out).1]
        rfl
  | iHandleMsg4 inp =>
    refine ⟨fun ok k needed => ?_, fun done => ?_⟩
    · obtain ⟨_, c', out⟩ := ok_iff.mp ok
      obtain ⟨u, c₁, accepted, -⟩ := bind_eq_ok.mp out
      cases needed
      exact inOrder (iHandleMsg4_authentic accepted)
    · obtain ⟨r, c', out⟩ : ∃ r c', invoke P (.iHandleMsg4 inp) c = (r, c') := ⟨_, _, rfl⟩
      cases r with
      | ok =>
        obtain ⟨u, c₁, accepted, -⟩ := bind_eq_ok.mp out
        refine .inr (.inr ⟨?_, ok_iff.mpr ⟨_, _, out⟩⟩)
        rw [(iHandleMsg4_authentic accepted).1]
        rfl
      | error e =>
        rw [out] at done
        obtain rfl : c' = c := iHandleMsg4_failsClean inp c c' e out
        exact .inl done

/-! #### Which calls make the key material -/

omit [DecidableEq B] in
/-- Message_2 has a plaintext of one length. -/
theorem rMakeMsg2_makes (correct : P.Correct) {inp : List B} {coins : Msg2Coins B} {outCap : Nat}
    (room : xwingCt + (pt2Len + aeadTag) ≤ outCap) (c : Ctx B) :
    ReturnsIfChanged Ctx.th3 (rMakeMsg2 P inp coins outCap) c := by
  unfold rMakeMsg2
  refine .bind Keeps.load fun ctx _ _ => ?_
  refine .bind Keeps.demand fun enc _ _ => ?_
  refine .bind (Keeps.store fun _ => rfl) fun _ _ _ => ?_
  refine .bind Keeps.demand fun encA _ _ => ?_
  refine .bind (Keeps.store fun _ => rfl) fun _ _ _ => ?_
  refine .bind Keeps.demand fun sigR _ _ => ?_
  refine .bind Keeps.require fun _ t _ => .of_returns ?_
  refine seal_returns correct (fun ct len => ?_) (fun ct s => ⟨_, s, rfl⟩) _
  rw [len, Pt2.length_write]
  exact room

omit [DecidableEq B] in
/-- And so has message_3. -/
theorem iMakeMsg3_makes (correct : P.Correct) {coins : Msg3Coins B} {outCap : Nat}
    (room : pt3Len + aeadTag ≤ outCap) (c : Ctx B) :
    ReturnsIfChanged Ctx.th4 (iMakeMsg3 P coins outCap) c := by
  unfold iMakeMsg3
  refine .bind Keeps.load fun ctx _ _ => ?_
  refine .bind Keeps.demand fun new _ _ => ?_
  refine .bind (Keeps.store fun _ => rfl) fun _ _ _ => ?_
  refine .bind Keeps.demand fun sigI _ _ => .of_returns ?_
  refine seal_returns correct (fun ct len => ?_) (fun ct s => ⟨_, _, rfl⟩) _
  rw [len, Pt3.length_write]
  exact room

omit [DecidableEq B] in
/-- The hash of message_1 is the last thing that the handler assigns. -/
theorem iMakeMsg1_makes (coins : Msg1Coins B) (outCap : Nat) :
    FailsClean Ctx.hMsg1 (iMakeMsg1 P coins outCap) := by
  unfold iMakeMsg1
  repeat' first
    | exact FailsClean.of_returns fun _ => ⟨_, _, rfl⟩
    | refine FailsClean.bind ?_ fun _ => ?_
    | exact Keeps.store fun _ => rfl
    | simp only [Keeps.load, Keeps.require, Keeps.demand]

/-- With room for message_2, the handler changes TH_3 only if it returns OK. -/
theorem rHandleMsg1_makes (correct : P.Correct) {inp : List B} {coins : Msg2Coins B} {outCap : Nat}
    (room : xwingCt + (pt2Len + aeadTag) ≤ outCap) (c : Ctx B) :
    ReturnsIfChanged Ctx.th3 (rHandleMsg1 P inp coins outCap) c := by
  rw [rHandleMsg1_eq_halves]
  exact .bind ((rReceiveMsg1_frame inp).of_reads fun _ => rfl) fun _ t _ =>
    rMakeMsg2_makes correct room t

/-- TH_4 is assigned after message_2 has been accepted. -/
theorem iReceiveMsg2_keeps_th4 (inp : List B) : Keeps Ctx.th4 (iReceiveMsg2 P inp) := by
  unfold iReceiveMsg2 iHandleMsg2Open iVerifyMsg2
  repeat' first
    | refine Keeps.bind ?_ fun _ => ?_
    | exact Keeps.store fun _ => rfl
    | simp only [Keeps.load, Keeps.require, Keeps.demand, Keeps.pure]

/-- With room for message_3, the handler changes TH_4 only if it returns OK. -/
theorem iHandleMsg2_makes (correct : P.Correct) {inp : List B} {coins : Msg3Coins B} {outCap : Nat}
    (room : pt3Len + aeadTag ≤ outCap) (c : Ctx B) :
    ReturnsIfChanged Ctx.th4 (iHandleMsg2 P inp coins outCap) c := by
  rw [iHandleMsg2_eq_halves]
  exact .bind (iReceiveMsg2_keeps_th4 inp) fun _ t _ => iMakeMsg3_makes correct room t

/-- A call that changes the context is one for its role. -/
theorem role_of_changed {γ : Type} {p : Ctx B → γ} {k : Call B}
    (changed : p (invoke P k c).2 ≠ p c) : c.role = k.role := by
  by_contra other
  rw [invoke_of_other_role other] at changed
  exact changed rfl

/-- On an initiator, only message_1 that is returned leaves its hash. -/
theorem hMsg1_made {k : Call B} (role : c.role = .initiator)
    (changed : (invoke P k c).2.hMsg1 ≠ c.hMsg1) :
    k.handler = .iMakeMsg1 ∧ Ok (invoke P) k c := by
  have same := role_of_changed changed
  rw [role] at same
  cases k with
  | iMakeMsg1 coins outCap =>
    exact ⟨rfl, ok_iff.mpr ((iMakeMsg1_makes coins outCap).returnsIfChanged c changed)⟩
  | iHandleMsg2 inp coins outCap =>
    have keeps : Keeps Ctx.hMsg1 (iHandleMsg2 P inp coins outCap) :=
      (iHandleMsg2_frame inp coins outCap).of_reads fun _ => rfl
    exact absurd (keeps c) changed
  | iHandleMsg4 inp =>
    have keeps : Keeps Ctx.hMsg1 (iHandleMsg4 P inp) :=
      (iHandleMsg4_frame inp).of_reads fun _ => rfl
    exact absurd (keeps.bind (fun _ => Keeps.pure []) c) changed
  | rHandleMsg1 inp coins outCap => cases same
  | rHandleMsg3 inp coins outCap => cases same

/-- On a responder, a call with room changes TH_3 only as `edhoc4_r_handle_msg1` that returns OK. -/
theorem th3_made (correct : P.Correct) {k : Call B} (role : c.role = .responder)
    (changed : (invoke P k c).2.th3 ≠ c.th3) (room : ¬ k.NoRoom c) :
    k.handler = .rHandleMsg1 ∧ Ok (invoke P) k c := by
  have same := role_of_changed changed
  rw [role] at same
  cases k with
  | rHandleMsg1 inp coins outCap =>
    exact ⟨rfl, ok_iff.mpr (rHandleMsg1_makes correct (Nat.not_lt.mp room) c changed)⟩
  | rHandleMsg3 inp coins outCap =>
    have keeps : Keeps Ctx.th3 (rHandleMsg3 P inp coins outCap) :=
      (rHandleMsg3_frame inp coins outCap).of_reads fun _ => rfl
    exact absurd (keeps c) changed
  | iMakeMsg1 coins outCap => cases same
  | iHandleMsg2 inp coins outCap => cases same
  | iHandleMsg4 inp => cases same

/-- On an initiator, a call with room changes TH_4 only as `edhoc4_i_handle_msg2` that returns OK.
-/
theorem th4_made (correct : P.Correct) {k : Call B} (role : c.role = .initiator)
    (changed : (invoke P k c).2.th4 ≠ c.th4) (room : ¬ k.NoRoom c) :
    k.handler = .iHandleMsg2 ∧ Ok (invoke P) k c := by
  have same := role_of_changed changed
  rw [role] at same
  cases k with
  | iHandleMsg2 inp coins outCap =>
    exact ⟨rfl, ok_iff.mpr (iHandleMsg2_makes correct (Nat.not_lt.mp room) c changed)⟩
  | iMakeMsg1 coins outCap =>
    have keeps : Keeps Ctx.th4 (iMakeMsg1 P coins outCap) :=
      (iMakeMsg1_frame coins outCap).of_reads fun _ => rfl
    exact absurd (keeps c) changed
  | iHandleMsg4 inp =>
    have keeps : Keeps Ctx.th4 (iHandleMsg4 P inp) :=
      (iHandleMsg4_frame inp).of_reads fun _ => rfl
    exact absurd (keeps.bind (fun _ => Keeps.pure []) c) changed
  | rHandleMsg1 inp coins outCap => cases same
  | rHandleMsg3 inp coins outCap => cases same

/-- TH_3 of a responder that has answered is a hash. -/
theorem rHandleMsg1_th3 {inp out : List B} {coins : Msg2Coins B} {outCap : Nat} {c' : Ctx B}
    (ok : rHandleMsg1 P inp coins outCap c = (.ok out, c')) : ∃ m, c'.th3 = P.sha256 m := by
  obtain ⟨_, _, -, _, -, -, made⟩ := rHandleMsg1_eq_ok.mp ok
  obtain ⟨_, -, _, -, _, -, _, -, _, -, _, -, _, -, -, _, -, _, -, -, -, rfl⟩ :=
    rMakeMsg2_eq_ok.mp made
  exact ⟨_, rfl⟩

/-- Key material that was made was made by the handler before. -/
theorem Call.KeysMade.inOrder (correct : P.Correct) {before : List (Call B)} {k : Call B}
    (made : k.KeysMade P before c) :
    k.InOrder P (Returned (invoke P) Call.handler · before c) (after (invoke P) before c) := by
  have roles (calls : List (Call B)) : (after (invoke P) calls c).role = c.role :=
    after_keeps invoke_keeps_role calls c
  cases k with
  | iMakeMsg1 coins outCap => trivial
  | rHandleMsg1 inp coins outCap => trivial
  | iHandleMsg2 inp coins outCap =>
    intro authentic
    have role : c.role = .initiator := (roles before).symm.trans authentic.1
    exact (made authentic).returned fun earlier i rest _ changed _ =>
      hMsg1_made ((roles earlier).trans role) changed
  | rHandleMsg3 inp coins outCap =>
    intro authentic
    have role : c.role = .responder := (roles before).symm.trans authentic.1
    refine ⟨(made authentic).1.returned fun earlier i rest _ changed room => ?_,
      (made authentic).2⟩
    exact th3_made correct ((roles earlier).trans role) changed room
  | iHandleMsg4 inp =>
    intro authentic
    have role : c.role = .initiator := (roles before).symm.trans authentic.1
    exact (made authentic).returned fun earlier i rest _ changed room =>
      th4_made correct ((roles earlier).trans role) changed room

/-- With libraries that work, a run whose key material is made follows the protocol. -/
theorem KeysMade.followsProtocol (correct : P.Correct) (fresh : c.Fresh)
    {calls : List (Call B)} (made : KeysMade P c calls) : FollowsProtocol P c calls := by
  refine Typestate.of_steps ?_ fun before k rest split => ?_
  · cases fresh <;> exact Bool.false_ne_true
  · have role : (after (invoke P) before c).role = c.role :=
      after_keeps invoke_keeps_role before c
    rw [← role]
    exact keepsOrder correct ((made before k rest split).inOrder correct)

end Steps

end Edhoc4

/-! ### Methods 0 to 3 -/

namespace Edhoc03

/-- The handler whose success completes the handshake; message_4 only confirms it. -/
def Role.last : Role → Handler
  | .initiator => .iHandleMsg2
  | .responder => .rHandleMsg3

def FollowsProtocol (P : Primitives B) (c : Ctx B) (calls : List (Call B)) : Prop :=
  Typestate (invoke P) Call.handler Handler.needs (·.done = true) c.role.last calls c

/-- The call has no room for the message that it builds, whose length depends on the method:
for a responder this is the first octet of message_1. -/
def Call.NoRoom : Call B → Ctx B → Prop
  | .rHandleMsg1 inp _ outCap, _ =>
    ∃ b, inp.head?.bind Octet.toByte? = some b ∧
      outCap < xPk + ((methodRespAuth b.toNat).ptLen + aeadTag)
  | .iHandleMsg2 _ outCap, c => outCap < c.selfAuth.ptLen + aeadTag
  | _, _ => False

/-- As for method 4. Nothing protects the empty message_4, which every initiator takes. -/
def Call.KeysMade (P : Primitives B) (before : List (Call B)) (c : Ctx B) : Call B → Prop
  | .iMakeMsg1 _ _ => True
  | .rHandleMsg1 _ _ _ => True
  | .iHandleMsg2 inp _ =>
    (after (invoke P) before c).Authentic2 P inp → Made (invoke P) Ctx.hMsg1 Call.NoRoom before c
  | .rHandleMsg3 inp =>
    (after (invoke P) before c).Authentic3 P inp → Made (invoke P) Ctx.th3 Call.NoRoom before c
  | .iHandleMsg4 inp =>
    c.role = .initiator → inp = [] → Made (invoke P) Ctx.th4 Call.NoRoom before c

def KeysMade (P : Primitives B) (c : Ctx B) (calls : List (Call B)) : Prop :=
  ∀ before k rest, calls = before ++ k :: rest → k.KeysMade P before c

def Call.InOrder (P : Primitives B) (had : Handler → Prop) (c : Ctx B) : Call B → Prop
  | .iMakeMsg1 _ _ => True
  | .rHandleMsg1 _ _ _ => True
  | .iHandleMsg2 inp _ => c.Authentic2 P inp → had .iMakeMsg1
  | .rHandleMsg3 inp => c.Authentic3 P inp → had .rHandleMsg1
  | .iHandleMsg4 inp => c.role = .initiator → inp = [] → had .iHandleMsg2

section Steps

variable {c : Ctx B} {had : Handler → Prop}

omit [DecidableEq B] in
theorem iMakeMsg1_keeps_done (ephSk : Block B 32) (outCap : Nat) :
    Keeps Ctx.done (iMakeMsg1 P ephSk outCap) :=
  (iMakeMsg1_frame ephSk outCap).of_reads fun _ => rfl

omit [DecidableEq B] in
theorem rHandleMsg1_keeps_done (inp : List B) (ephSk : Block B 32) (outCap : Nat) :
    Keeps Ctx.done (rHandleMsg1 P inp ephSk outCap) :=
  (rHandleMsg1_frame inp ephSk outCap).of_reads fun _ => rfl

theorem keepsOrder {k : Call B} (inOrder : k.InOrder P had c) :
    KeepsOrder (invoke P) Call.handler Handler.needs (·.done = true) c.role.last had k c := by
  obtain ⟨r, c', out⟩ : ∃ r c', invoke P k c = (r, c') := ⟨_, _, rfl⟩
  cases k with
  | iMakeMsg1 ephSk outCap =>
    refine ⟨fun _ k needed => (by cases needed), fun done => .inl ?_⟩
    exact (iMakeMsg1_keeps_done ephSk outCap c).symm.trans done
  | rHandleMsg1 inp ephSk outCap =>
    refine ⟨fun _ k needed => (by cases needed), fun done => .inl ?_⟩
    exact (rHandleMsg1_keeps_done inp ephSk outCap c).symm.trans done
  | iHandleMsg2 inp outCap =>
    refine ⟨fun ok k needed => ?_, fun done => ?_⟩
    · obtain ⟨m3, c', out⟩ := ok_iff.mp ok
      cases needed
      exact inOrder (iHandleMsg2_authentic out)
    · cases r with
      | ok m3 =>
        refine .inr (.inr ⟨?_, ok_iff.mpr ⟨_, _, out⟩⟩)
        rw [(iHandleMsg2_authentic out).1]
        rfl
      | error e =>
        have clean : FailsClean Ctx.done (iHandleMsg2 P inp outCap) :=
          (iHandleMsg2_failsClean inp outCap).of_reads fun _ => rfl
        rw [out] at done
        exact .inl ((clean c c' e out).symm.trans done)
  | rHandleMsg3 inp =>
    refine ⟨fun ok k needed => ?_, fun done => ?_⟩
    · obtain ⟨m3, c', out⟩ := ok_iff.mp ok
      cases needed
      exact inOrder (rHandleMsg3_authentic out)
    · cases r with
      | ok m4 =>
        refine .inr (.inr ⟨?_, ok_iff.mpr ⟨_, _, out⟩⟩)
        rw [(rHandleMsg3_authentic out).1]
        rfl
      | error e =>
        have clean : FailsClean Ctx.done (rHandleMsg3 P inp) :=
          (rHandleMsg3_failsClean inp).of_reads fun _ => rfl
        rw [out] at done
        exact .inl ((clean c c' e out).symm.trans done)
  | iHandleMsg4 inp =>
    refine ⟨fun ok k needed => ?_, fun done => ?_⟩
    · obtain ⟨_, c', out⟩ := ok_iff.mp ok
      obtain ⟨u, c₁, accepted, -⟩ := bind_eq_ok.mp out
      obtain ⟨role, empty, -⟩ := iHandleMsg4_eq_ok.mp accepted
      cases needed
      exact inOrder role empty
    · cases r with
      | ok m4 =>
        obtain ⟨u, c₁, accepted, -⟩ := bind_eq_ok.mp out
        obtain ⟨role, empty, -⟩ := iHandleMsg4_eq_ok.mp accepted
        refine .inr (.inl ?_)
        rw [role]
        exact inOrder role empty
      | error e =>
        rw [out] at done
        obtain rfl : c' = c := iHandleMsg4_failsClean inp c c' e out
        exact .inl done

/-! #### Which calls make the key material -/

omit [DecidableEq B] in
/-- Making the own authentication assigns nothing but the PRK of the message. -/
theorem makeAuth_keeps {γ : Type} {p : Ctx B → γ} {put : Block B 32 → Ctx B → Ctx B}
    {prk th : Block B 32} (unseen : ∀ prk c, p (put prk c) = p c) :
    Keeps p (makeAuth P put prk th) := by
  unfold makeAuth makeStat makeSig
  repeat' first
    | refine Keeps.bind ?_ fun _ => ?_
    | refine Keeps.ite ?_ ?_
    | exact Keeps.store (unseen _)
    | simp only [Keeps.load, Keeps.demand, Keeps.pure]

omit [DecidableEq B] in
theorem iMakeMsg1_makes (ephSk : Block B 32) (outCap : Nat) :
    FailsClean Ctx.hMsg1 (iMakeMsg1 P ephSk outCap) := by
  unfold iMakeMsg1
  repeat' first
    | exact FailsClean.of_returns fun _ => ⟨_, _, rfl⟩
    | refine FailsClean.bind ?_ fun _ => ?_
    | exact Keeps.store fun _ => rfl
    | simp only [Keeps.load, Keeps.require]

omit [DecidableEq B] in
/-- With room for message_2, sealing it succeeds, so TH_3 changes only if OK is returned. -/
theorem rMakeMsg2_makes (correct : P.Correct) {outCap : Nat}
    (room : xPk + (c.selfAuth.ptLen + aeadTag) ≤ outCap) :
    ReturnsIfChanged Ctx.th3 (rMakeMsg2 P outCap) c := by
  unfold rMakeMsg2
  refine .bind Keeps.load fun ctx _ loaded => ?_
  obtain ⟨rfl, rfl⟩ := load_eq_ok.mp loaded
  refine .bind (makeAuth_keeps fun _ _ => rfl) fun pt2 _ made => .of_returns ?_
  obtain ⟨_, auth, -⟩ := makeAuth_eq_ok.mp made
  refine seal_returns correct (fun ct len => ?_) (fun ct s => ⟨_, s, rfl⟩) _
  rw [len, auth.length]
  exact room

omit [DecidableEq B] in
/-- With room for message_3, sealing it succeeds, so TH_4 changes only if OK is returned. -/
theorem iMakeMsg3_makes (correct : P.Correct) {outCap : Nat}
    (room : c.selfAuth.ptLen + aeadTag ≤ outCap) :
    ReturnsIfChanged Ctx.th4 (iMakeMsg3 P outCap) c := by
  unfold iMakeMsg3
  refine .bind Keeps.load fun ctx _ loaded => ?_
  obtain ⟨rfl, rfl⟩ := load_eq_ok.mp loaded
  refine .bind (makeAuth_keeps fun _ _ => rfl) fun pt3 _ made => .of_returns ?_
  obtain ⟨_, auth, -⟩ := makeAuth_eq_ok.mp made
  refine seal_returns correct (fun ct len => ?_) (fun ct s => ⟨_, _, rfl⟩) _
  rw [len, auth.length]
  exact room

omit [DecidableEq B] in
/-- The key derivation of message_1 comes before TH_3. -/
theorem rHandleMsg1Keys_keeps_th3 (inp : List B) (ephSk : Block B 32) :
    Keeps Ctx.th3 (rHandleMsg1Keys P inp ephSk) := by
  unfold rHandleMsg1Keys
  repeat' first
    | refine Keeps.bind ?_ fun _ => ?_
    | exact Keeps.store fun _ => rfl
    | simp only [Keeps.load, Keeps.require, Keeps.demand]

omit [DecidableEq B] in
/-- With room for message_2 of the method in message_1, TH_3 changes only if OK is returned. -/
theorem rHandleMsg1_makes (correct : P.Correct) {inp : List B} {ephSk : Block B 32} {outCap : Nat}
    (room : ¬ (Call.rHandleMsg1 inp ephSk outCap).NoRoom c) :
    ReturnsIfChanged Ctx.th3 (rHandleMsg1 P inp ephSk outCap) c := by
  refine .bind (rHandleMsg1Keys_keeps_th3 inp ephSk) fun _ t keys => ?_
  obtain ⟨-, b, gX, cI, rfl, -, -, -, -, -, rfl⟩ := rHandleMsg1Keys_eq_ok.mp keys
  refine rMakeMsg2_makes correct (Nat.not_lt.mp fun short => room ⟨b, ?_, short⟩)
  exact Octet.toByte?_eq_some.mpr rfl

/-- What comes before message_3 leaves TH_4 and the kind of authentication alone. -/
theorem iHandleMsg2_makes (correct : P.Correct) {inp : List B} {outCap : Nat}
    (room : c.selfAuth.ptLen + aeadTag ≤ outCap) :
    ReturnsIfChanged Ctx.th4 (iHandleMsg2 P inp outCap) c := by
  unfold iHandleMsg2
  refine .bind ?_ fun call c₁ opened => ?_
  · unfold iHandleMsg2Open
    repeat' first
      | refine Keeps.bind ?_ fun _ => ?_
      | exact Keeps.store fun _ => rfl
      | simp only [Keeps.load, Keeps.require, Keeps.demand, Keeps.pure]
  obtain ⟨-, gY, ct2, -, -, ssE, -, th2, -, -, rfl⟩ := iHandleMsg2Open_eq_ok.mp opened
  refine .bind Keeps.demand fun pt2 _ dec => ?_
  obtain ⟨-, rfl⟩ := demand_eq_ok.mp dec
  refine .bind ?_ fun _ c₂ checked => ?_
  · unfold checkAuth checkStat checkSig
    repeat' first
      | refine Keeps.bind ?_ fun _ => ?_
      | refine Keeps.ite ?_ ?_
      | exact Keeps.store fun _ => rfl
      | simp only [Keeps.load, Keeps.require, Keeps.demand]
  obtain ⟨prk3e2m, idCred, -, rfl⟩ := checkAuth_eq_ok.mp checked
  refine .bind (Keeps.store fun _ => rfl) fun _ c₃ stored => ?_
  obtain rfl := store_eq_ok.mp stored
  exact iMakeMsg3_makes correct room

theorem role_of_changed {γ : Type} {p : Ctx B → γ} {k : Call B}
    (changed : p (invoke P k c).2 ≠ p c) : c.role = k.role := by
  by_contra other
  rw [invoke_of_other_role other] at changed
  exact changed rfl

theorem hMsg1_made {k : Call B} (role : c.role = .initiator)
    (changed : (invoke P k c).2.hMsg1 ≠ c.hMsg1) :
    k.handler = .iMakeMsg1 ∧ Ok (invoke P) k c := by
  have same := role_of_changed changed
  rw [role] at same
  cases k with
  | iMakeMsg1 ephSk outCap =>
    exact ⟨rfl, ok_iff.mpr ((iMakeMsg1_makes ephSk outCap).returnsIfChanged c changed)⟩
  | iHandleMsg2 inp outCap =>
    have keeps : Keeps Ctx.hMsg1 (iHandleMsg2 P inp outCap) :=
      (iHandleMsg2_frame inp outCap).of_reads fun _ => rfl
    exact absurd (keeps c) changed
  | iHandleMsg4 inp =>
    have keeps : Keeps Ctx.hMsg1 (iHandleMsg4 inp : Proc (Ctx B) Err Unit) :=
      (iHandleMsg4_frame inp).of_reads fun _ => rfl
    exact absurd (keeps.bind (fun _ => Keeps.pure []) c) changed
  | rHandleMsg1 inp ephSk outCap => cases same
  | rHandleMsg3 inp => cases same

/-- On a responder, a call with room changes TH_3 only as `edhoc03_r_handle_msg1` that returns OK.
-/
theorem th3_made (correct : P.Correct) {k : Call B} (role : c.role = .responder)
    (changed : (invoke P k c).2.th3 ≠ c.th3) (room : ¬ k.NoRoom c) :
    k.handler = .rHandleMsg1 ∧ Ok (invoke P) k c := by
  have same := role_of_changed changed
  rw [role] at same
  cases k with
  | rHandleMsg1 inp ephSk outCap =>
    exact ⟨rfl, ok_iff.mpr (rHandleMsg1_makes correct room changed)⟩
  | rHandleMsg3 inp =>
    have keeps : Keeps Ctx.th3 (rHandleMsg3 P inp) :=
      (rHandleMsg3_frame inp).of_reads fun _ => rfl
    exact absurd (keeps c) changed
  | iMakeMsg1 ephSk outCap => cases same
  | iHandleMsg2 inp outCap => cases same
  | iHandleMsg4 inp => cases same

/-- On an initiator, a call with room changes TH_4 only as `edhoc03_i_handle_msg2` that returns OK.
-/
theorem th4_made (correct : P.Correct) {k : Call B} (role : c.role = .initiator)
    (changed : (invoke P k c).2.th4 ≠ c.th4) (room : ¬ k.NoRoom c) :
    k.handler = .iHandleMsg2 ∧ Ok (invoke P) k c := by
  have same := role_of_changed changed
  rw [role] at same
  cases k with
  | iHandleMsg2 inp outCap =>
    exact ⟨rfl, ok_iff.mpr (iHandleMsg2_makes correct (Nat.not_lt.mp room) changed)⟩
  | iMakeMsg1 ephSk outCap =>
    have keeps : Keeps Ctx.th4 (iMakeMsg1 P ephSk outCap) :=
      (iMakeMsg1_frame ephSk outCap).of_reads fun _ => rfl
    exact absurd (keeps c) changed
  | iHandleMsg4 inp =>
    have keeps : Keeps Ctx.th4 (iHandleMsg4 inp : Proc (Ctx B) Err Unit) :=
      (iHandleMsg4_frame inp).of_reads fun _ => rfl
    exact absurd (keeps.bind (fun _ => Keeps.pure []) c) changed
  | rHandleMsg1 inp ephSk outCap => cases same
  | rHandleMsg3 inp => cases same

omit [DecidableEq B] in
/-- A message_1 that is returned leaves a SHA-256 output. -/
theorem iMakeMsg1_hMsg1 {out : List B} {ephSk : Block B 32} {outCap : Nat} {c' : Ctx B}
    (ok : iMakeMsg1 P ephSk outCap c = (.ok out, c')) : ∃ m, c'.hMsg1 = P.sha256 m := by
  obtain ⟨-, -, -, -, rfl⟩ := iMakeMsg1_eq_ok.mp ok
  exact ⟨_, rfl⟩

/-- A message_2 that is accepted leaves a SHA-256 output as TH_4. -/
theorem iHandleMsg2_th4 {inp out : List B} {outCap : Nat} {c' : Ctx B}
    (ok : iHandleMsg2 P inp outCap c = (.ok out, c')) : ∃ m, c'.th4 = P.sha256 m := by
  obtain ⟨_, _, -, _, -, _, _, -, made⟩ := iHandleMsg2_eq_ok.mp ok
  obtain ⟨_, _, -, -, -, rfl⟩ := iMakeMsg3_eq_ok.mp made
  exact ⟨_, rfl⟩

omit [DecidableEq B] in
/-- Room for the longer of the two authentications is room for both. -/
theorem not_noRoom_iHandleMsg2 {inp : List B} {outCap : Nat}
    (room : Auth.sig.ptLen + aeadTag ≤ outCap) : ¬ (Call.iHandleMsg2 inp outCap).NoRoom c := by
  have longest : c.selfAuth.ptLen ≤ Auth.sig.ptLen := by
    cases c.selfAuth <;> decide
  exact Nat.not_lt.mpr (by omega)

theorem Call.KeysMade.inOrder (correct : P.Correct) {before : List (Call B)} {k : Call B}
    (made : k.KeysMade P before c) :
    k.InOrder P (Returned (invoke P) Call.handler · before c) (after (invoke P) before c) := by
  have roles (calls : List (Call B)) : (after (invoke P) calls c).role = c.role :=
    after_keeps invoke_keeps_role calls c
  cases k with
  | iMakeMsg1 ephSk outCap => trivial
  | rHandleMsg1 inp ephSk outCap => trivial
  | iHandleMsg2 inp outCap =>
    intro authentic
    have role : c.role = .initiator := (roles before).symm.trans authentic.1
    exact (made authentic).returned fun earlier i rest _ changed _ =>
      hMsg1_made ((roles earlier).trans role) changed
  | rHandleMsg3 inp =>
    intro authentic
    have role : c.role = .responder := (roles before).symm.trans authentic.1
    exact (made authentic).returned fun earlier i rest _ changed room =>
      th3_made correct ((roles earlier).trans role) changed room
  | iHandleMsg4 inp =>
    intro now empty
    have role : c.role = .initiator := (roles before).symm.trans now
    exact (made role empty).returned fun earlier i rest _ changed room =>
      th4_made correct ((roles earlier).trans role) changed room

theorem KeysMade.followsProtocol (correct : P.Correct) (fresh : c.Fresh) {calls : List (Call B)}
    (made : KeysMade P c calls) : FollowsProtocol P c calls := by
  refine Typestate.of_steps ?_ fun before k rest split => ?_
  · cases fresh <;> exact Bool.false_ne_true
  · have role : (after (invoke P) before c).role = c.role :=
      after_keeps invoke_keeps_role before c
    rw [← role]
    exact keepsOrder ((made before k rest split).inOrder correct)

end Steps

end Edhoc03

/-! ### Both cores -/

/-- On every fresh context of either core, every run follows the protocol in which no message
is authentic under blank or left-over keys: no handler returns OK before the one it needs
did, and `done` is raised only by the handler that completes the handshake. -/
theorem calls_follow_protocol (correct : P.Correct) :
    (∀ (c : Edhoc4.Ctx B) (calls : List (Edhoc4.Call B)), c.Fresh →
      Edhoc4.KeysMade P c calls → Edhoc4.FollowsProtocol P c calls) ∧
    (∀ (c : Edhoc03.Ctx B) (calls : List (Edhoc03.Call B)), c.Fresh →
      Edhoc03.KeysMade P c calls → Edhoc03.FollowsProtocol P c calls) :=
  ⟨fun _ _ fresh made => made.followsProtocol correct fresh,
    fun _ _ fresh made => made.followsProtocol correct fresh⟩

section Selftest

open Symbolic

/-- A hash is not blank. -/
theorem sha256_ne_zeros (m : List Sym) : primitives.sha256 m ≠ zeros 32 := by
  intro blank
  have first : Sym.lit 0 ∈ (primitives.sha256 m).toList := by
    rw [blank]
    exact List.mem_replicate.mpr ⟨by decide, rfl⟩
  obtain ⟨i, -, hash⟩ := mem_out.mp first
  cases hash

/-- The two calls of a method-4 responder and the three calls of a method-3 initiator in
an unmodified exchange. -/
theorem selftest_calls_follow_protocol :
    (∃ x : Edhoc4.Exchange primitives (creds4 selftestIds .initiator)
        (creds4 selftestIds .responder) Edhoc4.runCoins,
      Edhoc4.FollowsProtocol primitives
        (Edhoc4.initResponder (creds4 selftestIds .responder)
          (creds4 selftestIds .initiator).kemPk)
        [.rHandleMsg1 x.m1 (msg2Coins 1) Edhoc4.maxMsg,
          .rHandleMsg3 x.m3 (msg4Coins 3) Edhoc4.maxMsg]) ∧
    ∃ x : Edhoc03.Exchange primitives 3 (creds03 selftestIds .initiator)
        (creds03 selftestIds .responder) ⟨fresh 32 (.session 0 0), fresh 32 (.session 1 0)⟩,
      Edhoc03.FollowsProtocol primitives
        (Edhoc03.initInitiator 3 (creds03 selftestIds .initiator)
          (creds03 selftestIds .responder).pub)
        [.iMakeMsg1 (fresh 32 (.session 0 0)) Edhoc03.maxMsg, .iHandleMsg2 x.m2 Edhoc03.maxMsg,
          .iHandleMsg4 []] := by
  obtain ⟨method4, methods03⟩ := calls_follow_protocol primitives_correct
  constructor
  · obtain ⟨x, -⟩ := Edhoc4.exchange_exists primitives_correct
      (Edhoc4.creds4_valid selftestIds .initiator) (Edhoc4.creds4_valid selftestIds .responder)
      Edhoc4.runCoins
    refine ⟨x, method4 _ _ (.responder _ _) ?_⟩
    rintro (_ | ⟨_, _ | ⟨_, _⟩⟩) k rest split
    · cases split
      trivial
    · cases split
      intro _
      have answered : Edhoc4.invoke primitives (.rHandleMsg1 x.m1 (msg2Coins 1) Edhoc4.maxMsg)
          (Edhoc4.initResponder (creds4 selftestIds .responder)
            (creds4 selftestIds .initiator).kemPk) = (.ok x.m2, x.r₁) := x.handleMsg1
      obtain ⟨m, th3⟩ := Edhoc4.rHandleMsg1_th3 x.handleMsg1
      refine ⟨Made.of_none ?_ ?_, .inr (by decide)⟩
      · rw [after_cons, answered, after_nil, th3]
        exact sha256_ne_zeros m
      · rintro (_ | ⟨_, _⟩) k' rest' split'
        · cases split'
          exact (by decide : ¬ Edhoc4.maxMsg <
            Edhoc4.xwingCt + (Edhoc4.pt2Len + Edhoc4.aeadTag))
        · simp at split'
    · simp at split
  · obtain ⟨x, -⟩ := Edhoc03.exchange_exists primitives_correct
      (show Edhoc03.methodValid 3 = true by decide) (creds03_valid selftestIds .initiator)
      (creds03_valid selftestIds .responder)
      ⟨fresh 32 (.session 0 0), fresh 32 (.session 1 0)⟩
    refine ⟨x, methods03 _ _ (.initiator _ _ _) ?_⟩
    have made : Edhoc03.invoke primitives (.iMakeMsg1 (fresh 32 (.session 0 0)) Edhoc03.maxMsg)
        (Edhoc03.initInitiator 3 (creds03 selftestIds .initiator)
          (creds03 selftestIds .responder).pub) = (.ok x.m1, x.i₁) := x.makeMsg1
    have answered : Edhoc03.invoke primitives (.iHandleMsg2 x.m2 Edhoc03.maxMsg) x.i₁ =
        (.ok x.m3, x.i₂) := x.handleMsg2
    rintro (_ | ⟨_, _ | ⟨_, _ | ⟨_, _⟩⟩⟩) k rest split
    · cases split
      trivial
    · cases split
      intro _
      obtain ⟨m, hMsg1⟩ := Edhoc03.iMakeMsg1_hMsg1 x.makeMsg1
      refine Made.of_none ?_ ?_
      · rw [after_cons, made, after_nil, hMsg1]
        exact sha256_ne_zeros m
      · rintro (_ | ⟨_, _⟩) k' rest' split'
        · cases split'
          exact id
        · simp at split'
    · cases split
      intro _ _
      obtain ⟨m, th4⟩ := Edhoc03.iHandleMsg2_th4 x.handleMsg2
      refine Made.of_none ?_ ?_
      · rw [after_cons, made, after_cons, answered, after_nil, th4]
        exact sha256_ne_zeros m
      · rintro (_ | ⟨_, _ | ⟨_, _⟩⟩) k' rest' split'
        · cases split'
          exact id
        · cases split'
          exact Edhoc03.not_noRoom_iHandleMsg2 (by decide)
        · simp at split'
    · simp at split

/-- Fresh initiators take a message_4: methods 0 to 3 the empty one, and method 4 any
public key sealed under the all-zero key material. -/
theorem fresh_initiators_take_message_4 :
    ¬ Edhoc03.FollowsProtocol primitives
        (Edhoc03.initInitiator 3 (creds03 selftestIds .initiator)
          (creds03 selftestIds .responder).pub) [.iHandleMsg4 []] ∧
    ∃ m4, ¬ Edhoc4.FollowsProtocol primitives
        (Edhoc4.initInitiator (creds4 selftestIds .initiator)
          (creds4 selftestIds .responder).kemPk) [.iHandleMsg4 m4] := by
  constructor
  · intro follows
    refine not_returned_nil (follows.order [] _ [] rfl ?_ _ rfl)
    exact ok_iff.mpr ⟨[], _, bind_eq_ok.mpr ⟨(), _,
      Edhoc03.iHandleMsg4_eq_ok.mpr ⟨rfl, rfl, rfl⟩, rfl⟩⟩
  · obtain ⟨m4, -, opened, -⟩ := primitives_correct.aeadOpen_aeadSeal "E4KEY" (zeros 32) (zeros 32)
      (zeros Edhoc4.xwingPk).toList (Edhoc4.xwingPk + 16)
    refine ⟨m4, fun follows => ?_⟩
    refine not_returned_nil (follows.order [] _ [] rfl ?_ _ rfl)
    exact ok_iff.mpr ⟨[], _, bind_eq_ok.mpr ⟨(), _,
      Edhoc4.iHandleMsg4_eq_ok.mpr ⟨rfl, zeros Edhoc4.xwingPk, opened, rfl⟩, rfl⟩⟩

end Selftest

end EdhocAuth
