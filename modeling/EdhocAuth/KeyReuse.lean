/-
AEAD keys and nonces over the life of one context.

Key and nonce of a message are derived from a PRK and a transcript hash, without a
counter, so two seals under one pair are harmless only if they are the same seal.
`sealOf` is the argument of the `aead_seal` a call gets to, whether the call then
returns or fails, and `seals` lists them over a run.

Every transcript hash that a seal uses is computed in the same call. Under a hash
without collisions it determines the message the call handled; what is sealed is then
determined too, except where it holds a fresh ratchet key: a method-4 handler that is
handed one authentic message twice seals two plaintexts under one key and nonce.
-/

import EdhocAuth.Api

namespace EdhocAuth

open Proc Primitives

/-- The arguments of one `aead_seal` call; `clear` is what the message has before the
ciphertext. -/
structure SealCall (B : Type) where
  clear : List B
  prk : Block B 32
  th : Block B 32
  pt : List B

/-- No key and nonce is used for two plaintexts. -/
def NoReuse {B K : Type} (derive : Block B 32 → Block B 32 → K) (log : List (SealCall B)) : Prop :=
  ∀ s ∈ log, ∀ s' ∈ log, derive s.prk s.th = derive s'.prk s'.th → s.pt = s'.pt

variable {B : Type} [Octet B] [DecidableEq B] {P : Primitives B}

/-! ### Method 4 -/

namespace Edhoc4

/-! #### The handlers up to their seal -/

omit [DecidableEq B] in
/-- `edhoc4_i_make_msg1` up to its `aead_seal`. -/
def iMakeMsg1Seal (P : Primitives B) (coins : Msg1Coins B) : Proc (Ctx B) Err (SealCall B) := do
  let ctx ← load
  require (ctx.role = .initiator) .state
  let eph ← demand (xwingKeypair P coins.eph) .kem
  store fun c => { c with ephPk := eph.1, ephSk := eph.2 }
  let enc ← demand (xwingEncaps P coins.encB ctx.peerKemPk) .kem
  let th1 := P.sha256 (eph.1.toList ++ enc.1.toList)
  let prk1e := P.hkdfExtract th1 enc.2
  store fun c => { c with ssB := enc.2, th1 := th1, prk1e := prk1e }
  return ⟨enc.1.toList ++ eph.1.toList, prk1e, th1, Octet.ofByte 0x04 :: ctx.cI.toList⟩

omit [DecidableEq B] in
def rMakeMsg2Seal (P : Primitives B) (inp : List B) (coins : Msg2Coins B) :
    Proc (Ctx B) Err (SealCall B) := do
  let ctx ← load
  let hMsg1 := P.sha256 inp
  let enc ← demand (xwingEncaps P coins.encE ctx.ephPk) .kem
  let cte := enc.1
  let th2 := P.sha256 (hMsg1.toList ++ (cte.toList ++ ctx.cR.toList))
  let prk2e := P.hkdfExtract th2 enc.2
  store fun c => { c with ssE := enc.2, th2 := th2, prk2e := prk2e }
  let encA ← demand (xwingEncaps P coins.encA ctx.peerKemPk) .kem
  let prk3e2m := P.hkdfExtract prk2e ctx.ssB
  store fun c => { c with ctA := encA.1, ssA := encA.2, prk3e2m := prk3e2m }
  let mac2 := computeMac P prk3e2m th2 ctx.self.idCred []
  let sigR ← demand (P.mldsaSign
      (sigMessage th2 ctx.self.idCred mac2) ctx.self.sigSk coins.sig) .sig
  require (sigR.2 = mldsaSig) .sig
  let pt2 := Pt2.write ⟨encA.1, ctx.cR, ctx.self.idCred, ctx.self.sigVk, mac2, sigR.1⟩
  store fun c => { c with th3 := P.sha256 (th2.toList ++ pt2) }
  return ⟨cte.toList, prk2e, th2, pt2⟩

omit [DecidableEq B] in
def iMakeMsg3Seal (P : Primitives B) (coins : Msg3Coins B) : Proc (Ctx B) Err (SealCall B) := do
  let ctx ← load
  let new ← demand (xwingKeypair P coins.new) .kem
  store fun c => { c with newPk := new.1, newSk := new.2 }
  let mac3 := computeMac P ctx.prk4e3m ctx.th3 ctx.self.idCred new.1.toList
  let sigI ← demand (P.mldsaSign
      (sigMessage ctx.th3 ctx.self.idCred mac3) ctx.self.sigSk coins.sig) .sig
  let pt3 := Pt3.write ⟨ctx.self.idCred, new.1, mac3, ctx.self.sigVk, sigI.1⟩
  store fun c => { c with th4 := P.sha256 (ctx.th3.toList ++ pt3) }
  return ⟨[], ctx.prk3e2m, ctx.th3, pt3⟩

omit [Octet B] [DecidableEq B] in
def rMakeMsg4Seal (P : Primitives B) (coins : KeyCoins B) : Proc (Ctx B) Err (SealCall B) := do
  let ctx ← load
  let new ← demand (xwingKeypair P coins) .kem
  store fun c => { c with newPk := new.1, newSk := new.2 }
  return ⟨[], ctx.prk4e3m, ctx.th4, new.1.toList⟩

omit [DecidableEq B] in
/-- `aead_seal` and the check of the capacity. -/
def send (P : Primitives B) (s : SealCall B) (outCap : Nat) : Proc (Ctx B) Err (List B) := do
  let ct ← demand (aeadSeal P s.prk s.th s.pt) .aead
  require (s.clear.length + ct.length ≤ outCap) .buf
  return s.clear ++ ct

section Splits

variable {outCap : Nat}

omit [Octet B] [DecidableEq B] in
/-- The clear part of a message has the size the handler reckons with. -/
theorem require_room (outCap : Nat) {clear : List B} {n : Nat} (len : clear.length = n)
    (ct : List B) :
    (require (clear.length + ct.length ≤ outCap) .buf : Proc (Ctx B) Err Unit) =
      require (n + ct.length ≤ outCap) .buf :=
  require_congr (by rw [len])

omit [DecidableEq B] in
/-- The handler seals message_1, sends it and keeps its hash. -/
theorem iMakeMsg1_eq_seal (coins : Msg1Coins B) :
    iMakeMsg1 P coins outCap = iMakeMsg1Seal P coins >>= fun s => send P s outCap >>= fun out =>
      store (fun c => { c with hMsg1 := P.sha256 out }) >>= fun _ => pure out := by
  have room (ctB : Block B xwingCt) (pkX : Block B xwingPk) := require_room outCap
    (show (ctB.toList ++ pkX.toList).length = xwingCt + xwingPk by simp)
  simp only [iMakeMsg1, iMakeMsg1Seal, send, bind_assoc, pure_bind, room, List.append_assoc]

omit [DecidableEq B] in
/-- The handler seals message_2 and sends it. -/
theorem rMakeMsg2_eq_seal (inp : List B) (coins : Msg2Coins B) :
    rMakeMsg2 P inp coins outCap = rMakeMsg2Seal P inp coins >>= fun s => send P s outCap := by
  have room (cte : Block B xwingCt) := require_room outCap cte.toList_length
  simp only [rMakeMsg2, rMakeMsg2Seal, send, bind_assoc, pure_bind, room]

omit [DecidableEq B] in
/-- The handler seals message_3, sends it and exports the keys. -/
theorem iMakeMsg3_eq_seal (coins : Msg3Coins B) :
    iMakeMsg3 P coins outCap = iMakeMsg3Seal P coins >>= fun s => send P s outCap >>= fun out =>
      store (fun c => { derivePrkOutAndMsk P c with done := false }) >>= fun _ => pure out := by
  have room (ct : List B) : (require (([] : List B).length + ct.length ≤ outCap) .buf :
      Proc (Ctx B) Err Unit) = require (ct.length ≤ outCap) .buf := require_congr (by simp)
  simp only [iMakeMsg3, iMakeMsg3Seal, send, bind_assoc, pure_bind, List.nil_append, room]

omit [DecidableEq B] in
/-- The handler seals message_4 and sends it. -/
theorem rMakeMsg4_eq_seal (coins : KeyCoins B) :
    rMakeMsg4 P coins outCap = rMakeMsg4Seal P coins >>= fun s => send P s outCap := by
  have room (ct : List B) : (require (([] : List B).length + ct.length ≤ outCap) .buf :
      Proc (Ctx B) Err Unit) = require (ct.length ≤ outCap) .buf := require_congr (by simp)
  simp only [rMakeMsg4, rMakeMsg4Seal, send, bind_assoc, pure_bind, List.nil_append, room]

end Splits

/-! #### The seals of a run -/

/-- The seal a call gets to on a context, if it gets to one. -/
def sealOf (P : Primitives B) (c : Ctx B) : Call B → Option (SealCall B)
  | .iMakeMsg1 coins _ => (iMakeMsg1Seal P coins c).1.toOption
  | .rHandleMsg1 inp coins _ =>
    ((rReceiveMsg1 P inp >>= fun _ => rMakeMsg2Seal P inp coins) c).1.toOption
  | .iHandleMsg2 inp coins _ =>
    ((iReceiveMsg2 P inp >>= fun _ => iMakeMsg3Seal P coins) c).1.toOption
  | .rHandleMsg3 inp coins _ =>
    ((rReceiveMsg3 P inp >>= fun _ => rMakeMsg4Seal P coins) c).1.toOption
  | .iHandleMsg4 _ => none

def seals (P : Primitives B) (c : Ctx B) (calls : List (Call B)) : List (SealCall B) :=
  notes (invoke P) (sealOf P) calls c

/-- The randomness of one `edhoc4_r_handle_msg1` never gives the KEM ciphertext that the
randomness of the other gives. -/
def Call.Independent (P : Primitives B) : Call B → Call B → Prop
  | .rHandleMsg1 _ coins _, .rHandleMsg1 _ coins' _ => ∀ pk pk' e e',
    xwingEncaps P coins.encE pk = some e → xwingEncaps P coins'.encE pk' = some e' → e.1 ≠ e'.1
  | _, _ => True

/-- One message is authentic in both calls; `c` and `d` are the contexts before them. -/
def Call.Repeated (P : Primitives B) (c d : Ctx B) : Call B → Call B → Prop
  | .iHandleMsg2 inp _ _, .iHandleMsg2 inp' _ _ =>
    inp = inp' ∧ c.Authentic2 P inp ∧ d.Authentic2 P inp
  | .rHandleMsg3 inp _ _, .rHandleMsg3 inp' _ _ =>
    inp = inp' ∧ c.Authentic3 P inp ∧ d.Authentic3 P inp
  | _, _ => False

/-- No message_2 and no message_3 is found authentic twice in the run. -/
def HandlesOnce (P : Primitives B) (c : Ctx B) (calls : List (Call B)) : Prop :=
  ∀ before k between k' rest, calls = before ++ k :: (between ++ k' :: rest) →
    ¬ Call.Repeated P (after (invoke P) before c) (after (invoke P) (before ++ k :: between) c) k k'

/-- What a seal says about the call and the context it was made on. -/
inductive SealedBy (P : Primitives B) (c : Ctx B) : Call B → SealCall B → Prop
  | msg1 {coins : Msg1Coins B} {outCap : Nat} {clear : List B} {prk : Block B 32}
      (pkX : Block B xwingPk) (ctB : Block B xwingCt) (role : c.role = .initiator) :
      SealedBy P c (.iMakeMsg1 coins outCap)
        ⟨clear, prk, P.sha256 (pkX.toList ++ ctB.toList), Octet.ofByte 0x04 :: c.cI.toList⟩
  | msg2 {inp : List B} {coins : Msg2Coins B} {outCap : Nat} {clear pt : List B} {prk : Block B 32}
      (pkX : Block B xwingPk) (enc : Block B xwingCt × Block B xwingSs) (cR : Block B 1)
      (role : c.role = .responder) (kem : xwingEncaps P coins.encE pkX = some enc) :
      SealedBy P c (.rHandleMsg1 inp coins outCap)
        ⟨clear, prk, P.sha256 ((P.sha256 inp).toList ++ (enc.1.toList ++ cR.toList)), pt⟩
  | msg3 {inp : List B} {coins : Msg3Coins B} {outCap : Nat} {clear pt : List B}
      (cte : Block B xwingCt) (ct2 : List B) (prk2e th2 ssB : Block B 32) (p : Pt2 B)
      (authentic : c.Authentic2 P inp) (split : inp = cte.toList ++ ct2)
      (hash : th2 = P.sha256 (c.hMsg1.toList ++ (cte.toList ++ (octet 0x20 : Block B 1).toList)))
      (opened : aeadOpen P ⟨prk2e, th2, ct2, pt2Len + 16⟩ = some p.write) :
      SealedBy P c (.iHandleMsg2 inp coins outCap)
        ⟨clear, P.hkdfExtract prk2e ssB, P.sha256 (th2.toList ++ p.write), pt⟩
  | msg4 {inp : List B} {coins : KeyCoins B} {outCap : Nat} {clear pt : List B}
      (p : Pt3 B) (authentic : c.Authentic3 P inp)
      (opened : aeadOpen P ⟨c.prk3e2m, c.th3, inp, pt3Len + 16⟩ = some p.write) :
      SealedBy P c (.rHandleMsg3 inp coins outCap)
        ⟨clear, P.hkdfExtract c.prk3e2m c.ssA, P.sha256 (c.th3.toList ++ p.write), pt⟩

section Seals

variable {c c' d : Ctx B} {inp : List B} {s s' : SealCall B}

omit [Octet B] [DecidableEq B] in
/-- What message_4 is sealed under. -/
theorem rMakeMsg4Seal_eq_ok {coins : KeyCoins B} :
    rMakeMsg4Seal P coins c = (.ok s, c') ↔
      ∃ new, xwingKeypair P coins = some new ∧ s = ⟨[], c.prk4e3m, c.th4, new.1.toList⟩ ∧
        c' = { c with newPk := new.1, newSk := new.2 } := by
  simp only [rMakeMsg4Seal, bind_eq_ok, load_eq_ok, demand_eq_ok, store_eq_ok, pure_eq_ok,
    and_assoc, exists_and_left, exists_eq_left, exists_const]

/-- A call that seals does so as one of the cases of `SealedBy`. -/
theorem sealedBy_of_sealOf {k : Call B} (sealed : sealOf P c k = some s) : SealedBy P c k s := by
  cases k with
  | iMakeMsg1 coins outCap =>
    obtain ⟨c', ok⟩ := toOption_eq_some.mp sealed
    simp only [iMakeMsg1Seal, bind_eq_ok, load_eq_ok, require_eq_ok, demand_eq_ok, store_eq_ok,
      pure_eq_ok, and_assoc, exists_and_left, exists_eq_left, exists_const] at ok
    obtain ⟨role, eph, -, enc, -, rfl, -⟩ := ok
    exact .msg1 eph.1 enc.1 role
  | rHandleMsg1 inp coins outCap =>
    obtain ⟨c', ok⟩ := toOption_eq_some.mp sealed
    obtain ⟨u, c₁, received, made⟩ := bind_eq_ok.mp ok
    simp only [rMakeMsg2Seal, bind_eq_ok, load_eq_ok, require_eq_ok, demand_eq_ok, store_eq_ok,
      pure_eq_ok, and_assoc, exists_and_left, exists_eq_left, exists_const] at made
    obtain ⟨enc, kem, encA, -, sigR, -, -, rfl, -⟩ := made
    exact .msg2 _ enc _ (rReceiveMsg1_authentic received).1 kem
  | iHandleMsg2 inp coins outCap =>
    obtain ⟨c', ok⟩ := toOption_eq_some.mp sealed
    obtain ⟨u, c₁, received, made⟩ := bind_eq_ok.mp ok
    have authentic := iReceiveMsg2_authentic received
    obtain ⟨call, c₂, opened, pt2, dec, verified⟩ := iReceiveMsg2_eq_ok.mp received
    obtain ⟨-, cte, ct2, split, -, ssE, -, th2, hash, rfl, rfl⟩ := iHandleMsg2Open_eq_ok.mp opened
    obtain ⟨p, rfl, prk3e2m, rfl, -, -, ssA, -, rfl⟩ := iVerifyMsg2_eq_ok.mp verified
    simp only [iMakeMsg3Seal, bind_eq_ok, load_eq_ok, demand_eq_ok, store_eq_ok, pure_eq_ok,
      and_assoc, exists_and_left, exists_eq_left, exists_const] at made
    obtain ⟨new, -, sigI, -, rfl, -⟩ := made
    exact .msg3 cte ct2 _ th2 _ p authentic split hash dec
  | rHandleMsg3 inp coins outCap =>
    obtain ⟨c', ok⟩ := toOption_eq_some.mp sealed
    obtain ⟨u, c₁, received, made⟩ := bind_eq_ok.mp ok
    have authentic := rReceiveMsg3_authentic received
    obtain ⟨call, c₂, opened, pt3, dec, verified⟩ := rReceiveMsg3_eq_ok.mp received
    obtain ⟨-, rfl, rfl⟩ := rHandleMsg3Open_eq_ok.mp opened
    obtain ⟨p, rfl, -, -, rfl⟩ := rVerifyMsg3_eq_ok.mp verified
    obtain ⟨new, -, rfl, -⟩ := rMakeMsg4Seal_eq_ok.mp made
    exact .msg4 p authentic dec
  | iHandleMsg4 inp => cases sealed

omit [Octet B] [DecidableEq B] in
/-- The transcripts of different messages of one side have different lengths. -/
theorem th1_ne_th3 (free : P.CollisionFree) {pkX : Block B xwingPk} {ctB : Block B xwingCt}
    {th2 : Block B 32} {p : Pt2 B} :
    P.sha256 (pkX.toList ++ ctB.toList) ≠ P.sha256 (th2.toList ++ p.write) := by
  intro same
  have len := congrArg List.length (free.sha256 same)
  simp only [List.length_append, List.Vector.toList_length, Pt2.length_write] at len
  exact absurd len (by decide)

omit [Octet B] [DecidableEq B] in
/-- TH_2 and TH_4 hash strings of different lengths. -/
theorem th2_ne_th4 (free : P.CollisionFree) {h th3 : Block B 32} {cte : Block B xwingCt}
    {cR : Block B 1} {p : Pt3 B} :
    P.sha256 (h.toList ++ (cte.toList ++ cR.toList)) ≠ P.sha256 (th3.toList ++ p.write) := by
  intro same
  have len := congrArg List.length (free.sha256 same)
  simp only [List.length_append, List.Vector.toList_length, Pt3.length_write] at len
  exact absurd len (by decide)

omit [DecidableEq B] in
/-- Two seals under one key and nonce have one plaintext, unless one authentic message
was handled in both calls. -/
theorem SealedBy.same_text (free : P.CollisionFree) {k k' : Call B} (role : c.role = d.role)
    (cI : c.role = .initiator → c.cI = d.cI) (independent : Call.Independent P k k')
    (once : ¬ Call.Repeated P c d k k') (first : SealedBy P c k s) (second : SealedBy P d k' s')
    (prk : s.prk = s'.prk) (th : s.th = s'.th) : s.pt = s'.pt := by
  cases first with
  | msg1 pkX ctB initiator =>
    cases second with
    | msg1 => rw [cI initiator]
    | msg2 _ _ _ responder => cases initiator.symm.trans (role.trans responder)
    | msg3 => exact absurd th (th1_ne_th3 free)
    | msg4 _ authentic => cases initiator.symm.trans (role.trans authentic.1)
  | msg2 pkX enc cR responder kem =>
    cases second with
    | msg1 _ _ initiator => cases initiator.symm.trans (role.symm.trans responder)
    | msg2 pkX' enc' cR' _ kem' =>
      obtain ⟨-, rest⟩ := Block.append_inj (free.sha256 th)
      obtain ⟨same, -⟩ := Block.append_inj rest
      exact absurd same (independent pkX pkX' enc enc' kem kem')
    | msg3 _ _ _ _ _ _ authentic => cases authentic.1.symm.trans (role.symm.trans responder)
    | msg4 => exact absurd th (th2_ne_th4 free)
  | msg3 cte ct2 prk2e th2 ssB p authentic split hash opened =>
    cases second with
    | msg1 => exact absurd th.symm (th1_ne_th3 free)
    | msg2 _ _ _ responder => cases authentic.1.symm.trans (role.trans responder)
    | msg3 cte' ct2' prk2e' th2' ssB' p' authentic' split' hash' opened' =>
      -- TH3 fixes TH2 and PT2, and these and PRK2e the whole of message_2
      obtain ⟨sameTh2, text⟩ := Block.append_inj (free.sha256 th)
      obtain ⟨-, rest⟩ := Block.append_inj (free.sha256 (hash.symm.trans (sameTh2.trans hash')))
      obtain ⟨sameCte, -⟩ := Block.append_inj rest
      rw [free.hkdfExtract prk, sameTh2, text] at opened
      rw [sameCte, free.aeadOpen opened opened', ← split'] at split
      exact absurd ⟨split, authentic, split ▸ authentic'⟩ once
    | msg4 _ authentic' => cases authentic.1.symm.trans (role.trans authentic'.1)
  | msg4 p authentic opened =>
    cases second with
    | msg1 _ _ initiator => cases initiator.symm.trans (role.symm.trans authentic.1)
    | msg2 => exact absurd th.symm (th2_ne_th4 free)
    | msg3 _ _ _ _ _ _ authentic' => cases authentic'.1.symm.trans (role.symm.trans authentic.1)
    | msg4 p' authentic' opened' =>
      obtain ⟨sameTh3, text⟩ := Block.append_inj (free.sha256 th)
      rw [free.hkdfExtract prk, sameTh3, text] at opened
      have same := free.aeadOpen opened opened'
      exact absurd ⟨same, authentic, same ▸ authentic'⟩ once

/-- The role, and `C_I` where it is the context's own. -/
def Ctx.named (c : Ctx B) : Role × Option (Block B 1) :=
  (c.role, if c.role = .initiator then some c.cI else none)

/-- No call changes the identity of its context. -/
theorem invoke_keeps_named (k : Call B) : Keeps Ctx.named (invoke P k) := by
  cases k with
  | iMakeMsg1 coins outCap => exact (iMakeMsg1_frame coins outCap).of_reads fun _ => rfl
  | rHandleMsg1 inp coins outCap =>
    -- C_I is assigned, but by a responder
    intro c
    cases role : c.role with
    | initiator => rw [invoke, rHandleMsg1_of_initiator role]
    | responder =>
      have kept : (invoke P (.rHandleMsg1 inp coins outCap) c).2.role = .responder :=
        (invoke_keeps_role _ c).trans role
      rw [Ctx.named, Ctx.named, kept, role]
      rfl
  | iHandleMsg2 inp coins outCap => exact (iHandleMsg2_frame inp coins outCap).of_reads fun _ => rfl
  | rHandleMsg3 inp coins outCap => exact (rHandleMsg3_frame inp coins outCap).of_reads fun _ => rfl
  | iHandleMsg4 inp =>
    have keeps : Keeps Ctx.named (iHandleMsg4 P inp) :=
      (iHandleMsg4_frame inp).of_reads fun _ => rfl
    exact keeps.bind fun _ => Keeps.pure []

/-- A run in which no message is found authentic twice uses no key and nonce for two
plaintexts. -/
theorem HandlesOnce.noReuse (free : P.CollisionFree) {calls : List (Call B)}
    (independent : calls.Pairwise (Call.Independent P)) (once : HandlesOnce P c calls) :
    NoReuse (deriveK P) (seals P c calls) := by
  intro s hs s' hs'
  refine notes_pairwise (R := fun s s' => deriveK P s.prk s.th = deriveK P s'.prk s'.th →
    s.pt = s'.pt) (fun _ _ => rfl) (fun _ _ h same => (h same.symm).symm) ?_ hs hs'
  intro before k between k' rest split s s' first second same
  obtain ⟨prk, th⟩ := free.deriveKey same
  have kept :
      (after (invoke P) before c).named = (after (invoke P) (before ++ k :: between) c).named :=
    (after_keeps invoke_keeps_named before c).trans (after_keeps invoke_keeps_named _ c).symm
  obtain ⟨same, own⟩ := Prod.mk.inj kept
  have apart : Call.Independent P k k' := by
    rw [split, List.pairwise_append] at independent
    exact (List.pairwise_cons.mp independent.2.1).1 k' (by simp)
  refine (sealedBy_of_sealOf first).same_text free same (fun role => ?_) apart
    (once before k between k' rest split) (sealedBy_of_sealOf second) prk th
  rw [if_pos role, if_pos (same.symm.trans role)] at own
  exact Option.some.inj own

/-- The seal of `edhoc4_r_handle_msg3` on an authentic message_3: only the plaintext depends
on the randomness. -/
theorem sealOf_rHandleMsg3 {coins : KeyCoins B} {outCap : Nat} {p : Pt3 B}
    {new : Block B xwingPk × Block B xwingSk} (role : c.role = .responder)
    (dec : aeadOpen P ⟨c.prk3e2m, c.th3, inp, pt3Len + 16⟩ = some p.write)
    (mac : computeMac P (P.hkdfExtract c.prk3e2m c.ssA) c.th3 p.idCred p.ead.toList = p.mac)
    (sig : P.mldsaVerify p.sig (sigMessage c.th3 p.idCred p.mac) p.sigVk = true)
    (pair : xwingKeypair P coins = some new) :
    sealOf P c (.rHandleMsg3 inp coins outCap) = some ⟨[], P.hkdfExtract c.prk3e2m c.ssA,
      P.sha256 (c.th3.toList ++ p.write), new.1.toList⟩ := by
  have received := (rReceiveMsg3_eq_ok (u := ())).mpr ⟨_, _,
    rHandleMsg3Open_eq_ok.mpr ⟨role, rfl, rfl⟩, p.write, dec,
    rVerifyMsg3_eq_ok.mpr ⟨p, rfl, mac, sig, rfl⟩⟩
  exact toOption_eq_some.mpr ⟨_, bind_eq_ok.mpr ⟨(), _, received,
    rMakeMsg4Seal_eq_ok.mpr ⟨new, pair, rfl, rfl⟩⟩⟩

/-- `edhoc4_r_handle_msg3` takes a message_3 it accepted again, and seals the key it then
draws under the key and nonce of the first. -/
theorem rHandleMsg3_seals_again {coins coins' : KeyCoins B} {outCap : Nat} (outCap' : Nat)
    {out : List B} {new new' : Block B xwingPk × Block B xwingSk}
    (ok : rHandleMsg3 P inp coins outCap c = (.ok out, c'))
    (pair : xwingKeypair P coins = some new) (pair' : xwingKeypair P coins' = some new') :
    ∃ prk th, sealOf P c (.rHandleMsg3 inp coins outCap) = some ⟨[], prk, th, new.1.toList⟩ ∧
      sealOf P c' (.rHandleMsg3 inp coins' outCap') = some ⟨[], prk, th, new'.1.toList⟩ := by
  obtain ⟨call, c₁, opened, pt3, dec, c₂, verified, made⟩ := rHandleMsg3_eq_ok.mp ok
  obtain ⟨role, rfl, rfl⟩ := rHandleMsg3Open_eq_ok.mp opened
  obtain ⟨p, rfl, mac, sig, rfl⟩ := rVerifyMsg3_eq_ok.mp verified
  obtain ⟨_, -, -, -, rfl⟩ := rMakeMsg4_eq_ok.mp made
  -- the call reads nothing that it wrote
  exact ⟨_, _, sealOf_rHandleMsg3 role dec mac sig pair, sealOf_rHandleMsg3 role dec mac sig pair'⟩

end Seals

end Edhoc4

/-! ### Methods 0 to 3 -/

namespace Edhoc03

/-! #### The handlers up to their seal -/

omit [DecidableEq B] in
def rMakeMsg2Seal (P : Primitives B) : Proc (Ctx B) Err (SealCall B) := do
  let ctx ← load
  let pt2 ← makeAuth P putPrk3e2m ctx.prk2e ctx.th2
  store fun c => { c with th3 := P.sha256 (ctx.th2.toList ++ pt2) }
  return ⟨ctx.ephPk.toList, ctx.prk2e, ctx.th2, pt2⟩

omit [DecidableEq B] in
def iMakeMsg3Seal (P : Primitives B) : Proc (Ctx B) Err (SealCall B) := do
  let ctx ← load
  let pt3 ← makeAuth P putPrk4e3m ctx.prk3e2m ctx.th3
  store fun c => { c with th4 := P.sha256 (ctx.th3.toList ++ pt3) }
  return ⟨[], ctx.prk3e2m, ctx.th3, pt3⟩

/-- `edhoc03_i_handle_msg2` up to TH3. -/
def iReceiveMsg2 (P : Primitives B) (inp : List B) : Proc (Ctx B) Err Unit := do
  let call ← iHandleMsg2Open P inp
  let pt2 ← demand (aeadOpen P call) .aead
  checkAuth P putPrk3e2m call.prk call.th pt2
  store fun c => { c with th3 := P.sha256 (call.th.toList ++ pt2) }

omit [DecidableEq B] in
def send (P : Primitives B) (s : SealCall B) (outCap : Nat) : Proc (Ctx B) Err (List B) := do
  let ct ← demand (aeadSeal P s.prk s.th s.pt) .aead
  require (s.clear.length + ct.length ≤ outCap) .buf
  return s.clear ++ ct

section Splits

variable {outCap : Nat}

omit [DecidableEq B] in
theorem rMakeMsg2_eq_seal :
    rMakeMsg2 P outCap = rMakeMsg2Seal P >>= fun s => send P s outCap := by
  have room (ephPk : Block B xPk) (ct : List B) :
      (require (ephPk.toList.length + ct.length ≤ outCap) .buf : Proc (Ctx B) Err Unit) =
        require (xPk + ct.length ≤ outCap) .buf := require_congr (by rw [ephPk.toList_length])
  simp only [rMakeMsg2, rMakeMsg2Seal, send, bind_assoc, pure_bind, room]

/-- The handler checks message_2, seals message_3 and exports the keys. -/
theorem iHandleMsg2_eq_seal (inp : List B) :
    iHandleMsg2 P inp outCap = iReceiveMsg2 P inp >>= fun _ => iMakeMsg3Seal P >>= fun s =>
      send P s outCap >>= fun out => store (deriveMsk P) >>= fun _ => pure out := by
  have room (ct : List B) : (require (([] : List B).length + ct.length ≤ outCap) .buf :
      Proc (Ctx B) Err Unit) = require (ct.length ≤ outCap) .buf := require_congr (by simp)
  simp only [iHandleMsg2, iReceiveMsg2, iMakeMsg3, iMakeMsg3Seal, send, bind_assoc, pure_bind,
    List.nil_append, room]

end Splits

/-! #### The seals of a run -/

def sealOf (P : Primitives B) (c : Ctx B) : Call B → Option (SealCall B)
  | .rHandleMsg1 inp ephSk _ =>
    ((rHandleMsg1Keys P inp ephSk >>= fun _ => rMakeMsg2Seal P) c).1.toOption
  | .iHandleMsg2 inp _ => ((iReceiveMsg2 P inp >>= fun _ => iMakeMsg3Seal P) c).1.toOption
  | _ => none

def seals (P : Primitives B) (c : Ctx B) (calls : List (Call B)) : List (SealCall B) :=
  notes (invoke P) (sealOf P) calls c

/-- What a seal says about the call and the context it was made on. -/
inductive SealedBy (P : Primitives B) (c : Ctx B) : Call B → SealCall B → Prop
  | msg2 {ephSk : Block B 32} {outCap : Nat} {clear pt : List B} {prk prk' : Block B 32}
      (b : UInt8) (gX ephPk : Block B xPk) (cI cR : Block B connId) (role : c.role = .responder)
      {th2 : Block B 32} (hash : th2 = P.sha256 (ephPk.toList ++
        ((P.sha256 (Octet.ofByte b :: (gX.toList ++ cI.toList))).toList ++ cR.toList)))
      (auth : SelfAuth P (methodRespAuth b.toNat) c.self gX prk th2 prk' pt) :
      SealedBy P c (.rHandleMsg1 (Octet.ofByte b :: (gX.toList ++ cI.toList)) ephSk outCap)
        ⟨clear, prk, th2, pt⟩
  | msg3 {inp : List B} {outCap : Nat} {clear pt : List B} {prk prk' : Block B 32}
      (gY : Block B xPk) (th2 h : Block B 32) (cR : Block B connId) (pt2 : List B)
      (role : c.role = .initiator)
      (hash : th2 = P.sha256 (gY.toList ++ (h.toList ++ cR.toList)))
      {th3 : Block B 32} (next : th3 = P.sha256 (th2.toList ++ pt2))
      (auth : SelfAuth P c.selfAuth c.self gY prk th3 prk' pt) :
      SealedBy P c (.iHandleMsg2 inp outCap) ⟨clear, prk, th3, pt⟩

section Seals

variable {c c' d : Ctx B} {inp : List B} {s s' : SealCall B}

theorem sealedBy_of_sealOf {k : Call B} (sealed : sealOf P c k = some s) : SealedBy P c k s := by
  cases k with
  | iMakeMsg1 ephSk outCap => cases sealed
  | rHandleMsg1 inp ephSk outCap =>
    obtain ⟨c', ok⟩ := toOption_eq_some.mp sealed
    obtain ⟨u, c₁, keys, made⟩ := bind_eq_ok.mp ok
    obtain ⟨role, b, gX, cI, rfl, -, ssE, -, th2, hash, rfl⟩ := rHandleMsg1Keys_eq_ok.mp keys
    simp only [rMakeMsg2Seal, bind_eq_ok, load_eq_ok, store_eq_ok, pure_eq_ok, makeAuth_eq_ok,
      and_assoc, exists_and_left, exists_eq_left, exists_const] at made
    obtain ⟨pt2, c₂, ⟨prk', auth, rfl⟩, rfl, -⟩ := made
    exact .msg2 b gX _ cI _ role hash auth
  | iHandleMsg2 inp outCap =>
    obtain ⟨c', ok⟩ := toOption_eq_some.mp sealed
    obtain ⟨u, c₁, received, made⟩ := bind_eq_ok.mp ok
    simp only [iReceiveMsg2, bind_eq_ok, demand_eq_ok, store_eq_ok, checkAuth_eq_ok, putPrk3e2m,
      and_assoc, exists_and_left, exists_eq_left, exists_const] at received
    obtain ⟨call, c₂, opened, pt2, -, _, ⟨prk3e2m, idCred, -, rfl⟩, rfl⟩ := received
    obtain ⟨role, gY, ct2, rfl, -, ssE, -, th2, hash, rfl, rfl⟩ := iHandleMsg2Open_eq_ok.mp opened
    simp only [iMakeMsg3Seal, bind_eq_ok, load_eq_ok, store_eq_ok, pure_eq_ok, makeAuth_eq_ok,
      and_assoc, exists_and_left, exists_eq_left, exists_const] at made
    obtain ⟨pt3, c₃, ⟨prk', auth, rfl⟩, rfl, -⟩ := made
    exact .msg3 gY th2 _ _ pt2 role hash rfl auth
  | rHandleMsg3 inp => cases sealed
  | iHandleMsg4 inp => cases sealed

omit [DecidableEq B] in
/-- What a side authenticates with is determined by its inputs. -/
theorem SelfAuth.unique {auth : Auth} {self : Creds B} {peerEph prk th prk' prk'' : Block B 32}
    {pt pt' : List B} (first : SelfAuth P auth self peerEph prk th prk' pt)
    (second : SelfAuth P auth self peerEph prk th prk'' pt') : pt = pt' := by
  cases auth with
  | stat =>
    obtain ⟨⟨ss, mul, rfl⟩, rfl⟩ := first
    obtain ⟨⟨ss', mul', rfl⟩, rfl⟩ := second
    rw [Option.some.inj (mul.symm.trans mul')]
  | sig =>
    obtain ⟨rfl, sig, signed, rfl⟩ := first
    obtain ⟨rfl, sig', signed', rfl⟩ := second
    rw [Option.some.inj (signed.symm.trans signed')]

omit [DecidableEq B] in
/-- Two seals under one key and nonce have one plaintext. -/
theorem SealedBy.same_text (free : P.CollisionFree) {k k' : Call B} (role : c.role = d.role)
    (self : c.self = d.self) (selfAuth : c.role = .initiator → c.selfAuth = d.selfAuth)
    (first : SealedBy P c k s) (second : SealedBy P d k' s') (prk : s.prk = s'.prk)
    (th : s.th = s'.th) : s.pt = s'.pt := by
  cases first with
  | msg2 b gX ephPk cI cR responder hash auth =>
    cases second with
    | msg2 b' gX' ephPk' cI' cR' responder' hash' auth' =>
      -- TH2 fixes message_1, and message_1 the method and G_X
      obtain ⟨-, rest⟩ := Block.append_inj (free.sha256 (hash.symm.trans (th.trans hash')))
      obtain ⟨hMsg1, -⟩ := Block.append_inj rest
      obtain ⟨method, rest⟩ := List.cons.inj (free.sha256 hMsg1)
      obtain ⟨rfl, -⟩ := Block.append_inj rest
      obtain rfl := Octet.ofByte_inj.mp method
      dsimp only at prk th
      rw [self, prk, th] at auth
      exact auth.unique auth'
    | msg3 _ _ _ _ _ initiator => cases initiator.symm.trans (role.symm.trans responder)
  | msg3 gY th2 h cR pt2 initiator hash next auth =>
    cases second with
    | msg2 _ _ _ _ _ responder => cases initiator.symm.trans (role.trans responder)
    | msg3 gY' th2' h' cR' pt2' initiator' hash' next' auth' =>
      -- TH3 fixes TH2, and TH2 fixes G_Y
      obtain ⟨sameTh2, -⟩ := Block.append_inj (free.sha256 (next.symm.trans (th.trans next')))
      obtain ⟨rfl, -⟩ :=
        Block.append_inj (free.sha256 (hash.symm.trans (sameTh2.trans hash')))
      dsimp only at prk th
      rw [self, selfAuth initiator, prk, th] at auth
      exact auth.unique auth'

/-- The role and the credentials, and the way to authenticate where it is the context's
own choice. -/
def Ctx.named (c : Ctx B) : Role × Creds B × Option Auth :=
  (c.role, c.self, if c.role = .initiator then some c.selfAuth else none)

theorem invoke_keeps_named (k : Call B) : Keeps Ctx.named (invoke P k) := by
  cases k with
  | iMakeMsg1 ephSk outCap => exact (iMakeMsg1_frame ephSk outCap).of_reads fun _ => rfl
  | rHandleMsg1 inp ephSk outCap =>
    -- the way to authenticate is assigned, but by a responder
    have keeps : Keeps (fun c => (c.role, c.self)) (rHandleMsg1 P inp ephSk outCap) :=
      (rHandleMsg1_frame inp ephSk outCap).of_reads fun _ => rfl
    intro c
    cases role : c.role with
    | initiator => rw [invoke, rHandleMsg1_of_initiator role]
    | responder =>
      obtain ⟨kept, self⟩ := Prod.mk.inj (keeps c)
      rw [invoke, Ctx.named, Ctx.named, kept, self, role]
      rfl
  | iHandleMsg2 inp outCap => exact (iHandleMsg2_frame inp outCap).of_reads fun _ => rfl
  | rHandleMsg3 inp => exact (rHandleMsg3_frame inp).of_reads fun _ => rfl
  | iHandleMsg4 inp =>
    have keeps : Keeps Ctx.named (iHandleMsg4 inp : Proc (Ctx B) Err Unit) :=
      (iHandleMsg4_frame inp).of_reads fun _ => rfl
    exact keeps.bind fun _ => Keeps.pure []

/-- No run uses a key and nonce for two plaintexts. -/
theorem seals_noReuse (free : P.CollisionFree) (c : Ctx B) (calls : List (Call B)) :
    NoReuse (deriveK P) (seals P c calls) := by
  intro s hs s' hs'
  refine notes_pairwise (R := fun s s' => deriveK P s.prk s.th = deriveK P s'.prk s'.th →
    s.pt = s'.pt) (fun _ _ => rfl) (fun _ _ h same => (h same.symm).symm) ?_ hs hs'
  intro before k between k' rest _ s s' first second same
  obtain ⟨prk, th⟩ := free.deriveKey same
  have kept : (after (invoke P) before c).named =
      (after (invoke P) (before ++ k :: between) c).named :=
    (after_keeps invoke_keeps_named before c).trans (after_keeps invoke_keeps_named _ c).symm
  obtain ⟨same, rest⟩ := Prod.mk.inj kept
  obtain ⟨self, own⟩ := Prod.mk.inj rest
  refine (sealedBy_of_sealOf first).same_text free same self (fun role => ?_)
    (sealedBy_of_sealOf second) prk th
  rw [if_pos role, if_pos (same.symm.trans role)] at own
  exact Option.some.inj own

end Seals

end Edhoc03

/-! ### Both cores -/

/-- On one context of methods 0 to 3 no two seals of a run have one key and nonce and
different plaintexts, and on one context of method 4 neither, if no message_2 and no
message_3 is found authentic twice. -/
theorem no_key_and_nonce_reuse (free : P.CollisionFree) :
    (∀ (c : Edhoc4.Ctx B) (calls : List (Edhoc4.Call B)),
      calls.Pairwise (Edhoc4.Call.Independent P) → Edhoc4.HandlesOnce P c calls →
      NoReuse (Edhoc4.deriveK P) (Edhoc4.seals P c calls)) ∧
    (∀ (c : Edhoc03.Ctx B) (calls : List (Edhoc03.Call B)),
      NoReuse (Edhoc03.deriveK P) (Edhoc03.seals P c calls)) :=
  ⟨fun _ _ independent once => once.noReuse free independent, Edhoc03.seals_noReuse free⟩

section Selftest

open Symbolic

/-- The two calls of a method-4 initiator in an unmodified exchange, and those of a method-3
initiator with message_2 delivered twice. -/
theorem selftest_no_key_and_nonce_reuse :
    ∃ x : Edhoc4.Exchange primitives (creds4 selftestIds .initiator)
        (creds4 selftestIds .responder) Edhoc4.runCoins,
    ∃ y : Edhoc03.Exchange primitives 3 (creds03 selftestIds .initiator)
        (creds03 selftestIds .responder) ⟨fresh 32 (.session 0 0), fresh 32 (.session 1 0)⟩,
      NoReuse (Edhoc4.deriveK primitives) (Edhoc4.seals primitives
        (Edhoc4.initInitiator (creds4 selftestIds .initiator) (creds4 selftestIds .responder).kemPk)
        [.iMakeMsg1 (msg1Coins 0) Edhoc4.maxMsg,
          .iHandleMsg2 x.m2 (msg3Coins 2) Edhoc4.maxMsg]) ∧
      NoReuse (Edhoc03.deriveK primitives) (Edhoc03.seals primitives
        (Edhoc03.initInitiator 3 (creds03 selftestIds .initiator)
          (creds03 selftestIds .responder).pub)
        [.iMakeMsg1 (fresh 32 (.session 0 0)) Edhoc03.maxMsg, .iHandleMsg2 y.m2 Edhoc03.maxMsg,
          .iHandleMsg2 y.m2 Edhoc03.maxMsg]) := by
  obtain ⟨method4, methods03⟩ := no_key_and_nonce_reuse primitives_ideal.collisionFree
  obtain ⟨x, -⟩ := Edhoc4.exchange_exists primitives_correct
    (Edhoc4.creds4_valid selftestIds .initiator) (Edhoc4.creds4_valid selftestIds .responder)
    Edhoc4.runCoins
  obtain ⟨y, -⟩ := Edhoc03.exchange_exists primitives_correct
    (show Edhoc03.methodValid 3 = true by decide) (creds03_valid selftestIds .initiator)
    (creds03_valid selftestIds .responder)
    ⟨fresh 32 (.session 0 0), fresh 32 (.session 1 0)⟩
  refine ⟨x, y, method4 _ _ ?_ ?_, methods03 _ _⟩
  · simp [Edhoc4.Call.Independent]
  · intro before k between k' rest split repeated
    cases k' with
    | iHandleMsg2 inp coins outCap =>
      -- the run has one message_2
      cases k with
      | iHandleMsg2 inp coins outCap =>
        rcases before with _ | ⟨_, _ | ⟨_, _⟩⟩ <;> simp at split
      | _ => exact repeated
    | rHandleMsg3 inp coins outCap =>
      have listed : (.rHandleMsg3 inp coins outCap : Edhoc4.Call Sym) ∈
          before ++ k :: (between ++ .rHandleMsg3 inp coins outCap :: rest) := by simp
      rw [← split] at listed
      simp at listed
    | _ => cases k <;> exact repeated

/-- A responder gets message_3 twice and seals two public keys under one key and nonce. -/
theorem repeated_message_3_reuses_nonce :
    primitives.CollisionFree ∧
    ∃ x : Edhoc4.Exchange primitives (creds4 selftestIds .initiator)
        (creds4 selftestIds .responder) Edhoc4.runCoins,
      ¬ NoReuse (Edhoc4.deriveK primitives) (Edhoc4.seals primitives
        (Edhoc4.initResponder (creds4 selftestIds .responder) (creds4 selftestIds .initiator).kemPk)
        [.rHandleMsg1 x.m1 (msg2Coins 1) Edhoc4.maxMsg,
          .rHandleMsg3 x.m3 (msg4Coins 3) Edhoc4.maxMsg,
          .rHandleMsg3 x.m3 (msg4Coins 4) Edhoc4.maxMsg]) := by
  obtain ⟨x, -⟩ := Edhoc4.exchange_exists primitives_correct
    (Edhoc4.creds4_valid selftestIds .initiator) (Edhoc4.creds4_valid selftestIds .responder)
    Edhoc4.runCoins
  refine ⟨primitives_ideal.collisionFree, x, fun noReuse => ?_⟩
  have handled : Edhoc4.rHandleMsg3 primitives x.m3 (msg4Coins 3) Edhoc4.maxMsg x.r₁ =
      (.ok x.m4, x.r₂) := x.handleMsg3
  obtain ⟨prk, th, first, second⟩ := Edhoc4.rHandleMsg3_seals_again Edhoc4.maxMsg handled
    (xwingKeypair_primitives (msg4Coins 3)) (xwingKeypair_primitives (msg4Coins 4))
  have answered : after (Edhoc4.invoke primitives)
      [.rHandleMsg1 x.m1 (msg2Coins 1) Edhoc4.maxMsg]
      (Edhoc4.initResponder (creds4 selftestIds .responder)
        (creds4 selftestIds .initiator).kemPk) = x.r₁ := congrArg Prod.snd x.handleMsg1
  have accepted : after (Edhoc4.invoke primitives) [.rHandleMsg1 x.m1 (msg2Coins 1) Edhoc4.maxMsg,
      .rHandleMsg3 x.m3 (msg4Coins 3) Edhoc4.maxMsg] _ = x.r₂ :=
    (congrArg (fun c => (Edhoc4.invoke primitives _ c).2) answered).trans
      (congrArg Prod.snd handled)
  rw [← answered] at first
  rw [← accepted] at second
  have same := noReuse _ (mem_notes.mpr ⟨[_], _, [_], rfl, first⟩) _
    (mem_notes.mpr ⟨[_, _], _, [], rfl, second⟩) rfl
  have scalars := xwingPk_inj (List.Vector.eq _ _ same)
  cases session_inj (by decide) scalars

end Selftest

end EdhocAuth
