/-
EDHOC method 4 (SIGMA X-Wing): `edhoc4.c` and `edhoc4.h`.

Each handler is a procedure on the context. It performs the checks and the
assignments of the source in the source's order, so a call that fails leaves the
fields it had already overwritten. The part of a handler up to its `aead_open`
call is a procedure of its own that returns the arguments of that call
(`…Open`): the sizes of the plaintext buffers live there.

Message layouts:
* message_1 = ctB ‖ pkX ‖ AEAD(K1, method ‖ C_I)
* message_2 = cte ‖ AEAD(K2, ctA ‖ C_R ‖ ID_CRED_R ‖ VK_R ‖ MAC2 ‖ sigma_R)
* message_3 = AEAD(K3, ID_CRED_I ‖ EAD3 ‖ MAC3 ‖ VK_I ‖ sigma_I)
* message_4 = AEAD(K4, EAD4)
-/

import EdhocAuth.Crypto.Primitives
import EdhocAuth.Lib.Proc

namespace EdhocAuth.Edhoc4

open Proc Primitives

/-! ### Sizes -/

abbrev mlkemPk : Nat := 1184
abbrev mlkemSk : Nat := 2400
abbrev mlkemCt : Nat := 1088
abbrev mldsaPk : Nat := 1312
abbrev mldsaSk : Nat := 2560
abbrev mldsaSig : Nat := 2420
abbrev x25519Pk : Nat := 32
abbrev x25519Sk : Nat := 32
abbrev xwingPk : Nat := mlkemPk + x25519Pk
abbrev xwingSk : Nat := mlkemSk + x25519Sk
abbrev xwingCt : Nat := mlkemCt + x25519Pk
abbrev xwingSs : Nat := 32
abbrev macLen : Nat := 8
abbrev aeadTag : Nat := 16
abbrev idCredLen : Nat := 3
abbrev mskLen : Nat := 64

/-- `E4_MAX_MSG`: the upper bound for any single message buffer. -/
abbrev maxMsg : Nat := 8192

inductive Err where
  | arg | buf | parse | kem | aead | mac | sig | state
deriving DecidableEq, Repr

inductive Role where
  | initiator | responder
deriving DecidableEq, Repr

structure Creds (B : Type) where
  kemSk : Block B xwingSk
  kemPk : Block B xwingPk
  sigSk : Block B mldsaSk
  sigVk : Block B mldsaPk
  idCred : Block B idCredLen
deriving DecidableEq

structure Ctx (B : Type) where
  role : Role
  self : Creds B
  peerKemPk : Block B xwingPk
  peerSigVk : Block B mldsaPk
  peerIdCred : Block B idCredLen
  cI : Block B 1
  cR : Block B 1
  ephSk : Block B xwingSk
  ephPk : Block B xwingPk
  ssB : Block B xwingSs
  ssE : Block B xwingSs
  ssA : Block B xwingSs
  th1 : Block B 32
  th2 : Block B 32
  th3 : Block B 32
  th4 : Block B 32
  hMsg1 : Block B 32
  prk1e : Block B 32
  prk2e : Block B 32
  prk3e2m : Block B 32
  prk4e3m : Block B 32
  prkOut : Block B 32
  newSk : Block B xwingSk
  newPk : Block B xwingPk
  peerNewPk : Block B xwingPk
  ctA : Block B xwingCt
  msk : Block B mskLen
  emsk : Block B mskLen
  done : Bool

structure KeyCoins (B : Type) where
  mlkem : Block B 64
  x : Block B x25519Sk

structure EncCoins (B : Type) where
  mlkem : Block B 32
  x : Block B x25519Sk

structure Msg1Coins (B : Type) where
  eph : KeyCoins B
  encB : EncCoins B

structure Msg2Coins (B : Type) where
  encE : EncCoins B
  encA : EncCoins B
  sig : Block B 32

structure Msg3Coins (B : Type) where
  new : KeyCoins B
  sig : Block B 32

section Model

variable {B : Type} [Octet B] (P : Primitives B)

/-! ### Key schedule -/

def deriveK (prk th : Block B 32) : Block B 32 × Block B 12 := P.deriveKey "E4KEY" prk th

def aeadSeal (prk th : Block B 32) (pt : List B) : Option (List B) := P.aeadSeal "E4KEY" prk th pt

def aeadOpen (call : OpenCall B) : Option (List B) := P.aeadOpen "E4KEY" call

/-- `MAC_x = HKDF-Expand(prk, th || id_cred || ead, E4_MAC_LEN)`; `ead` may be empty. -/
def computeMac (prk th : Block B 32) (idCred : Block B idCredLen) (ead : List B) :
    Block B macLen :=
  P.hkdfExpand prk (th.toList ++ idCred.toList ++ ead) macLen

def sigMessage (th : Block B 32) (idCred : Block B idCredLen) (mac : Block B macLen) : List B :=
  th.toList ++ idCred.toList ++ mac.toList

/-! ### X-Wing -/

def xwingKeypair (coins : KeyCoins B) : Option (Block B xwingPk × Block B xwingSk) :=
  (P.mlkemKeypair coins.mlkem).map fun pair =>
    (Block.cat pair.1 (P.scalarmultBase coins.x), Block.cat pair.2 coins.x)

def xwingCombine (ssM ssX ctX pkX : Block B 32) : Block B xwingSs :=
  P.sha256 (ssM.toList ++ ssX.toList ++ ctX.toList ++ pkX.toList ++ ascii "XWING-combiner-v1")

def xwingEncaps (coins : EncCoins B) (pk : Block B xwingPk) :
    Option (Block B xwingCt × Block B xwingSs) := do
  let (ctM, ssM) ← P.mlkemEnc pk.fst coins.mlkem
  let ctX := P.scalarmultBase coins.x
  let ssX ← P.scalarmult coins.x pk.snd
  return (Block.cat ctM ctX, xwingCombine P ssM ssX ctX pk.snd)

def xwingDecaps (ct : Block B xwingCt) (sk : Block B xwingSk) : Option (Block B xwingSs) := do
  let ssM ← P.mlkemDec ct.fst sk.fst
  let pkX := P.scalarmultBase sk.snd
  let ssX ← P.scalarmult sk.snd ct.snd
  return xwingCombine P ssM ssX ct.snd pkX

/-! ### Credentials and their files -/

/-- `edhoc4_gen_creds` after `sodium_init`; `idCred = none` is the null pointer. -/
def genCreds (kem : KeyCoins B) (seed : Block B 32) (idCred : Option (Block B idCredLen)) :
    Except Err (Creds B) :=
  match xwingKeypair P kem with
  | none => .error .kem
  | some (pk, sk) =>
    match P.mldsaKeypair seed with
    | none => .error .sig
    | some (vk, sigSk) => .ok ⟨sk, pk, sigSk, vk, idCred.getD (zeros idCredLen)⟩

def credsSave (c : Creds B) : List B :=
  c.kemSk.toList ++ (c.kemPk.toList ++ (c.sigSk.toList ++ (c.sigVk.toList ++ c.idCred.toList)))

/-- `edhoc4_creds_load`; `none` is a file that cannot be opened. -/
def credsLoad : Option (List B) → Except Err (Creds B)
  | none => .error .arg
  | some file =>
    if file.length < xwingSk + xwingPk + mldsaSk + mldsaPk + idCredLen then .error .parse
    else
      let f₁ := file.drop xwingSk
      let f₂ := f₁.drop xwingPk
      let f₃ := f₂.drop mldsaSk
      let f₄ := f₃.drop mldsaPk
      .ok ⟨readBlock _ file, readBlock _ f₁, readBlock _ f₂, readBlock _ f₃, readBlock _ f₄⟩

/-- The bytes `edhoc4_pub_save` writes: the static X-Wing public key alone. -/
def pubSave (c : Creds B) : List B := c.kemPk.toList

def pubLoad : Option (List B) → Except Err (Block B xwingPk)
  | none => .error .arg
  | some file => if file.length < xwingPk then .error .parse else .ok (readBlock _ file)

/-- A context after `memset(ctx, 0, sizeof(*ctx))` and the assignments both
`edhoc4_init_*` share. -/
def initCtx (role : Role) (self : Creds B) (peerKemPk : Block B xwingPk) : Ctx B where
  role := role
  self := self
  peerKemPk := peerKemPk
  peerSigVk := zeros _
  peerIdCred := zeros _
  cI := zeros _
  cR := zeros _
  ephSk := zeros _
  ephPk := zeros _
  ssB := zeros _
  ssE := zeros _
  ssA := zeros _
  th1 := zeros _
  th2 := zeros _
  th3 := zeros _
  th4 := zeros _
  hMsg1 := zeros _
  prk1e := zeros _
  prk2e := zeros _
  prk3e2m := zeros _
  prk4e3m := zeros _
  prkOut := zeros _
  newSk := zeros _
  newPk := zeros _
  peerNewPk := zeros _
  ctA := zeros _
  msk := zeros _
  emsk := zeros _
  done := false

def initInitiator (self : Creds B) (peerKemPk : Block B xwingPk) : Ctx B :=
  { initCtx .initiator self peerKemPk with cI := octet 0x10 }

def initResponder (self : Creds B) (peerKemPk : Block B xwingPk) : Ctx B :=
  { initCtx .responder self peerKemPk with cR := octet 0x20 }

def derivePrkOutAndMsk (c : Ctx B) : Ctx B :=
  let prkOut := P.hkdfExpand c.prk4e3m c.th4.toList 32
  { c with
    prkOut := prkOut
    msk := P.hkdfExpand prkOut (ascii "EDHOC-EAP-MSK") mskLen
    emsk := P.hkdfExpand prkOut (ascii "EDHOC-EAP-EMSK") mskLen
    done := true }

/-! ### Plaintext layouts -/

/-- PT2 = ctA ‖ C_R ‖ ID_CRED_R ‖ VK_R ‖ MAC2 ‖ sigma_R. -/
structure Pt2 (B : Type) where
  ctA : Block B xwingCt
  cR : Block B 1
  idCred : Block B idCredLen
  sigVk : Block B mldsaPk
  mac : Block B macLen
  sig : Block B mldsaSig

abbrev pt2Len : Nat := xwingCt + 1 + idCredLen + mldsaPk + macLen + mldsaSig

def Pt2.write (p : Pt2 B) : List B :=
  p.ctA.toList ++ (p.cR.toList ++ (p.idCred.toList ++ (p.sigVk.toList ++
    (p.mac.toList ++ p.sig.toList))))

def Pt2.read (buf : List B) : Pt2 B :=
  let b₁ := buf.drop xwingCt
  let b₂ := b₁.drop 1
  let b₃ := b₂.drop idCredLen
  let b₄ := b₃.drop mldsaPk
  let b₅ := b₄.drop macLen
  ⟨readBlock _ buf, readBlock _ b₁, readBlock _ b₂, readBlock _ b₃, readBlock _ b₄,
    readBlock _ b₅⟩

/-- PT3 = ID_CRED_I ‖ EAD3 ‖ MAC3 ‖ VK_I ‖ sigma_I. -/
structure Pt3 (B : Type) where
  idCred : Block B idCredLen
  ead : Block B xwingPk
  mac : Block B macLen
  sigVk : Block B mldsaPk
  sig : Block B mldsaSig

abbrev pt3Len : Nat := idCredLen + xwingPk + macLen + mldsaPk + mldsaSig

def Pt3.write (p : Pt3 B) : List B :=
  p.idCred.toList ++ (p.ead.toList ++ (p.mac.toList ++ (p.sigVk.toList ++ p.sig.toList)))

def Pt3.read (buf : List B) : Pt3 B :=
  let b₁ := buf.drop idCredLen
  let b₂ := b₁.drop xwingPk
  let b₃ := b₂.drop macLen
  let b₄ := b₃.drop mldsaPk
  ⟨readBlock _ buf, readBlock _ b₁, readBlock _ b₂, readBlock _ b₃, readBlock _ b₄⟩

variable [DecidableEq B]

/-! ### Message 1 (initiator) -/

def iMakeMsg1 (coins : Msg1Coins B) (outCap : Nat) : Proc (Ctx B) Err (List B) := do
  let ctx ← load
  require (ctx.role = .initiator) .state
  let eph ← demand (xwingKeypair P coins.eph) .kem
  store fun c => { c with ephPk := eph.1, ephSk := eph.2 }
  let enc ← demand (xwingEncaps P coins.encB ctx.peerKemPk) .kem
  let ctB := enc.1
  let th1 := P.sha256 (eph.1.toList ++ ctB.toList)
  let prk1e := P.hkdfExtract th1 enc.2
  store fun c => { c with ssB := enc.2, th1 := th1, prk1e := prk1e }
  let ct1 ← demand (aeadSeal P prk1e th1 (Octet.ofByte 0x04 :: ctx.cI.toList)) .aead
  require (xwingCt + xwingPk + ct1.length ≤ outCap) .buf
  let out := ctB.toList ++ (eph.1.toList ++ ct1)
  store fun c => { c with hMsg1 := P.sha256 out }
  return out

/-! ### Message 1 handling and message 2 (responder) -/

/-- `edhoc4_r_handle_msg1` up to its `aead_open` into `pt1[64]`. -/
def rHandleMsg1Open (inp : List B) : Proc (Ctx B) Err (OpenCall B) := do
  let ctx ← load
  require (ctx.role = .responder) .state
  require (xwingCt + xwingPk + 2 + aeadTag ≤ inp.length) .parse
  let ctB : Block B xwingCt := readBlock _ inp
  let pkX : Block B xwingPk := readBlock _ (inp.drop xwingCt)
  let ct1 := inp.drop (xwingCt + xwingPk)
  store fun c => { c with ephPk := pkX }
  let ssB ← demand (xwingDecaps P ctB ctx.self.kemSk) .kem
  let th1 := P.sha256 (pkX.toList ++ ctB.toList)
  let prk1e := P.hkdfExtract th1 ssB
  store fun c => { c with ssB := ssB, th1 := th1, prk1e := prk1e }
  return { prk := prk1e, th := th1, ct := ct1, cap := 64 }

def rMakeMsg2 (inp : List B) (coins : Msg2Coins B) (outCap : Nat) :
    Proc (Ctx B) Err (List B) := do
  let ctx ← load
  let hMsg1 := P.sha256 inp
  let enc ← demand (xwingEncaps P coins.encE ctx.ephPk) .kem
  let cte := enc.1
  let th2 := P.sha256 (hMsg1.toList ++ (cte.toList ++ ctx.cR.toList))
  let prk2e := P.hkdfExtract th2 enc.2
  store fun c => { c with ssE := enc.2, th2 := th2, prk2e := prk2e }
  let encA ← demand (xwingEncaps P coins.encA ctx.peerKemPk) .kem
  let prk3e2m := P.hkdfExtract prk2e ctx.ssB
  store fun c => { c with ctA := encA.1, ssA := encA.2, prk3e2m := prk3e2m }
  let mac2 := computeMac P prk3e2m th2 ctx.self.idCred []
  let sigR ← demand (P.mldsaSign
      (sigMessage th2 ctx.self.idCred mac2) ctx.self.sigSk coins.sig) .sig
  require (sigR.2 = mldsaSig) .sig
  let pt2 := Pt2.write ⟨encA.1, ctx.cR, ctx.self.idCred, ctx.self.sigVk, mac2, sigR.1⟩
  store fun c => { c with th3 := P.sha256 (th2.toList ++ pt2) }
  let ct2 ← demand (aeadSeal P prk2e th2 pt2) .aead
  require (xwingCt + ct2.length ≤ outCap) .buf
  return cte.toList ++ ct2

def rHandleMsg1 (inp : List B) (coins : Msg2Coins B) (outCap : Nat) :
    Proc (Ctx B) Err (List B) := do
  let call ← rHandleMsg1Open P inp
  let pt1 ← demand (aeadOpen P call) .aead
  require (2 ≤ pt1.length ∧ pt1.head? = some (Octet.ofByte 0x04)) .parse
  store fun c => { c with cI := readBlock 1 (pt1.drop 1) }
  rMakeMsg2 P inp coins outCap

/-! ### Message 2 handling and message 3 (initiator) -/

/-- `edhoc4_i_handle_msg2` up to its `aead_open` into `pt2[… + 16]`. The connection
identifier of the responder is set to `0x20` before anything is decrypted. -/
def iHandleMsg2Open (inp : List B) : Proc (Ctx B) Err (OpenCall B) := do
  let ctx ← load
  require (ctx.role = .initiator) .state
  require (xwingCt + aeadTag ≤ inp.length) .parse
  let cte : Block B xwingCt := readBlock _ inp
  let ct2 := inp.drop xwingCt
  let ssE ← demand (xwingDecaps P cte ctx.ephSk) .kem
  let cR : Block B 1 := octet 0x20
  let th2 := P.sha256 (ctx.hMsg1.toList ++ (cte.toList ++ cR.toList))
  let prk2e := P.hkdfExtract th2 ssE
  store fun c => { c with ssE := ssE, cR := cR, th2 := th2, prk2e := prk2e }
  return { prk := prk2e, th := th2, ct := ct2, cap := pt2Len + 16 }

/-- The middle of `edhoc4_i_handle_msg2`: parse PT2, verify MAC2 and sigma_R, derive
PRK4e3m. The verification key is the one PT2 carries. -/
def iVerifyMsg2 (pt2 : List B) : Proc (Ctx B) Err Unit := do
  let ctx ← load
  require (pt2.length = pt2Len) .parse
  let p := Pt2.read pt2
  let prk3e2m := P.hkdfExtract ctx.prk2e ctx.ssB
  store fun c => { c with
    ctA := p.ctA, cR := p.cR, peerIdCred := p.idCred, peerSigVk := p.sigVk,
    prk3e2m := prk3e2m }
  let mac2 := computeMac P prk3e2m ctx.th2 p.idCred []
  require (mac2 = p.mac) .mac
  require (P.mldsaVerify p.sig (sigMessage ctx.th2 p.idCred mac2) p.sigVk = true) .sig
  store fun c => { c with th3 := P.sha256 (ctx.th2.toList ++ pt2) }
  let ssA ← demand (xwingDecaps P p.ctA ctx.self.kemSk) .kem
  store fun c => { c with ssA := ssA, prk4e3m := P.hkdfExtract prk3e2m ssA }

/-- The tail of `edhoc4_i_handle_msg2` that builds message_3. The reported length of
sigma_I is not checked; the whole buffer is sent. -/
def iMakeMsg3 (coins : Msg3Coins B) (outCap : Nat) : Proc (Ctx B) Err (List B) := do
  let ctx ← load
  let new ← demand (xwingKeypair P coins.new) .kem
  store fun c => { c with newPk := new.1, newSk := new.2 }
  let mac3 := computeMac P ctx.prk4e3m ctx.th3 ctx.self.idCred new.1.toList
  let sigI ← demand (P.mldsaSign
      (sigMessage ctx.th3 ctx.self.idCred mac3) ctx.self.sigSk coins.sig) .sig
  let pt3 := Pt3.write ⟨ctx.self.idCred, new.1, mac3, ctx.self.sigVk, sigI.1⟩
  store fun c => { c with th4 := P.sha256 (ctx.th3.toList ++ pt3) }
  let ct3 ← demand (aeadSeal P ctx.prk3e2m ctx.th3 pt3) .aead
  require (ct3.length ≤ outCap) .buf
  store fun c => { derivePrkOutAndMsk P c with done := false }
  return ct3

def iHandleMsg2 (inp : List B) (coins : Msg3Coins B) (outCap : Nat) :
    Proc (Ctx B) Err (List B) := do
  let call ← iHandleMsg2Open P inp
  let pt2 ← demand (aeadOpen P call) .aead
  iVerifyMsg2 P pt2
  iMakeMsg3 P coins outCap

/-! ### Message 3 handling and message 4 (responder) -/

/-- `edhoc4_r_handle_msg3` up to its `aead_open` into `pt3[… + 16]`. -/
def rHandleMsg3Open (inp : List B) : Proc (Ctx B) Err (OpenCall B) := do
  let ctx ← load
  require (ctx.role = .responder) .state
  store fun c => { c with prk4e3m := P.hkdfExtract ctx.prk3e2m ctx.ssA }
  return { prk := ctx.prk3e2m, th := ctx.th3, ct := inp, cap := pt3Len + 16 }

/-- The middle of `edhoc4_r_handle_msg3`: parse PT3, verify MAC3 and sigma_I, derive
the exported keys. The verification key is the one PT3 carries. -/
def rVerifyMsg3 (pt3 : List B) : Proc (Ctx B) Err Unit := do
  let ctx ← load
  require (pt3.length = pt3Len) .parse
  let p := Pt3.read pt3
  store fun c => { c with peerIdCred := p.idCred, peerNewPk := p.ead, peerSigVk := p.sigVk }
  let mac3 := computeMac P ctx.prk4e3m ctx.th3 p.idCred p.ead.toList
  require (mac3 = p.mac) .mac
  require (P.mldsaVerify p.sig (sigMessage ctx.th3 p.idCred mac3) p.sigVk = true) .sig
  store fun c => derivePrkOutAndMsk P { c with th4 := P.sha256 (ctx.th3.toList ++ pt3) }

def rMakeMsg4 (coins : KeyCoins B) (outCap : Nat) : Proc (Ctx B) Err (List B) := do
  let ctx ← load
  let new ← demand (xwingKeypair P coins) .kem
  store fun c => { c with newPk := new.1, newSk := new.2 }
  let ct4 ← demand (aeadSeal P ctx.prk4e3m ctx.th4 new.1.toList) .aead
  require (ct4.length ≤ outCap) .buf
  return ct4

def rHandleMsg3 (inp : List B) (coins : KeyCoins B) (outCap : Nat) :
    Proc (Ctx B) Err (List B) := do
  let call ← rHandleMsg3Open P inp
  let pt3 ← demand (aeadOpen P call) .aead
  rVerifyMsg3 P pt3
  rMakeMsg4 P coins outCap

/-! ### Message 4 handling (initiator) -/

/-- `edhoc4_i_handle_msg4` up to its `aead_open` into `pt4[… + 16]`. -/
def iHandleMsg4Open (inp : List B) : Proc (Ctx B) Err (OpenCall B) := do
  let ctx ← load
  require (ctx.role = .initiator) .state
  return { prk := ctx.prk4e3m, th := ctx.th4, ct := inp, cap := xwingPk + 16 }

def iHandleMsg4 (inp : List B) : Proc (Ctx B) Err Unit := do
  let call ← iHandleMsg4Open inp
  let pt4 ← demand (aeadOpen P call) .aead
  require (pt4.length = xwingPk) .parse
  store fun c => { c with peerNewPk := readBlock _ pt4, done := true }

end Model

end EdhocAuth.Edhoc4
