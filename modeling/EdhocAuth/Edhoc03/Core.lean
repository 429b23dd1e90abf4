/-
EDHOC methods 0 to 3 (classical suite): `edhoc03.c` and `edhoc03.h`.

The four methods differ in how each side authenticates: with an Ed25519
signature (SIG) or with a MAC keyed through its static X25519 key (STAT). The
source spells out both branches once for each side of each message; here the
sending side is `makeAuth` and the receiving side `checkAuth`, with the PRK field
they assign as a parameter.

Message layouts:
* message_1 = method ‖ G_X ‖ C_I
* message_2 = G_Y ‖ AEAD(K2, ID_CRED_R ‖ VK_R ‖ sigma_R) or with DHpk_R and MAC2
* message_3 = AEAD(K3, ID_CRED_I ‖ VK_I ‖ sigma_I) or with DHpk_I and MAC3
* message_4 is empty
-/

import EdhocAuth.Crypto.Primitives
import EdhocAuth.Lib.Proc

namespace EdhocAuth.Edhoc03

open Proc Primitives

/-! ### Sizes -/

abbrev xPk : Nat := 32
abbrev edPk : Nat := 32
abbrev edSk : Nat := 64
abbrev edSig : Nat := 64
abbrev macLen : Nat := 8
abbrev aeadTag : Nat := 16
abbrev connId : Nat := 1
abbrev idCredLen : Nat := 3
abbrev mskLen : Nat := 64

/-- `E3_MAX_MSG`: the upper bound for any single message buffer. -/
abbrev maxMsg : Nat := 512

inductive Err where
  | arg | buf | parse | dh | aead | mac | sig | state
deriving DecidableEq, Repr

inductive Role where
  | initiator | responder
deriving DecidableEq, Repr

/-- `E3_AUTH_SIG` and `E3_AUTH_STAT`. -/
inductive Auth where
  | sig | stat
deriving DecidableEq, Repr

structure Creds (B : Type) where
  idCred : Block B idCredLen
  sigSk : Block B edSk
  sigVk : Block B edPk
  dhSk : Block B 32
  dhPk : Block B xPk
deriving DecidableEq

structure Peer (B : Type) where
  sigVk : Block B edPk
  dhPk : Block B xPk
deriving DecidableEq

structure Ctx (B : Type) where
  role : Role
  method : Int
  selfAuth : Auth
  peerAuth : Auth
  self : Creds B
  peer : Peer B
  cI : Block B connId
  cR : Block B connId
  ephSk : Block B 32
  ephPk : Block B xPk
  peerEphPk : Block B xPk
  ssE : Block B 32
  hMsg1 : Block B 32
  th2 : Block B 32
  th3 : Block B 32
  th4 : Block B 32
  prk2e : Block B 32
  prk3e2m : Block B 32
  prk4e3m : Block B 32
  prkOut : Block B 32
  peerIdCred : Block B idCredLen
  msk : Block B mskLen
  emsk : Block B mskLen
  done : Bool

/-! ### Method table -/

def methodValid (method : Int) : Bool := 0 ≤ method && method ≤ 3

def methodInitAuth (m : Int) : Auth := if m = 0 ∨ m = 1 then .sig else .stat

def methodRespAuth (m : Int) : Auth := if m = 0 ∨ m = 2 then .sig else .stat

section Model

variable {B : Type} [Octet B] (P : Primitives B)

/-! ### Key schedule -/

def deriveK (prk th : Block B 32) : Block B 32 × Block B 12 := P.deriveKey "E3KEY" prk th

def aeadSeal (prk th : Block B 32) (pt : List B) : Option (List B) := P.aeadSeal "E3KEY" prk th pt

def aeadOpen (call : OpenCall B) : Option (List B) := P.aeadOpen "E3KEY" call

/-- `MAC_x = HKDF-Expand(prk, th || id_cred || cred_pub, MAC_LEN)`. -/
def computeMac (prk th : Block B 32) (idCred : Block B idCredLen) (credPub : Block B xPk) :
    Block B macLen :=
  P.hkdfExpand prk (th.toList ++ idCred.toList ++ credPub.toList) macLen

def sigMessage (th : Block B 32) (idCred : Block B idCredLen) (mac : Block B macLen) : List B :=
  th.toList ++ idCred.toList ++ mac.toList

def deriveMsk (c : Ctx B) : Ctx B :=
  let prkOut := P.hkdfExpand c.prk4e3m c.th4.toList 32
  { c with
    prkOut := prkOut
    msk := P.hkdfExpand prkOut (ascii "EDHOC-EAP-MSK") mskLen
    emsk := P.hkdfExpand prkOut (ascii "EDHOC-EAP-EMSK") mskLen
    done := true }

/-! ### Credentials and contexts -/

/-- `edhoc03_gen_creds` after `sodium_init`; `idCred = none` is the null pointer. -/
def genCreds (seed dhSk : Block B 32) (idCred : Option (Block B idCredLen)) : Creds B where
  idCred := idCred.getD (zeros idCredLen)
  sigSk := (P.edKeypair seed).2
  sigVk := (P.edKeypair seed).1
  dhSk := dhSk
  dhPk := P.scalarmultBase dhSk

/-- The part of a credential set that `edhoc03_pub_save` writes and the peer loads. -/
def Creds.pub (c : Creds B) : Peer B := ⟨c.sigVk, c.dhPk⟩

/-- A context after `memset(ctx, 0, sizeof(*ctx))` and the assignments both
`edhoc03_init_*` share. -/
def initCtx (role : Role) (self : Creds B) (peer : Peer B) : Ctx B where
  role := role
  method := 0
  selfAuth := .sig
  peerAuth := .sig
  self := self
  peer := peer
  cI := octet 0x10
  cR := octet 0x20
  ephSk := zeros _
  ephPk := zeros _
  peerEphPk := zeros _
  ssE := zeros _
  hMsg1 := zeros _
  th2 := zeros _
  th3 := zeros _
  th4 := zeros _
  prk2e := zeros _
  prk3e2m := zeros _
  prk4e3m := zeros _
  prkOut := zeros _
  peerIdCred := zeros _
  msk := zeros _
  emsk := zeros _
  done := false

def initInitiator (method : Int) (self : Creds B) (peer : Peer B) : Ctx B :=
  { initCtx .initiator self peer with
    method := method
    selfAuth := methodInitAuth method
    peerAuth := methodRespAuth method }

/-- The method of a responder is learned from message_1. -/
def initResponder (self : Creds B) (peer : Peer B) : Ctx B := initCtx .responder self peer

/-! ### Plaintext layout -/

/-- PT2 and PT3: ID_CRED ‖ public key ‖ proof, where the proof is a signature (64 bytes)
or a MAC (8 bytes). -/
structure AuthPt (B : Type) (n : Nat) where
  idCred : Block B idCredLen
  key : Block B 32
  proof : Block B n

def AuthPt.write {n : Nat} (p : AuthPt B n) : List B :=
  p.idCred.toList ++ (p.key.toList ++ p.proof.toList)

def AuthPt.read (n : Nat) (buf : List B) : AuthPt B n :=
  let b₁ := buf.drop idCredLen
  let b₂ := b₁.drop 32
  ⟨readBlock _ buf, readBlock _ b₁, readBlock _ b₂⟩

/-- The size of the buffers `pt2` and `pt3` that are decrypted into. -/
abbrev ptCap : Nat := idCredLen + xPk + edSig + 16

/-! ### Authentication of one side -/

/-- `ctx->prk3e2m`, assigned while message_2 is authenticated. -/
def putPrk3e2m (prk : Block B 32) (c : Ctx B) : Ctx B := { c with prk3e2m := prk }

def putPrk4e3m (prk : Block B 32) (c : Ctx B) : Ctx B := { c with prk4e3m := prk }

/-- The STAT branch of the sending side: the static key is mixed into the PRK. -/
def makeStat (put : Block B 32 → Ctx B → Ctx B) (prk th : Block B 32) :
    Proc (Ctx B) Err (List B) := do
  let ctx ← load
  let ss ← demand (P.scalarmult ctx.self.dhSk ctx.peerEphPk) .dh
  let prk' := P.hkdfExtract prk ss
  store (put prk')
  let mac := computeMac P prk' th ctx.self.idCred ctx.self.dhPk
  return AuthPt.write ⟨ctx.self.idCred, ctx.self.dhPk, mac⟩

/-- The SIG branch of the sending side: the PRK stays as it is. -/
def makeSig (put : Block B 32 → Ctx B → Ctx B) (prk th : Block B 32) :
    Proc (Ctx B) Err (List B) := do
  let ctx ← load
  store (put prk)
  let mac := computeMac P prk th ctx.self.idCred ctx.self.sigVk
  let sig ← demand (P.edSign (sigMessage th ctx.self.idCred mac) ctx.self.sigSk) .sig
  return AuthPt.write ⟨ctx.self.idCred, ctx.self.sigVk, sig⟩

/-- The plaintext by which a side authenticates. -/
def makeAuth (put : Block B 32 → Ctx B → Ctx B) (prk th : Block B 32) :
    Proc (Ctx B) Err (List B) := do
  let ctx ← load
  if ctx.selfAuth = .stat then makeStat P put prk th else makeSig P put prk th

variable [DecidableEq B]

/-- The STAT branch of the receiving side. The received key must be the pinned one
before it is used; a mismatch is reported as a MAC error. -/
def checkStat (put : Block B 32 → Ctx B → Ctx B) (prk th : Block B 32) (pt : List B) :
    Proc (Ctx B) Err Unit := do
  let ctx ← load
  require (pt.length = idCredLen + xPk + macLen) .parse
  let p := AuthPt.read macLen pt
  store fun c => { c with peerIdCred := p.idCred }
  require (p.key = ctx.peer.dhPk) .mac
  let ss ← demand (P.scalarmult ctx.ephSk p.key) .dh
  let prk' := P.hkdfExtract prk ss
  store (put prk')
  require (computeMac P prk' th p.idCred p.key = p.proof) .mac

/-- The SIG branch of the receiving side, with the same pinning of the key. -/
def checkSig (put : Block B 32 → Ctx B → Ctx B) (prk th : Block B 32) (pt : List B) :
    Proc (Ctx B) Err Unit := do
  let ctx ← load
  require (pt.length = idCredLen + edPk + edSig) .parse
  let p := AuthPt.read edSig pt
  store fun c => { c with peerIdCred := p.idCred }
  require (p.key = ctx.peer.sigVk) .sig
  store (put prk)
  let mac := computeMac P prk th p.idCred p.key
  require (P.edVerify p.proof (sigMessage th p.idCred mac) p.key = true) .sig

/-- The checks on the plaintext the other side authenticates with. -/
def checkAuth (put : Block B 32 → Ctx B → Ctx B) (prk th : Block B 32) (pt : List B) :
    Proc (Ctx B) Err Unit := do
  let ctx ← load
  if ctx.peerAuth = .stat then checkStat P put prk th pt else checkSig P put prk th pt

/-! ### Message 1 (initiator) -/

def iMakeMsg1 (ephSk : Block B 32) (outCap : Nat) : Proc (Ctx B) Err (List B) := do
  let ctx ← load
  require (ctx.role = .initiator) .state
  require (methodValid ctx.method = true) .arg
  let ephPk := P.scalarmultBase ephSk
  store fun c => { c with ephSk := ephSk, ephPk := ephPk }
  require (1 + xPk + connId ≤ outCap) .buf
  let out := Octet.ofByte (UInt8.ofNat ctx.method.toNat) :: (ephPk.toList ++ ctx.cI.toList)
  store fun c => { c with hMsg1 := P.sha256 out }
  return out

/-! ### Message 1 handling and message 2 (responder) -/

/-- `edhoc03_r_handle_msg1` up to PRK2e. An octet that is no byte value is no method. -/
def rHandleMsg1Keys (inp : List B) (ephSk : Block B 32) : Proc (Ctx B) Err Unit := do
  let ctx ← load
  require (ctx.role = .responder) .state
  require (inp.length = 1 + xPk + connId) .parse
  let b ← demand (inp.head?.bind Octet.toByte?) .parse
  let method : Int := b.toNat
  require (methodValid method = true) .parse
  let gX : Block B xPk := readBlock _ (inp.drop 1)
  let hMsg1 := P.sha256 inp
  let ephPk := P.scalarmultBase ephSk
  store fun c => { c with
    method := method, selfAuth := methodRespAuth method, peerAuth := methodInitAuth method
    peerEphPk := gX, cI := readBlock _ (inp.drop (1 + xPk)), hMsg1 := hMsg1
    ephSk := ephSk, ephPk := ephPk }
  let ssE ← demand (P.scalarmult ephSk gX) .dh
  let th2 := P.sha256 (ephPk.toList ++ (hMsg1.toList ++ ctx.cR.toList))
  store fun c => { c with ssE := ssE, th2 := th2, prk2e := P.hkdfExtract th2 ssE }

def rMakeMsg2 (outCap : Nat) : Proc (Ctx B) Err (List B) := do
  let ctx ← load
  let pt2 ← makeAuth P putPrk3e2m ctx.prk2e ctx.th2
  store fun c => { c with th3 := P.sha256 (ctx.th2.toList ++ pt2) }
  let ct2 ← demand (aeadSeal P ctx.prk2e ctx.th2 pt2) .aead
  require (xPk + ct2.length ≤ outCap) .buf
  return ctx.ephPk.toList ++ ct2

def rHandleMsg1 (inp : List B) (ephSk : Block B 32) (outCap : Nat) :
    Proc (Ctx B) Err (List B) := do
  rHandleMsg1Keys P inp ephSk
  rMakeMsg2 P outCap

/-! ### Message 2 handling and message 3 (initiator) -/

/-- `edhoc03_i_handle_msg2` up to its `e3_aead_open` into `pt2[… + 16]`. -/
def iHandleMsg2Open (inp : List B) : Proc (Ctx B) Err (OpenCall B) := do
  let ctx ← load
  require (ctx.role = .initiator) .state
  require (xPk + aeadTag ≤ inp.length) .parse
  let gY : Block B xPk := readBlock _ inp
  let ct2 := inp.drop xPk
  store fun c => { c with peerEphPk := gY }
  let ssE ← demand (P.scalarmult ctx.ephSk gY) .dh
  let th2 := P.sha256 (gY.toList ++ (ctx.hMsg1.toList ++ ctx.cR.toList))
  let prk2e := P.hkdfExtract th2 ssE
  store fun c => { c with ssE := ssE, th2 := th2, prk2e := prk2e }
  return { prk := prk2e, th := th2, ct := ct2, cap := ptCap }

def iMakeMsg3 (outCap : Nat) : Proc (Ctx B) Err (List B) := do
  let ctx ← load
  let pt3 ← makeAuth P putPrk4e3m ctx.prk3e2m ctx.th3
  store fun c => { c with th4 := P.sha256 (ctx.th3.toList ++ pt3) }
  let ct3 ← demand (aeadSeal P ctx.prk3e2m ctx.th3 pt3) .aead
  require (ct3.length ≤ outCap) .buf
  store (deriveMsk P)
  return ct3

def iHandleMsg2 (inp : List B) (outCap : Nat) : Proc (Ctx B) Err (List B) := do
  let call ← iHandleMsg2Open P inp
  let pt2 ← demand (aeadOpen P call) .aead
  checkAuth P putPrk3e2m call.prk call.th pt2
  store fun c => { c with th3 := P.sha256 (call.th.toList ++ pt2) }
  iMakeMsg3 P outCap

/-! ### Message 3 handling (responder) and message 4 -/

omit [Octet B] [DecidableEq B] in
/-- `edhoc03_r_handle_msg3` up to its `e3_aead_open` into `pt3[… + 16]`. -/
def rHandleMsg3Open (inp : List B) : Proc (Ctx B) Err (OpenCall B) := do
  let ctx ← load
  require (ctx.role = .responder) .state
  return { prk := ctx.prk3e2m, th := ctx.th3, ct := inp, cap := ptCap }

/-- `edhoc03_r_handle_msg3`; the message_4 it returns is empty, whatever the capacity. -/
def rHandleMsg3 (inp : List B) : Proc (Ctx B) Err (List B) := do
  let call ← rHandleMsg3Open inp
  let pt3 ← demand (aeadOpen P call) .aead
  checkAuth P putPrk4e3m call.prk call.th pt3
  store fun c => deriveMsk P { c with th4 := P.sha256 (call.th.toList ++ pt3) }
  return []

omit [Octet B] [DecidableEq B] in
def iHandleMsg4 (inp : List B) : Proc (Ctx B) Err Unit := do
  let ctx ← load
  require (ctx.role = .initiator) .state
  require (inp.length = 0) .parse
  store fun c => { c with done := true }

end Model

end EdhocAuth.Edhoc03
