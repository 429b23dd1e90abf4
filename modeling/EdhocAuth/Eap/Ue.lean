/-
The UE side of EAP-EDHOC: the EDHOC members of `NasSm` and
`NasSm::receivePduSessionAuthenticationCommand` with the functions it calls
(UERANSIM, `ue/nas/sm/sm.hpp` and `transport.cpp`).

One `NasSm` serves all PDU sessions of the UE; its EDHOC members are the state `Ue`.
The files with the provisioned keys are read when the first EAP-EDHOC request
arrives, and again only after the process has been restarted. Randomness comes with
the command.
-/

import EdhocAuth.Edhoc4.Core
import EdhocAuth.Eap.Fragment

namespace EdhocAuth.Eap

open Proc

/-! ### State -/

/-- `m_edhocRound`: -1, 1, 2 and 3 in the source. -/
inductive UeRound where
  | idle | msg1Sent | msg3Sent | complete
deriving DecidableEq

/-- The EDHOC members of `NasSm`. -/
structure Ue where
  ctx : Edhoc4.Ctx UInt8
  creds : Edhoc4.Creds UInt8
  peerPub : Block UInt8 Edhoc4.xwingPk
  round : UeRound
  provisioned : Bool
  inBuf : List UInt8
  inLen : Nat
  inPos : Nat
  out : List UInt8
  outLen : Nat
  outPos : Nat

def zeroCreds : Edhoc4.Creds UInt8 := ⟨zeros _, zeros _, zeros _, zeros _, zeros _⟩

/-- The member initialisers of `NasSm`; role 0 is the responder. -/
def nasSmInit : Ue where
  ctx := Edhoc4.initCtx .responder zeroCreds (zeros _)
  creds := zeroCreds
  peerPub := zeros _
  round := .idle
  provisioned := false
  inBuf := List.replicate Edhoc4.maxMsg 0
  inLen := 0
  inPos := 0
  out := List.replicate Edhoc4.maxMsg 0
  outLen := 0
  outPos := 0

/-- The files `EDHOC_UE_CREDS` and `EDHOC_SRV_PUB` name; `none` cannot be opened. -/
structure UeFiles where
  creds : Option (List UInt8)
  pub : Option (List UInt8)

structure UeCoins where
  msg1 : Edhoc4.Msg1Coins UInt8
  msg3 : Edhoc4.Msg3Coins UInt8

/-- `NasSm::ensureEdhocProvisioned`. What a failed load leaves in the members is not
read before the next load. -/
def ensureEdhocProvisioned (files : UeFiles) : Proc Ue Unit Unit := do
  let u ← load
  if u.provisioned then return ()
  else
    let creds ← demand (Edhoc4.credsLoad files.creds).toOption ()
    store fun u => { u with creds := creds }
    let pub ← demand (Edhoc4.pubLoad files.pub).toOption ()
    store fun u => { u with peerPub := pub, provisioned := true }

/-! ### Fragments -/

/-- `EncodeEdhocFragment`: the next wire and the new `payloadPos`. -/
def encodeEdhocFragment (payload : List UInt8) (payloadLen payloadPos : Nat) : List UInt8 × Nat :=
  if payloadLen < payloadPos then ([], payloadPos)
  else
    let remaining := payloadLen - payloadPos
    let len := fragLen payloadPos remaining
    let more := decide (len < remaining)
    let first := decide (payloadPos = 0) && more
    (fragWire more first payloadLen ((payload.drop payloadPos).take len), payloadPos + len)

def parseLength (data : List UInt8) : Proc Ue Unit Unit := do
  require (3 ≤ data.length) ()
  let total := ntohs (data.getD 1 0) (data.getD 2 0)
  require (total ≠ 0 ∧ total ≤ Edhoc4.maxMsg) ()
  let u ← load
  if u.inLen = 0 then
    store fun u => { u with inLen := total, inPos := 0 }
  else
    require (u.inLen = total) ()

/-- The payload of an incoming wire while a message is being reassembled. -/
def parsePiece (more : Bool) (piece : List UInt8) : Proc Ue Unit (Option (List UInt8)) := do
  let u ← load
  require (u.inPos + piece.length ≤ u.inLen) ()
  store fun u =>
    { u with inBuf := memcpyAt u.inBuf u.inPos piece, inPos := u.inPos + piece.length }
  if more then
    return none
  else
    let u ← load
    require (u.inPos = u.inLen) ()
    store fun u => { u with inLen := 0, inPos := 0 }
    return some (u.inBuf.take u.inLen)

/-- `ParseEdhocWire`: the reassembled message, or `none` for `needAck`; an error is the
return value `false`. -/
def parseEdhocWire (data : List UInt8) : Proc Ue Unit (Option (List UInt8)) := do
  require (data.length ≠ 0) ()
  let flags := data.headD 0
  let pos := if hasFlag fragFlagLen flags then 3 else 1
  if hasFlag fragFlagLen flags then parseLength data else pure ()
  require (pos ≤ data.length) ()
  let u ← load
  if 0 < u.inLen then
    parsePiece (hasFlag fragFlagMore flags) (data.drop pos)
  else
    require (hasFlag fragFlagMore flags = false) ()
    return some (data.drop pos)

/-! ### Answering an EAP-EDHOC request -/

inductive SmCause where
  | invalidMandatoryInformation | insufficientResources
deriving DecidableEq

/-- Why no answer is sent: a cause reported at once, or `rc != E4_OK`. -/
inductive UeError where
  | cause (c : SmCause)
  | protocol (e : Edhoc4.Err)

/-- A call of the EDHOC core on `m_edhocCtx`. -/
def onCtx {α : Type} (p : Proc (Edhoc4.Ctx UInt8) Edhoc4.Err α) : Proc Ue UeError α := fun u =>
  match p u.ctx with
  | (.ok a, c) => (.ok a, { u with ctx := c })
  | (.error e, c) => (.error (.protocol e), { u with ctx := c })

def nextFragment (e : UeError) : Proc Ue UeError (List UInt8) := do
  let u ← load
  let frag := encodeEdhocFragment u.out u.outLen u.outPos
  store fun u => { u with outPos := frag.2 }
  require (frag.1.length ≠ 0) e
  return frag.1

/-- Enter a round, put a message into `m_edhocOut` and send its first fragment. -/
def queueMessage (round : UeRound) (msg : List UInt8) : Proc Ue UeError (List UInt8) := do
  store fun u => { u with
    round := round, out := memcpyAt u.out 0 msg, outLen := msg.length, outPos := 0 }
  nextFragment (.protocol .buf)

variable (P : Primitives UInt8)

/-- `m_edhocRound < 0`: only the start indication is accepted. -/
def answerStart (coins : UeCoins) (data : List UInt8) : Proc Ue UeError (List UInt8) := do
  require (data = [0x01]) (.cause .invalidMandatoryInformation)
  store fun u => { u with ctx := Edhoc4.initInitiator u.creds u.peerPub }
  let m1 ← onCtx (Edhoc4.iMakeMsg1 P coins.msg1 Edhoc4.maxMsg)
  queueMessage .msg1Sent m1

/-- A reassembled message in one of the later rounds. -/
def answerMessage (coins : UeCoins) (msg : List UInt8) : Proc Ue UeError (List UInt8) := do
  let u ← load
  if u.round = .msg1Sent then
    let m3 ← onCtx (Edhoc4.iHandleMsg2 P msg coins.msg3 Edhoc4.maxMsg)
    queueMessage .msg3Sent m3
  else if u.round = .msg3Sent then
    onCtx (Edhoc4.iHandleMsg4 P msg)
    store fun u => { u with round := .complete }
    return [0x00]
  else
    return [0x00]

/-- `ParseEdhocWire` with its failure reported as an SM cause. -/
def parseOrReport (data : List UInt8) : Proc Ue UeError (Option (List UInt8)) := fun u =>
  match parseEdhocWire data u with
  | (.ok msg, u') => (.ok msg, u')
  | (.error _, u') => (.error (.cause .invalidMandatoryInformation), u')

/-- The EAP-EDHOC branch after provisioning: the type data of the response. While a
message is going out, the content of a request is ignored. -/
def answerEdhoc (coins : UeCoins) (data : List UInt8) : Proc Ue UeError (List UInt8) := do
  let u ← load
  if u.outPos < u.outLen then
    nextFragment (.cause .insufficientResources)
  else if u.round = .idle then
    answerStart P coins data
  else do
    let msg ← parseOrReport data
    match msg with
    | none => return [0x00]
    | some msg => answerMessage P coins msg

def Ue.reset (u : Ue) : Ue :=
  { u with round := .idle, inLen := 0, inPos := 0, outLen := 0, outPos := 0 }

/-- The EAP-EDHOC branch of the handler. -/
def receiveEdhoc (files : UeFiles) (coins : UeCoins) (data : List UInt8) (u : Ue) :
    Except SmCause (List UInt8) × Ue :=
  match ensureEdhocProvisioned files u with
  | (.error _, u) => (.error .insufficientResources, u)
  | (.ok _, u) =>
    match answerEdhoc P coins data u with
    | (.ok wire, u) => (.ok wire, u)
    | (.error (.cause c), u) => (.error c, u)
    | (.error (.protocol _), u) => (.error .insufficientResources, u.reset)

/-! ### The NAS message handler -/

/-- What the handler reads of an EAP message. -/
inductive EapBody where
  | edhoc (data : List UInt8)
  | identity
  | other

/-- A PDU Session Authentication Command; `eap = none` is a missing EAP payload. -/
structure Command where
  psi : Nat
  pti : Nat
  eap : Option (UInt8 × EapBody)

/-- The EAP message of a PDU Session Authentication Complete. -/
inductive EapAnswer where
  | edhoc (data : List UInt8)
  | identity (name : String)
  | notification (text : String)

inductive UeReply where
  | complete (psi pti : Nat) (id : UInt8) (eap : EapAnswer)
  | status (psi pti : Nat) (cause : SmCause)

/-- What does not change while the process runs. -/
structure UeConfig where
  files : UeFiles
  supi : Option String

def receivePduSessionAuthenticationCommand (cfg : UeConfig) (coins : UeCoins) (cmd : Command)
    (u : Ue) : UeReply × Ue :=
  match cmd.eap with
  | none => (.status cmd.psi cmd.pti .invalidMandatoryInformation, u)
  | some (id, .edhoc data) =>
    match receiveEdhoc P cfg.files coins data u with
    | (.ok wire, u) => (.complete cmd.psi cmd.pti id (.edhoc wire), u)
    | (.error c, u) => (.status cmd.psi cmd.pti c, u)
  | some (id, .identity) =>
    (.complete cmd.psi cmd.pti id (.identity (cfg.supi.getD "imsi-000000000000000")), u)
  | some (id, .other) => (.complete cmd.psi cmd.pti id (.notification "UNSUPPORTED-EAP"), u)

end EdhocAuth.Eap
