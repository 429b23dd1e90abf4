/-
The FreeRADIUS module `rlm_eap_edhoc.c`: the responder behind EAP.

`modProcess` is the state machine on one session. Every call is observed as a list
of events: the message it reassembled, the handler that returned OK on it, and the
reply it set. Allocation succeeds; randomness comes with the response. A session is
run on any finite sequence of responses, also after a failure.
-/

import EdhocAuth.Edhoc03.Core
import EdhocAuth.Edhoc4.Core
import EdhocAuth.Eap.Fragment

namespace EdhocAuth.Eap

open Proc

/-! ### Instances and sessions -/

/-- `rlm_eap_edhoc_t`: the provisioned keys of the server. -/
structure Instance where
  server : Edhoc4.Creds UInt8
  uePub : Block UInt8 Edhoc4.xwingPk
  server03 : Edhoc03.Creds UInt8
  ue03Pub : Edhoc03.Peer UInt8
  have03 : Bool

/-- The `mode` of a session: 0, 3 and 4 in the source. -/
inductive Mode where
  | undetermined | classical | pqc
deriving DecidableEq

/-- The `round` of a session: 0, 1 and 2 in the source. -/
inductive Round where
  | startSent | msg2Sent | msg4Sent
deriving DecidableEq

structure Session where
  ctx : Edhoc4.Ctx UInt8
  ctx03 : Edhoc03.Ctx UInt8
  mode : Mode
  round : Round
  inBuf : List UInt8
  inLen : Nat
  inPos : Nat
  out : List UInt8
  outLen : Nat
  outPos : Nat

/-- A zeroed method-4 context; role 0 is the responder. -/
def zeroCtx : Edhoc4.Ctx UInt8 :=
  Edhoc4.initCtx .responder ⟨zeros _, zeros _, zeros _, zeros _, zeros _⟩ (zeros _)

def zeroCtx03 : Edhoc03.Ctx UInt8 :=
  { Edhoc03.initCtx .responder ⟨zeros _, zeros _, zeros _, zeros _, zeros _⟩ ⟨zeros _, zeros _⟩ with
    cI := zeros _, cR := zeros _ }

/-- The session `mod_session_init` leaves behind. -/
def modSessionInit : Session where
  ctx := zeroCtx
  ctx03 := zeroCtx03
  mode := .undetermined
  round := .startSent
  inBuf := List.replicate Edhoc4.maxMsg 0
  inLen := 0
  inPos := 0
  out := List.replicate Edhoc4.maxMsg 0
  outLen := 0
  outPos := 0

/-! ### Fragments -/

/-- `edhoc_send_fragment`: the next wire; fails if nothing is left. -/
def edhocSendFragment : Proc Session Unit (List UInt8) := do
  let s ← load
  let remaining := s.outLen - s.outPos
  let len := fragLen s.outPos remaining
  require (remaining ≠ 0) ()
  let more := decide (len < remaining)
  let first := decide (s.outPos = 0) && more
  let wire := fragWire more first s.outLen ((s.out.drop s.outPos).take len)
  store fun s =>
    if s.outLen ≤ s.outPos + len then { s with outLen := 0, outPos := 0 }
    else { s with outPos := s.outPos + len }
  return wire

def edhocQueueOutgoing (buf : List UInt8) : Proc Session Unit (List UInt8) := do
  if buf.length = 0 then
    return [0]
  else if buf.length ≤ firstCap then
    return 0 :: buf
  else
    require (buf.length ≤ Edhoc4.maxMsg) ()
    store fun s => { s with out := memcpyAt s.out 0 buf, outLen := buf.length, outPos := 0 }
    edhocSendFragment

/-- The length field of an incoming wire: it opens a message or has to repeat the
length of the one being reassembled. -/
def consumeLength (inp : List UInt8) : Proc Session Edhoc4.Err Unit := do
  require (fragHdrLen + fragLenLen ≤ inp.length) .parse
  let total := ntohs (inp.getD 1 0) (inp.getD 2 0)
  require (total ≠ 0 ∧ total ≤ Edhoc4.maxMsg) .buf
  let s ← load
  if s.inLen = 0 then
    store fun s => { s with inLen := total, inPos := 0 }
  else
    require (s.inLen = total) .parse

/-- The payload of an incoming wire while a message is being reassembled. -/
def consumePiece (more : Bool) (piece : List UInt8) :
    Proc Session Edhoc4.Err (Option (List UInt8)) := do
  let s ← load
  require (s.inPos + piece.length ≤ s.inLen) .buf
  store fun s =>
    { s with inBuf := memcpyAt s.inBuf s.inPos piece, inPos := s.inPos + piece.length }
  if more then
    return none
  else
    let s ← load
    require (s.inPos = s.inLen) .parse
    store fun s => { s with inLen := 0, inPos := 0 }
    return some (s.inBuf.take s.inLen)

/-- `edhoc_consume_incoming`: the reassembled message, or `none` to ask for the next
fragment. -/
def edhocConsumeIncoming (inp : List UInt8) : Proc Session Edhoc4.Err (Option (List UInt8)) := do
  require (inp.length ≠ 0) .parse
  let flags := inp.headD 0
  let pos := if hasFlag fragFlagLen flags then fragHdrLen + fragLenLen else fragHdrLen
  if hasFlag fragFlagLen flags then consumeLength inp else pure ()
  require (pos ≤ inp.length) .parse
  let s ← load
  if s.inLen ≠ 0 then
    consumePiece (hasFlag fragFlagMore flags) (inp.drop pos)
  else
    require (hasFlag fragFlagMore flags = false) .parse
    return some (inp.drop pos)

/-! ### The state machine -/

/-- What a call sets in `eap_ds->request`. -/
inductive Reply where
  /-- An EAP-Request with these type data. -/
  | request (wire : List UInt8)
  /-- EAP-Success, with the MS-MPPE Recv and Send keys added to the reply. -/
  | success (recvKey sendKey : List UInt8)
  /-- EAP-Failure. -/
  | failure
  /-- The call fails without setting a code. -/
  | dropped

inductive Event where
  | received (msg : List UInt8)
  | msg1 (mode : Mode) (msg m2 : List UInt8)
  | msg3 (mode : Mode) (msg m4 : List UInt8) (msk : Block UInt8 64)
  | reply (r : Reply)

structure Coins where
  y : Block UInt8 32
  msg2 : Edhoc4.Msg2Coins UInt8
  msg4 : Edhoc4.KeyCoins UInt8

/-- An EAP response with the randomness of the call that processes it. -/
structure Response where
  data : List UInt8
  coins : Coins

/-- Queue a handler's output and enter the next round. -/
def sendAndAdvance (round : Round) (out : List UInt8) (s : Session) : Session × List Event :=
  match edhocQueueOutgoing out s with
  | (.ok wire, s') => ({ s' with round := round }, [.reply (.request wire)])
  | (.error _, s') => (s', [.reply .dropped])

/-- `MS-MPPE-Recv-Key` and `MS-MPPE-Send-Key`: the halves of the MSK. -/
def successReply (msk : Block UInt8 64) : Reply :=
  .success (msk.toList.take 32) ((msk.toList.drop 32).take 32)

variable (P : Primitives UInt8)

/-- The mode after the first message, which decides between the cores. -/
def decideMode (mode : Mode) (msg : List UInt8) : Mode :=
  if mode = .undetermined then
    if msg.length = 1 + Edhoc03.xPk + Edhoc03.connId ∧ msg.headD 0 ≤ 3 then .classical else .pqc
  else mode

def processMsg1 (inst : Instance) (coins : Coins) (msg : List UInt8) (s : Session) :
    Session × List Event :=
  let s := { s with mode := decideMode s.mode msg }
  if s.mode = .classical then
    if inst.have03 then
      match Edhoc03.rHandleMsg1 P msg coins.y Edhoc4.maxMsg
          (Edhoc03.initResponder inst.server03 inst.ue03Pub) with
      | (.ok m2, c) =>
        let next := sendAndAdvance .msg2Sent m2 { s with ctx03 := c }
        (next.1, .msg1 .classical msg m2 :: next.2)
      | (.error _, c) => ({ s with ctx03 := c }, [.reply .failure])
    else (s, [.reply .failure])
  else
    match Edhoc4.rHandleMsg1 P msg coins.msg2 Edhoc4.maxMsg
        (Edhoc4.initResponder inst.server inst.uePub) with
    | (.ok m2, c) =>
      let next := sendAndAdvance .msg2Sent m2 { s with ctx := c }
      (next.1, .msg1 .pqc msg m2 :: next.2)
    | (.error _, c) => ({ s with ctx := c }, [.reply .failure])

/-- Round 1: message_3. The classical methods succeed at once, without message_4. -/
def processMsg3 (coins : Coins) (msg : List UInt8) (s : Session) : Session × List Event :=
  if s.mode = .classical then
    match Edhoc03.rHandleMsg3 P msg s.ctx03 with
    | (.ok m4, c) =>
      if c.done then
        ({ s with ctx03 := c }, [.msg3 .classical msg m4 c.msk, .reply (successReply c.msk)])
      else ({ s with ctx03 := c }, [.msg3 .classical msg m4 c.msk, .reply .failure])
    | (.error _, c) => ({ s with ctx03 := c }, [.reply .failure])
  else
    match Edhoc4.rHandleMsg3 P msg coins.msg4 Edhoc4.maxMsg s.ctx with
    | (.ok m4, c) =>
      let next := sendAndAdvance .msg4Sent m4 { s with ctx := c }
      (next.1, .msg3 .pqc msg m4 c.msk :: next.2)
    | (.error _, c) => ({ s with ctx := c }, [.reply .failure])

def processAck (msg : List UInt8) (s : Session) : Session × List Event :=
  if msg.length ≠ 0 then (s, [.reply .failure])
  else if s.ctx.done then (s, [.reply (successReply s.ctx.msk)])
  else (s, [.reply .failure])

/-- The `switch (sess->round)` on a reassembled message. -/
def processMessage (inst : Instance) (coins : Coins) (msg : List UInt8) (s : Session) :
    Session × List Event :=
  match s.round with
  | .startSent => processMsg1 P inst coins msg s
  | .msg2Sent => processMsg3 P coins msg s
  | .msg4Sent => processAck msg s

/-- `mod_process`. While a message is going out, the content of a response is ignored. -/
def modProcess (inst : Instance) (r : Response) (s : Session) : Session × List Event :=
  if s.outPos < s.outLen then
    match edhocSendFragment s with
    | (.ok wire, s') => (s', [.reply (.request wire)])
    | (.error _, s') => (s', [.reply .failure])
  else
    match edhocConsumeIncoming r.data s with
    | (.error _, s') => (s', [.reply .failure])
    | (.ok none, s') => (s', [.reply (.request [0])])
    | (.ok (some msg), s') =>
      let next := processMessage P inst r.coins msg s'
      (next.1, .received msg :: next.2)

/-- A session with its events so far, after one more response. -/
def modStep (inst : Instance) (st : Session × List Event) (r : Response) : Session × List Event :=
  let next := modProcess P inst r st.1
  (next.1, st.2 ++ next.2)

/-- A session with its events, after a sequence of responses. -/
def modRun (inst : Instance) (responses : List Response) : Session × List Event :=
  responses.foldl (modStep P inst) (modSessionInit, [])

end EdhocAuth.Eap
