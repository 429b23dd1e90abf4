/-
The EAP module of FreeRADIUS (`rlm_eap/eap.c`, `rlm_eap/rlm_eap.c`).

`modAuthenticate` takes one Access-Request: it puts the EAP packet together, finds or makes the
handler of its conversation, calls an EAP method and composes the reply. A method is a parameter;
what it keeps between two calls is `opaqueData`. `radAuthenticate` is the way of a request through
the authorize and authenticate sections with this module alone. Handlers are numbered in the order
in which they are allocated.

A request is served here from its beginning to its end before the next. The server of the source
has a pool of threads, and `mem.c` locks each operation on the list by itself, so that other
requests may come between the `eaplist_find` and the `eaplist_add` of one. The handler of that
request is on no list meanwhile, but the place that it had on the list may be taken.
-/

import EdhocAuth.Lib.Octets
import EdhocAuth.Radiusd.Sessions

namespace EdhocAuth.Radiusd

open Octets

variable {ω κ : Type}

/-! ### Packets -/

inductive EapCode where
  | request | response | success | failure
deriving DecidableEq

def EapCode.toOctet : EapCode → UInt8
  | .request => 1
  | .response => 2
  | .success => 3
  | .failure => 4

abbrev typeIdentity : Nat := 1

abbrev typeNotification : Nat := 2

abbrev typeNak : Nat := 3

/-- `PW_EAP_MD5`, the first method. -/
abbrev typeMd5 : Nat := 4

abbrev typeEdhoc : Nat := 56

abbrev maxTypes : Nat := 57

abbrev expandedType : Nat := 254

def packetId (packet : List UInt8) : UInt8 := Octets.octet packet 1

/-- `eap_packet->data[0]` -/
def packetType (packet : List UInt8) : Nat := (Octets.octet packet 4).toNat

def packetLength (packet : List UInt8) : Nat := Octets.toNat (field packet 2 2)

def typeData (packet : List UInt8) : List UInt8 := packet.drop 5

/-! ### Configuration -/

/-- What a method leaves in `eap_ds->request` and adds to the reply. A type of 0 has been left
open. -/
structure EapReply where
  code : EapCode
  type : Nat
  data : List UInt8
  keys : Option (List UInt8 × List UInt8)

/-- What a function of a method leaves behind when it does not return 0. -/
structure Called (ω : Type) where
  opaqueData : Option ω
  freeOpaque : Bool
  stage : Stage
  reply : EapReply

/-- `rlm_eap_module_t`; `κ` is the randomness of a call. -/
structure Method (ω κ : Type) where
  sessionInit : κ → Option ω → Option (Called ω)
  process : κ → List UInt8 → Option ω → Option (Called ω)

/-- `rlm_eap_t`. `tlsOk` is the check of `eap_vp2packet` on packets of the TLS methods. -/
structure Rlm (ω κ : Type) extends Limits where
  defaultMethod : Nat
  methods : Nat → Option (Method ω κ)
  allowEmptyIdentities : Bool
  ignoreUnknownTypes : Bool
  tlsOk : List UInt8 → Bool

/-- An Access-Request as the module sees it, with the randomness that the server uses on it. -/
structure Request (κ : Type) where
  eapMessages : List (List UInt8)
  state : Option (List UInt8)
  userName : Option (List UInt8)
  timestamp : Int
  configType : Option Nat
  words : Block UInt8 eapStateLen
  coins : κ

/-! ### Incoming packets -/

def isTls (type : Nat) : Bool := type ∈ [13, 21, 25, 43, 55]

def eapVp2packet (inst : Rlm ω κ) (eapMessages : List (List UInt8)) : Option (List UInt8) :=
  match eapMessages with
  | [] => none
  | first :: _ =>
    let packet := eapMessages.flatten
    if first.length < 5 then none
    else if packetLength first < 5 then none
    -- the attributes are added up until they exceed this length
    else if packet.length ≠ packetLength first then none
    else if isTls (packetType packet) && !inst.tlsOk packet then none
    else some packet

inductive Validation where
  /-- `EAP_INVALID`; a request is answered by a NAK. -/
  | invalid (nak : Bool)
  /-- `EAP_VALID`, with the packet that is left. -/
  | valid (packet : List UInt8)

/-- The packet with an expanded type as a packet with a normal one. -/
def collapsed (packet : List UInt8) : List UInt8 :=
  packet.take 2 ++ Octets.ofNat 2 (packetLength packet - 7) ++ packet.drop 11

def eapValidation (packet : List UInt8) : Validation :=
  let type := packetType packet
  if packetLength packet ≤ 4 then .invalid false
  else if Octets.octet packet 0 = EapCode.request.toOctet then .invalid true
  else if Octets.octet packet 0 ≠ EapCode.response.toOctet then .invalid false
  else if type = 0 ∨ maxTypes ≤ type then
    if type ≠ expandedType then .invalid false
    else if packetLength packet ≤ 4 + 1 + 3 + 4 then .invalid false
    else if field packet 5 3 ≠ [0, 0, 0] then .invalid false
    else if field packet 8 3 ≠ [0, 0, 0] then .invalid false
    else
      let inner := (Octets.octet packet 11).toNat
      if inner = 0 ∨ maxTypes ≤ inner then .invalid false
      else if inner = typeNak then .invalid false
      else .valid (collapsed packet)
  else if type = typeNotification then .invalid false
  else .valid packet

def eapIdentity (packet : List UInt8) : Option (List UInt8) :=
  if packetLength packet ≤ 5 ∨ Octets.octet packet 5 = 0 then none
  else if 1024 < packetLength packet then none
  else some (field packet 5 (packetLength packet - 5))

abbrev maxStringLen : Nat := 254

/-- What a buffer holds before its first NUL. -/
def beforeNul (buf : List UInt8) : List UInt8 := buf.takeWhile (· ≠ 0)

/-- `strncmp(a, b, n) == 0` -/
def strncmpEq (a b : List UInt8) (n : Nat) : Bool := (beforeNul a).take n == (beforeNul b).take n

/-- The User-Name of a request, where there is one, has to be the identity. -/
def userNameOk (identity : List UInt8) (userName : Option (List UInt8)) : Bool :=
  match userName with
  | none => true
  | some name => strncmpEq identity name maxStringLen

/-! ### Handlers -/

/-- The sessions, and how many handlers have been allocated. -/
structure Server (ω : Type) where
  sessions : Eaplist ω
  next : Nat

def Server.init : Server ω := ⟨.empty, 0⟩

/-- `eap_handler_alloc`: all fields are zero. -/
def eapHandlerAlloc (identity : List UInt8) (timestamp : Int) : Handler ω where
  state := Block.fill eapStateLen 0
  eapId := 0
  type := 0
  timestamp := timestamp
  identity := identity
  opaqueData := none
  freeOpaque := false
  stage := .initiate
  trips := 0
  started := false

/-- The identity of a new handler. -/
def newIdentity (inst : Rlm ω κ) (packet : List UInt8) : Option (List UInt8) :=
  match eapIdentity packet with
  | some identity => some identity
  | none => if inst.allowEmptyIdentities then some [] else none

/-- `eap_handler` on a packet that is valid: the handler of its conversation. -/
def eapHandler (inst : Rlm ω κ) (r : Request κ) (packet : List UInt8) (s : Server ω) :
    Option (Entry ω) × Server ω :=
  if packetType packet ≠ typeIdentity then
    let found := eaplistFind inst.toLimits r.timestamp (packetId packet) r.state s.sessions
    let s := { s with sessions := found.2 }
    match found.1 with
    | none => (none, s)
    | some e =>
      if packetType packet ≠ typeNak ∧ packetType packet ≠ e.2.type then (none, s)
      else if userNameOk e.2.identity r.userName then
        (some (e.1, { e.2 with timestamp := r.timestamp }), s)
      else (none, s)
  else
    let s' := { s with next := s.next + 1 }
    match newIdentity inst packet with
    | none => (none, s')
    | some identity =>
      if userNameOk identity r.userName then
        (some (s.next, eapHandlerAlloc identity r.timestamp), s')
      else (none, s')

/-! ### Methods -/

def eapModuleCall (m : Method ω κ) (coins : κ) (data : List UInt8) (h : Handler ω) :
    Option (Called ω) :=
  match h.stage with
  | .initiate => m.sessionInit coins h.opaqueData
  | .process => m.process coins data h.opaqueData

/-- `eap_process_nak`: the first type that suits both sides, 0 if there is none. -/
def eapProcessNak (inst : Rlm ω κ) (configType : Option Nat) (type : Nat) : List UInt8 → Nat
  | [] => 0
  | d :: rest =>
    let wanted := d.toNat
    if wanted = 0 then 0
    else if wanted < typeMd5 then 0
    else if maxTypes ≤ wanted ∨ (inst.methods wanted).isNone then
      eapProcessNak inst configType type rest
    else if type = wanted then eapProcessNak inst configType type rest
    else if configType.any (· ≠ wanted) then eapProcessNak inst configType type rest
    else wanted

/-- A handler after a call, with what the method replies. -/
def Handler.called (h : Handler ω) (out : Called ω) : Handler ω × EapReply :=
  ({ h with opaqueData := out.opaqueData, freeOpaque := out.freeOpaque, stage := out.stage },
    out.reply)

/-- The handler after the method's data have been deleted, which is done only by `free_opaque`. -/
def Handler.forget (h : Handler ω) : Handler ω :=
  if h.opaqueData.isSome ∧ h.freeOpaque then { h with opaqueData := none, freeOpaque := false }
  else h

def initiate (inst : Rlm ω κ) (coins : κ) (data : List UInt8) (next : Nat) (h : Handler ω) :
    Option (Handler ω × EapReply) := do
  let m ← inst.methods next
  let h := { h with stage := .initiate, type := next }
  let out ← eapModuleCall m coins data h
  return h.called out

/-- `eap_method_select`; `none` is `EAP_INVALID`. -/
def eapMethodSelect (inst : Rlm ω κ) (r : Request κ) (packet : List UInt8) (h : Handler ω) :
    Option (Handler ω × EapReply) :=
  let type := packetType packet
  let data := typeData packet
  if type = 0 ∨ maxTypes ≤ type then none
  else if type = typeIdentity then
    let next := r.configType.getD inst.defaultMethod
    if next < typeMd5 ∨ maxTypes ≤ next then none else initiate inst r.coins data next h
  else if type = typeNak then
    let h := h.forget
    if h.started then none
    else
      let next := eapProcessNak inst r.configType h.type data
      if next = 0 then none else initiate inst r.coins data next h
  else do
    let m ← inst.methods type
    let h := { h with type := type }
    let out ← eapModuleCall m r.coins data h
    return ({ (h.called out).1 with started := true }, out.reply)

/-! ### Replies -/

inductive RadiusCode where
  | accept | reject | challenge
deriving DecidableEq

/-- `rlm_rcode_t`, as far as the module returns it. -/
inductive Rcode where
  | ok | handled | reject | invalid | fail
deriving DecidableEq

structure RadiusReply where
  code : Option RadiusCode
  eapMessage : Option (List UInt8)
  state : Option (Block UInt8 eapStateLen)
  keys : Option (List UInt8 × List UInt8)
  userName : Option (List UInt8)

def RadiusReply.blank : RadiusReply := ⟨none, none, none, none, none⟩

def eapWireformat (code : EapCode) (id : UInt8) (type : Nat) (data : List UInt8) : List UInt8 :=
  match code with
  | .request | .response =>
    [code.toOctet, id] ++ Octets.ofNat 2 (4 + 1 + data.length) ++ [UInt8.ofNat type] ++ data
  | .success | .failure => [code.toOctet, id] ++ Octets.ofNat 2 4

/-- The identifier that `eap_compose` gives to a reply. -/
def replyId (packet : List UInt8) : EapCode → UInt8
  | .success | .failure => packetId packet
  | .request | .response => packetId packet + 1

/-- The type that `eap_compose` fills in. -/
def replyType (h : Handler ω) (reply : EapReply) : Nat :=
  if reply.type = 0 then h.type else reply.type

/-- The codes that belong to an EAP code. -/
def codesOf : EapCode → RadiusCode × Rcode
  | .response => (.reject, .reject)
  | .success => (.accept, .ok)
  | .failure => (.reject, .reject)
  | .request => (.challenge, .handled)

def eapCompose (packet : List UInt8) (h : Handler ω) (reply : EapReply) : Rcode × RadiusReply :=
  ((codesOf reply.code).2,
    { RadiusReply.blank with
      code := some (codesOf reply.code).1
      eapMessage := some (eapWireformat reply.code (replyId packet reply.code) (replyType h reply)
        reply.data)
      keys := reply.keys })

/-- `eap_fail`. A code that has been set before stays. -/
def eapFail (packet : List UInt8) (reply : RadiusReply) : RadiusReply :=
  { reply with
    code := some (reply.code.getD .reject)
    eapMessage := some (eapWireformat .failure (packetId packet) 0 [])
    state := none }

/-- The reply to an EAP-Request in `eap_validation`. -/
def nakReply (packet : List UInt8) : RadiusReply :=
  { RadiusReply.blank with
    code := some .reject
    eapMessage := some [EapCode.response.toOctet, packetId packet, 0, 6, 3, 0] }

/-- An Access-Accept has the User-Name of the request. -/
def addUserName (r : Request κ) (reply : RadiusReply) : RadiusReply :=
  if reply.code = some .accept then { reply with userName := r.userName } else reply

structure Outcome (ω : Type) where
  rcode : Rcode
  reply : RadiusReply
  /-- The handler that the request was admitted to, as the method found it, and the EAP packet. -/
  admitted : Option (Entry ω × List UInt8)

def converse (inst : Rlm ω κ) (r : Request κ) (packet : List UInt8) (e : Entry ω) (s : Server ω) :
    Rcode × RadiusReply × Server ω :=
  match eapMethodSelect inst r packet e.2 with
  | none => (.invalid, eapFail packet .blank, s)
  | some (h, reply) =>
    let out := eapCompose packet h reply
    if reply.code = .request ∧ typeMd5 ≤ replyType h reply then
      match eaplistAdd inst.toLimits r.timestamp (replyId packet .request) r.words (e.1, h)
          s.sessions with
      | (none, l) => (.fail, eapFail packet out.2, { s with sessions := l })
      | (some state, l) => (out.1, { out.2 with state := some state }, { s with sessions := l })
    else (out.1, addUserName r out.2, s)

def modAuthenticate (inst : Rlm ω κ) (r : Request κ) (s : Server ω) : Outcome ω × Server ω :=
  match r.eapMessages with
  | [] => (⟨.invalid, .blank, none⟩, s)
  | _ :: _ =>
    match eapVp2packet inst r.eapMessages with
    | none => (⟨.fail, .blank, none⟩, s)
    | some raw =>
      match eapValidation raw with
      | .invalid nak => (⟨.invalid, if nak then nakReply raw else .blank, none⟩, s)
      | .valid packet =>
        match eapHandler inst r packet s with
        | (none, s) => (⟨.invalid, .blank, none⟩, s)
        | (some e, s) =>
          let out := converse inst r packet e s
          (⟨out.1, out.2.1, some (e, packet)⟩, out.2.2)

/-! ### The way of a request -/

inductive Authorized where
  | noop | fail | handled (reply : RadiusReply) | authenticate

/-- A type for which there is no method. -/
def unknownType (inst : Rlm ω κ) (type : Nat) : Bool :=
  type = 0 || decide (maxTypes ≤ type) || (inst.methods type).isNone

/-- `eap_start`, without a proxy. -/
def eapStart (inst : Rlm ω κ) (r : Request κ) : Authorized :=
  match r.eapMessages with
  | [] => .noop
  | first :: _ =>
    if first.length = 0 ∨ first.length = 2 then
      .handled { RadiusReply.blank with
        code := some .challenge
        eapMessage := some [EapCode.request.toOctet, 0, 0, 5, 1] }
    else if first.length < 4 + 1 then .fail
    else if Octets.octet first 0 ≠ EapCode.request.toOctet ∧
        Octets.octet first 0 ≠ EapCode.response.toOctet then
      .fail
    else if typeMd5 ≤ packetType first ∧ inst.ignoreUnknownTypes ∧
        unknownType inst (packetType first) then .noop
    else if packetType first = typeNak ∧ 4 + 2 ≤ first.length ∧ inst.ignoreUnknownTypes ∧
        unknownType inst (Octets.octet first 5).toNat then .noop
    else .authenticate

/-- The end of `rad_check_password` and of `rad_authenticate`. -/
def finish (rcode : Rcode) (reply : RadiusReply) : RadiusReply :=
  match rcode with
  | .fail | .invalid | .reject => { reply with code := some .reject }
  | .handled => reply
  | .ok => { reply with code := some (reply.code.getD .accept) }

/-- `rad_authenticate`. Without an Auth-Type a request is rejected. -/
def radAuthenticate (inst : Rlm ω κ) (r : Request κ) (s : Server ω) : Outcome ω × Server ω :=
  match eapStart inst r with
  | .noop => (⟨.reject, { RadiusReply.blank with code := some .reject }, none⟩, s)
  | .fail => (⟨.fail, { RadiusReply.blank with code := some .reject }, none⟩, s)
  | .handled reply => (⟨.handled, reply, none⟩, s)
  | .authenticate =>
    let out := modAuthenticate inst r s
    ({ out.1 with reply := finish out.1.rcode out.1.reply }, out.2)

/-! ### Runs -/

/-- A request with what it led to. -/
structure Exchange (ω κ : Type) where
  request : Request κ
  outcome : Outcome ω

def step (inst : Rlm ω κ) (s : Server ω) (r : Request κ) : Server ω × List (Exchange ω κ) :=
  let out := radAuthenticate inst r s
  (out.2, [⟨r, out.1⟩])

end EdhocAuth.Radiusd
