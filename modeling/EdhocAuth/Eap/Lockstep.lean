/-
The UE and the server in lock-step: every answer of one is delivered, unmodified,
as the next input of the other.

`Link` is both programs with what is in flight between them. A message travels as
the wires of `Reassembly`; each direction is one lemma (`uplink`, `downlink`), by
induction on what is left of the message, and needs nothing from the handlers. The
handshake is then the exchange of `Edhoc4.Honest`, message by message. What a run
did is kept as notes.
-/

import EdhocAuth.Edhoc4.Honest
import EdhocAuth.Eap.Gate

namespace EdhocAuth.Eap

open Proc

/-! ### Sending -/

/-- The octets of `msg` from `p` on are still to be sent, from this output buffer. -/
structure Sends (msg : List UInt8) (p : Nat) (out : List UInt8) (outLen outPos : Nat) : Prop where
  out : out.take msg.length = msg
  outLen : outLen = msg.length
  outPos : outPos = p

section Sending

variable {msg out : List UInt8} {p outLen outPos : Nat}

theorem take_memcpyAt_zero (buf msg : List UInt8) : (memcpyAt buf 0 msg).take msg.length = msg := by
  rw [memcpyAt, List.take_zero, List.nil_append, List.take_left]

/-- The wire built from the output buffer is the wire of the message. -/
theorem Sends.fragWire_eq (sends : Sends msg p out outLen outPos) :
    fragWire (decide (fragLen outPos (outLen - outPos) < outLen - outPos))
        (decide (outPos = 0) && decide (fragLen outPos (outLen - outPos) < outLen - outPos)) outLen
        ((out.drop outPos).take (fragLen outPos (outLen - outPos))) = frag msg p := by
  obtain ⟨whole, rfl, rfl⟩ := sends
  have piece : (out.drop outPos).take (pieceLen msg outPos) =
      (msg.drop outPos).take (pieceLen msg outPos) := by
    have cut : msg.drop outPos = (out.drop outPos).take (msg.length - outPos) := by
      rw [← List.drop_take, whole]
    rw [cut, List.take_take, Nat.min_eq_left (pieceLen_le msg outPos)]
  show fragWire (decide (pieceLen msg outPos < _)) _ _
    ((out.drop outPos).take (pieceLen msg outPos)) = _
  rw [piece]
  rfl

theorem frag_ne_nil (msg : List UInt8) (p : Nat) : (frag msg p).length ≠ 0 := Nat.succ_ne_zero _

/-- The UE sends the fragment at its position. -/
theorem nextFragment_eq {u : Ue} (e : UeError) (sends : Sends msg p u.out u.outLen u.outPos)
    (inside : p ≤ msg.length) :
    nextFragment e u = (.ok (frag msg p), { u with outPos := p + pieceLen msg p }) := by
  have encoded : encodeEdhocFragment u.out u.outLen u.outPos =
      (frag msg p, p + pieceLen msg p) := by
    have reachable : ¬ u.outLen < u.outPos := by
      rw [sends.outLen, sends.outPos]
      omega
    rw [encodeEdhocFragment, if_neg reachable]
    refine Prod.ext sends.fragWire_eq ?_
    show u.outPos + fragLen u.outPos (u.outLen - u.outPos) = _
    rw [sends.outLen, sends.outPos]
    rfl
  show (require ((encodeEdhocFragment u.out u.outLen u.outPos).1.length ≠ 0) e >>= fun _ =>
    pure (encodeEdhocFragment u.out u.outLen u.outPos).1)
      { u with outPos := (encodeEdhocFragment u.out u.outLen u.outPos).2 } = _
  rw [encoded]
  exact bind_ok (require_ok (frag_ne_nil msg p))

/-- The UE after it has put a message into its output buffer and sent the first wire. -/
def Ue.queued (round : UeRound) (msg : List UInt8) (u : Ue) : Ue :=
  { u with round := round, out := memcpyAt u.out 0 msg, outLen := msg.length,
           outPos := 0 + pieceLen msg 0 }

/-- Queuing a message sends its first fragment. -/
theorem queueMessage_eq (round : UeRound) (msg : List UInt8) (u : Ue) :
    queueMessage round msg u = (.ok (frag msg 0), u.queued round msg) := by
  have sends : Sends msg 0 (memcpyAt u.out 0 msg) msg.length 0 :=
    ⟨take_memcpyAt_zero u.out msg, rfl, rfl⟩
  exact nextFragment_eq (u := { u with
    round := round, out := memcpyAt u.out 0 msg, outLen := msg.length, outPos := 0 })
    (.protocol .buf) sends (Nat.zero_le _)

/-- The server after the wire at `p`: its output cursor moves on or is reset. -/
def Session.afterFragment (msg : List UInt8) (p : Nat) (s : Session) : Session :=
  if msg.length ≤ p + pieceLen msg p then { s with outLen := 0, outPos := 0 }
  else { s with outPos := p + pieceLen msg p }

/-- The server sends the fragment at its position. -/
theorem edhocSendFragment_eq {s : Session} (sends : Sends msg p s.out s.outLen s.outPos)
    (left : p < msg.length) :
    edhocSendFragment s = (.ok (frag msg p), s.afterFragment msg p) := by
  have some_left : s.outLen - s.outPos ≠ 0 := by
    rw [sends.outLen, sends.outPos]
    omega
  have next : s.outPos + fragLen s.outPos (s.outLen - s.outPos) = p + pieceLen msg p := by
    rw [sends.outLen, sends.outPos]
    rfl
  refine (bind_ok (require_ok some_left)).trans ?_
  refine Prod.ext (congrArg Except.ok sends.fragWire_eq) ?_
  show (if s.outLen ≤ s.outPos + fragLen s.outPos (s.outLen - s.outPos) then
    { s with outLen := 0, outPos := 0 }
    else { s with outPos := s.outPos + fragLen s.outPos (s.outLen - s.outPos) }) = _
  rw [next, Session.afterFragment, ← sends.outLen]

/-- Queueing a message sends its first wire; a message in one wire is never queued. -/
theorem edhocQueueOutgoing_eq {s : Session} (some_left : 0 < msg.length)
    (fits : msg.length ≤ Edhoc4.maxMsg) :
    (msg.length ≤ firstCap ∧ edhocQueueOutgoing msg s = (.ok (frag msg 0), s)) ∨
    (firstCap < msg.length ∧ edhocQueueOutgoing msg s = (.ok (frag msg 0),
      { s with out := memcpyAt s.out 0 msg, outLen := msg.length,
               outPos := 0 }.afterFragment msg 0)) := by
  rw [edhocQueueOutgoing, if_neg some_left.ne']
  by_cases short : msg.length ≤ firstCap
  · rw [if_pos short, frag_short short]
    exact .inl ⟨short, rfl⟩
  · rw [if_neg short]
    refine .inr ⟨not_le.mp short, (bind_ok (require_ok fits)).trans ?_⟩
    exact edhocSendFragment_eq ⟨take_memcpyAt_zero s.out msg, rfl, rfl⟩ some_left

end Sending

/-! ### One call of the UE -/

section UeCall

variable {P : Primitives UInt8} {files : UeFiles} {coins : UeCoins} {u u' : Ue}
  {data msg wire : List UInt8}

/-- A provisioned UE gives its answer. -/
theorem receiveEdhoc_of_answer (provisioned : ensureEdhocProvisioned files u = (.ok (), u'))
    {u'' : Ue} (answer : answerEdhoc P coins data u' = (.ok wire, u'')) :
    receiveEdhoc P files coins data u = (.ok wire, u'') := by
  rw [receiveEdhoc, provisioned]
  dsimp only
  rw [answer]

theorem ensureEdhocProvisioned_again (provisioned : u.provisioned = true) :
    ensureEdhocProvisioned files u = (.ok (), u) := congrFun (if_pos provisioned) u

/-- What provisioning does: nothing a second time, else it reads the files, the credentials
first. -/
theorem ensureEdhocProvisioned_cases (files : UeFiles) (u : Ue) :
    (u.provisioned = true ∧ ensureEdhocProvisioned files u = (.ok (), u)) ∨
    (u.provisioned ≠ true ∧ (∃ e, Edhoc4.credsLoad files.creds = .error e) ∧
      ensureEdhocProvisioned files u = (.error (), u)) ∨
    (u.provisioned ≠ true ∧ ∃ c, Edhoc4.credsLoad files.creds = .ok c ∧
      (∃ e, Edhoc4.pubLoad files.pub = .error e) ∧
      ensureEdhocProvisioned files u = (.error (), { u with creds := c })) ∨
    (u.provisioned ≠ true ∧ ∃ c p, Edhoc4.credsLoad files.creds = .ok c ∧
      Edhoc4.pubLoad files.pub = .ok p ∧
      ensureEdhocProvisioned files u =
        (.ok (), { u with creds := c, peerPub := p, provisioned := true })) := by
  by_cases provisioned : u.provisioned = true
  · exact .inl ⟨provisioned, ensureEdhocProvisioned_again provisioned⟩
  · have load : ensureEdhocProvisioned files u = (do
        let creds ← demand (Edhoc4.credsLoad files.creds).toOption ()
        store fun u => { u with creds := creds }
        let pub ← demand (Edhoc4.pubLoad files.pub).toOption ()
        store fun u => { u with peerPub := pub, provisioned := true } : Proc Ue Unit Unit) u :=
      congrFun (if_neg provisioned) u
    rw [load]
    refine .inr ?_
    cases creds : Edhoc4.credsLoad files.creds with
    | error e => exact .inl ⟨provisioned, ⟨e, rfl⟩, rfl⟩
    | ok c =>
      cases pub : Edhoc4.pubLoad files.pub with
      | error e => exact .inr (.inl ⟨provisioned, c, rfl, ⟨e, rfl⟩, rfl⟩)
      | ok p => exact .inr (.inr ⟨provisioned, c, p, rfl, rfl, rfl⟩)

/-- While a message is going out, any request gets its next wire. -/
theorem receiveEdhoc_sends {p : Nat} (provisioned : u.provisioned = true)
    (sends : Sends msg p u.out u.outLen u.outPos) (left : p < msg.length) :
    receiveEdhoc P files coins data u =
      (.ok (frag msg p), { u with outPos := p + pieceLen msg p }) := by
  have more : u.outPos < u.outLen := by
    rw [sends.outLen, sends.outPos]
    exact left
  refine receiveEdhoc_of_answer (ensureEdhocProvisioned_again provisioned) ?_
  exact (congrFun (if_pos more) u).trans (nextFragment_eq _ sends left.le)

/-- A UE that is in a later round and has nothing to send parses the request. -/
structure Ue.Listens (u : Ue) : Prop where
  provisioned : u.provisioned = true
  silent : ¬ u.outPos < u.outLen
  round : u.round ≠ .idle

/-- A UE that has nothing to send treats a wire as its round asks for. -/
theorem Ue.Listens.answerEdhoc_eq (listens : u.Listens) {got : Option (List UInt8)}
    (parsed : parseEdhocWire data u = (.ok got, u')) :
    answerEdhoc P coins data u =
      (match got with
        | none => (pure [0x00] : Proc Ue UeError (List UInt8))
        | some msg => answerMessage P coins msg) u' := by
  have reported : parseOrReport data u = (.ok got, u') := by rw [parseOrReport, parsed]
  refine (congrFun (if_neg listens.silent) u).trans ?_
  exact (congrFun (if_neg listens.round) u).trans (bind_ok reported)

/-- A wire with more to come is acknowledged. -/
theorem Ue.Listens.receive_part (listens : u.Listens)
    (parsed : parseEdhocWire data u = (.ok none, u')) :
    receiveEdhoc P files coins data u = (.ok [0x00], u') :=
  receiveEdhoc_of_answer (ensureEdhocProvisioned_again listens.provisioned)
    (listens.answerEdhoc_eq parsed)

/-- A whole message is answered. -/
theorem Ue.Listens.receive_whole (listens : u.Listens) {u'' : Ue}
    (parsed : parseEdhocWire data u = (.ok (some msg), u'))
    (answer : answerMessage P coins msg u' = (.ok wire, u'')) :
    receiveEdhoc P files coins data u = (.ok wire, u'') :=
  receiveEdhoc_of_answer (ensureEdhocProvisioned_again listens.provisioned)
    ((listens.answerEdhoc_eq parsed).trans answer)

theorem onCtx_ok {α : Type} {x : Proc (Edhoc4.Ctx UInt8) Edhoc4.Err α} {a : α}
    {c : Edhoc4.Ctx UInt8} (ok : x u.ctx = (.ok a, c)) :
    onCtx x u = (.ok a, { u with ctx := c }) := by
  rw [onCtx, ok]

end UeCall

/-! ### One call of the server -/

section ServerCall

variable {P : Primitives UInt8} {inst : Instance} {r : Response} {s s' : Session}
  {msg : List UInt8}

/-- While a message is going out, any response gets its next wire. -/
theorem modProcess_sends {p : Nat} (sends : Sends msg p s.out s.outLen s.outPos)
    (left : p < msg.length) :
    modProcess P inst r s = (s.afterFragment msg p, [.reply (.request (frag msg p))]) := by
  have more : s.outPos < s.outLen := by
    rw [sends.outLen, sends.outPos]
    exact left
  rw [modProcess, if_pos more, edhocSendFragment_eq sends left]

theorem modProcess_part (silent : ¬ s.outPos < s.outLen)
    (consumed : edhocConsumeIncoming r.data s = (.ok none, s')) :
    modProcess P inst r s = (s', [.reply (.request [0])]) := by
  rw [modProcess, if_neg silent, consumed]

/-- A whole message is processed. -/
theorem modProcess_whole (silent : ¬ s.outPos < s.outLen)
    (consumed : edhocConsumeIncoming r.data s = (.ok (some msg), s')) :
    modProcess P inst r s = ((processMessage P inst r.coins msg s').1,
      .received msg :: (processMessage P inst r.coins msg s').2) := by
  rw [modProcess, if_neg silent, consumed]

end ServerCall

/-! ### The link -/

/-- What a run is observed to do. -/
inductive Note where
  /-- The UE made message_1 and entered its first round with this context. -/
  | started (m1 : List UInt8) (ctx : Edhoc4.Ctx UInt8)
  /-- The UE accepted message_4 with this context. -/
  | completed (ctx : Edhoc4.Ctx UInt8)
  /-- An event of a call of the server that left this session. -/
  | served (e : Event) (s : Session)

def ueNotes (before after : Ue) : List Note :=
  if before.round = .idle ∧ after.round = .msg1Sent then
    [.started (after.out.take after.outLen) after.ctx]
  else if before.round = .msg3Sent ∧ after.round = .complete then [.completed after.ctx]
  else []

def serverNotes (after : Session) (events : List Event) : List Note :=
  events.map fun e => .served e after

/-- What is in flight, or how the exchange ended. -/
inductive Flight where
  | request (wire : List UInt8)
  | response (wire : List UInt8)
  | success (recvKey sendKey : List UInt8)
  | failed

/-- Both programs and what is in flight between them. -/
structure Link where
  ue : Ue
  session : Session
  notes : List Note
  flight : Flight

/-- What follows from the last event of a call of the server. -/
def Flight.after : Option Event → Flight
  | some (.reply (.request wire)) => .request wire
  | some (.reply (.success recvKey sendKey)) => .success recvKey sendKey
  | _ => .failed

structure LinkCoins where
  ue : UeCoins
  server : Coins

section Link

variable (P : Primitives UInt8) (files : UeFiles) (inst : Instance)

/-- Deliver what is in flight. -/
def Link.step (coins : LinkCoins) (l : Link) : Link :=
  match l.flight with
  | .request wire =>
    match receiveEdhoc P files coins.ue wire l.ue with
    | (.ok answer, u) =>
      { l with ue := u, notes := l.notes ++ ueNotes l.ue u, flight := .response answer }
    | (.error _, u) => { l with ue := u, notes := l.notes ++ ueNotes l.ue u, flight := .failed }
  | .response wire =>
    match modProcess P inst ⟨wire, coins.server⟩ l.session with
    | (s, events) =>
      { l with session := s, notes := l.notes ++ serverNotes s events,
               flight := .after events.getLast? }
  | .success _ _ | .failed => l

def Link.run (coins : Nat → LinkCoins) (l : Link) : Nat → Link
  | 0 => l
  | k + 1 => (Link.run coins l k).step P files inst (coins k)

/-- A UE that has just been started, and a new session with its start request. -/
def Link.start : Link := ⟨nasSmInit, modSessionInit, [], .request [0x01]⟩

end Link

section Transfer

variable {P : Primitives UInt8} {files : UeFiles} {inst : Instance}
variable {coins : Nat → LinkCoins} {l₀ l : Link} {k : Nat}

/-- A request that is delivered is answered. -/
theorem Link.run_request {wire answer : List UInt8} {u : Ue}
    (here : Link.run P files inst coins l₀ k = l) (flight : l.flight = .request wire)
    (answered : receiveEdhoc P files (coins k).ue wire l.ue = (.ok answer, u)) :
    Link.run P files inst coins l₀ (k + 1) =
      { l with ue := u, notes := l.notes ++ ueNotes l.ue u, flight := .response answer } := by
  rw [Link.run, here, Link.step, flight]
  dsimp only
  rw [answered]

/-- A response that is delivered is processed. -/
theorem Link.run_response {wire : List UInt8} {s : Session} {events : List Event}
    (here : Link.run P files inst coins l₀ k = l) (flight : l.flight = .response wire)
    (processed : modProcess P inst ⟨wire, (coins k).server⟩ l.session = (s, events)) :
    Link.run P files inst coins l₀ (k + 1) =
      { l with session := s, notes := l.notes ++ serverNotes s events,
               flight := .after events.getLast? } := by
  rw [Link.run, here, Link.step, flight]
  dsimp only
  rw [processed]

/-- A step forgets no note. -/
theorem Link.notes_step (c : LinkCoins) (l : Link) :
    l.notes <+: (l.step P files inst c).notes := by
  unfold Link.step
  split
  · split <;> exact List.prefix_append _ _
  · exact List.prefix_append _ _
  · exact List.prefix_refl _
  · exact List.prefix_refl _

/-- Notes are never taken back. -/
theorem Link.notes_run {j : Nat} (later : j ≤ k) :
    (Link.run P files inst coins l₀ j).notes <+: (Link.run P files inst coins l₀ k).notes := by
  induction later with
  | refl => exact List.prefix_refl _
  | step _ ih => exact ih.trans (Link.notes_step _ _)

/-! ### A message from the UE to the server -/

/-- The wire of `msg` that starts at `p` is on its way to the server. -/
structure Link.Uplink (msg : List UInt8) (p : Nat) (l : Link) : Prop where
  flight : l.flight = .response (frag msg p)
  provisioned : l.ue.provisioned = true
  sends : Sends msg (p + pieceLen msg p) l.ue.out l.ue.outLen l.ue.outPos
  receives : Rx.Receiving msg p (Session.rxPart.get l.session)
  silent : ¬ l.session.outPos < l.session.outLen
  left : p < msg.length
  fits : msg.length ≤ Edhoc4.maxMsg

/-- The wire in flight completes `msg` for the server, which is else as in `s`; the UE
has sent everything. -/
structure Link.Arrives (msg : List UInt8) (u : Ue) (s : Session) (l : Link) : Prop where
  ue : l.ue = { u with outPos := msg.length }
  silent : ¬ l.session.outPos < l.session.outLen
  wire : ∃ wire r, l.flight = .response wire ∧
    edhocConsumeIncoming wire l.session = (.ok (some msg), Session.rxPart.set r s) ∧ r.Idle

/-- A piece that is not the last fills its wire. -/
theorem le_pieceLen {msg : List UInt8} {p : Nat} (more : p + pieceLen msg p < msg.length) :
    997 ≤ pieceLen msg p := by
  have cap : 997 ≤ if p = 0 then firstCap else nextCap := by split <;> decide
  unfold pieceLen fragLen at more ⊢
  dsimp only at more ⊢
  generalize (if p = 0 then firstCap else nextCap) = cap at *
  split at more
  · omega
  · next full =>
    rw [if_neg full]
    exact cap

/-- Every message the UE starts to send arrives, after two deliveries for each piece that is not
the last. -/
theorem Link.Uplink.arrives {msg : List UInt8} {p : Nat}
    (here : Link.run P files inst coins l₀ k = l) (uplink : l.Uplink msg p) :
    ∃ k', k ≤ k' ∧ 997 * k' ≤ 997 * k + 2 * (msg.length - p) ∧
      (Link.run P files inst coins l₀ k').Arrives msg l.ue l.session := by
  induction left : msg.length - p using Nat.strong_induction_on generalizing k l p with
  | _ n ih =>
    have progress := pieceLen_pos uplink.left
    rcases uplink.receives.accept uplink.left uplink.fits with
      ⟨more, r, accepted, next⟩ | ⟨last, r, accepted, idle⟩
    · -- acknowledged by the server, and then the UE sends the next wire
      have consumed := (edhocConsumeIncoming_acts (frag msg p)).ok accepted
      have first := Link.run_response here uplink.flight
        (modProcess_part (r := ⟨frag msg p, (coins k).server⟩) uplink.silent consumed)
      have second := Link.run_request first rfl
        (receiveEdhoc_sends uplink.provisioned uplink.sends more)
      have full := le_pieceLen more
      obtain ⟨k', later, soon, arrives⟩ := ih _ (by omega) second
        ⟨rfl, uplink.provisioned, ⟨uplink.sends.out, uplink.sends.outLen, rfl⟩, next,
          uplink.silent, more, uplink.fits⟩ rfl
      exact ⟨k', by omega, by omega, arrives.ue, arrives.silent, arrives.wire⟩
    · have consumed := (edhocConsumeIncoming_acts (frag msg p)).ok accepted
      have sent : l.ue.outPos = msg.length := uplink.sends.outPos.trans last
      refine ⟨k, le_refl k, Nat.le_add_right _ _, ?_⟩
      rw [here]
      exact ⟨by rw [← sent], uplink.silent, frag msg p, r, uplink.flight, consumed, idle⟩

/-! ### A message from the server to the UE -/

/-- What the server still has to send of `msg` from `p` on. -/
def Session.Sending (msg : List UInt8) (p : Nat) (s : Session) : Prop :=
  if p < msg.length then Sends msg p s.out s.outLen s.outPos else ¬ s.outPos < s.outLen

/-- The wire of `msg` that starts at `p` is on its way to the UE. -/
structure Link.Downlink (msg : List UInt8) (p : Nat) (l : Link) : Prop where
  flight : l.flight = .request (frag msg p)
  listens : l.ue.Listens
  receives : Rx.Receiving msg p (Ue.rxPart.get l.ue)
  sends : l.session.Sending msg (p + pieceLen msg p)
  left : p < msg.length
  fits : msg.length ≤ Edhoc4.maxMsg

/-- The wire in flight completes `msg` for the UE, which is else as in `u`; the server
has sent everything and is else as in `s`. -/
structure Link.Arrived (msg : List UInt8) (u : Ue) (s : Session) (l : Link) : Prop where
  listens : l.ue.Listens
  silent : ¬ l.session.outPos < l.session.outLen
  core : l.session.core = s.core
  receiver : Session.rxPart.get l.session = Session.rxPart.get s
  wire : ∃ wire r, l.flight = .request wire ∧
    parseEdhocWire wire l.ue = (.ok (some msg), Ue.rxPart.set r u) ∧ r.Idle

/-- Sending a wire leaves the rest of the session alone. -/
theorem Session.afterFragment_core (msg : List UInt8) (p : Nat) (s : Session) :
    (s.afterFragment msg p).core = s.core ∧
      Session.rxPart.get (s.afterFragment msg p) = Session.rxPart.get s := by
  unfold Session.afterFragment
  split <;> exact ⟨rfl, rfl⟩

theorem Session.afterFragment_sending {msg : List UInt8} {p : Nat} {s : Session}
    (sends : Sends msg p s.out s.outLen s.outPos) :
    (s.afterFragment msg p).Sending msg (p + pieceLen msg p) := by
  unfold Session.afterFragment Session.Sending
  by_cases last : msg.length ≤ p + pieceLen msg p
  · rw [if_pos last, if_neg (not_lt.mpr last)]
    exact lt_irrefl 0
  · rw [if_neg last, if_pos (not_le.mp last)]
    exact ⟨sends.out, sends.outLen, rfl⟩

/-- Every message the server starts to send arrives, as soon as one of the UE does. -/
theorem Link.Downlink.arrives {msg : List UInt8} {p : Nat}
    (here : Link.run P files inst coins l₀ k = l) (downlink : l.Downlink msg p) :
    ∃ k', k ≤ k' ∧ 997 * k' ≤ 997 * k + 2 * (msg.length - p) ∧
      (Link.run P files inst coins l₀ k').Arrived msg l.ue l.session := by
  induction left : msg.length - p using Nat.strong_induction_on generalizing k l p with
  | _ n ih =>
    have progress := pieceLen_pos downlink.left
    have listens := downlink.listens
    have sending := downlink.sends
    rcases downlink.receives.accept downlink.left downlink.fits with
      ⟨more, r, accepted, next⟩ | ⟨last, r, accepted, idle⟩
    · -- acknowledged by the UE, and then the server sends the next wire
      rw [Session.Sending, if_pos more] at sending
      have parsed := (parseEdhocWire_acts (frag msg p)).ok accepted
      have first := Link.run_request here downlink.flight (listens.receive_part parsed)
      have second := Link.run_response first rfl (modProcess_sends sending more)
      obtain ⟨core, receiver⟩ := Session.afterFragment_core msg (p + pieceLen msg p) l.session
      have full := le_pieceLen more
      obtain ⟨k', later, soon, arrived⟩ := ih _ (by omega) second
        ⟨rfl, ⟨listens.provisioned, listens.silent, listens.round⟩, next,
          Session.afterFragment_sending sending, more, downlink.fits⟩ rfl
      exact ⟨k', by omega, by omega, arrived.listens, arrived.silent, arrived.core.trans core,
        arrived.receiver.trans receiver, arrived.wire⟩
    · rw [Session.Sending, if_neg (by omega)] at sending
      have parsed := (parseEdhocWire_acts (frag msg p)).ok accepted
      refine ⟨k, le_refl k, Nat.le_add_right _ _, ?_⟩
      rw [here]
      exact ⟨listens, sending, rfl, rfl, frag msg p, r, downlink.flight, parsed, idle⟩

/-! ### Answering a message that has arrived -/

/-- A queued message is sent from its start. -/
theorem edhocQueueOutgoing_sending {s : Session} {msg : List UInt8} (some_left : 0 < msg.length)
    (fits : msg.length ≤ Edhoc4.maxMsg) (silent : ¬ s.outPos < s.outLen) :
    ∃ s', edhocQueueOutgoing msg s = (.ok (frag msg 0), s') ∧ s'.Sending msg (0 + pieceLen msg 0) ∧
      s'.core = s.core ∧ Session.rxPart.get s' = Session.rxPart.get s := by
  rcases edhocQueueOutgoing_eq (s := s) some_left fits with ⟨short, queued⟩ | ⟨-, queued⟩
  · refine ⟨s, queued, ?_, rfl, rfl⟩
    have all : ¬ 0 + pieceLen msg 0 < msg.length := by
      unfold pieceLen fragLen
      dsimp only
      rw [if_pos rfl]
      split <;> omega
    rw [Session.Sending, if_neg all]
    exact silent
  · obtain ⟨core, receiver⟩ := Session.afterFragment_core msg 0
      { s with out := memcpyAt s.out 0 msg, outLen := msg.length, outPos := 0 }
    exact ⟨_, queued,
      Session.afterFragment_sending ⟨take_memcpyAt_zero s.out msg, rfl, rfl⟩, core, receiver⟩

/-- A message of the UE for which the server has an answer starts that answer on its way. -/
theorem Link.Arrives.answered {msg out : List UInt8} {u : Ue} {s t : Session} {round : Round}
    {e : Event} (here : Link.run P files inst coins l₀ k = l) (arrives : l.Arrives msg u s)
    (process : ∀ r, processMessage P inst (coins k).server msg (Session.rxPart.set r s) =
      ((sendAndAdvance round out (Session.rxPart.set r t)).1,
        e :: (sendAndAdvance round out (Session.rxPart.set r t)).2))
    (some_left : 0 < out.length) (fits : out.length ≤ Edhoc4.maxMsg)
    (silent : ¬ t.outPos < t.outLen)
    (listens : ({ u with outPos := msg.length } : Ue).Listens) (idle : (Ue.rxPart.get u).Idle) :
    ∃ l', Link.run P files inst coins l₀ (k + 1) = l' ∧ l'.Downlink out 0 ∧
      l'.ue = { u with outPos := msg.length } ∧
      l'.session.core = (t.ctx, t.ctx03, t.mode, round) ∧ (Session.rxPart.get l'.session).Idle ∧
      .served e l'.session ∈ l'.notes := by
  obtain ⟨wire, r, flight, consumed, drained⟩ := arrives.wire
  obtain ⟨t', queued, sending, core, receiver⟩ :=
    edhocQueueOutgoing_sending (s := Session.rxPart.set r t) some_left fits silent
  have advanced : sendAndAdvance round out (Session.rxPart.set r t) =
      ({ t' with round := round }, [.reply (.request (frag out 0))]) := by
    rw [sendAndAdvance, queued]
  have processed : modProcess P inst ⟨wire, (coins k).server⟩ l.session =
      ({ t' with round := round }, [.received msg, e, .reply (.request (frag out 0))]) := by
    rw [modProcess_whole arrives.silent consumed, process r, advanced]
  refine ⟨_, Link.run_response here flight processed, ⟨rfl, ?_, ?_, sending, some_left, fits⟩,
    arrives.ue, ?_, ?_, ?_⟩
  · show l.ue.Listens
    rw [arrives.ue]
    exact listens
  · show Rx.Receiving out 0 (Ue.rxPart.get l.ue)
    rw [arrives.ue]
    exact .inl ⟨rfl, idle⟩
  · obtain ⟨ctx, ctx03, mode, -⟩ := Session.core_eq.mp (core : t'.core = t.core)
    show (t'.ctx, t'.ctx03, t'.mode, round) = _
    rw [ctx, ctx03, mode]
    rfl
  · show (Session.rxPart.get t').Idle
    rw [receiver]
    exact drained
  · exact List.mem_append_right _ (.tail _ (.head _))

/-- A message of the server for which the UE has an answer starts that answer on its way. -/
theorem Link.Arrived.answered {msg out : List UInt8} {u v : Ue} {s : Session} {round : UeRound}
    (here : Link.run P files inst coins l₀ k = l) (arrived : l.Arrived msg u s)
    (answer : ∀ r, answerMessage P (coins k).ue msg (Ue.rxPart.set r u) =
      queueMessage round out (Ue.rxPart.set r v))
    (some_left : 0 < out.length) (fits : out.length ≤ Edhoc4.maxMsg)
    (provisioned : v.provisioned = true) (idle : (Session.rxPart.get s).Idle) :
    ∃ l', Link.run P files inst coins l₀ (k + 1) = l' ∧ l'.Uplink out 0 ∧
      (∃ r, r.Idle ∧ l'.ue = (Ue.rxPart.set r v).queued round out) ∧
      l'.session.core = s.core := by
  obtain ⟨wire, r, flight, parsed, drained⟩ := arrived.wire
  have sent := (answer r).trans (queueMessage_eq round out _)
  refine ⟨_, Link.run_request here flight (arrived.listens.receive_whole parsed sent),
    ⟨rfl, provisioned, ?_, ?_, arrived.silent, some_left, fits⟩, ⟨r, drained, rfl⟩, arrived.core⟩
  · exact ⟨take_memcpyAt_zero _ _, rfl, rfl⟩
  · refine .inl ⟨rfl, ?_⟩
    show (Session.rxPart.get l.session).Idle
    rw [arrived.receiver]
    exact idle

end Transfer

/-! ### The handshake -/

/-- Valid credentials on both sides, each side provisioned with the other's static key. -/
structure Deployed (P : Primitives UInt8) (files : UeFiles) (inst : Instance)
    (I R : Edhoc4.Creds UInt8) : Prop where
  ueCreds : Edhoc4.credsLoad files.creds = .ok I
  serverPub : Edhoc4.pubLoad files.pub = .ok R.kemPk
  server : inst.server = R
  uePub : inst.uePub = I.kemPk
  ueValid : I.Valid P
  serverValid : R.Valid P

section Handshake

variable {P : Primitives UInt8} {files : UeFiles} {inst : Instance} {I R : Edhoc4.Creds UInt8}

/-- The UE after its first EAP-EDHOC request has loaded the files. -/
def loadedUe (I : Edhoc4.Creds UInt8) (pub : Block UInt8 Edhoc4.xwingPk) : Ue :=
  { nasSmInit with creds := I, peerPub := pub, provisioned := true }

/-- A new UE loads the credentials of its files. -/
theorem Deployed.provision (deployed : Deployed P files inst I R) :
    ensureEdhocProvisioned files nasSmInit = (.ok (), loadedUe I R.kemPk) := by
  rcases ensureEdhocProvisioned_cases files nasSmInit with ⟨loaded, -⟩ | ⟨-, ⟨e, failed⟩, -⟩ |
    ⟨-, c, -, ⟨e, failed⟩, -⟩ | ⟨-, c, p, creds, pub, provisioned⟩
  · cases loaded
  · cases failed.symm.trans deployed.ueCreds
  · cases failed.symm.trans deployed.serverPub
  · rw [provisioned, Except.ok.inj (creds.symm.trans deployed.ueCreds),
      Except.ok.inj (pub.symm.trans deployed.serverPub)]
    rfl

/-- A UE in round -1 with nothing to send or to reassemble; provisioning makes it `v`,
which holds the credentials `I` and the key `pub`. -/
structure Ue.Ready (files : UeFiles) (I : Edhoc4.Creds UInt8) (pub : Block UInt8 Edhoc4.xwingPk)
    (u v : Ue) : Prop where
  provision : ensureEdhocProvisioned files u = (.ok (), v)
  provisioned : v.provisioned = true
  creds : v.creds = I
  peerPub : v.peerPub = pub
  before : u.round = .idle
  round : v.round = .idle
  silent : ¬ v.outPos < v.outLen
  idle : (Ue.rxPart.get v).Idle

/-- A UE that has just been started is ready. -/
theorem Deployed.ready (deployed : Deployed P files inst I R) :
    nasSmInit.Ready files I R.kemPk (loadedUe I R.kemPk) :=
  ⟨deployed.provision, rfl, rfl, rfl, rfl, rfl, lt_irrefl 0, rfl, rfl⟩

/-- The UE answers the start request with message_1. -/
theorem Ue.Ready.receive_start {pub : Block UInt8 Edhoc4.xwingPk} {u v : Ue}
    (ready : u.Ready files I pub v) {coins : UeCoins} {m1 : List UInt8} {i₁ : Edhoc4.Ctx UInt8}
    (made : Edhoc4.iMakeMsg1 P coins.msg1 Edhoc4.maxMsg (Edhoc4.initInitiator I pub) =
      (.ok m1, i₁)) :
    receiveEdhoc P files coins [0x01] u =
      (.ok (frag m1 0), { v with ctx := i₁ }.queued .msg1Sent m1) := by
  refine receiveEdhoc_of_answer ready.provision ?_
  refine (congrFun (if_neg ready.silent) v).trans ((congrFun (if_pos ready.round) v).trans ?_)
  rw [← ready.creds, ← ready.peerPub] at made
  show (onCtx (Edhoc4.iMakeMsg1 P coins.msg1 Edhoc4.maxMsg) >>= queueMessage .msg1Sent)
    { v with ctx := Edhoc4.initInitiator v.creds v.peerPub } = _
  exact (bind_ok (onCtx_ok made)).trans (queueMessage_eq _ _ _)

/-- The server answers message_1 of method 4. -/
theorem processMessage_msg1 {coins : Coins} {m1 m2 : List UInt8} {r₁ : Edhoc4.Ctx UInt8}
    {s : Session} (round : s.round = .startSent) (mode : s.mode = .undetermined)
    (long : m1.length ≠ 1 + Edhoc03.xPk + Edhoc03.connId)
    (handled : Edhoc4.rHandleMsg1 P m1 coins.msg2 Edhoc4.maxMsg
      (Edhoc4.initResponder inst.server inst.uePub) = (.ok m2, r₁)) :
    processMessage P inst coins m1 s =
      ((sendAndAdvance .msg2Sent m2 { s with mode := .pqc, ctx := r₁ }).1,
        .msg1 .pqc m1 m2 :: (sendAndAdvance .msg2Sent m2
          { s with mode := .pqc, ctx := r₁ }).2) := by
  have pqc : decideMode s.mode m1 = .pqc := by
    rw [decideMode, if_pos mode, if_neg fun h => long h.1]
  have first : processMessage P inst coins m1 s = processMsg1 P inst coins m1 s := by
    rw [processMessage, round]
  rw [first, processMsg1, pqc]
  dsimp only
  rw [if_neg (by decide), handled]

/-- The server answers message_3 of method 4. -/
theorem processMessage_msg3 {coins : Coins} {m3 m4 : List UInt8} {r₂ : Edhoc4.Ctx UInt8}
    {s : Session} (round : s.round = .msg2Sent) (mode : s.mode = .pqc)
    (handled : Edhoc4.rHandleMsg3 P m3 coins.msg4 Edhoc4.maxMsg s.ctx = (.ok m4, r₂)) :
    processMessage P inst coins m3 s =
      ((sendAndAdvance .msg4Sent m4 { s with ctx := r₂ }).1,
        .msg3 .pqc m3 m4 r₂.msk :: (sendAndAdvance .msg4Sent m4 { s with ctx := r₂ }).2) := by
  have second : processMessage P inst coins m3 s = processMsg3 P coins m3 s := by
    rw [processMessage, round]
  have pqc : ¬ s.mode = .classical := by
    rw [mode]
    decide
  rw [second, processMsg3, if_neg pqc, handled]

/-- The UE answers message_2. -/
theorem answerMessage_msg2 {coins : UeCoins} {m2 m3 : List UInt8} {i₂ : Edhoc4.Ctx UInt8} {u : Ue}
    (round : u.round = .msg1Sent)
    (handled : Edhoc4.iHandleMsg2 P m2 coins.msg3 Edhoc4.maxMsg u.ctx = (.ok m3, i₂)) :
    answerMessage P coins m2 u = queueMessage .msg3Sent m3 { u with ctx := i₂ } :=
  (congrFun (if_pos round) u).trans (bind_ok (onCtx_ok handled))

/-- The UE acknowledges message_4. -/
theorem answerMessage_msg4 {coins : UeCoins} {m4 : List UInt8} {i₃ : Edhoc4.Ctx UInt8} {u : Ue}
    (round : u.round = .msg3Sent) (handled : Edhoc4.iHandleMsg4 P m4 u.ctx = (.ok (), i₃)) :
    answerMessage P coins m4 u = (.ok [0x00], { u with ctx := i₃, round := .complete }) := by
  have later : u.round ≠ .msg1Sent := by
    rw [round]
    decide
  refine (congrFun (if_neg later) u).trans ?_
  exact (congrFun (if_pos round) u).trans (bind_ok (onCtx_ok handled))

/-- The server answers the empty message after message_4 with EAP-Success. -/
theorem modProcess_ack {coins : Coins} {s : Session} (silent : ¬ s.outPos < s.outLen)
    (idle : (Session.rxPart.get s).Idle) (round : s.round = .msg4Sent) (done : s.ctx.done = true) :
    modProcess P inst ⟨[0x00], coins⟩ s =
      (s, [.received [], .reply (successReply s.ctx.msk)]) := by
  have empty : pieceLen [] 0 = ([] : List UInt8).length := rfl
  have consumed : edhocConsumeIncoming [0x00] s = (.ok (some []), s) :=
    (edhocConsumeIncoming_acts _).ok (idle.accept_whole empty)
  have acknowledged :
      processMessage P inst coins [] s = (s, [.reply (successReply s.ctx.msk)]) := by
    rw [processMessage, round]
    dsimp only
    rw [processAck, if_neg (by decide), if_pos done]
  rw [modProcess_whole silent consumed, acknowledged]

/-- The state a handshake ends in: EAP-Success with the keys of the common MSK, nothing
left to send or to reassemble, next static keys from the randomness of the run, and
everything that happened on the way noted. -/
structure Link.Succeeds (P : Primitives UInt8) (coins : Nat → LinkCoins) (l : Link) : Prop where
  flight : l.flight = .success (l.ue.ctx.msk.toList.take 32) ((l.ue.ctx.msk.toList.drop 32).take 32)
  round : l.ue.round = .complete
  agrees : Edhoc4.Agrees l.ue.ctx l.session.ctx
  ueSilent : l.ue.outPos = l.ue.outLen
  serverSilent : ¬ l.session.outPos < l.session.outLen
  ueIdle : (Ue.rxPart.get l.ue).Idle
  serverIdle : (Session.rxPart.get l.session).Idle
  mode : l.session.mode = .pqc
  ueNew : ∃ j, Edhoc4.xwingKeypair P (coins j).ue.msg3.new = some (l.ue.ctx.newPk, l.ue.ctx.newSk)
  serverNew : ∃ j, Edhoc4.xwingKeypair P (coins j).server.msg4 =
    some (l.session.ctx.newPk, l.session.ctx.newSk)
  started : ∃ m1 i m2 s, .started m1 i ∈ l.notes ∧ .served (.msg1 .pqc m1 m2) s ∈ l.notes
  completed : .completed l.ue.ctx ∈ l.notes
  success : ∃ recvKey sendKey, .served (.reply (.success recvKey sendKey)) l.session ∈ l.notes

def Link.startFrom (u : Ue) : Link := ⟨u, modSessionInit, [], .request [0x01]⟩

/-- The first delivery puts message_1 on its way. -/
theorem Ue.Ready.start_uplink (inst : Instance) {pub : Block UInt8 Edhoc4.xwingPk} {u v : Ue}
    (ready : u.Ready files I pub v) {coins : Nat → LinkCoins}
    {m1 : List UInt8} {i₁ : Edhoc4.Ctx UInt8}
    (made : Edhoc4.iMakeMsg1 P (coins 0).ue.msg1 Edhoc4.maxMsg (Edhoc4.initInitiator I pub) =
      (.ok m1, i₁)) :
    ∃ l, Link.run P files inst coins (Link.startFrom u) (0 + 1) = l ∧ l.Uplink m1 0 ∧
      l.ue = { v with ctx := i₁ }.queued .msg1Sent m1 ∧
      l.session = modSessionInit ∧ .started m1 i₁ ∈ l.notes := by
  obtain ⟨long, fits⟩ := Edhoc4.iMakeMsg1_length made
  have some_left : 0 < m1.length := Nat.lt_of_lt_of_le (by decide) long
  refine ⟨_, Link.run_request rfl rfl (ready.receive_start made), ?_, rfl, rfl, ?_⟩
  · exact ⟨rfl, ready.provisioned, ⟨take_memcpyAt_zero _ _, rfl, rfl⟩, .inl ⟨rfl, rfl, rfl⟩,
      lt_irrefl 0, some_left, fits⟩
  · have noted : ueNotes u ({ v with ctx := i₁ }.queued .msg1Sent m1) =
        [.started ((memcpyAt v.out 0 m1).take m1.length) i₁] := if_pos ⟨ready.before, rfl⟩
    show _ ∈ ueNotes u _
    rw [noted, take_memcpyAt_zero]
    exact .head _

/-- The last two deliveries: the UE accepts message_4 and the server its acknowledgement. -/
theorem Link.Arrived.acknowledged {coins : Nat → LinkCoins} {l₀ l : Link} {k : Nat}
    {m4 : List UInt8} {u : Ue} {s : Session} {i₃ : Edhoc4.Ctx UInt8}
    (here : Link.run P files inst coins l₀ k = l) (arrived : l.Arrived m4 u s)
    (ueRound : u.round = .msg3Sent) (handled : Edhoc4.iHandleMsg4 P m4 u.ctx = (.ok (), i₃))
    (sent : u.outPos = u.outLen) (idle : (Session.rxPart.get s).Idle)
    (round : s.round = .msg4Sent) (mode : s.mode = .pqc) (agrees : Edhoc4.Agrees i₃ s.ctx)
    (ueNew : ∃ j, Edhoc4.xwingKeypair P (coins j).ue.msg3.new = some (i₃.newPk, i₃.newSk))
    (serverNew : ∃ j, Edhoc4.xwingKeypair P (coins j).server.msg4 = some (s.ctx.newPk, s.ctx.newSk))
    (started : ∃ m1 i m2 s, .started m1 i ∈ l.notes ∧ .served (.msg1 .pqc m1 m2) s ∈ l.notes) :
    (Link.run P files inst coins l₀ (k + 1 + 1)).Succeeds P coins := by
  obtain ⟨wire, r, flight, parsed, drained⟩ := arrived.wire
  obtain ⟨ctx, -, mode', round'⟩ := Session.core_eq.mp arrived.core
  have accepted := Link.run_request here flight
    (arrived.listens.receive_whole parsed
      (answerMessage_msg4 (u := Ue.rxPart.set r u) ueRound handled))
  have done : l.session.ctx.done = true := by
    rw [ctx]
    exact agrees.rDone
  have ended := Link.run_response accepted rfl (modProcess_ack arrived.silent
    (by rw [arrived.receiver]; exact idle) (round'.trans round) done)
  -- reassembly does not touch the round
  have before : l.ue.round = u.round :=
    congrArg (fun out => out.2.round) ((parseEdhocWire_acts wire l.ue).symm.trans parsed)
  have completed : ueNotes l.ue { Ue.rxPart.set r u with ctx := i₃, round := .complete } =
      [.completed i₃] := by
    rw [ueNotes, before, ueRound]
    rfl
  rw [ended, completed]
  refine ⟨?_, rfl, ?_, sent, arrived.silent, drained, ?_, mode'.trans mode, ueNew, ?_, ?_, ?_, ?_⟩
  · show Flight.success (l.session.ctx.msk.toList.take 32) _ = _
    rw [ctx, ← agrees.msk]
  · show Edhoc4.Agrees i₃ l.session.ctx
    rw [ctx]
    exact agrees
  · show (Session.rxPart.get l.session).Idle
    rw [arrived.receiver]
    exact idle
  · show ∃ j, _ = some (l.session.ctx.newPk, l.session.ctx.newSk)
    rw [ctx]
    exact serverNew
  · obtain ⟨m1, i, m2, s₁, first, second⟩ := started
    exact ⟨m1, i, m2, s₁, by simp [first], by simp [second]⟩
  · exact List.mem_append_left _ (List.mem_append_right _ (.head _))
  · exact ⟨_, _, List.mem_append_right _ (.tail _ (.head _))⟩

/-- In lock-step every handshake between a UE that is ready and a new session succeeds,
whatever the randomness of the calls, after at most 70 deliveries. -/
theorem Ue.Ready.lockstep_soon {u v : Ue} (ready : u.Ready files I R.kemPk v) (correct : P.Correct)
    (deployed : Deployed P files inst I R) (coins : Nat → LinkCoins) :
    ∃ k, k ≤ 70 ∧ (Link.run P files inst coins (Link.startFrom u) k).Succeeds P coins := by
  obtain ⟨m1, i₁, made, stage⟩ := Edhoc4.exchange_staged correct deployed.ueValid
    deployed.serverValid (coins 0).ue.msg1
  obtain ⟨l₁, at1, up1, ue1, session1, note1⟩ := ready.start_uplink inst made
  obtain ⟨k₁, le1, soon1, arrives1⟩ := up1.arrives at1
  -- message_1 has arrived: the server makes message_2
  obtain ⟨m2, r₁, handled1, stage⟩ := stage (coins k₁).server.msg2
  have long1 : 2336 ≤ m1.length := (Edhoc4.iMakeMsg1_length made).1
  have long2 : 1120 ≤ m2.length := (Edhoc4.rHandleMsg1_length handled1).1
  have other : m1.length ≠ 34 := by omega
  have listens1 : ({ l₁.ue with outPos := m1.length } : Ue).Listens := by
    rw [ue1]
    exact ⟨ready.provisioned, lt_irrefl _, UeRound.noConfusion⟩
  have idle1 : (Ue.rxPart.get l₁.ue).Idle := by
    rw [ue1]
    exact ready.idle
  obtain ⟨l₂, at2, down2, ue2, core2, idle2, note2⟩ := arrives1.answered
    (t := { modSessionInit with mode := .pqc, ctx := r₁ }) rfl
    (fun r => by
      rw [session1]
      refine processMessage_msg1 rfl rfl other ?_
      rw [deployed.server, deployed.uePub]
      exact handled1)
    (by omega) (Edhoc4.rHandleMsg1_length handled1).2 (lt_irrefl 0) listens1 idle1
  obtain ⟨ctx2, -, mode2, round2⟩ := Session.core_eq.mp
    (core2 : l₂.session.core =
      { modSessionInit with mode := .pqc, ctx := r₁, round := .msg2Sent }.core)
  obtain ⟨k₂, le2, soon2, arrived2⟩ := down2.arrives at2
  -- message_2 has arrived: the UE makes message_3
  obtain ⟨m3, i₂, handled2, stage⟩ := stage (coins k₂).ue.msg3
  have long3 : 16 ≤ m3.length := (Edhoc4.iHandleMsg2_length correct handled2).1
  rw [ue1] at ue2
  obtain ⟨l₃, at3, up3, ⟨r₃, idle3, ue3⟩, core3⟩ := arrived2.answered
    (v := { l₂.ue with ctx := i₂ }) rfl
    (fun r => by
      rw [ue2]
      exact answerMessage_msg2 rfl handled2)
    (by omega) (Edhoc4.iHandleMsg2_length correct handled2).2 down2.listens.provisioned idle2
  obtain ⟨ctx3, -, mode3, round3⟩ := Session.core_eq.mp core3
  obtain ⟨k₃, le3, soon3, arrives3⟩ := up3.arrives at3
  -- message_3 has arrived: the server makes message_4
  obtain ⟨m4, r₂, i₃, handled3, handled4, agrees⟩ := stage (coins k₃).server.msg4
  have long4 : 16 ≤ m4.length := (Edhoc4.rHandleMsg3_length correct handled3).1
  have listens3 : ({ l₃.ue with outPos := m3.length } : Ue).Listens := by
    rw [ue3]
    exact ⟨down2.listens.provisioned, lt_irrefl _, UeRound.noConfusion⟩
  obtain ⟨l₄, at4, down4, ue4, core4, idle4, -⟩ := arrives3.answered
    (t := { l₃.session with ctx := r₂ }) rfl
    (fun r => by
      refine processMessage_msg3 (round3.trans round2) (mode3.trans mode2) ?_
      rw [show (Session.rxPart.set r l₃.session).ctx = r₁ from ctx3.trans ctx2]
      exact handled3)
    (by omega) (Edhoc4.rHandleMsg3_length correct handled3).2 up3.silent listens3
    (by
      rw [ue3]
      exact idle3)
  obtain ⟨ctx4, -, mode4, round4⟩ := Session.core_eq.mp
    (core4 : l₄.session.core = { l₃.session with ctx := r₂, round := .msg4Sent }.core)
  obtain ⟨k₄, le4, soon4, arrived4⟩ := down4.arrives at4
  -- message_4 has arrived
  rw [ue3] at ue4
  have accepted : Edhoc4.iHandleMsg4 P m4 l₄.ue.ctx = (.ok (), i₃) := by
    rw [ue4]
    exact handled4
  have fits1 : m1.length ≤ 8192 := up1.fits
  have fits2 : m2.length ≤ 8192 := down2.fits
  have fits3 : m3.length ≤ 8192 := up3.fits
  have fits4 : m4.length ≤ 8192 := down4.fits
  have soon : k₄ + 1 + 1 ≤ 70 := by omega
  refine ⟨k₄ + 1 + 1, soon, arrived4.acknowledged rfl ?_ accepted ?_ idle4 round4 ?_ ?_
    ⟨k₂, Edhoc4.initiator_newKey handled2 handled4⟩ ⟨k₃, ?_⟩ ?_⟩
  · rw [ue4]
    rfl
  · rw [ue4]
    rfl
  · exact mode4.trans (mode3.trans mode2)
  · rw [ctx4]
    exact agrees
  · rw [ctx4]
    exact Edhoc4.responder_newKey handled3
  · rw [← at1] at note1
    rw [← at2] at note2
    exact ⟨m1, i₁, m2, _, (Link.notes_run (by omega)).subset note1,
      (Link.notes_run (by omega)).subset note2⟩

/-- From a UE that is ready, every lock-step run succeeds. -/
theorem Ue.Ready.lockstep {u v : Ue} (ready : u.Ready files I R.kemPk v) (correct : P.Correct)
    (deployed : Deployed P files inst I R) (coins : Nat → LinkCoins) :
    ∃ k, (Link.run P files inst coins (Link.startFrom u) k).Succeeds P coins := by
  obtain ⟨k, -, succeeds⟩ := ready.lockstep_soon correct deployed coins
  exact ⟨k, succeeds⟩

/-- From a new UE, every lock-step run succeeds. -/
theorem Deployed.lockstep (correct : P.Correct) (deployed : Deployed P files inst I R)
    (coins : Nat → LinkCoins) : ∃ k, (Link.run P files inst coins Link.start k).Succeeds P coins :=
  deployed.ready.lockstep correct deployed coins

end Handshake

end EdhocAuth.Eap
