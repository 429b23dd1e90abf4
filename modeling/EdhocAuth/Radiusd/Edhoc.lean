/-
The EDHOC method behind the sessions of the server.

`edhocMethod` is `rlm_eap_edhoc` as the EAP module calls it; other methods may be configured beside
it, with what they keep in `τ`. `edhoc_accept_justified`: whatever requests reach the server in
whatever order, the keys of an Access-Accept come from a session of `mod_process` that saw the
responses of one conversation and nothing else, and whose replies were the ones sent in it.
-/

import EdhocAuth.Eap.Gate
import EdhocAuth.Radiusd.Conversations

namespace EdhocAuth.Radiusd

open Octets
open Eap (Session Coins Event modProcess modRun modStep modSessionInit)

variable {τ ρ : Type}

/-! ### The method -/

/-- The replies among the events of a session. -/
def replies : List Event → List Eap.Reply
  | [] => []
  | .reply r :: events => r :: replies events
  | _ :: events => replies events

def replyOf (events : List Event) : Eap.Reply := (replies events).getLastD .dropped

/-- How the EAP module takes a reply; `none` is a return value of 0. -/
def eapReply : Eap.Reply → Option EapReply
  | .request wire => some ⟨.request, typeEdhoc, wire, none⟩
  | .success recvKey sendKey => some ⟨.success, 0, [], some (recvKey, sendKey)⟩
  | .failure => none
  | .dropped => none

def edhocStart : EapReply := ⟨.request, typeEdhoc, [0x01], none⟩

/-- `rlm_eap_edhoc` with its `mod_session_init` and `mod_process`. -/
def edhocMethod (P : Primitives UInt8) (keys : Eap.Instance) :
    Method (Session ⊕ τ) (Coins × ρ) where
  sessionInit := fun _ _ => some ⟨some (.inl modSessionInit), false, .process, edhocStart⟩
  process := fun coins data o =>
    match o with
    | some (.inl sess) =>
      let out := modProcess P keys ⟨data, coins.1⟩ sess
      (eapReply (replyOf out.2)).map fun reply => ⟨some (.inl out.1), false, .process, reply⟩
    -- the missing session state
    | _ => none

/-! ### Conversations of the method -/

def Exchange.packet {ω κ : Type} (x : Exchange ω κ) : List UInt8 :=
  (x.outcome.admitted.map Prod.snd).getD []

/-- What the method sees of an exchange. -/
def edhocResponse (x : Exchange (Session ⊕ τ) (Coins × ρ)) : Eap.Response :=
  ⟨typeData x.packet, x.request.coins.1⟩

/-- The exchange sends this reply of the method. -/
def Sends {ω κ : Type} (reply : EapReply) (x : Exchange ω κ) : Prop :=
  x.outcome.reply.code = some (codesOf reply.code).1 ∧ x.outcome.reply.keys = reply.keys ∧
    x.outcome.reply.eapMessage = some (eapWireformat reply.code (replyId x.packet reply.code)
      reply.type reply.data)

/-- The exchange sends what `mod_process` replied. -/
def Carries (reply : Eap.Reply) (x : Exchange (Session ⊕ τ) (Coins × ρ)) : Prop :=
  ∃ eap, eapReply reply = some eap ∧ Sends eap x

/-- A session has seen the last exchanges of a conversation: one that sent EDHOC-Start, and the
responses after it. -/
structure Runs (P : Primitives UInt8) (keys : Eap.Instance)
    (es : List (Exchange (Session ⊕ τ) (Coins × ρ))) (s : Session) (events : List Event)
    (ps : List (Exchange (Session ⊕ τ) (Coins × ρ))) : Prop where
  begun : ∃ front start, es = front ++ start :: ps ∧ Sends edhocStart start
  run : modRun P keys (ps.map edhocResponse) = (s, events)
  sent : List.Forall₂ Carries (replies events) ps

variable {P : Primitives UInt8} {keys : Eap.Instance} {inst : Rlm (Session ⊕ τ) (Coins × ρ)}
  {es ps : List (Exchange (Session ⊕ τ) (Coins × ρ))} {x : Exchange (Session ⊕ τ) (Coins × ρ)}
  {r : Request (Coins × ρ)} {packet : List UInt8} {h : Handler (Session ⊕ τ)}

theorem replies_append (events later : List Event) :
    replies (events ++ later) = replies events ++ replies later := by
  induction events with
  | nil => rfl
  | cons e events ih =>
    cases e <;> simp [replies, ih]

/-- The last event is a reply, and the only one. -/
structure Replies (events : List Event) (reply : Eap.Reply) : Prop where
  last : ∃ before, events = before ++ [.reply reply] ∧ replies before = []

theorem Replies.single (reply : Eap.Reply) : Replies [.reply reply] reply := ⟨[], rfl, rfl⟩

theorem Replies.after {events : List Event} {reply : Eap.Reply} {e : Event}
    (later : Replies events reply) (silent : replies [e] = []) : Replies (e :: events) reply := by
  obtain ⟨before, rfl, none⟩ := later.last
  refine ⟨e :: before, rfl, ?_⟩
  rw [← List.singleton_append, replies_append, silent, none]
  rfl

/-- The reply that is sent is the only one. -/
theorem Replies.replyOf_eq {events : List Event} {reply : Eap.Reply}
    (here : Replies events reply) : replies events = [reply] ∧ replyOf events = reply := by
  obtain ⟨before, rfl, none⟩ := here.last
  have one : replies (before ++ [.reply reply]) = [reply] := by
    rw [replies_append, none]
    rfl
  rw [replyOf, one]
  exact ⟨rfl, rfl⟩

/-- Sending a message is one reply. -/
theorem sendAndAdvance_replies (round : Eap.Round) (out : List UInt8) (s : Session) :
    ∃ reply, Replies (Eap.sendAndAdvance round out s).2 reply := by
  rw [Eap.sendAndAdvance]
  split
  · exact ⟨_, .single _⟩
  · exact ⟨_, .single _⟩

theorem processMsg1_replies (coins : Coins) (msg : List UInt8) (s : Session) :
    ∃ reply, Replies (Eap.processMsg1 P keys coins msg s).2 reply := by
  rw [Eap.processMsg1]
  dsimp only
  split
  · split
    · split
      · obtain ⟨reply, sent⟩ := sendAndAdvance_replies _ _ _
        exact ⟨reply, sent.after rfl⟩
      · exact ⟨_, .single _⟩
    · exact ⟨_, .single _⟩
  · split
    · obtain ⟨reply, sent⟩ := sendAndAdvance_replies _ _ _
      exact ⟨reply, sent.after rfl⟩
    · exact ⟨_, .single _⟩

theorem processMsg3_replies (coins : Coins) (msg : List UInt8) (s : Session) :
    ∃ reply, Replies (Eap.processMsg3 P coins msg s).2 reply := by
  rw [Eap.processMsg3]
  split
  · split
    · split
      · exact ⟨_, (Replies.single _).after rfl⟩
      · exact ⟨_, (Replies.single _).after rfl⟩
    · exact ⟨_, .single _⟩
  · split
    · obtain ⟨reply, sent⟩ := sendAndAdvance_replies _ _ _
      exact ⟨reply, sent.after rfl⟩
    · exact ⟨_, .single _⟩

theorem processAck_replies (msg : List UInt8) (s : Session) :
    ∃ reply, Replies (Eap.processAck msg s).2 reply := by
  rw [Eap.processAck]
  split
  · exact ⟨_, .single _⟩
  split
  · exact ⟨_, .single _⟩
  · exact ⟨_, .single _⟩

/-- Every call ends in its only reply. -/
theorem modProcess_replies (P : Primitives UInt8) (keys : Eap.Instance) (r : Eap.Response)
    (s : Session) : Replies (modProcess P keys r s).2 (replyOf (modProcess P keys r s).2) := by
  have one : ∃ reply, Replies (modProcess P keys r s).2 reply := by
    rcases Eap.modProcess_cases P keys r s with
      ⟨t, reply, moved, -, -, -⟩ | ⟨msg, t, processed, -, -, -⟩
    · rw [moved]
      exact ⟨reply, .single reply⟩
    · rw [processed]
      have message : ∃ reply, Replies (Eap.processMessage P keys r.coins msg t).2 reply := by
        rw [Eap.processMessage]
        split
        · exact processMsg1_replies _ _ _
        · exact processMsg3_replies _ _ _
        · exact processAck_replies _ _
      obtain ⟨reply, here⟩ := message
      exact ⟨reply, here.after rfl⟩
  obtain ⟨reply, here⟩ := one
  rwa [here.replyOf_eq.2]

/-! ### The method in a conversation -/

/-- What a call of the method in a conversation amounts to. -/
theorem eapModuleCall_edhoc {coins : Coins × ρ} {data : List UInt8} {out : Called (Session ⊕ τ)}
    {s : Session} (stage : h.stage = .process) (session : h.opaqueData = some (.inl s))
    (called : eapModuleCall (edhocMethod P keys) coins data h = some out) :
    out.opaqueData = some (.inl (modProcess P keys ⟨data, coins.1⟩ s).1) ∧ out.stage = .process ∧
      eapReply (replyOf (modProcess P keys ⟨data, coins.1⟩ s).2) = some out.reply := by
  rw [eapModuleCall, stage] at called
  dsimp only [edhocMethod] at called
  rw [session] at called
  obtain ⟨reply, sent, rfl⟩ := Option.map_eq_some_iff.mp called
  exact ⟨rfl, rfl, sent⟩

/-- A new conversation of the method starts with the EDHOC-Start. -/
theorem initiate_edhoc {coins : Coins × ρ} {data : List UInt8} {next : Nat}
    {h' : Handler (Session ⊕ τ)} {reply : EapReply}
    (method : inst.methods typeEdhoc = some (edhocMethod P keys))
    (started : initiate inst coins data next h = some (h', reply)) (type : h'.type = typeEdhoc) :
    h'.stage = .process ∧ h'.opaqueData = some (.inl modSessionInit) ∧ reply = edhocStart := by
  rw [initiate, Option.bind_eq_bind, Option.bind_eq_some_iff] at started
  obtain ⟨m, known, started⟩ := started
  rw [Option.bind_eq_bind, Option.bind_eq_some_iff] at started
  obtain ⟨out, called, started⟩ := started
  obtain ⟨rfl, rfl⟩ := Prod.mk.inj (Option.some.inj started)
  have same : next = typeEdhoc := type
  subst same
  rw [method] at known
  obtain rfl := Option.some.inj known
  rw [eapModuleCall] at called
  obtain rfl := Option.some.inj called
  exact ⟨rfl, rfl, rfl⟩

/-- A handler of the method after a call: the method was started, or it went on with the type
data. -/
theorem eapMethodSelect_edhoc {h' : Handler (Session ⊕ τ)} {reply : EapReply}
    (method : inst.methods typeEdhoc = some (edhocMethod P keys))
    (called : eapMethodSelect inst r packet h = some (h', reply)) (type : h'.type = typeEdhoc) :
    (h'.stage = .process ∧ h'.opaqueData = some (.inl modSessionInit) ∧ reply = edhocStart) ∨
      packetType packet = typeEdhoc ∧ ∃ out,
        eapModuleCall (edhocMethod P keys) r.coins (typeData packet) { h with type := typeEdhoc } =
          some out ∧ h'.opaqueData = out.opaqueData ∧ h'.stage = out.stage ∧ reply = out.reply := by
  rw [eapMethodSelect] at called
  dsimp only at called
  split at called
  · cases called
  split at called
  · split at called
    · cases called
    · exact .inl (initiate_edhoc method called type)
  split at called
  · split at called
    · cases called
    split at called
    · cases called
    · exact .inl (initiate_edhoc method called type)
  · rw [Option.bind_eq_bind, Option.bind_eq_some_iff] at called
    obtain ⟨m, known, called⟩ := called
    rw [Option.bind_eq_bind, Option.bind_eq_some_iff] at called
    obtain ⟨out, calls, called⟩ := called
    obtain ⟨rfl, rfl⟩ := Prod.mk.inj (Option.some.inj called)
    have same : packetType packet = typeEdhoc := type
    rw [same, method] at known
    obtain rfl := Option.some.inj known
    rw [same] at calls
    exact .inr ⟨same, out, calls, rfl, rfl, rfl⟩

/-- The packet of a reply whose type the method has set, or that has none. -/
theorem eapWireformat_replyType {reply : EapReply} (id : UInt8)
    (known : reply.type ≠ 0 ∨ reply.code = .success) :
    eapWireformat reply.code id (replyType h reply) reply.data =
      eapWireformat reply.code id reply.type reply.data := by
  rcases known with set | success
  · rw [replyType, if_neg set]
  · rw [success]
    rfl

/-- A reply has a type, or is a success. -/
theorem eapReply_known {eap : Eap.Reply} {reply : EapReply} (made : eapReply eap = some reply) :
    reply.type ≠ 0 ∨ reply.code = .success := by
  cases eap with
  | request wire =>
    obtain rfl := Option.some.inj made
    exact .inl (show typeEdhoc ≠ 0 by decide)
  | success recvKey sendKey =>
    obtain rfl := Option.some.inj made
    exact .inr rfl
  | failure => cases made
  | dropped => cases made

/-- What is sent for a reply of the method. -/
theorem Sends.of_compose {reply : EapReply} (known : reply.type ≠ 0 ∨ reply.code = .success)
    (h' : Handler (Session ⊕ τ))
    (code : x.outcome.reply.code = (eapCompose x.packet h' reply).2.code)
    (keys : x.outcome.reply.keys = (eapCompose x.packet h' reply).2.keys)
    (message : x.outcome.reply.eapMessage = (eapCompose x.packet h' reply).2.eapMessage) :
    Sends reply x := by
  refine ⟨code, keys, ?_⟩
  rw [message, ← eapWireformat_replyType _ known]
  rfl

/-- The EDHOC-Start begins a session of `mod_process`. -/
theorem Runs.start {front : List (Exchange (Session ⊕ τ) (Coins × ρ))}
    (sends : Sends edhocStart x) : Runs P keys (front ++ [x]) modSessionInit [] [] :=
  ⟨⟨front, x, rfl, sends⟩, rfl, .nil⟩

/-- One more response. -/
theorem Runs.next {s : Session} {events : List Event} {eap : EapReply}
    (runs : Runs P keys es s events ps)
    (made : eapReply (replyOf (modProcess P keys (edhocResponse x) s).2) = some eap)
    (sends : Sends eap x) :
    Runs P keys (es ++ [x]) (modProcess P keys (edhocResponse x) s).1
      (events ++ (modProcess P keys (edhocResponse x) s).2) (ps ++ [x]) := by
  obtain ⟨front, first, rfl, begun⟩ := runs.begun
  refine ⟨⟨front, first, by simp, begun⟩, ?_, ?_⟩
  · rw [List.map_append, modRun, List.foldl_append]
    have run := runs.run
    rw [modRun] at run
    rw [run]
    rfl
  · rw [replies_append, (modProcess_replies P keys _ s).replyOf_eq.1]
    exact List.rel_append runs.sent (.cons ⟨eap, made, sends⟩ .nil)

/-- Sending a challenge does not touch what the method keeps. -/
theorem stamped_method (l : Limits) (timestamp : Int) (id : UInt8)
    (words : Block UInt8 eapStateLen) (h : Handler (Session ⊕ τ)) :
    (stamped l timestamp id words h).type = h.type ∧
      (stamped l timestamp id words h).stage = h.stage ∧
      (stamped l timestamp id words h).opaqueData = h.opaqueData := by
  rw [stamped]
  dsimp only
  split <;> exact ⟨rfl, rfl, rfl⟩

/-- What a handler of the method stands for. -/
structure Stands (P : Primitives UInt8) (keys : Eap.Instance)
    (es : List (Exchange (Session ⊕ τ) (Coins × ρ))) (h : Handler (Session ⊕ τ)) : Prop where
  stage : h.stage = .process
  session : ∃ s events ps, h.opaqueData = some (.inl s) ∧ Runs P keys es s events ps

/-- The packet of an exchange is the one that was admitted. -/
theorem packet_of_admitted {e : Entry (Session ⊕ τ)}
    (admitted : x.outcome.admitted = some (e, packet)) : x.packet = packet := by
  rw [Exchange.packet, admitted]
  rfl

/-- A handler of the method that is put on the list stands for the conversation so far. -/
theorem Settles.stands {h h' : Handler (Session ⊕ τ)}
    (method : inst.methods typeEdhoc = some (edhocMethod P keys))
    (settles : Settles inst x.request x.packet h x.outcome.reply (some h'))
    (type : h'.type = typeEdhoc)
    (old : packetType x.packet = typeEdhoc → Stands P keys es h) :
    Stands P keys (es ++ [x]) h' := by
  generalize replied : x.outcome.reply = out at settles
  cases settles with
  | stored h₁ reply called isRequest =>
    obtain ⟨sameType, sameStage, sameSession⟩ :=
      stamped_method inst.toLimits x.request.timestamp (packetId x.packet + 1) x.request.words h₁
    rw [sameType] at type
    rcases eapMethodSelect_edhoc method called type with
      ⟨stage, session, rfl⟩ | ⟨isEdhoc, out, calls, session, stage, rfl⟩
    · refine ⟨sameStage.trans stage, _, _, _, sameSession.trans session, Runs.start ?_⟩
      exact Sends.of_compose (.inl (by decide)) h₁ (by rw [replied]) (by rw [replied])
        (by rw [replied])
    · obtain ⟨oldStage, s, events, ps, oldSession, runs⟩ := old isEdhoc
      obtain ⟨after, process, made⟩ := eapModuleCall_edhoc oldStage oldSession calls
      refine ⟨sameStage.trans (stage.trans process), _, _, _,
        sameSession.trans (session.trans after), runs.next made ?_⟩
      exact Sends.of_compose (eapReply_known made) h₁ (by rw [replied]) (by rw [replied])
        (by rw [replied])

/-- The handlers of the method stand for their conversations. -/
theorem Conversation.stands {a : Nat} {o : Option (Handler (Session ⊕ τ))}
    (method : inst.methods typeEdhoc = some (edhocMethod P keys))
    (conversation : Conversation inst a es o) :
    ∀ h, o = some h → h.type = typeEdhoc → Stands P keys es h := by
  induction conversation with
  | starts x packet identity o admitted parsed isIdentity name settles =>
    rintro h rfl type
    obtain rfl := packet_of_admitted admitted
    have stands : Stands P keys ([] ++ [x]) h := settles.stands method type fun isEdhoc => by
      rw [isIdentity] at isEdhoc
      cases isEdhoc
    exact stands
  | continues es h old x packet o admitted parsed other id state few same name settles ih =>
    rintro h' rfl type
    obtain rfl := packet_of_admitted admitted
    refine settles.stands method type fun isEdhoc => ?_
    rcases same with isNak | same
    · rw [isNak] at isEdhoc
      cases isEdhoc
    · obtain ⟨stage, session⟩ := ih h rfl (same ▸ isEdhoc)
      exact ⟨stage, session⟩

/-- A response of the EDHOC type goes to the EDHOC method. -/
theorem eapMethodSelect_type {h' : Handler (Session ⊕ τ)} {reply : EapReply}
    (isEdhoc : packetType packet = typeEdhoc)
    (called : eapMethodSelect inst r packet h = some (h', reply)) : h'.type = typeEdhoc := by
  rw [eapMethodSelect, isEdhoc] at called
  dsimp only at called
  rw [if_neg (by decide), if_neg (by decide), if_neg (by decide), Option.bind_eq_bind,
    Option.bind_eq_some_iff] at called
  obtain ⟨m, -, called⟩ := called
  rw [Option.bind_eq_bind, Option.bind_eq_some_iff] at called
  obtain ⟨out, -, called⟩ := called
  obtain ⟨rfl, -⟩ := Prod.mk.inj (Option.some.inj called)
  rfl

/-- An Access-Accept that ends a conversation of the method. -/
theorem Conversation.accept_edhoc {a : Nat}
    (method : inst.methods typeEdhoc = some (edhocMethod P keys))
    (conversation : Conversation inst a (es ++ [x]) none)
    (accept : x.outcome.reply.code = some .accept) (type : packetType x.packet = typeEdhoc) :
    ∃ (s : Session) (events : List Event)
      (ps : List (Exchange (Session ⊕ τ) (Coins × ρ))) (eap : EapReply),
      Runs P keys es s events ps ∧
      eapReply (replyOf (modProcess P keys (edhocResponse x) s).2) = some eap ∧
      eap.code = .success ∧ Sends eap x := by
  generalize parts : es ++ [x] = all at conversation
  cases conversation with
  | starts y packet identity o admitted parsed isIdentity name settles =>
    obtain ⟨-, rfl⟩ := concat_eq_singleton parts
    rw [packet_of_admitted admitted, isIdentity] at type
    cases type
  | continues fs h old y packet o admitted parsed other id state few same name settles =>
    obtain ⟨rfl, eq⟩ := List.append_inj' parts rfl
    obtain rfl := List.singleton_inj.mp eq
    obtain rfl := packet_of_admitted admitted
    have hType : h.type = typeEdhoc := by
      rcases same with isNak | same
      · rw [isNak] at type
        cases type
      · exact same ▸ type
    obtain ⟨stage, s, events, ps, session, runs⟩ := old.stands method h rfl hType
    obtain ⟨-, h', eap, called, success, replied⟩ := settles.accept accept
    rcases eapMethodSelect_edhoc method called (eapMethodSelect_type type called) with
      ⟨-, -, rfl⟩ | ⟨-, out, calls, -, -, rfl⟩
    · cases success
    · obtain ⟨-, -, made⟩ := eapModuleCall_edhoc stage session calls
      refine ⟨s, events, ps, _, runs, made, success, ?_⟩
      rw [addUserName] at replied
      refine Sends.of_compose (.inr success) h' ?_ ?_ ?_
      · rw [replied]
        split <;> rfl
      · rw [replied]
        split <;> rfl
      · rw [replied]
        split <;> rfl

/-! ### Any run -/

/-- An Access-Accept to a response of the method: among the exchanges that reached its handler
there is one that sent EDHOC-Start, and from there on they are a session of `mod_process`, with the
replies as sent, that ends in these keys. Before them `r_handle_msg1` and `r_handle_msg3` returned
OK on messages of this session, and the keys are the halves of the resulting MSK. -/
theorem edhoc_accept_justified (P : Primitives UInt8) (keys : Eap.Instance)
    (inst : Rlm (Session ⊕ τ) (Coins × ρ))
    (method : inst.methods typeEdhoc = some (edhocMethod P keys)) (rs : List (Request (Coins × ρ)))
    {before behind : List (Exchange (Session ⊕ τ) (Coins × ρ))}
    (split : exchanges inst rs = before ++ x :: behind)
    (accept : x.outcome.reply.code = some .accept) (type : packetType x.packet = typeEdhoc) :
    ∃ a s events ps recvKey sendKey, x.handler = some a ∧
      Runs P keys (exchangesOf a before ++ [x]) s
        (events ++ [.reply (.success recvKey sendKey)]) ps ∧
      Eap.Justified events recvKey sendKey ∧
      x.outcome.reply.keys = some (recvKey, sendKey) := by
  obtain ⟨a, here, conversation, -⟩ := accept_conversation split accept
  obtain ⟨s, events, ps, eap, runs, made, success, sends⟩ :=
    conversation.accept_edhoc method accept type
  have run := runs.next made sends
  obtain ⟨last, only, -⟩ := (modProcess_replies P keys (edhocResponse x) s).last
  generalize replyOf (modProcess P keys (edhocResponse x) s).2 = reply at made only
  cases reply with
  | success recvKey sendKey =>
    obtain rfl := Option.some.inj made
    rw [only, ← List.append_assoc] at run
    refine ⟨a, _, _, _, recvKey, sendKey, here, run, ?_, sends.2.1⟩
    have start : Eap.Tracked modSessionInit [] :=
      ⟨.startSent rfl _, fun before _ _ _ split => by cases before <;> cases split⟩
    have tracked := Eap.modStep_foldl_tracked (P := P) keys ((ps ++ [x]).map edhocResponse)
      (modSessionInit, []) start
    have whole := run.run
    rw [modRun] at whole
    rw [whole] at tracked
    exact tracked.gated _ recvKey sendKey [] rfl
  | request wire =>
    obtain rfl := Option.some.inj made
    cases success
  | failure => cases made
  | dropped => cases made

end EdhocAuth.Radiusd
