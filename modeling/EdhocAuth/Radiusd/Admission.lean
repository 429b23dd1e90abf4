/-
What one request does to the sessions of the server.

`Admits` says which handler a request reaches and which handlers are left on the list, `Settles`
what becomes of that handler and `Leaves` what of the list. `radAuthenticate_spec`: a request does
all of this, or it reaches no method. All is said about the queue that the pointers stand for, with
one request served at a time.
-/

import EdhocAuth.Radiusd.Server

namespace EdhocAuth.Radiusd

open Octets

variable {ω κ : Type}

/-! ### Admission -/

/-- The request, with this packet, is admitted to the handler `e`; `q` are the sessions before and
`rest` those that are left on the list. -/
inductive Admits (inst : Rlm ω κ) (r : Request κ) (packet : List UInt8) (next : Nat)
    (q : List (Entry ω)) : Entry ω → List (Entry ω) → Prop
  /-- An Identity response starts a conversation. -/
  | starts (identity : List UInt8) (isIdentity : packetType packet = typeIdentity)
      (name : userNameOk identity r.userName = true) :
      Admits inst r packet next q (next, eapHandlerAlloc identity r.timestamp) q
  /-- Any other response continues the conversation whose key it carries. -/
  | continues (a : Nat) (h : Handler ω) (rest : List (Entry ω)) (mem : (a, h) ∈ q)
      (other : packetType packet ≠ typeIdentity) (id : h.eapId = packetId packet)
      (state : r.state = some h.state.toList) (few : h.trips < maxTrips)
      (type : packetType packet = typeNak ∨ packetType packet = h.type)
      (name : userNameOk h.identity r.userName = true) (sub : rest.Sublist q)
      (gone : a ∉ rest.map Prod.fst) :
      Admits inst r packet next q
        (a, { h with trips := h.trips + 1, timestamp := r.timestamp }) rest

/-- The server's pointers stand for these sessions, and every handler has been allocated. -/
structure Server.Stands (inst : Rlm ω κ) (s : Server ω) (q : List (Entry ω)) : Prop where
  holds : s.sessions.Holds q
  distinct : Distinct q
  bounded : q.length ≤ inst.maxSessions
  allocated : ∀ e ∈ q, e.1 < s.next

variable {inst : Rlm ω κ} {r : Request κ} {packet : List UInt8} {s : Server ω}
  {q rest : List (Entry ω)} {e : Entry ω}

theorem Server.stands_init : Server.Stands inst (.init : Server ω) [] where
  holds := Eaplist.holds_empty
  distinct := ⟨List.nodup_nil, List.nodup_nil⟩
  bounded := Nat.zero_le _
  allocated := by simp

/-- A server with fewer handlers stands as it did. -/
theorem Server.Stands.sublist {s' : Server ω} {q' : List (Entry ω)} (stands : s.Stands inst q)
    (holds : s'.sessions.Holds q') (sub : q'.Sublist q) (later : s.next ≤ s'.next) :
    s'.Stands inst q' where
  holds := holds
  distinct := stands.distinct.sublist sub
  bounded := sub.length_le.trans stands.bounded
  allocated := fun e mem => Nat.lt_of_lt_of_le (stands.allocated e (sub.mem mem)) later

theorem Admits.sublist {next : Nat} (admits : Admits inst r packet next q e rest) :
    rest.Sublist q := by
  cases admits with
  | starts => exact List.Sublist.refl _
  | continues a h rest mem other id state few type name sub gone => exact sub

/-- The handler that a request reaches is no longer on the list. -/
theorem Admits.new {next : Nat} (admits : Admits inst r packet next q e rest)
    (allocated : ∀ e ∈ q, e.1 < next) : e.1 ∉ rest.map Prod.fst := by
  cases admits with
  | starts =>
    intro mem
    obtain ⟨x, here, same⟩ := List.mem_map.mp mem
    have old := allocated x here
    rw [same] at old
    exact lt_irrefl _ old
  | continues a h rest mem other id state few type name sub gone => exact gone

/-- The request, with this packet, carries the key of the handler. -/
def Calls (r : Request κ) (packet : List UInt8) (e : Entry ω) : Prop :=
  r.state = some e.2.state.toList ∧ packetId packet = e.2.eapId

/-- What `eap_handler` leaves behind. -/
structure Handled (inst : Rlm ω κ) (r : Request κ) (packet : List UInt8) (s : Server ω)
    (q : List (Entry ω)) (out : Option (Entry ω) × Server ω) (rest : List (Entry ω)) : Prop where
  holds : out.2.sessions.Holds rest
  kept : Kept inst.toLimits r.timestamp (Calls r packet) q rest
  later : s.next ≤ out.2.next
  admits : ∀ e, out.1 = some e → Admits inst r packet s.next q e rest ∧ e.1 < out.2.next

/-- A request that reaches no handler. -/
theorem Handled.none {s' : Server ω} (holds : s'.sessions.Holds rest)
    (kept : Kept inst.toLimits r.timestamp (Calls r packet) q rest) (later : s.next ≤ s'.next) :
    Handled inst r packet s q (none, s') rest :=
  ⟨holds, kept, later, fun _ found => by cases found⟩

/-- A response reaches the handler with its State and identifier, or none. -/
theorem eapHandler_found (r : Request κ) (packet : List UInt8) (stands : s.Stands inst q)
    (other : packetType packet ≠ typeIdentity) :
    ∃ rest, Handled inst r packet s q (eapHandler inst r packet s) rest := by
  obtain ⟨found, left⟩ := eaplistFind_refines inst.toLimits r.timestamp (packetId packet) r.state
    stands.holds stands.distinct
  have kept : Kept inst.toLimits r.timestamp (Calls r packet) q _ :=
    queueFind_kept inst.toLimits r.timestamp (packetId packet) r.state q
  refine ⟨(queueFind inst.toLimits r.timestamp (packetId packet) r.state q).2, ?_⟩
  rw [eapHandler, if_pos other]
  dsimp only
  rw [found]
  cases here : (queueFind inst.toLimits r.timestamp (packetId packet) r.state q).1 with
  | none => exact Handled.none left kept le_rfl
  | some e =>
    obtain ⟨h, mem, id, state, few, after, gone⟩ := queueFind_eq_some stands.distinct here
    dsimp only
    split
    · exact Handled.none left kept le_rfl
    next type =>
    split
    · next name =>
      refine ⟨left, kept, le_rfl, ?_⟩
      intro x eq
      obtain rfl := Option.some.inj eq
      refine ⟨?_, stands.allocated (e.1, h) mem⟩
      rw [after] at type name ⊢
      refine Admits.continues e.1 h _ mem other id state few ?_ name kept.sub gone
      by_cases isNak : packetType packet = typeNak
      · exact .inl isNak
      · exact .inr (by_contra fun wrong => type ⟨isNak, wrong⟩)
    · exact Handled.none left kept le_rfl

/-- An Identity response gets a handler of its own. -/
theorem eapHandler_started (r : Request κ) (packet : List UInt8) (stands : s.Stands inst q)
    (isIdentity : packetType packet = typeIdentity) :
    Handled inst r packet s q (eapHandler inst r packet s) q := by
  have refused : Handled inst r packet s q (none, { s with next := s.next + 1 }) q :=
    Handled.none stands.holds (Kept.refl _ _ _ q) (Nat.le_succ s.next)
  rw [eapHandler, if_neg (not_not.mpr isIdentity)]
  dsimp only
  cases newIdentity inst packet with
  | none => exact refused
  | some identity =>
    dsimp only
    split
    · next name =>
      refine ⟨stands.holds, Kept.refl _ _ _ q, Nat.le_succ _, ?_⟩
      intro x eq
      obtain rfl := Option.some.inj eq
      exact ⟨Admits.starts identity isIdentity name, Nat.lt_succ_self _⟩
    · exact refused

/-- `eap_handler` refuses the request or admits it to a handler. -/
theorem eapHandler_spec (r : Request κ) (packet : List UInt8) (stands : s.Stands inst q) :
    ∃ rest, Handled inst r packet s q (eapHandler inst r packet s) rest := by
  by_cases isIdentity : packetType packet = typeIdentity
  · exact ⟨q, eapHandler_started r packet stands isIdentity⟩
  · exact eapHandler_found r packet stands isIdentity

/-! ### What becomes of the handler -/

/-- What a request does to the handler that it has been admitted to: the reply, and the handler
that is put on the list, if any. -/
inductive Settles (inst : Rlm ω κ) (r : Request κ) (packet : List UInt8) (h : Handler ω) :
    RadiusReply → Option (Handler ω) → Prop
  /-- The method fails, or there is none. -/
  | invalid (failed : eapMethodSelect inst r packet h = none) :
      Settles inst r packet h (finish .invalid (eapFail packet .blank)) none
  /-- The method asks for another response, and the handler is put on the list. -/
  | stored (h' : Handler ω) (reply : EapReply)
      (called : eapMethodSelect inst r packet h = some (h', reply))
      (isRequest : reply.code = .request) :
      Settles inst r packet h
        { (eapCompose packet h' reply).2 with
          state := some
            (stamped inst.toLimits r.timestamp (packetId packet + 1) r.words h').state }
        (some (stamped inst.toLimits r.timestamp (packetId packet + 1) r.words h'))
  /-- It asks for another response, but the handler cannot be put on the list. -/
  | full (h' : Handler ω) (reply : EapReply)
      (called : eapMethodSelect inst r packet h = some (h', reply))
      (isRequest : reply.code = .request) :
      Settles inst r packet h (finish .fail (eapFail packet (eapCompose packet h' reply).2)) none
  /-- The conversation is over. -/
  | ended (h' : Handler ω) (reply : EapReply)
      (called : eapMethodSelect inst r packet h = some (h', reply))
      (last : ¬ (reply.code = .request ∧ typeMd5 ≤ replyType h' reply)) :
      Settles inst r packet h
        (finish (codesOf reply.code).2 (addUserName r (eapCompose packet h' reply).2)) none

/-- The sessions after a handler has been put on the list, or after all that came of it was that
old ones were thrown out. -/
inductive Leaves (inst : Rlm ω κ) (timestamp : Int) (a : Nat) (rest : List (Entry ω)) :
    Option (Handler ω) → List (Entry ω) → Prop
  | added (h : Handler ω) (new : lookup h.key rest = none) (room : rest.length < inst.maxSessions) :
      Leaves inst timestamp a rest (some h) (rest ++ [(a, h)])
  | dropped (q : List (Entry ω)) (kept : Kept inst.toLimits timestamp (fun _ => False) rest q) :
      Leaves inst timestamp a rest none q

/-- If the method asks for another response, there is no room for the handler or its key is in
use. -/
def Crowded (inst : Rlm ω κ) (r : Request κ) (packet : List UInt8) (h : Handler ω)
    (rest : List (Entry ω)) : Prop :=
  ∀ h' reply, eapMethodSelect inst r packet h = some (h', reply) → reply.code = .request →
    typeMd5 ≤ replyType h' reply → inst.maxSessions ≤ rest.length ∨
      lookup (stamped inst.toLimits r.timestamp (packetId packet + 1) r.words h').key rest ≠ none

/-- After the method, the handler is put on the list again or freed. -/
theorem converse_spec (r : Request κ) (packet : List UInt8) (holds : s.sessions.Holds rest)
    (distinct : Distinct rest) (new : e.1 ∉ rest.map Prod.fst) :
    (converse inst r packet e s).2.2.next = s.next ∧
    ∃ q o, (converse inst r packet e s).2.2.sessions.Holds q ∧
      Settles inst r packet e.2
        (finish (converse inst r packet e s).1 (converse inst r packet e s).2.1) o ∧
      Leaves inst r.timestamp e.1 rest o q ∧ (o = none → Crowded inst r packet e.2 rest) := by
  rw [converse]
  cases called : eapMethodSelect inst r packet e.2 with
  | none =>
    refine ⟨rfl, rest, none, holds, .invalid called, .dropped rest (Kept.refl _ _ _ rest), ?_⟩
    intro _ h' reply again
    rw [called] at again
    cases again
  | some out =>
    obtain ⟨h, reply⟩ := out
    dsimp only
    split
    · next asks =>
      obtain ⟨added, left⟩ := eaplistAdd_refines inst.toLimits r.timestamp
        (replyId packet .request) r.words (e := (e.1, h)) holds distinct new
      have cases := queueAdd_cases inst.toLimits r.timestamp (replyId packet .request) r.words
        (e.1, h) rest
      generalize eaplistAdd inst.toLimits r.timestamp (replyId packet .request) r.words (e.1, h)
        s.sessions = out at added left
      obtain ⟨o, l⟩ := out
      dsimp only at added left
      subst added
      rcases cases with ⟨none, kept, refused⟩ | ⟨_, rfl, room, other, eq⟩
      · rw [none]
        refine ⟨rfl, _, _, left, .full h reply called asks.1, .dropped _ kept, ?_⟩
        intro _ h' reply' again _ _
        rw [called] at again
        obtain ⟨rfl, rfl⟩ := Prod.mk.inj (Option.some.inj again)
        exact refused
      · rw [eq] at left ⊢
        have handled : (eapCompose packet h reply).1 = .handled := by
          rw [eapCompose, asks.1]
          rfl
        refine ⟨rfl, _, _, left, ?_, .added _ other room, nofun⟩
        dsimp only
        rw [handled]
        exact .stored h reply called asks.1
    · next last =>
      refine ⟨rfl, rest, none, holds, .ended h reply called last,
        .dropped rest (Kept.refl _ _ _ rest), ?_⟩
      intro _ h' reply' again isRequest isMethod
      rw [called] at again
      obtain ⟨rfl, rfl⟩ := Prod.mk.inj (Option.some.inj again)
      exact absurd ⟨isRequest, isMethod⟩ last

/-! ### Requests -/

/-- The EAP packet of a request, after the checks that do not depend on a session. -/
def Request.parse (inst : Rlm ω κ) (r : Request κ) : Option (List UInt8) :=
  match eapVp2packet inst r.eapMessages with
  | none => none
  | some raw =>
    match eapValidation raw with
    | .invalid _ => none
    | .valid packet => some packet

/-- The request carries the key of the handler. -/
def Answers (inst : Rlm ω κ) (r : Request κ) (e : Entry ω) : Prop :=
  ∃ packet, r.parse inst = some packet ∧ Calls r packet e

/-- What a request does: `q` are the sessions before, `q'` those afterwards. -/
inductive Does (inst : Rlm ω κ) (r : Request κ) (next : Nat) (q : List (Entry ω)) :
    Outcome ω → List (Entry ω) → Prop
  /-- It reaches no method, and is not accepted. -/
  | nothing (rcode : Rcode) (reply : RadiusReply) (q' : List (Entry ω))
      (kept : Kept inst.toLimits r.timestamp (Answers inst r) q q')
      (code : reply.code ≠ some .accept) (keys : reply.keys = none) (state : reply.state = none) :
      Does inst r next q ⟨rcode, reply, none⟩ q'
  /-- It is admitted to a handler. -/
  | converses (rcode : Rcode) (reply : RadiusReply) (q' : List (Entry ω)) (packet : List UInt8)
      (e : Entry ω) (rest : List (Entry ω)) (o : Option (Handler ω))
      (parsed : r.parse inst = some packet) (admits : Admits inst r packet next q e rest)
      (kept : Kept inst.toLimits r.timestamp (Calls r packet) q rest)
      (settles : Settles inst r packet e.2 reply o) (leaves : Leaves inst r.timestamp e.1 rest o q')
      (crowded : o = none → Crowded inst r packet e.2 rest) :
      Does inst r next q ⟨rcode, reply, some (e, packet)⟩ q'

/-- What a server does with a request: the sessions that its pointers stand for afterwards. -/
structure Serves (inst : Rlm ω κ) (r : Request κ) (s : Server ω) (q : List (Entry ω))
    (out : Outcome ω × Server ω) (q' : List (Entry ω)) : Prop where
  does : Does inst r s.next q out.1 q'
  stands : out.2.Stands inst q'
  later : s.next ≤ out.2.next
  allocated : ∀ e packet, out.1.admitted = some (e, packet) → e.1 < out.2.next

/-- A request that calls no method is not accepted, and adds no handler. -/
theorem Serves.nothing {rcode : Rcode} {reply : RadiusReply} {s' : Server ω} {q' : List (Entry ω)}
    (stands : s'.Stands inst q') (kept : Kept inst.toLimits r.timestamp (Answers inst r) q q')
    (later : s.next ≤ s'.next) (code : reply.code ≠ some .accept) (keys : reply.keys = none)
    (state : reply.state = none) : Serves inst r s q (⟨rcode, reply, none⟩, s') q' :=
  ⟨.nothing rcode reply q' kept code keys state, stands, later, fun _ _ none => by cases none⟩

/-- Only the method's success makes an Access-Accept. -/
theorem finish_ne_accept {rcode : Rcode} {reply : RadiusReply} (rcodeNe : rcode ≠ .ok)
    (code : reply.code ≠ some .accept) : (finish rcode reply).code ≠ some .accept := by
  cases rcode with
  | ok => exact absurd rfl rcodeNe
  | handled => exact code
  | reject => simp [finish]
  | invalid => simp [finish]
  | fail => simp [finish]

theorem Server.Stands.leaves {s' : Server ω} {q' : List (Entry ω)} {o : Option (Handler ω)}
    (stands : s.Stands inst rest) (holds : s'.sessions.Holds q') (same : s'.next = s.next)
    (new : e.1 ∉ rest.map Prod.fst) (old : e.1 < s.next)
    (leaves : Leaves inst r.timestamp e.1 rest o q') :
    s'.Stands inst q' := by
  cases leaves with
  | dropped q kept => exact stands.sublist holds kept.sub same.ge
  | added h other room =>
    refine ⟨holds, stands.distinct.add new other, ?_, ?_⟩
    · rw [List.length_append]
      exact room
    · intro x mem
      rw [same]
      rcases List.mem_append.mp mem with mem | mem
      · exact stands.allocated x mem
      · obtain rfl := List.mem_singleton.mp mem
        exact old

/-- What one request does in the authenticate section. -/
theorem modAuthenticate_spec (r : Request κ) (stands : s.Stands inst q) :
    ∃ q', Serves inst r s q
      ({ (modAuthenticate inst r s).1 with
        reply := finish (modAuthenticate inst r s).1.rcode (modAuthenticate inst r s).1.reply },
        (modAuthenticate inst r s).2) q' := by
  have blank : RadiusReply.blank.code ≠ some .accept := by
    intro eq
    cases eq
  rw [modAuthenticate]
  split
  · exact ⟨q, .nothing stands (Kept.refl _ _ _ q) le_rfl
      (finish_ne_accept (by simp) blank) rfl rfl⟩
  split
  · exact ⟨q, .nothing stands (Kept.refl _ _ _ q) le_rfl
      (finish_ne_accept (by simp) blank) rfl rfl⟩
  next raw found =>
  split
  · next nak _ =>
    refine ⟨q, .nothing stands (Kept.refl _ _ _ q) le_rfl ?_ ?_ ?_⟩
    · simp [finish]
    · cases nak <;> rfl
    · cases nak <;> rfl
  next packet valid =>
  have parsed : r.parse inst = some packet := by
    rw [Request.parse, found]
    dsimp only
    rw [valid]
  obtain ⟨rest, handled⟩ := eapHandler_spec r packet stands
  generalize eapHandler inst r packet s = out at handled ⊢
  obtain ⟨o, s₁⟩ := out
  have left := stands.sublist handled.holds handled.kept.sub handled.later
  cases o with
  | none =>
    have kept := handled.kept.imp fun e here => (⟨packet, parsed, here⟩ : Answers inst r e)
    exact ⟨rest, .nothing left kept handled.later (finish_ne_accept (by simp) blank) rfl rfl⟩
  | some e =>
    obtain ⟨admits, old⟩ := handled.admits e rfl
    have new := admits.new stands.allocated
    obtain ⟨same, q', o, holds, settles, leaves, crowded⟩ :=
      converse_spec r packet handled.holds left.distinct new
    refine ⟨q', .converses _ _ q' packet e rest o parsed admits handled.kept settles leaves
      crowded,
      left.leaves holds same new old leaves, ?_, ?_⟩
    · exact handled.later.trans same.ge
    · intro x p eq
      obtain ⟨rfl, rfl⟩ := Prod.mk.inj (Option.some.inj eq)
      exact Nat.lt_of_lt_of_le old same.ge

/-- What a request does, whatever it is. -/
theorem radAuthenticate_spec (r : Request κ) (stands : s.Stands inst q) :
    ∃ q', Serves inst r s q (radAuthenticate inst r s) q' := by
  rw [radAuthenticate]
  split
  · exact ⟨q, .nothing stands (Kept.refl _ _ _ q) le_rfl (by simp) rfl rfl⟩
  · exact ⟨q, .nothing stands (Kept.refl _ _ _ q) le_rfl (by simp) rfl rfl⟩
  · next reply started =>
    have start : reply = { RadiusReply.blank with
        code := some .challenge
        eapMessage := some [EapCode.request.toOctet, 0, 0, 5, 1] } := by
      rw [eapStart] at started
      repeat' split at started
      all_goals cases started
      rfl
    subst start
    exact ⟨q, .nothing stands (Kept.refl _ _ _ q) le_rfl (by simp) rfl rfl⟩
  · exact modAuthenticate_spec r stands

end EdhocAuth.Radiusd
