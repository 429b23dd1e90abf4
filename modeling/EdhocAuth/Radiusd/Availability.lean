/-
A conversation among others.

A challenge waits for its response on the list. Requests that do not carry its State leave it there
until it is too old, and the response reaches the method again; if the random octets of the server
are fresh, its next challenge is put on the list in turn. `challenge_answered` says so for every
run of a server that serves one request at a time: the place on the list that `eaplist_find` has
vacated is then still there for `eaplist_add`. With several threads another request could take it.
-/

import EdhocAuth.Radiusd.Conversations

namespace EdhocAuth.Radiusd

open Octets

variable {ω κ : Type} {inst : Rlm ω κ} {r : Request κ} {s : Server ω} {q q' rest : List (Entry ω)}
  {e : Entry ω} {next : Nat} {xs : List (Exchange ω κ)}

/-! ### Other requests -/

/-- A young handler stays on the list unless the request carries its State. -/
theorem Does.kept {outcome : Outcome ω} (does : Does inst r next q outcome q') (mem : e ∈ q)
    (young : Live inst.toLimits r.timestamp e) (other : ¬ Answers inst r e) : e ∈ q' := by
  cases does with
  | nothing rcode reply q' kept code keys state => exact kept.live e mem young other
  | converses rcode reply q' packet e' rest o parsed admits kept settles leaves crowded =>
    have left : e ∈ rest := kept.live e mem young fun here => other ⟨packet, parsed, here⟩
    cases leaves with
    | added h new room => exact List.mem_append_left _ left
    | dropped q kept => exact kept.live e left young not_false

/-- Requests with another State leave a handler alone as long as it is not too old. -/
theorem outputs_keep (rs : List (Request κ)) (told : Told inst xs s.next q)
    (stands : s.Stands inst q) (mem : e ∈ q)
    (quiet : ∀ r ∈ rs, r.state ≠ some e.2.state.toList)
    (clock : ∀ r ∈ rs, Live inst.toLimits r.timestamp e) :
    ∃ q', (Machine.after (step inst) s rs).Stands inst q' ∧
      Told inst (xs ++ Machine.outputs (step inst) s rs)
        (Machine.after (step inst) s rs).next q' ∧ e ∈ q' := by
  induction rs generalizing s xs q with
  | nil =>
    refine ⟨q, stands, ?_, mem⟩
    rw [Machine.outputs, List.append_nil]
    exact told
  | cons r rs ih =>
    obtain ⟨q₁, serves⟩ := radAuthenticate_spec r stands
    have here : e ∈ q₁ := by
      refine serves.does.kept mem (clock r List.mem_cons_self) ?_
      rintro ⟨packet, -, state, -⟩
      exact quiet r List.mem_cons_self state
    rw [Machine.outputs, Machine.after, ← List.append_assoc]
    exact ih (told.step stands serves) serves.stands here
      (fun r mem => quiet r (List.mem_cons_of_mem _ mem))
      fun r mem => clock r (List.mem_cons_of_mem _ mem)

/-! ### Responses -/

/-- The request delivers an EAP response of this type with these type data, in any number of
EAP-Message attributes. -/
structure Delivers (r : Request κ) (id : UInt8) (type : Nat) (data : List UInt8) : Prop where
  flatten : r.eapMessages.flatten = eapWireformat .response id type data
  first : ∃ first rest, r.eapMessages = first :: rest ∧ 5 ≤ first.length
  small : 4 + 1 + data.length < 65536

section Response

variable (id : UInt8) (type : Nat) {data : List UInt8}

theorem packetId_wireformat : packetId (eapWireformat .response id type data) = id := rfl

variable {type} in
/-- A response on the wire has its type. -/
theorem packetType_wireformat (small : type < maxTypes) :
    packetType (eapWireformat .response id type data) = type := by
  show (UInt8.ofNat type).toNat = type
  rw [UInt8.toNat_ofNat', Nat.mod_eq_of_lt (small.trans (by decide))]

theorem typeData_wireformat : typeData (eapWireformat .response id type data) = data := rfl

/-- A response on the wire has its length. -/
theorem packetLength_wireformat (small : 4 + 1 + data.length < 65536) :
    packetLength (eapWireformat .response id type data) = 4 + 1 + data.length := by
  have stands : field (eapWireformat .response id type data) 2 2 =
      Octets.ofNat 2 (4 + 1 + data.length) :=
    field_eq [EapCode.response.toOctet, id] _ ([UInt8.ofNat type] ++ data)
      (by simp [eapWireformat]) rfl (length_ofNat _ _)
  rw [packetLength, stands]
  exact toNat_ofNat small

theorem length_wireformat :
    (eapWireformat .response id type data).length = 4 + 1 + data.length := by
  simp [eapWireformat]
  omega

/-- The header of an EAP packet stands in its first attribute. -/
theorem packetLength_first {first rest : List UInt8} (long : 5 ≤ first.length) :
    packetLength (first ++ rest) = packetLength first := by
  have same : (first ++ rest).take first.length = first := List.take_left' rfl
  rw [packetLength, packetLength, ← field_take (n := first.length) (by omega), same]

/-- The type is in the first EAP-Message attribute. -/
theorem packetType_first {first rest : List UInt8} (long : 5 ≤ first.length) :
    packetType (first ++ rest) = packetType first := by
  rw [packetType, packetType, octet_append_left (by omega)]

variable {id type}

/-- The EAP module has a method of this type, which is none of those that carry TLS. -/
structure Callable (inst : Rlm ω κ) (type : Nat) : Prop where
  method : typeMd5 ≤ type
  known : type < maxTypes
  plain : isTls type = false
  configured : (inst.methods type).isSome

/-- A response passes the checks that do not depend on a session. -/
theorem Delivers.parse (delivers : Delivers r id type data) (callable : Callable inst type) :
    r.parse inst = some (eapWireformat .response id type data) := by
  obtain ⟨first, rest, messages, long⟩ := delivers.first
  have flatten := delivers.flatten
  have length := packetLength_wireformat id type delivers.small
  have total : (eapWireformat .response id type data).length = 4 + 1 + data.length :=
    length_wireformat id type
  have isType : packetType (eapWireformat .response id type data) = type :=
    packetType_wireformat id callable.known
  have firstLength : packetLength first = 4 + 1 + data.length := by
    rw [messages, List.flatten_cons] at flatten
    rw [← length, ← flatten, packetLength_first long]
  have packet : eapVp2packet inst r.eapMessages =
      some (eapWireformat .response id type data) := by
    rw [messages, eapVp2packet, ← messages, flatten, isType, callable.plain, firstLength, total,
      if_neg (by omega), if_neg (by omega), if_neg (not_not.mpr rfl)]
    rfl
  have valid : eapValidation (eapWireformat .response id type data) =
      .valid (eapWireformat .response id type data) := by
    have code : Octets.octet (eapWireformat .response id type data) 0 = EapCode.response.toOctet :=
      rfl
    have isMethod : 4 ≤ type := callable.method
    have isKnown : type < maxTypes := callable.known
    rw [eapValidation, isType, length, code]
    dsimp only
    rw [if_neg (by omega), if_neg (by decide), if_neg (not_not.mpr rfl), if_neg (by omega),
      if_neg (by show ¬ type = 2; omega)]
  rw [Request.parse, packet]
  dsimp only
  rw [valid]

/-- A response of a known method passes `mod_authorize`. -/
theorem Delivers.authorized (delivers : Delivers r id type data)
    (callable : Callable inst type) : eapStart inst r = .authenticate := by
  obtain ⟨first, rest, messages, long⟩ := delivers.first
  have flatten := delivers.flatten
  rw [messages, List.flatten_cons] at flatten
  have code : Octets.octet first 0 = EapCode.response.toOctet := by
    have front : Octets.octet (first ++ rest.flatten) 0 = Octets.octet first 0 :=
      octet_append_left (by omega)
    rw [← front, flatten]
    rfl
  have isType : packetType first = type := by
    have front : packetType (first ++ rest.flatten) = packetType first := packetType_first long
    rw [← front, flatten, packetType_wireformat id callable.known]
  have isMethod : 4 ≤ type := callable.method
  have isKnown : unknownType inst type = false := by
    have some : (inst.methods type).isNone = false := by
      rw [← Option.not_isSome, callable.configured]
      rfl
    rw [unknownType, some, decide_eq_false (by omega),
      decide_eq_false (not_le.mpr callable.known)]
    rfl
  have notNak : type ≠ typeNak := by
    intro isNak
    rw [isNak] at isMethod
    exact absurd isMethod (by decide)
  rw [eapStart, messages]
  dsimp only
  rw [isType, isKnown, code, if_neg (by omega), if_neg (by omega), if_neg (by decide),
    if_neg (by simp), if_neg fun here => notNak here.1]

end Response

/-- A request whose packet is admitted by `eap_handler` reaches the method. -/
theorem radAuthenticate_admitted {packet : List UInt8} (start : eapStart inst r = .authenticate)
    (parsed : r.parse inst = some packet) (found : (eapHandler inst r packet s).1 = some e) :
    (radAuthenticate inst r s).1.admitted = some (e, packet) := by
  rw [Request.parse] at parsed
  rw [radAuthenticate, start]
  dsimp only
  rw [modAuthenticate]
  cases messages : r.eapMessages with
  | nil =>
    rw [messages] at parsed
    cases parsed
  | cons m rest =>
    rw [messages] at parsed
    dsimp only
    cases raw : eapVp2packet inst (m :: rest) with
    | none =>
      rw [raw] at parsed
      cases parsed
    | some raw' =>
      rw [raw] at parsed
      dsimp only at parsed ⊢
      cases valid : eapValidation raw' with
      | invalid nak =>
        rw [valid] at parsed
        cases parsed
      | valid packet' =>
        rw [valid] at parsed
        obtain rfl := Option.some.inj parsed
        dsimp only
        generalize eapHandler inst r packet' s = out at found
        obtain ⟨o, s'⟩ := out
        dsimp only at found
        subst found
        rfl

/-! ### The response to a challenge -/

/-- The request answers the challenge of the handler in time, with these type data. -/
structure Response (inst : Rlm ω κ) (r : Request κ) (h : Handler ω) (data : List UInt8) : Prop where
  delivers : Delivers r h.eapId h.type data
  callable : Callable inst h.type
  state : r.state = some h.state.toList
  name : userNameOk h.identity r.userName = true
  few : h.trips < maxTrips
  young : r.timestamp - h.timestamp ≤ inst.timerLimit

/-- The handler as the method finds it. -/
def Handler.found (h : Handler ω) (r : Request κ) : Handler ω :=
  { h with trips := h.trips + 1, timestamp := r.timestamp }

section Response

variable {a : Nat} {h : Handler ω} {data : List UInt8}

/-- A response to an outstanding challenge reaches its handler. -/
theorem Response.admitted (response : Response inst r h data) (distinct : Distinct q)
    (holds : s.sessions.Holds q) (mem : (a, h) ∈ q) :
    (radAuthenticate inst r s).1.admitted =
      some ((a, h.found r), eapWireformat .response h.eapId h.type data) := by
  refine radAuthenticate_admitted (response.delivers.authorized response.callable)
    (response.delivers.parse response.callable) ?_
  have isType : packetType (eapWireformat .response h.eapId h.type data) = h.type :=
    packetType_wireformat h.eapId response.callable.known
  have isMethod : 4 ≤ h.type := response.callable.method
  have notIdentity : h.type ≠ typeIdentity := by
    intro isIdentity
    rw [isIdentity] at isMethod
    exact absurd isMethod (by decide)
  obtain ⟨found, -⟩ := eaplistFind_refines inst.toLimits r.timestamp h.eapId r.state holds distinct
  have known : (queueFind inst.toLimits r.timestamp h.eapId r.state q).1 =
      some (a, { h with trips := h.trips + 1 }) := by
    rw [response.state]
    exact queueFind_called distinct mem response.young response.few
  rw [eapHandler, isType, packetId_wireformat, if_pos notIdentity]
  dsimp only
  rw [found, known]
  dsimp only
  rw [if_neg fun wrong => wrong.2 rfl, if_pos response.name]
  rfl

/-- No other handler on the list has the State that `eaplist_add` gives to this one. -/
theorem Told.key_new (told : Told inst xs next q) (fresh : Fresh (xs.map Exchange.request))
    (mem : (a, h) ∈ q) (sub : rest.Sublist q) (gone : a ∉ rest.map Prod.fst)
    (timestamp : Int) (id : UInt8) (words : Block UInt8 eapStateLen) {h' : Handler ω}
    (state : h'.state = h.state) (trips : h'.trips ≠ 0) :
    lookup (stamped inst.toLimits timestamp id words h').key rest = none := by
  obtain ⟨⟨x, later, starts, marked⟩, -, -⟩ := (told.listed (a, h) mem).lasted h rfl
  have mine : Marked x.request.words (stamped inst.toLimits timestamp id words h') := by
    refine Marked.stamped inst.toLimits timestamp id (fun zero => absurd zero trips) ?_
    intro _ i kept
    rw [state]
    exact marked.kept i kept
  refine lookup_eq_none.mpr fun e here same => ?_
  obtain ⟨⟨y, later', starts', marked'⟩, -, -⟩ := (told.listed e (sub.mem here)).lasted e.2 rfl
  have memOf : ∀ {b : Nat} {z : Exchange ω κ} {zs : List (Exchange ω κ)},
      exchangesOf b xs = z :: zs → z ∈ xs ∧ z.handler = some b := by
    intro b z zs starts
    have mem : z ∈ exchangesOf b xs := starts ▸ List.mem_cons_self
    rw [exchangesOf, List.mem_filter] at mem
    exact ⟨mem.1, by simpa using mem.2⟩
  obtain ⟨known, handler⟩ := memOf starts
  obtain ⟨known', handler'⟩ := memOf starts'
  have apart : x ≠ y := by
    rintro rfl
    rw [handler] at handler'
    have same : a = e.1 := Option.some.inj handler'
    rw [same] at gone
    exact gone (List.mem_map_of_mem here)
  obtain ⟨i, kept, differ⟩ := fresh.words known known' apart
  have states : e.2.state = (stamped inst.toLimits timestamp id words h').state :=
    congrArg Prod.snd same
  rw [← mine.kept i kept, ← marked'.kept i kept, states] at differ
  exact differ rfl

/-- What the response to a challenge leads to: it reaches the method, and if this asks for another
response, the handler is on the list again. -/
structure Answered (inst : Rlm ω κ) (r : Request κ) (a : Nat) (h : Handler ω) (data : List UInt8)
    (out : Outcome ω × Server ω) (o : Option (Handler ω)) : Prop where
  admitted : out.1.admitted =
    some ((a, h.found r), eapWireformat .response h.eapId h.type data)
  settles : Settles inst r (eapWireformat .response h.eapId h.type data) (h.found r) out.1.reply o
  listed : ∀ h', o = some h' → (a, h') ∈ out.2.sessions.tree
  last : o = none → ∀ h' reply, eapMethodSelect inst r
    (eapWireformat .response h.eapId h.type data) (h.found r) = some (h', reply) →
      ¬ (reply.code = .request ∧ typeMd5 ≤ replyType h' reply)

/-- A response is served, and what its handler sends next is outstanding in turn. -/
theorem Told.answered (told : Told inst xs s.next q) (stands : s.Stands inst q)
    (fresh : Fresh (xs.map Exchange.request)) (mem : (a, h) ∈ q)
    (response : Response inst r h data) :
    ∃ q' o, Serves inst r s q (radAuthenticate inst r s) q' ∧
      Answered inst r a h data (radAuthenticate inst r s) o := by
  obtain ⟨q', serves⟩ := radAuthenticate_spec r stands
  have admitted := response.admitted stands.distinct stands.holds mem
  have does := serves.does
  have tree := serves.stands.holds.tree
  refine ⟨q', ?_⟩
  generalize radAuthenticate inst r s = out at serves admitted does tree ⊢
  obtain ⟨outcome, s'⟩ := out
  dsimp only at admitted does tree ⊢
  cases does with
  | nothing rcode reply q' kept code keys state => cases admitted
  | converses rcode reply q' packet e rest o parsed admits kept settles leaves crowded =>
    obtain ⟨rfl, rfl⟩ := Prod.mk.inj (Option.some.inj admitted)
    refine ⟨o, serves, rfl, settles, ?_, ?_⟩
    · rintro h' rfl
      cases leaves with
      | added h' new room =>
        exact tree.mem_iff.mpr (List.mem_append_right _ List.mem_cons_self)
    · rintro rfl h' reply called ⟨isRequest, isMethod⟩
      have gone : a ∉ rest.map Prod.fst := admits.new stands.allocated
      have sub := admits.sublist
      rcases crowded rfl h' reply called isRequest isMethod with full | known
      · have shorter : rest.length < q.length := by
          refine lt_of_le_of_ne sub.length_le fun same => ?_
          rw [sub.eq_of_length same] at gone
          exact gone (List.mem_map_of_mem mem)
        exact absurd (stands.bounded.trans full) (not_le.mpr shorter)
      · obtain ⟨state, trips, -⟩ := eapMethodSelect_keeps called
        refine known (told.key_new fresh mem sub gone r.timestamp _ r.words state ?_)
        rw [trips]
        exact Nat.succ_ne_zero _

/-- A challenge can be answered: whatever other requests come before, the response reaches the
handler that has sent the challenge as it has been left, and if the method asks for another
response, the handler is on the list again. -/
theorem challenge_answered (inst : Rlm ω κ) (rs₁ rs₂ : List (Request κ))
    (fresh : Fresh (rs₁ ++ rs₂))
    (mem : (a, h) ∈ (Machine.after (step inst) .init rs₁).sessions.tree)
    (quiet : ∀ r ∈ rs₂, r.state ≠ some h.state.toList)
    (clock : ∀ r ∈ rs₂, r.timestamp - h.timestamp ≤ inst.timerLimit)
    (response : Response inst r h data) :
    ∃ o, Answered inst r a h data
      (radAuthenticate inst r (Machine.after (step inst) .init (rs₁ ++ rs₂))) o := by
  obtain ⟨q₁, stands₁, told₁⟩ := run_told inst rs₁
  obtain ⟨q₂, stands₂, told₂, listed⟩ :=
    outputs_keep rs₂ told₁ stands₁ (stands₁.holds.tree.mem_iff.mp mem) quiet clock
  have requests : (exchanges inst (rs₁ ++ rs₂)).map Exchange.request = rs₁ ++ rs₂ :=
    outputs_requests .init (rs₁ ++ rs₂)
  rw [exchanges, Machine.outputs_append] at requests
  rw [← requests] at fresh
  obtain ⟨-, o, -, answered⟩ := told₂.answered stands₂ fresh listed response
  rw [Machine.after_append]
  exact ⟨o, answered⟩

/-- A challenge, and its response after somebody else has started. -/
theorem echo_answered : ∃ (a : Nat) (h : Handler Unit) (o : Option (Handler Unit)),
    (a, h) ∈ (Machine.after (step echoInst) .init (echoRequests.take 1)).sessions.tree ∧
      Answered echoInst (echoRequest [2, 1, 0, 6, 4, 7] (some h.state.toList) 1) a h [7]
        (radAuthenticate echoInst (echoRequest [2, 1, 0, 6, 4, 7] (some h.state.toList) 1)
          (Machine.after (step echoInst) .init
            (echoRequests.take 1 ++ [echoRequest [2, 0, 0, 6, 1, 66] none 3]))) o := by
  have young : (0 : Int) - 0 ≤ 60 := by decide
  have fresh : Fresh (echoRequests.take 1 ++ [echoRequest [2, 0, 0, 6, 1, 66] none 3]) :=
    List.pairwise_pair.mpr ⟨0, by decide, by decide⟩
  have mem : ∃ (a : Nat) (h : Handler Unit),
      (a, h) ∈ (Machine.after (step echoInst) .init (echoRequests.take 1)).sessions.tree ∧
        h.eapId = 1 ∧ h.type = 4 ∧ h.identity = [65] ∧ h.trips = 0 ∧ h.timestamp = 0 :=
    ⟨0, _, List.mem_cons_self, rfl, rfl, rfl, rfl, rfl⟩
  obtain ⟨a, h, mem, id, type, identity, trips, timestamp⟩ := mem
  have response :
      Response echoInst (echoRequest [2, 1, 0, 6, 4, 7] (some h.state.toList) 1) h [7] := by
    refine ⟨⟨?_, ⟨_, [], rfl, by decide⟩, by decide⟩, ?_, rfl, rfl, ?_, ?_⟩
    · rw [id, type]
      rfl
    · rw [type]
      exact ⟨by decide, by decide, by decide, rfl⟩
    · rw [trips]
      decide
    · rw [timestamp]
      exact young
  obtain ⟨o, answered⟩ := challenge_answered echoInst _ _ fresh mem
    (fun r here => by
      obtain rfl := List.mem_singleton.mp here
      exact (Option.some_ne_none _).symm)
    (fun r here => by
      obtain rfl := List.mem_singleton.mp here
      rw [timestamp]
      exact young) response
  exact ⟨a, h, o, mem, answered⟩

end Response

end EdhocAuth.Radiusd
