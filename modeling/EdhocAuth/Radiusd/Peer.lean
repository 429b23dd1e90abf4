/-
A UE on a server that others use.

In each turn the server first gets any requests of others and then the answer of the UE to its last
challenge, and serves them one at a time. `peer_undisturbed`: if nobody else sends the States of its
challenges, its User-Name is right and it answers in time (`Undisturbed`), the UE gets what a session
of its own would send, as in `Eap.Link`, for as many turns as `eaplist_find` admits. An honest
handshake needs fewer, so it ends in an Access-Accept (`handshake_among_others`).
-/

import EdhocAuth.Radiusd.Availability
import EdhocAuth.Radiusd.Edhoc
import EdhocAuth.Eap.Rotation
import EdhocAuth.Upf.EndToEnd

namespace EdhocAuth.Radiusd

open Octets
open Eap (Session Coins Event Ue UeFiles UeCoins Link LinkCoins Flight Deployed modProcess
  receiveEdhoc modSessionInit)

variable {τ ρ : Type}

/-! ### Turns -/

/-- One turn: the requests of others, the randomness of the UE and the request that its answer is
put into. -/
structure Turn (ρ : Type) where
  others : List (Request (Coins × ρ))
  ue : UeCoins
  request : Request (Coins × ρ)

/-- How a packet is put into EAP-Message attributes. -/
structure Cut where
  pieces : List UInt8 → List (List UInt8)
  flatten : ∀ m, (pieces m).flatten = m
  first : ∀ m, 5 ≤ m.length → ∃ first rest, pieces m = first :: rest ∧ 5 ≤ first.length

/-- The request with the answer of the UE. -/
def Turn.answered (t : Turn ρ) (cut : Cut) (id : UInt8) (state : Block UInt8 eapStateLen)
    (answer : List UInt8) : Request (Coins × ρ) :=
  { t.request with
    eapMessages := cut.pieces (eapWireformat .response id typeEdhoc answer)
    state := some state.toList }

/-- What the UE waits for, or how its authentication has ended. -/
inductive Wait where
  | challenge (id : UInt8) (state : Block UInt8 eapStateLen) (data : List UInt8)
  | accepted (recvKey sendKey : List UInt8)
  | refused

/-- What a reply of the server is for the UE. -/
def Wait.of (reply : RadiusReply) : Wait :=
  match reply.code with
  | some .challenge =>
    match reply.state, reply.eapMessage with
    | some state, some packet => .challenge (packetId packet) state (typeData packet)
    | _, _ => .refused
  | some .accept =>
    match reply.keys with
    | some keys => .accepted keys.1 keys.2
    | none => .refused
  | _ => .refused

/-- The same on a link of its own. -/
def Wait.flight : Wait → Flight
  | .challenge _ _ data => .request data
  | .accepted recvKey sendKey => .success recvKey sendKey
  | .refused => .failed

/-- The UE and the server. `since` is when the server has sent its last challenge to the UE. -/
structure World (τ : Type) where
  ue : Ue
  server : Server (Session ⊕ τ)
  wait : Wait
  since : Int

section Turns

variable (P : Primitives UInt8) (files : UeFiles) (inst : Rlm (Session ⊕ τ) (Coins × ρ)) (cut : Cut)

def World.turn (t : Turn ρ) (w : World τ) : World τ :=
  match w.wait with
  | .challenge id state data =>
    match receiveEdhoc P files t.ue data w.ue with
    | (.ok answer, u) =>
      let server := Machine.after (step inst) w.server t.others
      let out := radAuthenticate inst (t.answered cut id state answer) server
      ⟨u, out.2, .of out.1.reply, t.request.timestamp⟩
    | (.error _, u) => { w with ue := u, wait := .refused }
  | .accepted _ _ | .refused => w

def World.run (turns : Nat → Turn ρ) (w : World τ) : Nat → World τ
  | 0 => w
  | n + 1 => (World.run turns w n).turn P files inst cut (turns n)

/-- A UE to which this handler has sent a challenge with these type data, after these requests. -/
def World.start (u : Ue) (rs : List (Request (Coins × ρ))) (h : Handler (Session ⊕ τ))
    (data : List UInt8) : World τ :=
  ⟨u, Machine.after (step inst) .init rs, .challenge h.eapId h.state data, h.timestamp⟩

end Turns

/-- The requests of the first `n` turns, up to what the answers of the UE are put into. -/
def requestsOf (turns : Nat → Turn ρ) (n : Nat) : List (Request (Coins × ρ)) :=
  (List.range n).flatMap fun i => (turns i).others ++ [(turns i).request]

/-- The randomness of the turns, as it is used on a link. -/
def linkCoins (turns : Nat → Turn ρ) (k : Nat) : LinkCoins :=
  ⟨(turns (k / 2)).ue, (turns (k / 2)).request.coins.1⟩

/-- A turn in which the others do not send this State, the identity is the right one and everything
comes in time, counted from `since`. -/
structure Undisturbed (l : Limits) (identity : List UInt8) (since : Int)
    (state : Block UInt8 eapStateLen) (t : Turn ρ) : Prop where
  quiet : ∀ r ∈ t.others, r.state ≠ some state.toList
  others : ∀ r ∈ t.others, r.timestamp - since ≤ l.timerLimit
  timely : t.request.timestamp - since ≤ l.timerLimit
  name : userNameOk identity t.request.userName = true

/-! ### One turn -/

section Turn

variable {P : Primitives UInt8} {keys : Eap.Instance} {files : UeFiles}
  {inst : Rlm (Session ⊕ τ) (Coins × ρ)} {cut : Cut}
  {r : Request (Coins × ρ)} {packet : List UInt8} {h : Handler (Session ⊕ τ)}

/-- A response of the method, and the session that `mod_process` finds. -/
structure Expected (h : Handler (Session ⊕ τ)) (s : Session) : Prop where
  type : h.type = typeEdhoc
  stage : h.stage = .process
  session : h.opaqueData = some (.inl s)

/-- A call of `eap_method_select` on it. -/
theorem eapMethodSelect_process {s : Session}
    (method : inst.methods typeEdhoc = some (edhocMethod P keys)) (expected : Expected h s)
    (isEdhoc : packetType packet = typeEdhoc) :
    eapMethodSelect inst r packet h =
      (eapReply (replyOf (modProcess P keys ⟨typeData packet, r.coins.1⟩ s).2)).map fun reply =>
        ({ h with
            opaqueData := some (.inl (modProcess P keys ⟨typeData packet, r.coins.1⟩ s).1),
            freeOpaque := false, stage := .process, started := true }, reply) := by
  obtain ⟨type, stage, session⟩ := expected
  rw [eapMethodSelect, isEdhoc]
  dsimp only
  rw [if_neg (by decide), if_neg (by decide), if_neg (by decide), method]
  obtain ⟨state, id, type', timestamp, identity, opaqueData, freeOpaque, stage', trips, started⟩ := h
  dsimp only at type stage session
  subst type stage session
  rw [Option.bind_eq_bind, Option.bind_some, eapModuleCall]
  dsimp only [edhocMethod]
  cases eapReply (replyOf (modProcess P keys ⟨typeData packet, r.coins.1⟩ s).2) with
  | none => rfl
  | some reply => rfl

/-- What the reply of `mod_process` becomes, and where the handler stays. -/
theorem Answered.wait {a : Nat} {s : Session} {data : List UInt8}
    {out : Outcome (Session ⊕ τ) × Server (Session ⊕ τ)} {o : Option (Handler (Session ⊕ τ))}
    (method : inst.methods typeEdhoc = some (edhocMethod P keys)) (expected : Expected h s)
    (answered : Answered inst r a h data out o) :
    (∃ wire h', replyOf (modProcess P keys ⟨data, r.coins.1⟩ s).2 = .request wire ∧
        (a, h') ∈ out.2.sessions.tree ∧ Wait.of out.1.reply = .challenge h'.eapId h'.state wire ∧
        Expected h' (modProcess P keys ⟨data, r.coins.1⟩ s).1 ∧ h'.trips = h.trips + 1 ∧
        h'.timestamp = r.timestamp ∧ h'.identity = h.identity) ∨
      (∀ wire, replyOf (modProcess P keys ⟨data, r.coins.1⟩ s).2 ≠ .request wire) ∧
        (Wait.of out.1.reply).flight =
          .after (some (.reply (replyOf (modProcess P keys ⟨data, r.coins.1⟩ s).2))) := by
  have found : Expected (h.found r) s := ⟨expected.type, expected.stage, expected.session⟩
  have isEdhoc : packetType (eapWireformat .response h.eapId h.type data) = typeEdhoc := by
    rw [expected.type]
    rfl
  have called := eapMethodSelect_process (r := r) method found isEdhoc
  rw [typeData_wireformat] at called
  generalize modProcess P keys ⟨data, r.coins.1⟩ s = processed at called ⊢
  obtain ⟨s', events⟩ := processed
  dsimp only at called ⊢
  generalize replyOf events = reply at called ⊢
  have settles := answered.settles
  generalize out.1.reply = sent at settles ⊢
  cases reply with
  | request wire =>
    have asks : ∀ {h' : Handler (Session ⊕ τ)} {reply : EapReply}, eapMethodSelect inst r
        (eapWireformat .response h.eapId h.type data) (h.found r) = some (h', reply) →
        reply = ⟨.request, typeEdhoc, wire, none⟩ ∧
          h' =
            { h.found r with
              opaqueData := some (.inl s'), freeOpaque := false, stage := .process,
              started := true } := by
      intro h' reply again
      rw [called] at again
      obtain ⟨rfl, rfl⟩ := Prod.mk.inj (Option.some.inj again)
      exact ⟨rfl, rfl⟩
    cases settles with
    | invalid failed =>
      rw [called] at failed
      cases failed
    | full h' reply again isRequest =>
      obtain ⟨rfl, -⟩ := asks again
      refine absurd ⟨rfl, ?_⟩ (answered.last rfl h' _ again)
      exact Nat.le_of_ble_eq_true rfl
    | ended h' reply again last =>
      obtain ⟨rfl, -⟩ := asks again
      refine absurd ⟨rfl, ?_⟩ last
      exact Nat.le_of_ble_eq_true rfl
    | stored h' reply again isRequest =>
      obtain ⟨rfl, rfl⟩ := asks again
      refine .inl ⟨wire, _, rfl, answered.listed _ rfl, ?_⟩
      generalize stamp : stamped inst.toLimits r.timestamp _ r.words _ = h'
      have kept : h'.eapId = packetId (eapWireformat .response h.eapId h.type data) + 1 ∧
          h'.type = h.type ∧ h'.stage = .process ∧ h'.opaqueData = some (.inl s') ∧
          h'.trips = h.trips + 1 ∧ h'.timestamp = r.timestamp ∧ h'.identity = h.identity := by
        rw [← stamp, stamped]
        dsimp only
        split <;> exact ⟨rfl, rfl, rfl, rfl, rfl, rfl, rfl⟩
      obtain ⟨id, type, stage, session, trips, timestamp, identity⟩ := kept
      refine ⟨?_, ⟨type.trans expected.type, stage, session⟩, trips, timestamp, identity⟩
      rw [id]
      rfl
  | success recvKey sendKey =>
    refine .inr ⟨fun _ => Eap.Reply.noConfusion, ?_⟩
    cases settles with
    | invalid failed =>
      rw [called] at failed
      cases failed
    | full h' reply again isRequest =>
      rw [called] at again
      obtain ⟨-, rfl⟩ := Prod.mk.inj (Option.some.inj again)
      cases isRequest
    | stored h' reply again isRequest =>
      rw [called] at again
      obtain ⟨-, rfl⟩ := Prod.mk.inj (Option.some.inj again)
      cases isRequest
    | ended h' reply again last =>
      rw [called] at again
      obtain ⟨-, rfl⟩ := Prod.mk.inj (Option.some.inj again)
      rfl
  | failure =>
    refine .inr ⟨fun _ => Eap.Reply.noConfusion, ?_⟩
    cases settles with
    | invalid failed => rfl
    | full h' reply again isRequest => cases called.symm.trans again
    | stored h' reply again isRequest => cases called.symm.trans again
    | ended h' reply again last => cases called.symm.trans again
  | dropped =>
    refine .inr ⟨fun _ => Eap.Reply.noConfusion, ?_⟩
    cases settles with
    | invalid failed => rfl
    | full h' reply again isRequest => cases called.symm.trans again
    | stored h' reply again isRequest => cases called.symm.trans again
    | ended h' reply again last => cases called.symm.trans again

end Turn

/-! ### What the server keeps for the UE -/

section Known

variable {P : Primitives UInt8} {keys : Eap.Instance} {files : UeFiles}
  {inst : Rlm (Session ⊕ τ) (Coins × ρ)} {cut : Cut} {t : Turn ρ} {r : Request (Coins × ρ)}
  {s : Server (Session ⊕ τ)} {a : Nat} {h : Handler (Session ⊕ τ)}
  {words : List (Block UInt8 eapStateLen)}

/-- A handler on the list of a server that has drawn these random octets. -/
def Known (inst : Rlm (Session ⊕ τ) (Coins × ρ)) (words : List (Block UInt8 eapStateLen))
    (s : Server (Session ⊕ τ)) (a : Nat) (h : Handler (Session ⊕ τ)) : Prop :=
  ∃ xs q, s.Stands inst q ∧ Told inst xs s.next q ∧ (a, h) ∈ q ∧
    xs.map (fun x => x.request.words) = words

/-- Every request draws its random octets. -/
theorem words_others (others : List (Request (Coins × ρ))) (s : Server (Session ⊕ τ)) :
    (Machine.outputs (step inst) s others).map (fun x => x.request.words) =
      others.map fun r => r.words := by
  have requests : (Machine.outputs (step inst) s others).map Exchange.request = others :=
    outputs_requests s others
  have parts := congrArg (List.map fun r : Request (Coins × ρ) => r.words) requests
  rw [List.map_map] at parts
  exact parts

/-- Freshness is one of the octets that are drawn. -/
theorem fresh_words {xs : List (Exchange (Session ⊕ τ) (Coins × ρ))} :
    Fresh (xs.map Exchange.request) ↔ (xs.map fun x => x.request.words).Pairwise Differ := by
  rw [Fresh, List.pairwise_map, List.pairwise_map]

/-- A server knows the handlers on its list. -/
theorem known_of_mem {rs : List (Request (Coins × ρ))}
    (mem : (a, h) ∈ (Machine.after (step inst) .init rs).sessions.tree) :
    Known inst (rs.map fun r => r.words) (Machine.after (step inst) .init rs) a h := by
  obtain ⟨q, stands, told⟩ := run_told inst rs
  exact ⟨exchanges inst rs, q, stands, told, stands.holds.tree.mem_iff.mp mem,
    words_others rs .init⟩

/-- Requests of others, and the response to the challenge of a handler. -/
theorem Known.served {others : List (Request (Coins × ρ))} {data : List UInt8}
    (known : Known inst words s a h)
    (fresh : (words ++ others.map fun r => r.words).Pairwise Differ)
    (quiet : ∀ r ∈ others, r.state ≠ some h.state.toList)
    (clock : ∀ r ∈ others, r.timestamp - h.timestamp ≤ inst.timerLimit)
    (response : Response inst r h data) :
    ∃ out o, out = radAuthenticate inst r (Machine.after (step inst) s others) ∧
      Answered inst r a h data out o ∧
      ∀ h', (a, h') ∈ out.2.sessions.tree →
        Known inst (words ++ (others.map (fun r => r.words) ++ [r.words])) out.2 a h' := by
  obtain ⟨xs, q, stands, told, mem, eq⟩ := known
  obtain ⟨q₂, stands₂, told₂, mem₂⟩ := outputs_keep others told stands mem quiet clock
  have words₂ : (xs ++ Machine.outputs (step inst) s others).map (fun x => x.request.words) =
      words ++ others.map fun r => r.words := by
    rw [List.map_append, words_others, eq]
  have fresh₂ : Fresh ((xs ++ Machine.outputs (step inst) s others).map Exchange.request) := by
    rw [fresh_words, words₂]
    exact fresh
  obtain ⟨q₃, o, serves, answered⟩ := told₂.answered stands₂ fresh₂ mem₂ response
  refine ⟨_, o, rfl, answered, ?_⟩
  intro h' listed
  refine ⟨_, q₃, serves.stands, told₂.step stands₂ serves,
    serves.stands.holds.tree.mem_iff.mp listed, ?_⟩
  rw [List.map_append, words₂, ← List.append_assoc]
  rfl

/-- The answer of the UE is a response to the challenge. -/
theorem Undisturbed.response {out : List UInt8} {session : Session}
    (method : inst.methods typeEdhoc = some (edhocMethod P keys))
    (undisturbed : Undisturbed inst.toLimits h.identity h.timestamp h.state t)
    (expected : Expected h session) (few : h.trips < maxTrips) (small : out.length ≤ 1000) :
    Response inst (t.answered cut h.eapId h.state out) h out := by
  obtain ⟨first, rest, pieces, long⟩ := cut.first (eapWireformat .response h.eapId typeEdhoc out)
    (by rw [length_wireformat]; omega)
  have isType : h.type = typeEdhoc := expected.type
  refine ⟨⟨?_, ⟨first, rest, pieces, long⟩, by omega⟩, ?_, rfl, ?_, few, ?_⟩
  · rw [isType]
    exact cut.flatten _
  · rw [isType]
    exact ⟨by decide, by decide, by decide, by rw [method]; rfl⟩
  · exact undisturbed.name
  · exact undisturbed.timely

end Known

/-! ### Many turns -/

section Run

variable {P : Primitives UInt8} {keys : Eap.Instance} {files : UeFiles}
  {inst : Rlm (Session ⊕ τ) (Coins × ρ)} {cut : Cut} {turns : Nat → Turn ρ}
  {rs : List (Request (Coins × ρ))} {a n : Nat} {h : Handler (Session ⊕ τ)} {w : World τ} {l : Link}

/-- The handler of the UE waits on the list, as the session of its own link does. -/
structure Waits (inst : Rlm (Session ⊕ τ) (Coins × ρ)) (identity : List UInt8)
    (words : List (Block UInt8 eapStateLen)) (n : Nat) (w : World τ) (l : Link) (wire : List UInt8)
    (a : Nat) (h : Handler (Session ⊕ τ)) : Prop where
  wait : w.wait = .challenge h.eapId h.state wire
  flight : l.flight = .request wire
  expected : Expected h l.session
  trips : h.trips = n
  identity : h.identity = identity
  since : h.timestamp = w.since
  known : Known inst words w.server a h

/-- The world after `n` turns and the link after twice as many deliveries. -/
structure Follows (inst : Rlm (Session ⊕ τ) (Coins × ρ)) (identity : List UInt8)
    (words : List (Block UInt8 eapStateLen)) (n : Nat) (w : World τ) (l : Link) : Prop where
  ue : w.ue = l.ue
  wait : (∃ wire a h, Waits inst identity words n w l wire a h) ∨
    w.wait.flight = l.flight ∧ (∀ wire, l.flight ≠ .request wire) ∧
      ∀ wire, l.flight ≠ .response wire

theorem Follows.flight {identity : List UInt8} {words : List (Block UInt8 eapStateLen)}
    (follows : Follows inst identity words n w l) : w.wait.flight = l.flight := by
  rcases follows.wait with ⟨wire, a, h, waits⟩ | ⟨same, -, -⟩
  · rw [waits.wait, waits.flight]
    rfl
  · exact same

/-- The last event of a call, as the link sees it. -/
theorem modProcess_getLast (r : Eap.Response) (s : Session) :
    (modProcess P keys r s).2.getLast? = some (.reply (replyOf (modProcess P keys r s).2)) := by
  obtain ⟨before, split, -⟩ := (modProcess_replies P keys r s).last
  generalize replyOf (modProcess P keys r s).2 = reply at split
  rw [split, List.getLast?_concat]

/-- Where no request is sent, nothing is in flight. -/
theorem after_reply_ne {reply : Eap.Reply} (never : ∀ wire, reply ≠ .request wire)
    (wire : List UInt8) :
    Flight.after (some (.reply reply)) ≠ .request wire ∧
      Flight.after (some (.reply reply)) ≠ .response wire := by
  cases reply with
  | request wire' => exact absurd rfl (never wire')
  | success recvKey sendKey => exact ⟨Flight.noConfusion, Flight.noConfusion⟩
  | failure => exact ⟨Flight.noConfusion, Flight.noConfusion⟩
  | dropped => exact ⟨Flight.noConfusion, Flight.noConfusion⟩

/-- One more turn, and two more deliveries. -/
theorem Waits.turn {l₀ : Link} {identity wire : List UInt8}
    {words : List (Block UInt8 eapStateLen)} {coins : Nat → LinkCoins} {k : Nat} {t : Turn ρ}
    (method : inst.methods typeEdhoc = some (edhocMethod P keys))
    (waits : Waits inst identity words n w l wire a h) (same : w.ue = l.ue)
    (here : Link.run P files keys coins l₀ k = l) (ue : (coins k).ue = t.ue)
    (server : (coins (k + 1)).server = t.request.coins.1) (few : n < maxTrips)
    (fresh : (words ++ t.others.map fun r => r.words).Pairwise Differ)
    (undisturbed : Undisturbed inst.toLimits identity w.since h.state t) :
    Follows inst identity (words ++ (t.others.map (fun r => r.words) ++ [t.request.words])) (n + 1)
      (w.turn P files inst cut t) (Link.run P files keys coins l₀ (k + 1 + 1)) := by
  rw [← waits.identity, ← waits.since] at undisturbed
  rw [World.turn, waits.wait]
  dsimp only
  rw [same]
  have delivered : Link.run P files keys coins l₀ (k + 1) = l.step P files keys (coins k) := by
    rw [Link.run, here]
  rw [Link.step, waits.flight] at delivered
  dsimp only at delivered
  rw [ue] at delivered
  cases answer : receiveEdhoc P files t.ue wire l.ue with
  | mk out u =>
  rw [answer] at delivered
  cases out with
  | error e =>
    dsimp only at delivered ⊢
    have ended : Link.run P files keys coins l₀ (k + 1 + 1) =
        { l with ue := u, notes := l.notes ++ Eap.ueNotes l.ue u, flight := .failed } := by
      rw [Link.run, delivered]
      rfl
    rw [ended]
    exact ⟨rfl, .inr ⟨rfl, fun _ => Flight.noConfusion, fun _ => Flight.noConfusion⟩⟩
  | ok out =>
    dsimp only at delivered ⊢
    have processed := Link.run_response delivered rfl (s := (modProcess P keys
      ⟨out, t.request.coins.1⟩ l.session).1) (by rw [server])
    rw [modProcess_getLast] at processed
    have response : Response inst (t.answered cut h.eapId h.state out) h out :=
      undisturbed.response method waits.expected (waits.trips.trans_lt few)
        (Upf.receiveEdhoc_length answer)
    obtain ⟨served, o, eq, answered, known⟩ :=
      waits.known.served fresh undisturbed.quiet undisturbed.others response
    rw [← eq, processed]
    -- what `mod_process` replies goes back to the UE
    rcases answered.wait method waits.expected with
      ⟨wire', h', reply, listed, waiting, expected, trips, timestamp, identity'⟩ | ⟨never, ended⟩
    · have request : replyOf (modProcess P keys ⟨out, t.request.coins.1⟩ l.session).2 =
        .request wire' := reply
      rw [request]
      exact ⟨rfl, .inl ⟨wire', a, h', waiting, rfl, expected, trips.trans (by rw [waits.trips]),
        identity'.trans waits.identity, timestamp, known h' listed⟩⟩
    · exact ⟨rfl, .inr ⟨ended, fun wire => (after_reply_ne never wire).1,
        fun wire => (after_reply_ne never wire).2⟩⟩

/-- When the authentication has ended, nothing more happens. -/
theorem Follows.ended {identity : List UInt8} {words : List (Block UInt8 eapStateLen)}
    {l₀ : Link} {coins : Nat → LinkCoins} {k : Nat} {t : Turn ρ}
    (here : Link.run P files keys coins l₀ k = l) (same : w.ue = l.ue)
    (flight : w.wait.flight = l.flight) (request : ∀ wire, l.flight ≠ .request wire)
    (response : ∀ wire, l.flight ≠ .response wire) :
    Follows inst identity words n (w.turn P files inst cut t)
      (Link.run P files keys coins l₀ (k + 1 + 1)) := by
  have stays : ∀ c, l.step P files keys c = l := by
    intro c
    rw [Link.step]
    split
    · next wire sent => exact absurd sent (request wire)
    · next wire sent => exact absurd sent (response wire)
    · rfl
    · rfl
  have turned : w.turn P files inst cut t = w := by
    rw [World.turn]
    split
    · next id state data waiting =>
      rw [waiting] at flight
      exact absurd flight.symm (request data)
    · rfl
    · rfl
  rw [Link.run, Link.run, here, stays, stays, turned]
  exact ⟨same, .inr ⟨flight, request, response⟩⟩

theorem requestsOf_succ (turns : Nat → Turn ρ) (n : Nat) :
    requestsOf turns (n + 1) =
      requestsOf turns n ++ ((turns n).others ++ [(turns n).request]) := by
  rw [requestsOf, List.range_succ, List.flatMap_append, requestsOf]
  simp

/-- Later turns add requests. -/
theorem requestsOf_sublist {m : Nat} (le : n ≤ m) :
    (requestsOf turns n).Sublist (requestsOf turns m) := by
  induction le with
  | refl => exact List.Sublist.refl _
  | step _ ih =>
    rw [Nat.succ_eq_add_one, requestsOf_succ]
    exact ih.trans (List.sublist_append_left _ _)

/-- As long as turns are served, the UE on the shared server follows the link. -/
theorem run_follows {u : Ue} {session : Session} {wire : List UInt8}
    (method : inst.methods typeEdhoc = some (edhocMethod P keys))
    (mem : (a, h) ∈ (Machine.after (step inst) .init rs).sessions.tree)
    (expected : Expected h session) (first : h.trips = 0)
    (fresh : Fresh (rs ++ requestsOf turns maxTrips))
    (undisturbed : ∀ n < maxTrips, ∀ id state data,
      (World.run P files inst cut turns (World.start inst u rs h wire) n).wait =
        .challenge id state data →
      Undisturbed inst.toLimits h.identity
        (World.run P files inst cut turns (World.start inst u rs h wire) n).since state (turns n))
    (le : n ≤ maxTrips) :
    Follows inst h.identity ((rs ++ requestsOf turns n).map fun r => r.words) n
      (World.run P files inst cut turns (World.start inst u rs h wire) n)
      (Link.run P files keys (linkCoins turns) ⟨u, session, [], .request wire⟩ (2 * n)) := by
  induction n with
  | zero =>
    refine ⟨rfl, .inl ⟨wire, a, h, rfl, rfl, expected, first, rfl, rfl, ?_⟩⟩
    rw [requestsOf, List.range_zero, List.flatMap_nil, List.append_nil]
    exact known_of_mem mem
  | succ n ih =>
    have follows := ih (Nat.le_of_succ_le le)
    have more : (rs ++ requestsOf turns (n + 1)).map (fun r => r.words) =
        (rs ++ requestsOf turns n).map (fun r => r.words) ++
          ((turns n).others.map (fun r => r.words) ++ [(turns n).request.words]) := by
      rw [requestsOf_succ, ← List.append_assoc, List.map_append]
      simp
    rw [World.run, Nat.mul_succ]
    rcases follows.wait with ⟨wire', a', h', waits⟩ | ⟨flight, request, response⟩
    · rw [more]
      have odd : (2 * n + 1) / 2 = n := by omega
      have even : 2 * n / 2 = n := by omega
      refine waits.turn method follows.ue rfl ?_ ?_ le ?_ (undisturbed n le _ _ _ waits.wait)
      · rw [linkCoins, even]
      · rw [linkCoins, odd]
      · have part : ((rs ++ requestsOf turns n).map (fun r => r.words) ++
            (turns n).others.map fun r => r.words).Sublist
            ((rs ++ requestsOf turns maxTrips).map fun r => r.words) := by
          have all : (rs ++ requestsOf turns (n + 1)).Sublist (rs ++ requestsOf turns maxTrips) :=
            (requestsOf_sublist le).append_left rs
          refine List.Sublist.trans ?_ (all.map fun r => r.words)
          rw [more]
          exact (List.sublist_append_left _ _).append_left _
        rw [Fresh, ← List.pairwise_map] at fresh
        exact fresh.sublist part
    · exact Follows.ended rfl follows.ue flight request response

/-- For as many turns as `eaplist_find` admits, a UE whose challenges nobody else answers, and that
answers in time, does and gets what it would with a session of its own: whatever the others send,
and whether its requests and responses are well formed or not. -/
theorem peer_undisturbed (P : Primitives UInt8) (keys : Eap.Instance) (files : UeFiles)
    (inst : Rlm (Session ⊕ τ) (Coins × ρ)) (cut : Cut) (turns : Nat → Turn ρ)
    (rs : List (Request (Coins × ρ))) (u : Ue) (session : Session) (wire : List UInt8)
    (method : inst.methods typeEdhoc = some (edhocMethod P keys))
    (mem : (a, h) ∈ (Machine.after (step inst) .init rs).sessions.tree)
    (expected : Expected h session) (first : h.trips = 0)
    (fresh : Fresh (rs ++ requestsOf turns maxTrips))
    (undisturbed : ∀ n < maxTrips, ∀ id state data,
      (World.run P files inst cut turns (World.start inst u rs h wire) n).wait =
        .challenge id state data →
      Undisturbed inst.toLimits h.identity
        (World.run P files inst cut turns (World.start inst u rs h wire) n).since state (turns n)) :
    ∀ n ≤ maxTrips,
      (World.run P files inst cut turns (World.start inst u rs h wire) n).ue =
        (Link.run P files keys (linkCoins turns) ⟨u, session, [], .request wire⟩ (2 * n)).ue ∧
      (World.run P files inst cut turns (World.start inst u rs h wire) n).wait.flight =
        (Link.run P files keys (linkCoins turns) ⟨u, session, [], .request wire⟩
          (2 * n)).flight := by
  intro n le
  have follows := run_follows method mem expected first fresh undisturbed le
  exact ⟨follows.ue, follows.flight⟩

/-- After a success the link stays as it is. -/
theorem run_success {coins : Nat → LinkCoins} {l₀ : Link} {k : Nat} {recvKey sendKey : List UInt8}
    (success : (Link.run P files keys coins l₀ k).flight = .success recvKey sendKey) {m : Nat}
    (le : k ≤ m) : Link.run P files keys coins l₀ m = Link.run P files keys coins l₀ k := by
  induction le with
  | refl => rfl
  | step _ ih => rw [Nat.succ_eq_add_one, Link.run, ih, Link.step, success]

/-- What the server has been through, and the Access-Accept that the UE has got. -/
structure Served (inst : Rlm (Session ⊕ τ) (Coins × ρ)) (w : World τ)
    (rs : List (Request (Coins × ρ))) : Prop where
  server : w.server = Machine.after (step inst) .init rs
  accepted : ∀ recvKey sendKey, w.wait = .accepted recvKey sendKey →
    ∃ before x, exchanges inst rs = before ++ [x] ∧ x.outcome.reply.code = some .accept ∧
      x.outcome.reply.keys = some (recvKey, sendKey) ∧ packetType x.packet = typeEdhoc

/-- The UE has been accepted with these keys. -/
theorem Wait.of_accepted {reply : RadiusReply} {recvKey sendKey : List UInt8}
    (accepted : Wait.of reply = .accepted recvKey sendKey) :
    reply.code = some .accept ∧ reply.keys = some (recvKey, sendKey) := by
  rw [Wait.of] at accepted
  split at accepted
  · split at accepted
    · cases accepted
    · cases accepted
  · next code =>
    split at accepted
    · next keys some =>
      obtain ⟨rfl, rfl⟩ := Wait.accepted.inj accepted
      exact ⟨code, some⟩
    · cases accepted
  · cases accepted

/-- The exchange in which a response of the UE is accepted. -/
theorem accepted_isEdhoc {t : Turn ρ} {id : UInt8} {state : Block UInt8 eapStateLen}
    {answer : List UInt8} {before : List (Exchange (Session ⊕ τ) (Coins × ρ))}
    {x : Exchange (Session ⊕ τ) (Coins × ρ)}
    (method : inst.methods typeEdhoc = some (edhocMethod P keys)) (small : answer.length ≤ 1000)
    (split : exchanges inst rs = before ++ [x])
    (request : x.request = t.answered cut id state answer)
    (accept : x.outcome.reply.code = some .accept) : packetType x.packet = typeEdhoc := by
  obtain ⟨b, here, conversation, -⟩ := accept_conversation split accept
  obtain ⟨packet, e, admitted, parsed, -⟩ := conversation.settles
  obtain ⟨first, rest, pieces, long⟩ := cut.first (eapWireformat .response id typeEdhoc answer)
    (by rw [length_wireformat]; omega)
  have delivers : Delivers x.request id typeEdhoc answer := by
    rw [request]
    exact ⟨cut.flatten _, ⟨first, rest, pieces, long⟩, by omega⟩
  rw [delivers.parse ⟨by decide, by decide, by decide, by rw [method]; rfl⟩] at parsed
  obtain rfl := Option.some.inj parsed
  rw [packet_of_admitted admitted]
  rfl

/-- The requests that the server has got by the end of a turn. -/
theorem World.turn_served {t : Turn ρ} (method : inst.methods typeEdhoc = some (edhocMethod P keys))
    (served : Served inst w rs) : ∃ rs', Served inst (w.turn P files inst cut t) (rs ++ rs') := by
  have same : Served inst w (rs ++ []) := by rwa [List.append_nil]
  rw [World.turn]
  split
  · next id state data waiting =>
    split
    · next answer u answered =>
      refine ⟨t.others ++ [t.answered cut id state answer], ?_, ?_⟩
      · rw [← List.append_assoc, Machine.after_concat, Machine.after_append, ← served.server]
        rfl
      · intro recvKey sendKey accepted
        obtain ⟨code, keys⟩ := Wait.of_accepted accepted
        have split : exchanges inst (rs ++ (t.others ++ [t.answered cut id state answer])) =
            exchanges inst (rs ++ t.others) ++ [⟨t.answered cut id state answer,
              (radAuthenticate inst (t.answered cut id state answer)
                (Machine.after (step inst) w.server t.others)).1⟩] := by
          rw [← List.append_assoc, exchanges, Machine.outputs_append, Machine.after_append,
            ← served.server]
          rfl
        exact ⟨_, _, split, code, keys,
          accepted_isEdhoc method (Upf.receiveEdhoc_length answered) split rfl code⟩
    · next e u failed =>
      refine ⟨[], ?_, fun _ _ => Wait.noConfusion⟩
      rw [List.append_nil]
      exact served.server
  · exact ⟨[], same⟩
  · exact ⟨[], same⟩

/-- Every turn is served by the server after the requests before. -/
theorem World.run_served {u : Ue} {wire : List UInt8} (n : Nat)
    (method : inst.methods typeEdhoc = some (edhocMethod P keys)) :
    ∃ rs', Served inst (World.run P files inst cut turns (World.start inst u rs h wire) n)
      (rs ++ rs') := by
  induction n with
  | zero =>
    refine ⟨[], ?_, fun _ _ => Wait.noConfusion⟩
    rw [List.append_nil]
    rfl
  | succ n ih =>
    obtain ⟨rs', served⟩ := ih
    obtain ⟨more, later⟩ := World.turn_served (t := turns n) method served
    rw [List.append_assoc] at later
    exact ⟨_, later⟩

/-- An honest handshake is over after at most 35 turns. -/
theorem run_accepts {I R : Edhoc4.Creds UInt8} {u v : Ue} (correct : P.Correct)
    (deployed : Deployed P files keys I R) (ready : u.Ready files I R.kemPk v) (cut : Cut)
    (method : inst.methods typeEdhoc = some (edhocMethod P keys))
    (mem : (a, h) ∈ (Machine.after (step inst) .init rs).sessions.tree)
    (started : Expected h modSessionInit) (first : h.trips = 0)
    (fresh : Fresh (rs ++ requestsOf turns maxTrips))
    (undisturbed : ∀ n < maxTrips, ∀ id state data,
      (World.run P files inst cut turns (World.start inst u rs h [0x01]) n).wait =
        .challenge id state data →
      Undisturbed inst.toLimits h.identity
        (World.run P files inst cut turns (World.start inst u rs h [0x01]) n).since state
          (turns n)) :
    ∃ l : Link, l.Succeeds P (linkCoins turns) ∧
      (World.run P files inst cut turns (World.start inst u rs h [0x01]) 35).ue = l.ue ∧
      (World.run P files inst cut turns (World.start inst u rs h [0x01]) 35).wait =
        .accepted (l.ue.ctx.msk.toList.take 32) ((l.ue.ctx.msk.toList.drop 32).take 32) := by
  obtain ⟨k, soon, succeeds⟩ := ready.lockstep_soon correct deployed (linkCoins turns)
  have later := run_success succeeds.flight soon
  have follows := run_follows (u := u) (n := 35) method mem started first fresh undisturbed
    (by decide)
  have ended : Link.run P files keys (linkCoins turns) ⟨u, modSessionInit, [], .request [0x01]⟩
      (2 * 35) = Link.run P files keys (linkCoins turns) (Link.startFrom u) k := later
  have ue := follows.ue
  have flight := follows.flight
  rw [ended] at ue flight
  rw [succeeds.flight] at flight
  refine ⟨_, succeeds, ue, ?_⟩
  generalize World.run P files inst cut turns (World.start inst u rs h [0x01]) 35 = w at flight
  obtain ⟨_, _, wait, _⟩ := w
  cases wait with
  | challenge id state data => cases flight
  | refused => cases flight
  | accepted recvKey sendKey =>
    obtain ⟨rfl, rfl⟩ := Flight.success.inj flight
    rfl

/-- An honest handshake ends, after at most 35 turns, in an Access-Accept with the keys of the UE,
whatever the others send meanwhile. -/
theorem handshake_among_others {I R : Edhoc4.Creds UInt8} {u v : Ue} (correct : P.Correct)
    (deployed : Deployed P files keys I R) (ready : u.Ready files I R.kemPk v) (cut : Cut)
    (method : inst.methods typeEdhoc = some (edhocMethod P keys))
    (mem : (a, h) ∈ (Machine.after (step inst) .init rs).sessions.tree)
    (started : Expected h modSessionInit) (first : h.trips = 0)
    (fresh : Fresh (rs ++ requestsOf turns maxTrips))
    (undisturbed : ∀ n < maxTrips, ∀ id state data,
      (World.run P files inst cut turns (World.start inst u rs h [0x01]) n).wait =
        .challenge id state data →
      Undisturbed inst.toLimits h.identity
        (World.run P files inst cut turns (World.start inst u rs h [0x01]) n).since state
          (turns n)) :
    ∃ w rs', World.run P files inst cut turns (World.start inst u rs h [0x01]) 35 = w ∧
      w.ue.round = .complete ∧
      w.wait = .accepted (w.ue.ctx.msk.toList.take 32) ((w.ue.ctx.msk.toList.drop 32).take 32) ∧
      Served inst w (rs ++ rs') := by
  obtain ⟨l, succeeds, ue, wait⟩ :=
    run_accepts correct deployed ready cut method mem started first fresh undisturbed
  obtain ⟨rs', served⟩ : ∃ rs', Served inst
      (World.run P files inst cut turns (World.start inst u rs h [0x01]) 35) (rs ++ rs') :=
    World.run_served 35 method
  refine ⟨_, rs', rfl, ?_, ?_, served⟩
  · rw [ue]
    exact succeeds.round
  · rw [wait, ue]

end Run

/-! ### A shared server -/

section Demo

open Transparent (primitives)
open Eap (demoConfig demoInstance demoCoins demo_deployed nasSmInit)

/-- A server that starts the EDHOC method and keeps up to eight sessions for a minute. -/
def sharedInst : Rlm (Session ⊕ Unit) (Coins × Unit) where
  timerLimit := 60
  maxSessions := 8
  version := 0
  defaultMethod := typeEdhoc
  methods :=
    fun type => if type = typeEdhoc then some (edhocMethod primitives demoInstance) else none
  allowEmptyIdentities := false
  ignoreUnknownTypes := false
  tlsOk := fun _ => true

/-- The Identity response `A`, on which the server draws these random octets. -/
def hello (b : UInt8) : Request (Coins × Unit) where
  eapMessages := [[2, 0, 0, 6, 1, 65]]
  state := none
  userName := none
  timestamp := 0
  configType := none
  words := Block.fill eapStateLen b
  coins := (demoCoins.server, ())

/-- A turn in which somebody else says hello before the UE answers. -/
def sharedTurn (n : Nat) : Turn Unit :=
  ⟨[hello (UInt8.ofNat (2 * n + 1))], demoCoins.ue, hello (UInt8.ofNat (2 * n + 2))⟩

def wholeCut : Cut where
  pieces := fun m => [m]
  flatten := by simp
  first := fun m long => ⟨m, [], rfl, long⟩

/-- Random octets that differ in the first one are fresh. -/
theorem Fresh.of_nodup {rs : List (Request (Coins × Unit))}
    (nodup : (rs.map fun r => r.words.get 0).Nodup) : Fresh rs := by
  rw [List.Nodup, List.pairwise_map] at nodup
  exact nodup.imp fun other => ⟨0, by decide, other⟩

theorem shared_since (files : UeFiles) (u : Ue) (h : Handler (Session ⊕ Unit)) (wire : List UInt8)
    (start : h.timestamp = 0) (n : Nat) : (World.run primitives files sharedInst wholeCut sharedTurn
      (World.start sharedInst u [hello 0] h wire) n).since = 0 := by
  induction n with
  | zero => exact start
  | succ n ih =>
    rw [World.run, World.turn]
    split
    · split
      · rfl
      · exact ih
    · exact ih
    · exact ih

/-- The turns of the example do not disturb the UE. -/
theorem shared_undisturbed (files : UeFiles) (u : Ue) (h : Handler (Session ⊕ Unit))
    (wire : List UInt8) (start : h.timestamp = 0) (n : Nat) (state : Block UInt8 eapStateLen) :
    Undisturbed sharedInst.toLimits h.identity (World.run primitives files sharedInst wholeCut
      sharedTurn (World.start sharedInst u [hello 0] h wire) n).since state (sharedTurn n) := by
  rw [shared_since files u h wire start]
  have young : (0 : Int) - 0 ≤ 60 := by decide
  refine ⟨?_, ?_, young, rfl⟩
  · intro r mem
    obtain rfl := List.mem_singleton.mp mem
    exact (Option.some_ne_none _).symm
  · intro r mem
    obtain rfl := List.mem_singleton.mp mem
    exact young

/-- The random octets of the example are fresh. -/
theorem shared_fresh : Fresh ([hello 0] ++ requestsOf sharedTurn maxTrips) :=
  Fresh.of_nodup (by decide +kernel)

/-- The handler that the hello of the UE leaves on the list. -/
theorem shared_handler : ∃ a h,
    (a, h) ∈ (Machine.after (step sharedInst) .init [hello 0]).sessions.tree ∧
      Expected h modSessionInit ∧ h.trips = 0 ∧ h.timestamp = 0 :=
  ⟨0, _, List.mem_cons_self, ⟨rfl, rfl, rfl⟩, rfl, rfl⟩

/-- The whole handshake of a UE, and thirty-five others that start. -/
theorem shared_handshake : ∃ h w rs', World.run primitives demoConfig.files sharedInst wholeCut
    sharedTurn (World.start sharedInst nasSmInit [hello 0] h [0x01]) 35 = w ∧
      w.ue.round = .complete ∧
      w.wait = .accepted (w.ue.ctx.msk.toList.take 32) ((w.ue.ctx.msk.toList.drop 32).take 32) ∧
      Served sharedInst w ([hello 0] ++ rs') := by
  obtain ⟨a, h, mem, started, first, start⟩ := shared_handler
  exact ⟨h, handshake_among_others Transparent.primitives_correct demo_deployed demo_deployed.ready
    wholeCut rfl mem started first shared_fresh
    fun n _ _ state _ _ => shared_undisturbed _ nasSmInit h [0x01] start n state⟩

/-- A UE that has not been provisioned is in the same way not disturbed. -/
theorem shared_peer : ∃ h, ∀ n ≤ maxTrips,
    (World.run primitives ⟨none, none⟩ sharedInst wholeCut sharedTurn
        (World.start sharedInst nasSmInit [hello 0] h [0x01]) n).ue =
      (Link.run primitives ⟨none, none⟩ demoInstance (linkCoins sharedTurn)
        ⟨nasSmInit, modSessionInit, [], .request [0x01]⟩ (2 * n)).ue ∧
    (World.run primitives ⟨none, none⟩ sharedInst wholeCut sharedTurn
        (World.start sharedInst nasSmInit [hello 0] h [0x01]) n).wait.flight =
      (Link.run primitives ⟨none, none⟩ demoInstance (linkCoins sharedTurn)
        ⟨nasSmInit, modSessionInit, [], .request [0x01]⟩ (2 * n)).flight := by
  obtain ⟨a, h, mem, started, first, start⟩ := shared_handler
  exact ⟨h, peer_undisturbed primitives demoInstance ⟨none, none⟩ sharedInst wholeCut sharedTurn
    [hello 0] nasSmInit modSessionInit [0x01] rfl mem started first shared_fresh
    fun n _ _ state _ _ => shared_undisturbed _ nasSmInit h [0x01] start n state⟩

/-- The Access-Accept of the handshake. -/
theorem shared_justified : ∃ rs before x a s events ps recvKey sendKey,
    exchanges sharedInst rs = before ++ [x] ∧ x.outcome.reply.code = some .accept ∧
      packetType x.packet = typeEdhoc ∧ x.handler = some a ∧
      Runs primitives demoInstance (exchangesOf a before ++ [x]) s
        (events ++ [.reply (.success recvKey sendKey)]) ps ∧
      Eap.Justified events recvKey sendKey ∧ x.outcome.reply.keys = some (recvKey, sendKey) := by
  obtain ⟨a, h, mem, started, first, start⟩ := shared_handler
  obtain ⟨l, -, -, wait⟩ := run_accepts Transparent.primitives_correct demo_deployed
    demo_deployed.ready wholeCut rfl mem started first shared_fresh
    fun n _ _ state _ _ => shared_undisturbed _ nasSmInit h [0x01] start n state
  obtain ⟨rs', served⟩ : ∃ rs', Served sharedInst
      (World.run primitives demoConfig.files sharedInst wholeCut sharedTurn
        (World.start sharedInst nasSmInit [hello 0] h [0x01]) 35) ([hello 0] ++ rs') :=
    World.run_served 35 rfl
  obtain ⟨before, x, split, accept, -, type⟩ := served.accepted _ _ wait
  obtain ⟨a, s, events, ps, recvKey, sendKey, justified⟩ :=
    edhoc_accept_justified primitives demoInstance sharedInst rfl
      ([hello 0] ++ rs') split accept type
  exact ⟨_, before, x, a, s, events, ps, recvKey, sendKey, split, accept, type, justified⟩

end Demo

end EdhocAuth.Radiusd
