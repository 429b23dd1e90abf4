/-
Conversations on one server.

The requests of all peers reach the server in any order, with any State and any identifier.
`Conversation` is what one of them would see that has the server for itself: it starts with an
Identity response, and every later exchange carries the State and the identifier of the challenge
before it and calls a method on the handler as that exchange left it. `run_told`: the exchanges of a
run that were admitted to one handler are always a conversation. The requests of a run are served
one at a time.
-/

import EdhocAuth.Lib.Machine
import EdhocAuth.Radiusd.Admission
import Mathlib.Data.List.Pairwise

namespace EdhocAuth.Radiusd

open Octets

variable {ω κ : Type}

/-! ### Conversations -/

def Exchange.handler (x : Exchange ω κ) : Option Nat := x.outcome.admitted.map fun p => p.1.1

def exchangesOf (a : Nat) (xs : List (Exchange ω κ)) : List (Exchange ω κ) :=
  xs.filter fun x => x.handler = some a

/-- A conversation with the handler `a`, and how it leaves the handler if it is not over. -/
inductive Conversation (inst : Rlm ω κ) (a : Nat) :
    List (Exchange ω κ) → Option (Handler ω) → Prop
  /-- An Identity response, whose identity is the User-Name of the request. -/
  | starts (x : Exchange ω κ) (packet identity : List UInt8) (o : Option (Handler ω))
      (admitted : x.outcome.admitted =
        some ((a, eapHandlerAlloc identity x.request.timestamp), packet))
      (parsed : x.request.parse inst = some packet) (isIdentity : packetType packet = typeIdentity)
      (name : userNameOk identity x.request.userName = true)
      (settles : Settles inst x.request packet (eapHandlerAlloc identity x.request.timestamp)
        x.outcome.reply o) :
      Conversation inst a [x] o
  /-- A response to the last challenge, of the same type and for the same User-Name. -/
  | continues (es : List (Exchange ω κ)) (h : Handler ω) (old : Conversation inst a es (some h))
      (x : Exchange ω κ) (packet : List UInt8) (o : Option (Handler ω))
      (admitted : x.outcome.admitted =
        some ((a, { h with trips := h.trips + 1, timestamp := x.request.timestamp }), packet))
      (parsed : x.request.parse inst = some packet) (other : packetType packet ≠ typeIdentity)
      (id : packetId packet = h.eapId) (state : x.request.state = some h.state.toList)
      (few : h.trips < maxTrips) (type : packetType packet = typeNak ∨ packetType packet = h.type)
      (name : userNameOk h.identity x.request.userName = true)
      (settles : Settles inst x.request packet
        { h with trips := h.trips + 1, timestamp := x.request.timestamp } x.outcome.reply o) :
      Conversation inst a (es ++ [x]) o

/-- What is known of a run: `xs` are its exchanges so far, `q` the sessions. -/
structure Told (inst : Rlm ω κ) (xs : List (Exchange ω κ)) (next : Nat) (q : List (Entry ω)) :
    Prop where
  allocated : ∀ x ∈ xs, ∀ a, x.handler = some a → a < next
  told : ∀ a, exchangesOf a xs ≠ [] → ∃ o, Conversation inst a (exchangesOf a xs) o
  listed : ∀ e ∈ q, Conversation inst e.1 (exchangesOf e.1 xs) (some e.2)
  /-- A request that reaches no handler gets neither an Access-Accept nor keys. -/
  refused : ∀ x ∈ xs, x.handler = none →
    x.outcome.reply.code ≠ some .accept ∧ x.outcome.reply.keys = none

variable {inst : Rlm ω κ} {xs : List (Exchange ω κ)} {x : Exchange ω κ} {a next : Nat}
  {q q' rest : List (Entry ω)} {e : Entry ω} {r : Request κ} {packet : List UInt8}

/-! ### One request -/

theorem exchangesOf_append (a : Nat) (xs ys : List (Exchange ω κ)) :
    exchangesOf a (xs ++ ys) = exchangesOf a xs ++ exchangesOf a ys := List.filter_append ..

theorem exchangesOf_concat_self (here : x.handler = some a) :
    exchangesOf a (xs ++ [x]) = exchangesOf a xs ++ [x] := by
  rw [exchangesOf_append, exchangesOf, exchangesOf, List.filter_singleton]
  simp [here]

theorem exchangesOf_concat_other (other : x.handler ≠ some a) :
    exchangesOf a (xs ++ [x]) = exchangesOf a xs := by
  rw [exchangesOf_append, exchangesOf, exchangesOf, List.filter_singleton]
  simp [other]

/-- No exchange was admitted to a handler that is allocated later. -/
theorem exchangesOf_eq_nil (new : ∀ x ∈ xs, ∀ b, x.handler = some b → b < a) :
    exchangesOf a xs = [] := by
  rw [exchangesOf, List.filter_eq_nil_iff]
  intro x mem here
  exact lt_irrefl a (new x mem a (by simpa using here))

/-- A request that is admitted to a handler starts or continues its conversation. -/
theorem Told.converses {o : Option (Handler ω)} (told : Told inst xs next q)
    (admitted : x.outcome.admitted = some (e, packet))
    (parsed : x.request.parse inst = some packet)
    (admits : Admits inst x.request packet next q e rest)
    (settles : Settles inst x.request packet e.2 x.outcome.reply o) :
    Conversation inst e.1 (exchangesOf e.1 (xs ++ [x])) o := by
  have here : x.handler = some e.1 := by rw [Exchange.handler, admitted]; rfl
  rw [exchangesOf_concat_self here]
  cases admits with
  | starts identity isIdentity name =>
    rw [exchangesOf_eq_nil fun y mem b => told.allocated y mem b]
    exact .starts x packet identity o admitted parsed isIdentity name settles
  | continues a h rest mem other id state few type name sub gone =>
    exact .continues _ h (told.listed (a, h) mem) x packet o admitted parsed other id.symm state few
      type name settles

/-- One more request continues one conversation, or starts one, or continues none. -/
theorem Told.step {s : Server ω} {out : Outcome ω × Server ω} (told : Told inst xs s.next q)
    (stands : s.Stands inst q) (serves : Serves inst r s q out q') :
    Told inst (xs ++ [⟨r, out.1⟩]) out.2.next q' := by
  have allocated : ∀ x ∈ xs ++ [⟨r, out.1⟩], ∀ a, x.handler = some a → a < out.2.next := by
    intro x mem a here
    rcases List.mem_append.mp mem with mem | mem
    · exact (told.allocated x mem a here).trans_le serves.later
    · obtain rfl := List.mem_singleton.mp mem
      obtain ⟨p, admitted, rfl⟩ := Option.map_eq_some_iff.mp here
      exact serves.allocated p.1 p.2 admitted
  obtain ⟨outcome, s'⟩ := out
  have does := serves.does
  dsimp only at does allocated ⊢
  cases does with
  | nothing rcode reply q' kept code keys state =>
    have refused : ∀ x ∈ xs ++ [⟨r, ⟨rcode, reply, none⟩⟩], x.handler = none →
        x.outcome.reply.code ≠ some .accept ∧ x.outcome.reply.keys = none := by
      intro x mem
      rcases List.mem_append.mp mem with mem | mem
      · exact told.refused x mem
      · obtain rfl := List.mem_singleton.mp mem
        exact fun _ => ⟨code, keys⟩
    have same : ∀ a, exchangesOf a (xs ++ [⟨r, ⟨rcode, reply, none⟩⟩]) = exchangesOf a xs :=
      fun a => exchangesOf_concat_other (by simp [Exchange.handler])
    refine ⟨allocated, ?_, ?_, refused⟩
    · intro a some
      rw [same] at some ⊢
      exact told.told a some
    · intro e mem
      rw [same]
      exact told.listed e (kept.sub.mem mem)
  | converses rcode reply q' packet e rest o parsed admits kept settles leaves crowded =>
    have here : Conversation inst e.1
        (exchangesOf e.1 (xs ++ [⟨r, ⟨rcode, reply, some (e, packet)⟩⟩])) o :=
      told.converses rfl parsed admits settles
    have others : ∀ a, a ≠ e.1 → exchangesOf a (xs ++ [⟨r, ⟨rcode, reply, some (e, packet)⟩⟩]) =
        exchangesOf a xs := by
      intro a other
      exact exchangesOf_concat_other (by simpa [Exchange.handler] using other.symm)
    have new : e.1 ∉ rest.map Prod.fst := admits.new stands.allocated
    have refused : ∀ x ∈ xs ++ [⟨r, ⟨rcode, reply, some (e, packet)⟩⟩], x.handler = none →
        x.outcome.reply.code ≠ some .accept ∧ x.outcome.reply.keys = none := by
      intro x mem none
      rcases List.mem_append.mp mem with mem | mem
      · exact told.refused x mem none
      · obtain rfl := List.mem_singleton.mp mem
        cases none
    refine ⟨allocated, ?_, ?_, refused⟩
    · intro a some
      by_cases same : a = e.1
      · subst same
        exact ⟨o, here⟩
      · rw [others a same] at some ⊢
        exact told.told a some
    · have left : ∀ x ∈ rest, Conversation inst x.1
          (exchangesOf x.1 (xs ++ [⟨r, ⟨rcode, reply, some (e, packet)⟩⟩])) (some x.2) := by
        intro x mem
        have apart : x.1 ≠ e.1 := fun same => new (same ▸ List.mem_map_of_mem mem)
        rw [others x.1 apart]
        exact told.listed x (admits.sublist.mem mem)
      cases leaves with
      | added h other room =>
        intro x mem
        rcases List.mem_append.mp mem with mem | mem
        · exact left x mem
        · obtain rfl := List.mem_singleton.mp mem
          exact here
      | dropped q kept => exact fun x mem => left x (kept.sub.mem mem)

/-! ### Runs -/

/-- The exchanges of a run on a server that has just started. -/
def exchanges (inst : Rlm ω κ) (rs : List (Request κ)) : List (Exchange ω κ) :=
  Machine.outputs (step inst) .init rs

/-- Over any requests, the exchanges of a handler are a conversation. -/
theorem outputs_told {s : Server ω} (rs : List (Request κ)) (told : Told inst xs s.next q)
    (stands : s.Stands inst q) :
    ∃ q', (Machine.after (step inst) s rs).Stands inst q' ∧
      Told inst (xs ++ Machine.outputs (step inst) s rs)
        (Machine.after (step inst) s rs).next q' := by
  induction rs generalizing s xs q with
  | nil =>
    refine ⟨q, stands, ?_⟩
    rw [Machine.outputs, List.append_nil]
    exact told
  | cons r rs ih =>
    obtain ⟨q₁, serves⟩ := radAuthenticate_spec r stands
    rw [Machine.outputs, Machine.after, ← List.append_assoc]
    exact ih (told.step stands serves) serves.stands

theorem told_init : Told inst ([] : List (Exchange ω κ)) 0 [] where
  allocated := by simp
  told := fun a some => absurd rfl some
  listed := by simp
  refused := by simp

/-- What is known of the server after a run, and of its exchanges. -/
theorem run_told (inst : Rlm ω κ) (rs : List (Request κ)) :
    ∃ q, (Machine.after (step inst) .init rs).Stands inst q ∧
      Told inst (exchanges inst rs) (Machine.after (step inst) .init rs).next q :=
  outputs_told rs told_init Server.stands_init

/-! ### What a handler has been through -/

/-- A method changes what belongs to it, and the type. -/
theorem eapMethodSelect_keeps {h h' : Handler ω} {reply : EapReply}
    (called : eapMethodSelect inst r packet h = some (h', reply)) :
    h'.state = h.state ∧ h'.trips = h.trips ∧ h'.identity = h.identity := by
  have start : ∀ h₁ next, initiate inst r.coins (typeData packet) next h₁ = some (h', reply) →
      h'.state = h₁.state ∧ h'.trips = h₁.trips ∧ h'.identity = h₁.identity := by
    intro h₁ next started
    rw [initiate, Option.bind_eq_bind, Option.bind_eq_some_iff] at started
    obtain ⟨m, -, started⟩ := started
    rw [Option.bind_eq_bind, Option.bind_eq_some_iff] at started
    obtain ⟨out, -, started⟩ := started
    obtain ⟨rfl, -⟩ := Prod.mk.inj (Option.some.inj started)
    exact ⟨rfl, rfl, rfl⟩
  rw [eapMethodSelect] at called
  dsimp only at called
  split at called
  · cases called
  split at called
  · split at called
    · cases called
    · exact start _ _ called
  split at called
  · have forgets : h.forget.state = h.state ∧ h.forget.trips = h.trips ∧
        h.forget.identity = h.identity := by
      rw [Handler.forget]
      split <;> exact ⟨rfl, rfl, rfl⟩
    split at called
    · cases called
    split at called
    · cases called
    · rw [← forgets.1, ← forgets.2.1, ← forgets.2.2]
      exact start _ _ called
  · rw [Option.bind_eq_bind, Option.bind_eq_some_iff] at called
    obtain ⟨m, -, called⟩ := called
    rw [Option.bind_eq_bind, Option.bind_eq_some_iff] at called
    obtain ⟨out, -, called⟩ := called
    obtain ⟨rfl, -⟩ := Prod.mk.inj (Option.some.inj called)
    exact ⟨rfl, rfl, rfl⟩

/-- The octets of the State that `eaplist_add` never writes again. -/
def keptOctets : List (Fin eapStateLen) :=
  (List.finRange eapStateLen).filter fun i => i.val ∉ [4, 5, 6, 8, 10, 12]

/-- A later challenge keeps these octets of the State. -/
theorem restamp_kept (l : Limits) (h : Handler ω) {i : Fin eapStateLen} (kept : i ∈ keptOctets) :
    (restamp l h).get i = h.state.get i := by
  have apart : (4 : Fin eapStateLen) ≠ i ∧ (5 : Fin eapStateLen) ≠ i ∧ (6 : Fin eapStateLen) ≠ i ∧
      (8 : Fin eapStateLen) ≠ i ∧ (10 : Fin eapStateLen) ≠ i ∧ (12 : Fin eapStateLen) ≠ i := by
    revert i
    decide
  obtain ⟨h4, h5, h6, h8, h10, h12⟩ := apart
  rw [restamp]
  simp only [List.Vector.get_set_of_ne h4, List.Vector.get_set_of_ne h5,
    List.Vector.get_set_of_ne h6, List.Vector.get_set_of_ne h8, List.Vector.get_set_of_ne h10,
    List.Vector.get_set_of_ne h12]

/-- The octet that tells the rounds apart. -/
theorem restamp_trips (l : Limits) (h : Handler ω) :
    (restamp l h).get 4 = UInt8.ofNat h.trips ^^^ h.state.get 0 := by
  have apart : (5 : Fin eapStateLen) ≠ 4 ∧ (6 : Fin eapStateLen) ≠ 4 ∧ (8 : Fin eapStateLen) ≠ 4 ∧
      (10 : Fin eapStateLen) ≠ 4 ∧ (12 : Fin eapStateLen) ≠ 4 := by decide
  obtain ⟨h5, h6, h8, h10, h12⟩ := apart
  rw [restamp]
  simp only [List.Vector.get_set_of_ne h5, List.Vector.get_set_of_ne h6,
    List.Vector.get_set_of_ne h8, List.Vector.get_set_of_ne h10, List.Vector.get_set_of_ne h12,
    List.Vector.get_set_same]

/-- What a handler on the list and the random octets of its first request have in common. -/
structure Marked (words : Block UInt8 eapStateLen) (h : Handler ω) : Prop where
  kept : ∀ i ∈ keptOctets, h.state.get i = words.get i
  trips : h.state.get 4 = UInt8.ofNat h.trips ^^^ words.get 0

/-- A State bears the random octets of the first challenge of its conversation. -/
theorem Marked.stamped (l : Limits) (timestamp : Int) (id : UInt8)
    {words drawn : Block UInt8 eapStateLen} {h : Handler ω}
    (first : h.trips = 0 → drawn = words)
    (later : h.trips ≠ 0 → ∀ i ∈ keptOctets, h.state.get i = words.get i) :
    Marked words (stamped l timestamp id drawn h) := by
  have before : ∀ i ∈ keptOctets,
      (if h.trips = 0 then drawn else h.state).get i = words.get i := by
    intro i kept
    split
    · next zero => rw [first zero]
    · next pos => exact later pos i kept
  rw [Radiusd.stamped]
  dsimp only
  split
  · next zero =>
    rw [if_pos zero] at before
    constructor
    · intro i kept
      exact (restamp_kept l _ kept).trans (before i kept)
    · rw [restamp_trips]
      dsimp only
      rw [before 0 (by decide)]
  · next pos =>
    rw [if_neg pos] at before
    constructor
    · intro i kept
      exact (restamp_kept l _ kept).trans (before i kept)
    · rw [restamp_trips]
      dsimp only
      rw [before 0 (by decide)]

theorem stamped_trips (l : Limits) (timestamp : Int) (id : UInt8)
    (words : Block UInt8 eapStateLen) (h : Handler ω) :
    (stamped l timestamp id words h).trips = h.trips := by
  rw [stamped]
  dsimp only
  split <;> rfl

/-- A handler that is kept waits for the response to the challenge that was sent. -/
theorem Settles.kept {h h' : Handler ω} {reply : RadiusReply}
    (settles : Settles inst r packet h reply (some h')) :
    reply.code = some .challenge ∧ reply.state = some h'.state ∧ h'.trips = h.trips ∧
      ∀ words, (h.trips = 0 → r.words = words) →
        (h.trips ≠ 0 → ∀ i ∈ keptOctets, h.state.get i = words.get i) → Marked words h' := by
  cases settles with
  | stored h₁ reply called isRequest =>
    obtain ⟨state, trips, -⟩ := eapMethodSelect_keeps called
    refine ⟨?_, rfl, ?_, ?_⟩
    · rw [eapCompose, isRequest]
      rfl
    · rw [stamped_trips, trips]
    · intro words first later
      rw [← trips, ← state] at later
      rw [← trips] at first
      exact Marked.stamped inst.toLimits r.timestamp _ first later

/-- How long a conversation has lasted can be read off its handler. -/
structure Lasted (es : List (Exchange ω κ)) (h : Handler ω) : Prop where
  marked : ∃ x later, es = x :: later ∧ Marked x.request.words h
  length : es.length = h.trips + 1
  few : h.trips ≤ maxTrips

/-- Every exchange of a conversation that goes on is one round trip. -/
theorem Conversation.lasted {es : List (Exchange ω κ)} {o : Option (Handler ω)}
    (conversation : Conversation inst a es o) : ∀ h, o = some h → Lasted es h := by
  induction conversation with
  | starts x packet identity o admitted parsed isIdentity name settles =>
    rintro h rfl
    obtain ⟨-, -, trips, marked⟩ := settles.kept
    refine ⟨⟨x, [], rfl, marked _ (fun _ => rfl) fun pos => absurd rfl pos⟩, ?_, ?_⟩
    · rw [trips]
      rfl
    · rw [trips]
      exact Nat.zero_le _
  | continues es h old x packet o admitted parsed other id state few type name settles ih =>
    rintro h' rfl
    obtain ⟨⟨first, later, rfl, marked⟩, length, -⟩ := ih h rfl
    obtain ⟨-, -, trips, marks⟩ := settles.kept
    refine ⟨⟨first, later ++ [x], rfl, ?_⟩, ?_, ?_⟩
    · exact marks _ (fun zero => absurd zero (Nat.succ_ne_zero _)) fun _ => marked.kept
    · rw [List.length_append, length, trips]
      rfl
    · rw [trips]
      exact few

theorem concat_eq_singleton {α : Type} {l : List α} {x y : α} (eq : l ++ [x] = [y]) :
    l = [] ∧ x = y := by
  rw [← List.nil_append [y]] at eq
  obtain ⟨rfl, same⟩ := List.append_inj' eq rfl
  exact ⟨rfl, List.singleton_inj.mp same⟩

/-- A part of a conversation that is not its end leaves the handler on the list. -/
theorem Conversation.front {es later : List (Exchange ω κ)} {o : Option (Handler ω)}
    (conversation : Conversation inst a (es ++ later) o) (started : es ≠ []) (more : later ≠ []) :
    ∃ h, Conversation inst a es (some h) := by
  induction later using List.reverseRecOn generalizing o with
  | nil => exact absurd rfl more
  | append_singleton later y ih =>
    rw [← List.append_assoc] at conversation
    have before : ∃ h, Conversation inst a (es ++ later) (some h) := by
      generalize split : es ++ later ++ [y] = all at conversation
      cases conversation with
      | starts x packet identity o admitted parsed isIdentity name settles =>
        obtain ⟨empty, -⟩ := concat_eq_singleton split
        exact absurd (List.append_eq_nil_iff.mp empty).1 started
      | continues fs h old x packet o admitted parsed other id state few type name settles =>
        obtain ⟨rfl, -⟩ := List.append_inj' split rfl
        exact ⟨h, old⟩
    obtain ⟨h, before⟩ := before
    by_cases last : later = []
    · subst last
      rw [List.append_nil] at before
      exact ⟨h, before⟩
    · exact ih before last

/-- How the last exchange of a conversation ends it or not. -/
theorem Conversation.settles {es : List (Exchange ω κ)} {o : Option (Handler ω)}
    (conversation : Conversation inst a (es ++ [x]) o) :
    ∃ packet h, x.outcome.admitted = some ((a, h), packet) ∧ x.request.parse inst = some packet ∧
      Settles inst x.request packet h x.outcome.reply o := by
  generalize split : es ++ [x] = all at conversation
  cases conversation with
  | starts y packet identity o admitted parsed isIdentity name settles =>
    obtain ⟨-, rfl⟩ := concat_eq_singleton split
    exact ⟨packet, _, admitted, parsed, settles⟩
  | continues fs h old y packet o admitted parsed other id state few type name settles =>
    obtain ⟨-, same⟩ := List.append_inj' split rfl
    obtain rfl := List.singleton_inj.mp same
    exact ⟨packet, _, admitted, parsed, settles⟩

/-- An Access-Accept frees the handler, and carries the keys of the method. -/
theorem Settles.accept {h : Handler ω} {reply : RadiusReply} {o : Option (Handler ω)}
    (settles : Settles inst r packet h reply o) (accept : reply.code = some .accept) :
    o = none ∧ ∃ h' eap, eapMethodSelect inst r packet h = some (h', eap) ∧ eap.code = .success ∧
      reply = addUserName r (eapCompose packet h' eap).2 := by
  cases settles with
  | invalid failed => cases accept
  | full h' eap called isRequest => cases accept
  | stored h' eap called isRequest =>
    rw [eapCompose, isRequest] at accept
    cases accept
  | ended h' eap called last =>
    cases code : eap.code with
    | success =>
      refine ⟨rfl, h', eap, called, code, ?_⟩
      rw [eapCompose, code]
      rfl
    | request =>
      rw [eapCompose, code] at accept
      cases accept
    | response =>
      rw [eapCompose, code] at accept
      cases accept
    | failure =>
      rw [eapCompose, code] at accept
      cases accept

/-- No conversation is longer than `eaplist_find` admits. -/
theorem Conversation.length_le {es : List (Exchange ω κ)} {o : Option (Handler ω)}
    (conversation : Conversation inst a es o) : es.length ≤ maxTrips + 1 := by
  cases conversation with
  | starts x packet identity o admitted parsed isIdentity name settles =>
    exact Nat.succ_le_succ (Nat.zero_le _)
  | continues es h old x packet o admitted parsed other id state few type name settles =>
    rw [List.length_append, (old.lasted h rfl).length]
    exact Nat.succ_le_succ few

/-! ### Any run -/

section Runs

variable {rs : List (Request κ)} {before middle behind : List (Exchange ω κ)} {y : Exchange ω κ}

/-- An exchange of a run, as one of its conversation. -/
theorem conversation_upto (split : exchanges inst rs = before ++ x :: behind)
    (here : x.handler = some a) :
    ∃ o, Conversation inst a (exchangesOf a before ++ [x]) o ∧
      (exchangesOf a behind ≠ [] → o ≠ none) := by
  obtain ⟨q, -, told⟩ := run_told inst rs
  have parts : exchangesOf a (exchanges inst rs) =
      exchangesOf a before ++ [x] ++ exchangesOf a behind := by
    rw [split, List.append_cons, exchangesOf_append, exchangesOf_concat_self here]
  obtain ⟨o, conversation⟩ := told.told a (by simp [parts])
  rw [parts] at conversation
  by_cases last : exchangesOf a behind = []
  · rw [last, List.append_nil] at conversation
    exact ⟨o, conversation, fun more => absurd last more⟩
  · obtain ⟨h, front⟩ := conversation.front (by simp) last
    exact ⟨some h, front, fun _ => Option.some_ne_none h⟩

/-- An Access-Accept ends the conversation of a handler, which is not reached again. -/
theorem accept_conversation (split : exchanges inst rs = before ++ x :: behind)
    (accept : x.outcome.reply.code = some .accept) :
    ∃ a, x.handler = some a ∧ Conversation inst a (exchangesOf a before ++ [x]) none ∧
      exchangesOf a behind = [] := by
  obtain ⟨q, -, told⟩ := run_told inst rs
  cases here : x.handler with
  | none =>
    have mem : x ∈ exchanges inst rs := by
      rw [split]
      simp
    exact absurd accept (told.refused x mem here).1
  | some a =>
    obtain ⟨o, conversation, more⟩ := conversation_upto split here
    obtain ⟨packet, h, -, -, settles⟩ := conversation.settles
    obtain ⟨rfl, -⟩ := settles.accept accept
    exact ⟨a, rfl, conversation, by_contra fun later => more later rfl⟩

/-- An Access-Accept ends a conversation of its own: the exchanges before it that reached the same
handler, at most fifty. Each answered the challenge of the one before, with its State, its
identifier and the User-Name of the first. The handler is not reached again. -/
theorem accept_ends_conversation (inst : Rlm ω κ) (rs : List (Request κ))
    (split : exchanges inst rs = before ++ x :: behind)
    (accept : x.outcome.reply.code = some .accept) :
    ∃ a, x.handler = some a ∧ Conversation inst a (exchangesOf a before ++ [x]) none ∧
      (exchangesOf a before).length ≤ maxTrips ∧ exchangesOf a behind = [] := by
  obtain ⟨a, here, conversation, last⟩ := accept_conversation split accept
  refine ⟨a, here, conversation, ?_, last⟩
  have length := conversation.length_le
  rw [List.length_append] at length
  exact Nat.le_of_succ_le_succ length

theorem outputs_requests (s : Server ω) (rs : List (Request κ)) :
    (Machine.outputs (step inst) s rs).map Exchange.request = rs := by
  induction rs generalizing s with
  | nil => rfl
  | cons r rs ih =>
    rw [Machine.outputs, List.map_append, ih]
    rfl

/-- Random octets that differ where `eaplist_add` keeps them. -/
def Differ (words words' : Block UInt8 eapStateLen) : Prop :=
  ∃ i ∈ keptOctets, words.get i ≠ words'.get i

/-- The random octets of any two requests differ. -/
def Fresh (rs : List (Request κ)) : Prop := rs.Pairwise fun r r' => Differ r.words r'.words

/-- Different exchanges have different random octets. -/
theorem Fresh.words {z z' : Exchange ω κ} (fresh : Fresh (xs.map Exchange.request)) (mem : z ∈ xs)
    (mem' : z' ∈ xs) (apart : z ≠ z') : Differ z.request.words z'.request.words := by
  rw [Fresh, List.pairwise_map] at fresh
  have symm : Std.Symm fun u v : Exchange ω κ => Differ u.request.words v.request.words :=
    ⟨fun u v ⟨i, kept, other⟩ => ⟨i, kept, other.symm⟩⟩
  exact fresh.forall mem mem' apart

/-- The State that an exchange answers, and the first exchange of its conversation. -/
theorem conversation_state (split : exchanges inst rs = before ++ x :: behind)
    (admitted : x.outcome.admitted = some (e, packet)) (other : packetType packet ≠ typeIdentity) :
    ∃ (h : Handler ω) (first : Exchange ω κ) (later : List (Exchange ω κ)),
      exchangesOf e.1 before = first :: later ∧ x.request.state = some h.state.toList ∧
      Marked first.request.words h ∧
      h.trips = later.length ∧ h.trips < maxTrips := by
  have here : x.handler = some e.1 := by rw [Exchange.handler, admitted]; rfl
  obtain ⟨o, conversation, -⟩ := conversation_upto split here
  generalize parts : exchangesOf e.1 before ++ [x] = all at conversation
  cases conversation with
  | starts z p identity o admitted' parsed isIdentity name settles =>
    obtain ⟨-, rfl⟩ := concat_eq_singleton parts
    rw [admitted'] at admitted
    obtain ⟨-, rfl⟩ := Prod.mk.inj (Option.some.inj admitted)
    exact absurd isIdentity other
  | continues es h old z p o admitted' parsed _ id state few type name settles =>
    obtain ⟨rfl, same⟩ := List.append_inj' parts rfl
    obtain rfl := List.singleton_inj.mp same
    obtain ⟨⟨first, later, start, marked⟩, length, -⟩ := old.lasted h rfl
    refine ⟨h, first, later, start, state, marked, ?_, few⟩
    rw [start] at length
    exact (Nat.succ.inj length).symm

/-- If the server's random octets are fresh, it answers no State twice, whoever sends it. -/
theorem state_answered_once (inst : Rlm ω κ) (rs : List (Request κ)) (fresh : Fresh rs)
    {e' : Entry ω} {packet' : List UInt8}
    (split : exchanges inst rs = before ++ x :: (middle ++ y :: behind))
    (admitted : x.outcome.admitted = some (e, packet)) (other : packetType packet ≠ typeIdentity)
    (admitted' : y.outcome.admitted = some (e', packet'))
    (other' : packetType packet' ≠ typeIdentity) : x.request.state ≠ y.request.state := by
  have split' : exchanges inst rs = (before ++ x :: middle) ++ y :: behind := by simp [split]
  obtain ⟨h, first, later, start, state, marked, trips, few⟩ :=
    conversation_state split admitted other
  obtain ⟨h', first', later', start', state', marked', trips', few'⟩ :=
    conversation_state split' admitted' other'
  intro same
  rw [state, state'] at same
  have eq : h.state = h'.state := List.Vector.eq _ _ (Option.some.inj same)
  by_cases one : e.1 = e'.1
  · -- one conversation: the number of round trips is in the State
    have here : x.handler = some e'.1 := by rw [Exchange.handler, admitted, ← one]; rfl
    rw [← one] at start' here
    rw [List.append_cons, exchangesOf_append, exchangesOf_concat_self here, start] at start'
    obtain ⟨rfl, rfl⟩ := List.cons.inj start'
    have octet := marked.trips
    rw [eq, marked'.trips] at octet
    have rounds : UInt8.ofNat h'.trips = UInt8.ofNat h.trips := (UInt8.xor_left_inj _).mp octet
    have numbers := congrArg UInt8.toNat rounds
    have small : maxTrips < 256 := by decide
    rw [UInt8.toNat_ofNat', UInt8.toNat_ofNat', Nat.mod_eq_of_lt (few'.trans small),
      Nat.mod_eq_of_lt (few.trans small), trips, trips'] at numbers
    simp at numbers
  · -- two conversations: the random octets differ
    have memOf : ∀ {b : Nat} {z : Exchange ω κ} {zs tail : List (Exchange ω κ)},
        exchangesOf b zs = z :: tail → z ∈ zs ∧ z.handler = some b := by
      intro b z zs tail starts
      have mem : z ∈ exchangesOf b zs := starts ▸ List.mem_cons_self
      rw [exchangesOf, List.mem_filter] at mem
      exact ⟨mem.1, by simpa using mem.2⟩
    obtain ⟨mem, handler⟩ := memOf start
    obtain ⟨mem', handler'⟩ := memOf start'
    have apart : first ≠ first' := by
      rintro rfl
      rw [handler] at handler'
      exact one (Option.some.inj handler')
    have known : first ∈ exchanges inst rs := by
      rw [split]
      exact List.mem_append_left _ mem
    have known' : first' ∈ exchanges inst rs := by
      rw [split']
      exact List.mem_append_left _ mem'
    have requests : (exchanges inst rs).map Exchange.request = rs := outputs_requests .init rs
    rw [← requests] at fresh
    obtain ⟨i, kept, differ⟩ := fresh.words known known' apart
    rw [← marked.kept i kept, ← marked'.kept i kept, eq] at differ
    exact differ rfl

/-- The handler waits for the response to the challenge that ended the last of these exchanges. -/
structure Waiting (es : List (Exchange ω κ)) (h : Handler ω) : Prop where
  last : ∃ front x, es = front ++ [x] ∧ x.outcome.reply.code = some .challenge ∧
    x.outcome.reply.state = some h.state
  length : es.length = h.trips + 1
  few : h.trips ≤ maxTrips

/-- A conversation that goes on waits for the response to its last challenge. -/
theorem Conversation.waiting {es : List (Exchange ω κ)} {h : Handler ω}
    (conversation : Conversation inst a es (some h)) : Waiting es h := by
  have lasted := conversation.lasted h rfl
  refine ⟨?_, lasted.length, lasted.few⟩
  rcases es.eq_nil_or_concat with rfl | ⟨front, x, rfl⟩
  · obtain ⟨x, later, starts, -⟩ := lasted.marked
    cases starts
  · rw [List.concat_eq_append] at conversation
    obtain ⟨packet, old, -, -, settles⟩ := conversation.settles
    obtain ⟨code, state, -, -⟩ := settles.kept
    exact ⟨front, x, List.concat_eq_append, code, state⟩

/-- After any run the tree and the doubly linked list hold the same handlers, each once and under a
key of its own, and no more than configured. Each of them waits for the response to the last
challenge of its conversation. On every list and queue so related, and so after every run, the
operations on the pointers are those on the queue. -/
theorem sessions_invariant (inst : Rlm ω κ) (rs : List (Request κ)) :
    (∃ q : Sessions ω inst.maxSessions,
      (Machine.after (step inst) .init rs).sessions.Holds q.entries ∧
      ∀ e ∈ q.entries, Waiting (exchangesOf e.1 (exchanges inst rs)) e.2) ∧
    ∀ (s : Eaplist ω) (q : Sessions ω inst.maxSessions), s.Holds q.entries →
      s.Refines inst.toLimits q.entries := by
  refine ⟨?_, fun s q holds => holds.refines inst.toLimits q.distinct⟩
  obtain ⟨q, stands, told⟩ := run_told inst rs
  exact ⟨⟨q, stands.distinct, stands.bounded⟩, stands.holds,
    fun e mem => (told.listed e mem).waiting⟩

end Runs

/-! ### A small run -/

section Demo

/-- A method that answers whatever it gets, and accepts an empty response. -/
def echoMethod : Method Unit Unit where
  sessionInit := fun _ _ => some ⟨some (), false, .process, ⟨.request, 4, [], none⟩⟩
  process := fun _ data _ => some ⟨some (), false, .process,
    if data = [] then ⟨.success, 0, [], none⟩ else ⟨.request, 4, data, none⟩⟩

def echoInst : Rlm Unit Unit where
  timerLimit := 60
  maxSessions := 8
  version := 0
  defaultMethod := 4
  methods := fun type => if type = 4 then some echoMethod else none
  allowEmptyIdentities := false
  ignoreUnknownTypes := false
  tlsOk := fun _ => true

/-- A request with this packet and State, on which the server draws these octets. -/
def echoRequest (packet : List UInt8) (state : Option (List UInt8)) (b : UInt8) : Request Unit :=
  ⟨[packet], state, none, 0, none, Block.fill eapStateLen b, ()⟩

/-- An Identity response, a response that is answered and one that is accepted. -/
def echoRequests : List (Request Unit) :=
  [echoRequest [2, 0, 0, 6, 1, 65] none 0,
    echoRequest [2, 1, 0, 6, 4, 7] (some [0, 0, 0, 0, 0, 1, 4, 0, 0, 0, 0, 0, 0, 0, 0, 0]) 1,
    echoRequest [2, 2, 0, 5, 4] (some [0, 0, 0, 0, 1, 2, 4, 0, 0, 0, 0, 0, 0, 0, 0, 0]) 2]

theorem echo_fresh : Fresh echoRequests := by
  have nodup : (echoRequests.map fun r => r.words.get 0).Nodup := by decide
  rw [List.Nodup, List.pairwise_map] at nodup
  exact nodup.imp fun other => ⟨0, by decide, other⟩

/-- A conversation of two responses with a method that accepts the second. -/
theorem echo_accepted : ∃ x y z, exchanges echoInst echoRequests = [x, y, z] ∧
    z.outcome.reply.code = some .accept ∧ ∃ a, z.handler = some a ∧
      Conversation echoInst a (exchangesOf a [x, y] ++ [z]) none ∧
      (exchangesOf a [x, y]).length ≤ maxTrips ∧ exchangesOf a ([] : List (Exchange Unit Unit)) = [] :=
  ⟨_, _, _, rfl, rfl, accept_ends_conversation echoInst echoRequests
    (rfl : exchanges echoInst echoRequests = [_, _] ++ _ :: []) rfl⟩

/-- The three requests of the example, with fresh octets. -/
theorem echo_once : ∃ x y z : Exchange Unit Unit, exchanges echoInst echoRequests = [x, y, z] ∧
    x.outcome.admitted.isSome ∧ y.outcome.admitted.isSome ∧ z.outcome.admitted.isSome ∧
    y.request.state ≠ z.request.state :=
  ⟨_, _, _, rfl, rfl, rfl, rfl, state_answered_once echoInst echoRequests echo_fresh
    (rfl : exchanges echoInst echoRequests = [_] ++ _ :: ([] ++ _ :: []))
    rfl (by decide) rfl (by decide)⟩

end Demo

end EdhocAuth.Radiusd
