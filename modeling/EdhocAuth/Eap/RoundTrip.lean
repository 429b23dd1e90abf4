/-
Fragmentation and reassembly, end to end and in both directions.

The UE cuts a message with `EncodeEdhocFragment`, the server with
`edhoc_queue_outgoing` and `edhoc_send_fragment`. Both produce `wires msg 0`
(`encodeWires_eq`, `queueWires_eq`), although only the server treats a message of one
wire apart. That is a well-formed sequence, and the receivers put every well-formed
sequence together (`Fragments.feed`).
-/

import EdhocAuth.Eap.Lockstep

namespace EdhocAuth.Eap

open Proc

/-! ### The senders -/

/-- The successive outputs of `EncodeEdhocFragment` until `payloadPos` is `payloadLen`. -/
def encodeWires (payload : List UInt8) (payloadLen payloadPos : Nat) : List (List UInt8) :=
  if payloadPos < payloadLen then
    (encodeEdhocFragment payload payloadLen payloadPos).1 ::
      encodeWires payload payloadLen (encodeEdhocFragment payload payloadLen payloadPos).2
  else []
termination_by payloadLen - payloadPos
decreasing_by
  have progress : 0 < fragLen payloadPos (payloadLen - payloadPos) := fragLen_pos (by omega)
  rw [encodeEdhocFragment, if_neg (by omega)]
  dsimp only
  omega

/-- Every fragment leaves less to send. -/
theorem edhocSendFragment_advances {s s' : Session} {wire : List UInt8}
    (left : s.outPos < s.outLen) (sent : edhocSendFragment s = (.ok wire, s')) :
    s'.outLen - s'.outPos < s.outLen - s.outPos := by
  have progress : 0 < fragLen s.outPos (s.outLen - s.outPos) := fragLen_pos (by omega)
  simp only [edhocSendFragment, bind_eq_ok, load_eq_ok, require_eq_ok, store_eq_ok,
    pure_eq_ok] at sent
  obtain ⟨_, _, ⟨rfl, rfl⟩, _, s, ⟨-, rfl⟩, _, _, rfl, -, rfl⟩ := sent
  split
  · show 0 - 0 < _
    omega
  · show s.outLen - (s.outPos + fragLen s.outPos (s.outLen - s.outPos)) < _
    omega

/-- The outputs of `edhoc_send_fragment` until nothing is left to send. -/
def sendWires (s : Session) : List (List UInt8) :=
  if _left : s.outPos < s.outLen then
    match _sent : edhocSendFragment s with
    | (.ok wire, s') => wire :: sendWires s'
    | (.error _, _) => []
  else []
termination_by s.outLen - s.outPos
decreasing_by exact edhocSendFragment_advances _left _sent

/-- The outputs of `edhoc_queue_outgoing` and of the `edhoc_send_fragment` that follow. -/
def queueWires (buf : List UInt8) (s : Session) : List (List UInt8) :=
  match edhocQueueOutgoing buf s with
  | (.ok wire, s') => wire :: sendWires s'
  | (.error _, _) => []

/-! ### The wires of a message -/

/-- The wires that carry `msg` from position `p` on. -/
def wires (msg : List UInt8) (p : Nat) : List (List UInt8) :=
  if left : p < msg.length then
    have := pieceLen_pos left
    frag msg p :: wires msg (p + pieceLen msg p)
  else []
termination_by msg.length - p

section Wires

variable {msg : List UInt8} {p : Nat}

theorem wires_of_lt (left : p < msg.length) :
    wires msg p = frag msg p :: wires msg (p + pieceLen msg p) := by
  rw [wires, dif_pos left]

theorem wires_of_le (done : msg.length ≤ p) : wires msg p = [] := by
  rw [wires, dif_neg (by omega)]

/-- A message is sent by induction on the number of octets that are left of it. -/
theorem wires_induction (msg : List UInt8) {motive : Nat → Prop}
    (done : ∀ p, msg.length ≤ p → motive p)
    (next : ∀ p, p < msg.length → motive (p + pieceLen msg p) → motive p) (p : Nat) : motive p := by
  induction left : msg.length - p using Nat.strong_induction_on generalizing p with
  | h n ih =>
    by_cases some_left : p < msg.length
    · have progress := pieceLen_pos some_left
      exact next p some_left (ih _ (by omega) _ rfl)
    · exact done p (by omega)

/-- A wire is the flags octet, a length field on the first of several wires, and a
piece that leaves room for them. -/
theorem frag_length (msg : List UInt8) (p : Nat) :
    1 ≤ (frag msg p).length ∧ (frag msg p).length ≤ fragWireMax := by
  refine ⟨Nat.succ_le_succ (Nat.zero_le _), ?_⟩
  have cap := fragLen_le_cap p (msg.length - p)
  show ((if (decide (p = 0) && _) = true then htons msg.length else []) ++ _).length + 1 ≤ 1000
  rw [List.length_append, length_piece]
  show _ + fragLen p (msg.length - p) + 1 ≤ 1000
  by_cases first : p = 0
  · have field (c : Bool) : (if c = true then htons msg.length else []).length ≤ 2 := by
      cases c with
      | false => exact Nat.zero_le 2
      | true => exact le_refl 2
    rw [if_pos first] at cap
    exact Nat.succ_le_succ (Nat.add_le_add (field _) cap)
  · rw [if_neg first] at cap
    rw [if_neg (by simp [first])]
    exact Nat.succ_le_succ ((Nat.zero_add _).trans_le cap)

/-- No wire is empty or longer than the largest. -/
theorem wires_length {wire : List UInt8} (mem : wire ∈ wires msg p) :
    1 ≤ wire.length ∧ wire.length ≤ fragWireMax := by
  induction p using wires_induction msg with
  | done p h => simp [wires_of_le h] at mem
  | next p left ih =>
    rw [wires_of_lt left] at mem
    cases mem with
    | head => exact frag_length msg p
    | tail _ rest => exact ih rest

end Wires

/-! ### What the senders send -/

/-- The UE cuts a message into these wires. -/
theorem encodeWires_eq {msg buf : List UInt8} {p : Nat} (out : buf.take msg.length = msg)
    (inside : p ≤ msg.length) : encodeWires buf msg.length p = wires msg p := by
  induction p using wires_induction msg with
  | done p h => rw [encodeWires, if_neg (by omega), wires_of_le h]
  | next p left ih =>
    have bound := pieceLen_le msg p
    have encoded : encodeEdhocFragment buf msg.length p = (frag msg p, p + pieceLen msg p) := by
      rw [encodeEdhocFragment, if_neg (by omega)]
      exact Prod.ext (Sends.fragWire_eq ⟨out, rfl, rfl⟩) rfl
    rw [encodeWires, if_pos left, wires_of_lt left, encoded, ih (by omega)]

/-- The server sends what is left of a message in these wires. -/
theorem sendWires_eq {msg : List UInt8} {p : Nat} {s : Session} (sending : s.Sending msg p) :
    sendWires s = wires msg p := by
  induction p using wires_induction msg generalizing s with
  | done p h =>
    rw [Session.Sending, if_neg (not_lt.mpr h)] at sending
    rw [sendWires, dif_neg sending, wires_of_le h]
  | next p left ih =>
    rw [Session.Sending, if_pos left] at sending
    have some_left : s.outPos < s.outLen := by
      rw [sending.outLen, sending.outPos]
      exact left
    have fragment := edhocSendFragment_eq sending left
    rw [sendWires, dif_pos some_left, wires_of_lt left]
    split
    · rename_i wire s' sent
      obtain ⟨same, after⟩ := Prod.mk.inj (sent.symm.trans fragment)
      rw [Except.ok.inj same, after, ih (Session.afterFragment_sending sending)]
    · rename_i sent
      cases (Prod.mk.inj (sent.symm.trans fragment)).1

/-- The server cuts a message into these wires. -/
theorem queueWires_eq {msg : List UInt8} {s : Session} (some_left : 0 < msg.length)
    (fits : msg.length ≤ Edhoc4.maxMsg) (silent : ¬ s.outPos < s.outLen) :
    queueWires msg s = wires msg 0 := by
  obtain ⟨s', queued, sending, -, -⟩ := edhocQueueOutgoing_sending some_left fits silent
  rw [queueWires, queued, wires_of_lt some_left]
  exact congrArg (_ :: ·) (sendWires_eq sending)

/-! ### What the receivers receive -/

/-- A well-formed sequence of wires for `msg` from `p` on: pieces of any size, the flag for
more on all but the last, and the length field on the first of several at least. `opened`
says that the length has been announced. -/
inductive Fragments (msg : List UInt8) : Bool → Nat → List (List UInt8) → Prop where
  | last {opened announce : Bool} {p : Nat} (inside : p ≤ msg.length)
      (alone : opened = false → p = 0) (nonempty : opened = true ∨ announce = true → msg ≠ []) :
      Fragments msg opened p [fragWire false announce msg.length (msg.drop p)]
  | more {opened announce : Bool} {p n : Nat} {rest : List (List UInt8)}
      (inside : p + n ≤ msg.length) (nonempty : msg ≠ [])
      (announced : opened = false → p = 0 ∧ announce = true)
        (next : Fragments msg true (p + n) rest) :
      Fragments msg opened p (fragWire true announce msg.length ((msg.drop p).take n) :: rest)

/-- Both senders send well-formed sequences. -/
theorem wires_fragments {msg : List UInt8} {p : Nat} (left : p < msg.length) :
    Fragments msg (decide (p ≠ 0)) p (wires msg p) := by
  induction p using wires_induction msg with
  | done p h => omega
  | next p _ ih =>
    have bound := pieceLen_le msg p
    have progress := pieceLen_pos left
    have nonempty : msg ≠ [] := List.ne_nil_of_length_pos (by omega)
    have first : decide (p ≠ 0) = false → p = 0 := by simp
    rw [wires_of_lt left]
    by_cases more : p + pieceLen msg p < msg.length
    · have several : decide (pieceLen msg p < msg.length - p) = true := decide_eq_true (by omega)
      have opened : decide (p + pieceLen msg p ≠ 0) = true := decide_eq_true (by omega)
      have next := ih more
      rw [opened] at next
      rw [frag, several]
      exact .more (by omega) nonempty (fun closed => ⟨first closed, by simp [first closed]⟩) next
    · have whole : pieceLen msg p = msg.length - p := by omega
      have one : decide (pieceLen msg p < msg.length - p) = false := decide_eq_false (by omega)
      have rest : (msg.drop p).take (pieceLen msg p) = msg.drop p := by
        rw [whole, ← List.length_drop, List.take_length]
      rw [frag, one, rest, wires_of_le (by omega)]
      exact .last left.le first fun _ => nonempty

/-- What a receiver returns on `n` wires: it asks for more, and then has the message. -/
def results {ε : Type} (n : Nat) (msg : List UInt8) : List (Except ε (Option (List UInt8))) :=
  List.replicate (n - 1) (.ok none) ++ [.ok (some msg)]

theorem results_mapError {ε δ : Type} (f : δ → ε) (n : Nat) (msg : List UInt8) :
    (results n msg).map (Except.mapError f) = results n msg := by
  rw [results, List.map_append, List.map_replicate]
  rfl

/-- A message has a fragment at least. -/
theorem Fragments.nonempty {msg : List UInt8} {opened : Bool} {p : Nat} {ws : List (List UInt8)}
    (fragments : Fragments msg opened p ws) : ws ≠ [] := by
  cases fragments with
  | last _ _ _ => exact List.cons_ne_nil _ _
  | more _ _ _ _ => exact List.cons_ne_nil _ _

/-- A receiver that has taken in the first `p` octets of `msg`, or that is idle. -/
def Rx.Awaits (msg : List UInt8) (opened : Bool) (p : Nat) (r : Rx) : Prop :=
  if opened then r.Holds msg p else r.Idle

theorem results_cons {ε : Type} {msg : List UInt8} {ws : List (List UInt8)} (nonempty : ws ≠ []) :
    (.ok none : Except ε _) :: results ws.length msg = results (ws.length + 1) msg := by
  cases ws with
  | nil => exact absurd rfl nonempty
  | cons w ws => rfl

/-- Every well-formed sequence is put together. -/
theorem Fragments.feed {msg : List UInt8} {opened : Bool} {p : Nat} {ws : List (List UInt8)}
    {r : Rx} (fragments : Fragments msg opened p ws) (fits : msg.length ≤ Edhoc4.maxMsg)
    (awaits : r.Awaits msg opened p) :
    ∃ r', Proc.feed Rx.accept ws r = (results ws.length msg, r') ∧ r'.Idle := by
  induction fragments generalizing r with
  | @last opened announce p inside alone nonempty =>
    have one {r' : Rx} (accepted : Rx.accept (fragWire false announce msg.length (msg.drop p)) r =
        (.ok (some msg), r')) :
        Proc.feed Rx.accept [fragWire false announce msg.length (msg.drop p)] r =
          (results 1 msg, r') :=
      feed_cons accepted rfl
    cases opened with
    | true =>
      obtain ⟨r', accepted, idle⟩ := Rx.Holds.piece_last awaits inside
      refine ⟨r', one ?_, idle⟩
      rw [Rx.Holds.accept_eq awaits (mt List.length_eq_zero_iff.mp (nonempty (.inl rfl))) fits]
      exact accepted
    | false =>
      obtain rfl := alone rfl
      cases announce with
      | false => exact ⟨r, one (Rx.Idle.accept_plain awaits _), awaits⟩
      | true =>
        obtain ⟨opens, holds⟩ := Rx.Idle.accept_eq awaits
          (mt List.length_eq_zero_iff.mp (nonempty (.inr rfl))) fits false (msg.drop 0)
        obtain ⟨r', accepted, idle⟩ := holds.piece_last inside
        exact ⟨r', one (opens.trans accepted), idle⟩
  | @more opened announce p n rest inside nonempty announced next ih =>
    have positive : msg.length ≠ 0 := mt List.length_eq_zero_iff.mp nonempty
    have accepted : ∃ r', Rx.accept (fragWire true announce msg.length ((msg.drop p).take n)) r =
        (.ok none, r') ∧ r'.Holds msg (p + n) := by
      cases opened with
      | true =>
        rw [Rx.Holds.accept_eq awaits positive fits]
        exact ⟨_, Rx.Holds.piece_more awaits inside, Rx.Holds.put awaits inside⟩
      | false =>
        obtain ⟨rfl, rfl⟩ := announced rfl
        obtain ⟨opens, holds⟩ := Rx.Idle.accept_eq awaits positive fits true ((msg.drop 0).take n)
        rw [opens]
        exact ⟨_, holds.piece_more inside, holds.put inside⟩
    obtain ⟨r', accepted, holds⟩ := accepted
    obtain ⟨r'', fed, idle⟩ := ih holds
    exact ⟨r'', (feed_cons accepted fed).trans (congrArg (·, r'') (results_cons next.nonempty)),
      idle⟩

/-- The server puts the message together again. -/
theorem consume_wires {msg : List UInt8} {s : Session} (idle : (Session.rxPart.get s).Idle)
    (some_left : 0 < msg.length) (fits : msg.length ≤ Edhoc4.maxMsg) :
    ∃ s', feed edhocConsumeIncoming (wires msg 0) s = (results (wires msg 0).length msg, s') ∧
      (Session.rxPart.get s').Idle := by
  obtain ⟨r', fed, idle'⟩ := (wires_fragments some_left).feed fits idle
  refine ⟨Session.rxPart.set r' s, ?_, idle'⟩
  rw [Part.Acts.feed edhocConsumeIncoming_acts, fed, results_mapError]

/-- The UE puts the message together again. -/
theorem parse_wires {msg : List UInt8} {u : Ue} (idle : (Ue.rxPart.get u).Idle)
    (some_left : 0 < msg.length) (fits : msg.length ≤ Edhoc4.maxMsg) :
    ∃ u', feed parseEdhocWire (wires msg 0) u = (results (wires msg 0).length msg, u') ∧
      (Ue.rxPart.get u').Idle := by
  obtain ⟨r', fed, idle'⟩ := (wires_fragments some_left).feed fits idle
  refine ⟨Ue.rxPart.set r' u, ?_, idle'⟩
  rw [Part.Acts.feed parseEdhocWire_acts, fed, results_mapError]

/-- A payload cut by one side is put together by the other, in both directions. The
payload is at the front of the UE's output buffer; `mod_process` queues a message only
while it has no other one to send. -/
theorem fragmentation_round_trip (payload : List UInt8) (some_left : 1 ≤ payload.length)
    (fits : payload.length ≤ 8192) :
    (∀ (buf : List UInt8) (s : Session), buf.take payload.length = payload →
      (Session.rxPart.get s).Idle →
      (∀ wire ∈ encodeWires buf payload.length 0, 1 ≤ wire.length ∧ wire.length ≤ 1000) ∧
      ∃ s', feed edhocConsumeIncoming (encodeWires buf payload.length 0) s =
          (results (encodeWires buf payload.length 0).length payload, s') ∧
        (Session.rxPart.get s').Idle) ∧
    (∀ (s : Session) (u : Ue), ¬ s.outPos < s.outLen → (Ue.rxPart.get u).Idle →
      (∀ wire ∈ queueWires payload s, 1 ≤ wire.length ∧ wire.length ≤ 1000) ∧
      ∃ u', feed parseEdhocWire (queueWires payload s) u =
          (results (queueWires payload s).length payload, u') ∧
        (Ue.rxPart.get u').Idle) := by
  constructor
  · intro buf s out idle
    rw [encodeWires_eq out (Nat.zero_le _)]
    exact ⟨fun wire mem => wires_length mem, consume_wires idle some_left fits⟩
  · intro s u silent idle
    rw [queueWires_eq some_left fits silent]
    exact ⟨fun wire mem => wires_length mem, parse_wires idle some_left fits⟩

/-- The smallest payload that does not fit into one wire. -/
theorem fragmentation_round_trip_998 :
    (∃ s', feed edhocConsumeIncoming (encodeWires (List.replicate 998 7) 998 0) modSessionInit =
        (results (encodeWires (List.replicate 998 7) 998 0).length (List.replicate 998 7), s') ∧
      (Session.rxPart.get s').Idle) ∧
    ∃ u', feed parseEdhocWire (queueWires (List.replicate 998 7) modSessionInit) nasSmInit =
        (results (queueWires (List.replicate 998 7) modSessionInit).length
          (List.replicate 998 7), u') ∧
      (Ue.rxPart.get u').Idle := by
  have length : (List.replicate 998 (7 : UInt8)).length = 998 := List.length_replicate
  obtain ⟨uplink, downlink⟩ := fragmentation_round_trip (List.replicate 998 7)
    (by rw [length]; decide) (by rw [length]; decide)
  have up := (uplink (List.replicate 998 7) modSessionInit (List.take_length) ⟨rfl, rfl⟩).2
  rw [length] at up
  exact ⟨up, (downlink modSessionInit nasSmInit (lt_irrefl 0) ⟨rfl, rfl⟩).2⟩

end EdhocAuth.Eap
