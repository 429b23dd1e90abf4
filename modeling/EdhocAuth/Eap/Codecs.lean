/-
The third codec: the engine of the benchmark (`benchmark/e2e_radius_bench.c`).

The engine speaks for the UE and copies the fragmentation of the server, with counters in
between. Seen through the buffer and the two cursors, `eng_consume` does what the other
receivers do on every frame (`engConsume_shows`), and it sends the wires that the other senders
send. `codecs_interchangeable` puts the three next to each other.
-/

import EdhocAuth.Eap.RoundTrip
import EdhocAuth.Lib.Runs

namespace EdhocAuth.Eap

open Proc

/-! ### The engine -/

/-- The members of `eng_t` for fragmentation, and its counters. -/
structure Engine where
  inBuf : List UInt8
  inLen : Nat
  inPos : Nat
  out : List UInt8
  outLen : Nat
  outPos : Nat
  msgBytes : List Nat
  msgFrags : List Nat
  curOutMsg : Nat
  curInMsg : Nat

def Engine.count (cur : Nat) (e : Engine) : Engine :=
  if 1 ≤ cur ∧ cur ≤ 4 then { e with msgFrags := e.msgFrags.modify cur (· + 1) } else e

def engSendFragment (e : Engine) : List UInt8 × Engine :=
  let remaining := e.outLen - e.outPos
  let len := fragLen e.outPos remaining
  let more := decide (len < remaining)
  let addLen := decide (e.outPos = 0) && more
  let wire := fragWire more addLen e.outLen ((e.out.drop e.outPos).take len)
  let e := Engine.count e.curOutMsg { e with outPos := e.outPos + len }
  (wire, if e.outLen ≤ e.outPos then { e with outLen := 0, outPos := 0 } else e)

/-- `eng_queue_outgoing`: the message is in `out` already. -/
def engQueueOutgoing (which : Nat) (e : Engine) : List UInt8 × Engine :=
  let len := e.outLen
  let e := { e with curOutMsg := which, msgBytes := e.msgBytes.set which len }
  if len ≤ firstCap then
    (0 :: e.out.take len,
      { e with msgFrags := e.msgFrags.modify which (· + 1), outLen := 0, outPos := 0 })
  else engSendFragment { e with outPos := 0 }

def engConsumeLength (inp : List UInt8) : Proc Engine Edhoc4.Err Unit := do
  require (3 ≤ inp.length) .parse
  let total := ntohs (inp.getD 1 0) (inp.getD 2 0)
  require (total ≠ 0 ∧ total ≤ Edhoc4.maxMsg) .buf
  let e ← load
  if e.inLen = 0 then
    store fun e => { e with inLen := total, inPos := 0 }
  else
    require (e.inLen = total) .parse

/-- The payload of an incoming frame while a message is being reassembled. -/
def engConsumePiece (more : Bool) (piece : List UInt8) :
    Proc Engine Edhoc4.Err (Option (List UInt8)) := do
  let e ← load
  require (e.inPos + piece.length ≤ e.inLen) .buf
  store fun e => { e with inBuf := memcpyAt e.inBuf e.inPos piece, inPos := e.inPos + piece.length }
  store fun e => e.count e.curInMsg
  if more then
    return none
  else
    let e ← load
    require (e.inPos = e.inLen) .parse
    store fun e => { e with inLen := 0, inPos := 0 }
    return some (e.inBuf.take e.inLen)

/-- `eng_consume`: the reassembled message, or `none` for `need_ack`. -/
def engConsume (inp : List UInt8) : Proc Engine Edhoc4.Err (Option (List UInt8)) := do
  require (inp.length ≠ 0) .parse
  let flags := inp.headD 0
  let pos := if hasFlag fragFlagLen flags then 3 else 1
  if hasFlag fragFlagLen flags then engConsumeLength inp else pure ()
  require (pos ≤ inp.length) .parse
  let e ← load
  if e.inLen ≠ 0 then
    engConsumePiece (hasFlag fragFlagMore flags) (inp.drop pos)
  else
    require (hasFlag fragFlagMore flags = false) .parse
    store fun e => if 0 < (inp.drop pos).length then e.count e.curInMsg else e
    return some (inp.drop pos)

/-! ### Receiving -/

def Engine.rx (e : Engine) : Rx := ⟨e.inBuf, e.inLen, e.inPos⟩

theorem Engine.rx_count (cur : Nat) (e : Engine) : (e.count cur).rx = e.rx := by
  unfold Engine.count
  split <;> rfl

/-- On the variables of the receiver, the engine treats the length field as UE and server do. -/
theorem engConsumeLength_shows (inp : List UInt8) :
    Shows Engine.rx id (engConsumeLength inp) (Rx.acceptLength inp) := by
  refine .bind (.require Iff.rfl _) fun _ => .bind (.require Iff.rfl _) fun _ => ?_
  refine .load_bind fun e => .ite Iff.rfl (fun _ => ?_) fun _ => ?_
  · exact .store fun _ => rfl
  · exact .require Iff.rfl _

/-- It treats a piece as they do. -/
theorem engConsumePiece_shows (more : Bool) (piece : List UInt8) :
    Shows Engine.rx id (engConsumePiece more piece) (Rx.acceptPiece more piece) := by
  refine .load_bind fun e => .bind (.require Iff.rfl _) fun _ =>
    .bind (.store fun _ => rfl) fun _ => ?_
  refine .hidden (fun e => e.rx_count _) (.ite Iff.rfl (fun _ => .pure _) fun _ => ?_)
  exact .load_bind fun e => .bind (.require Iff.rfl _) fun _ => .bind (.store fun _ => rfl) fun _ =>
    .pure _

/-- It treats what follows the length field as they do. -/
theorem engConsumeRest_shows (more : Bool) (piece : List UInt8) :
    Shows Engine.rx id
      (do
        let e ← load
        if e.inLen ≠ 0 then engConsumePiece more piece
        else
          require (more = false) .parse
          store fun e => if 0 < piece.length then e.count e.curInMsg else e
          return some piece)
      (Rx.acceptRest more piece) := by
  refine .load_bind fun e => .ite Iff.rfl (fun _ => engConsumePiece_shows more piece) fun _ => ?_
  refine .bind (.require Iff.rfl _) fun _ => .hidden (fun e => ?_) (.pure _)
  split
  · exact e.rx_count _
  · rfl

/-- The counters apart, the engine takes in a frame as the other receivers do. -/
theorem engConsume_shows (inp : List UInt8) :
    Shows Engine.rx id (engConsume inp) (Rx.accept inp) := by
  refine .bind (.require Iff.rfl _) fun _ => .ite Iff.rfl (fun long => ?_) fun short => ?_
  · rw [if_pos long]
    exact .bind (engConsumeLength_shows inp) fun _ =>
      .bind (.require Iff.rfl _) fun _ => engConsumeRest_shows _ _
  · rw [if_neg short]
    exact .bind (.require Iff.rfl _) fun _ => engConsumeRest_shows _ _

/-! ### Sending -/

section Sending

variable {msg : List UInt8} {p : Nat} {e : Engine}

/-- What sending a fragment does to the output variables. -/
theorem engSendFragment_out (e : Engine) :
    (engSendFragment e).2.out = e.out ∧
      ((e.outLen ≤ e.outPos + fragLen e.outPos (e.outLen - e.outPos) ∧
          (engSendFragment e).2.outLen = 0 ∧ (engSendFragment e).2.outPos = 0) ∨
        (e.outPos + fragLen e.outPos (e.outLen - e.outPos) < e.outLen ∧
          (engSendFragment e).2.outLen = e.outLen ∧
          (engSendFragment e).2.outPos = e.outPos + fragLen e.outPos (e.outLen - e.outPos))) := by
  simp only [engSendFragment, Engine.count]
  split
  · split
    · next done => exact ⟨rfl, .inl ⟨done, rfl, rfl⟩⟩
    · next more => exact ⟨rfl, .inr ⟨not_le.mp more, rfl, rfl⟩⟩
  · split
    · next done => exact ⟨rfl, .inl ⟨done, rfl, rfl⟩⟩
    · next more => exact ⟨rfl, .inr ⟨not_le.mp more, rfl, rfl⟩⟩

/-- Every fragment leaves less to send. -/
theorem engSendFragment_advances (left : e.outPos < e.outLen) :
    (engSendFragment e).2.outLen - (engSendFragment e).2.outPos < e.outLen - e.outPos := by
  have progress : 0 < fragLen e.outPos (e.outLen - e.outPos) := fragLen_pos (by omega)
  obtain ⟨-, ⟨-, len, pos⟩ | ⟨-, len, pos⟩⟩ := engSendFragment_out e
  · omega
  · omega

/-- The outputs of `eng_send_fragment` until nothing is left to send. -/
def engSendWires (e : Engine) : List (List UInt8) :=
  if _left : e.outPos < e.outLen then (engSendFragment e).1 :: engSendWires (engSendFragment e).2
  else []
termination_by e.outLen - e.outPos
decreasing_by exact engSendFragment_advances _left

/-- The outputs of `eng_queue_outgoing` and of the `eng_send_fragment` that follow. -/
def engWires (which : Nat) (e : Engine) : List (List UInt8) :=
  (engQueueOutgoing which e).1 :: engSendWires (engQueueOutgoing which e).2

/-- After the last octet nothing is sent. -/
theorem engSendWires_of_le (done : e.outLen ≤ e.outPos) : engSendWires e = [] := by
  rw [engSendWires, dif_neg (by omega)]

/-- The wires of a message, from where the engine is. -/
theorem engSendWires_eq (sends : Sends msg p e.out e.outLen e.outPos) :
    engSendWires e = wires msg p := by
  induction p using wires_induction msg generalizing e with
  | done p h =>
    rw [wires_of_le h]
    apply engSendWires_of_le
    rw [sends.outLen, sends.outPos]
    exact h
  | next p left ih =>
    have some_left : e.outPos < e.outLen := by
      rw [sends.outLen, sends.outPos]
      exact left
    have piece : e.outPos + fragLen e.outPos (e.outLen - e.outPos) = p + pieceLen msg p := by
      rw [sends.outLen, sends.outPos]
      rfl
    have first : (engSendFragment e).1 = frag msg p := sends.fragWire_eq
    rw [engSendWires, dif_pos some_left, wires_of_lt left, first]
    congr 1
    obtain ⟨out, ⟨done, len, pos⟩ | ⟨more, len, pos⟩⟩ := engSendFragment_out e
    · rw [engSendWires_of_le (by rw [len, pos])]
      rw [piece, sends.outLen] at done
      exact (wires_of_le done).symm
    · refine ih ⟨?_, ?_, ?_⟩
      · rw [out]
        exact sends.out
      · rw [len]
        exact sends.outLen
      · rw [pos]
        exact piece

/-- The engine cuts a message as UE and server do. -/
theorem engWires_eq (some_left : 0 < msg.length) (out : e.out.take msg.length = msg)
    (len : e.outLen = msg.length) (which : Nat) : engWires which e = wires msg 0 := by
  by_cases short : msg.length ≤ firstCap
  · have queued : (engQueueOutgoing which e).1 = frag msg 0 := by
      rw [frag_short short, engQueueOutgoing, len]
      simp only [if_pos short, out]
    have rest : (engQueueOutgoing which e).2.outLen = 0 := by
      rw [engQueueOutgoing, len]
      simp only [if_pos short]
    have whole := pieceLen_short short
    rw [engWires, queued, engSendWires_of_le (by omega), wires_of_lt some_left,
      wires_of_le (by omega)]
  · have queued : engQueueOutgoing which e = engSendFragment
        { e with curOutMsg := which, msgBytes := e.msgBytes.set which e.outLen, outPos := 0 } := by
      rw [engQueueOutgoing, len, if_neg short]
    have sends : Sends msg 0 e.out e.outLen 0 := ⟨out, len, rfl⟩
    have loop : engSendWires
        { e with curOutMsg := which, msgBytes := e.msgBytes.set which e.outLen, outPos := 0 } =
          wires msg 0 :=
      engSendWires_eq sends
    rw [engSendWires, dif_pos (by rw [len]; exact some_left)] at loop
    rw [engWires, queued, loop]

end Sending

/-! ### The three codecs -/

/-- The wires of a payload are the same wherever it is sent: it lies at the front of the output
buffer of the UE and of the engine, and the server queues it while it has no other one to send.
Three receivers that start with the same buffer and cursors see every sequence of frames in the
same way. -/
theorem codecs_interchangeable :
    (∀ payload : List UInt8, 1 ≤ payload.length → payload.length ≤ 8192 →
      ∀ (buf : List UInt8) (s : Session) (e : Engine) (which : Nat), buf.take payload.length =
        payload →
        ¬ s.outPos < s.outLen → e.out.take payload.length = payload → e.outLen = payload.length →
        encodeWires buf payload.length 0 = queueWires payload s ∧
        queueWires payload s = engWires which e) ∧
    ∀ (frames : List (List UInt8)) (r : Rx) (u : Ue) (s : Session) (e : Engine),
      r.pos ≤ r.len → r.len ≤ 8192 → Ue.rxPart.get u = r → Session.rxPart.get s = r → e.rx = r →
      accepts parseEdhocWire Ue.rxPart.get frames u =
        accepts edhocConsumeIncoming Session.rxPart.get frames s ∧
        accepts edhocConsumeIncoming Session.rxPart.get frames s =
          accepts engConsume Engine.rx frames e := by
  constructor
  · intro payload some_left fits buf s e which out silent engOut engLen
    rw [encodeWires_eq out (Nat.zero_le _), queueWires_eq some_left fits silent,
      engWires_eq some_left engOut engLen]
    exact ⟨rfl, rfl⟩
  · intro frames r u s e _ _ ue server engine
    rw [Shows.accepts (fun frame => (parseEdhocWire_acts frame).shows) frames u,
      Shows.accepts (fun frame => (edhocConsumeIncoming_acts frame).shows) frames s,
      Shows.accepts engConsume_shows frames e, ue, server, engine]
    exact ⟨rfl, rfl⟩

/-- An engine that has put a message of this size into its output buffer. -/
def zeroEngine (len : Nat) : Engine where
  inBuf := List.replicate Edhoc4.maxMsg 0
  inLen := 0
  inPos := 0
  out := List.replicate Edhoc4.maxMsg 0
  outLen := len
  outPos := 0
  msgBytes := List.replicate 5 0
  msgFrags := List.replicate 5 0
  curOutMsg := 0
  curInMsg := 0

/-- The largest payload, and a frame with a length field followed by an empty one. -/
theorem codecs_interchangeable_8192 :
    (encodeWires (List.replicate 8192 0) 8192 0 =
      queueWires (List.replicate 8192 0) modSessionInit ∧
      queueWires (List.replicate 8192 0) modSessionInit = engWires 3 (zeroEngine 8192)) ∧
    accepts parseEdhocWire Ue.rxPart.get [[0xC0, 0, 2, 7], [0]] nasSmInit =
        accepts edhocConsumeIncoming Session.rxPart.get [[0xC0, 0, 2, 7], [0]] modSessionInit ∧
      accepts edhocConsumeIncoming Session.rxPart.get [[0xC0, 0, 2, 7], [0]] modSessionInit =
        accepts engConsume Engine.rx [[0xC0, 0, 2, 7], [0]] (zeroEngine 0) := by
  have length : (List.replicate 8192 (0 : UInt8)).length = 8192 := List.length_replicate
  have whole : (List.replicate 8192 (0 : UInt8)).take (List.replicate 8192 (0 : UInt8)).length =
      List.replicate 8192 0 := List.take_length
  have sent :=
    codecs_interchangeable.1 (List.replicate 8192 0) (by rw [length]; decide) (by rw [length])
    (List.replicate 8192 0) modSessionInit (zeroEngine 8192) 3 whole (lt_irrefl 0) whole length.symm
  rw [length] at sent
  exact ⟨sent, codecs_interchangeable.2 [[0xC0, 0, 2, 7], [0]]
    ⟨List.replicate Edhoc4.maxMsg 0, 0, 0⟩ nasSmInit modSessionInit (zeroEngine 0) (Nat.le_refl 0)
    (Nat.zero_le _) rfl rfl rfl⟩

end EdhocAuth.Eap
