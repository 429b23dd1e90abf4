/-
Fragmentation and reassembly, apart from the two programs that do it.

`frag msg p` is the wire that carries `msg` from position `p` on, and `Rx` the three
variables of a receiver: its buffer, the announced length (0 while idle) and the
position. `ParseEdhocWire` of the UE and `edhoc_consume_incoming` of the server both
act on these variables as `Rx.accept` does (`parseEdhocWire_acts`,
`edhocConsumeIncoming_acts`); what a receiver does with the wires of one message is
proved here, once for both.
-/

import EdhocAuth.Eap.Server
import EdhocAuth.Eap.Ue

namespace EdhocAuth.Eap

open Proc

/-! ### The receiver -/

structure Rx where
  buf : List UInt8
  len : Nat
  pos : Nat

namespace Rx

def acceptLength (inp : List UInt8) : Proc Rx Edhoc4.Err Unit := do
  require (fragHdrLen + fragLenLen ≤ inp.length) .parse
  let total := ntohs (inp.getD 1 0) (inp.getD 2 0)
  require (total ≠ 0 ∧ total ≤ Edhoc4.maxMsg) .buf
  let r ← load
  if r.len = 0 then store fun r => { r with len := total, pos := 0 }
  else require (r.len = total) .parse

def acceptPiece (more : Bool) (piece : List UInt8) :
    Proc Rx Edhoc4.Err (Option (List UInt8)) := do
  let r ← load
  require (r.pos + piece.length ≤ r.len) .buf
  store fun r => { r with buf := memcpyAt r.buf r.pos piece, pos := r.pos + piece.length }
  if more then return none
  else
    let r ← load
    require (r.pos = r.len) .parse
    store fun r => { r with len := 0, pos := 0 }
    return some (r.buf.take r.len)

/-- The piece of a message in a wire: alone, or one of several. -/
def acceptRest (more : Bool) (piece : List UInt8) :
    Proc Rx Edhoc4.Err (Option (List UInt8)) := do
  let r ← load
  if r.len ≠ 0 then acceptPiece more piece
  else
    require (more = false) .parse
    return some piece

/-- Take in a wire: the whole message, or `none` if more is to come. -/
def accept (inp : List UInt8) : Proc Rx Edhoc4.Err (Option (List UInt8)) := do
  require (inp.length ≠ 0) .parse
  let more := hasFlag fragFlagMore (inp.headD 0)
  if hasFlag fragFlagLen (inp.headD 0) then
    acceptLength inp
    require (fragHdrLen + fragLenLen ≤ inp.length) .parse
    acceptRest more (inp.drop (fragHdrLen + fragLenLen))
  else
    require (fragHdrLen ≤ inp.length) .parse
    acceptRest more (inp.drop fragHdrLen)

end Rx

/-! ### Both programs act as the receiver -/

/-- The receiver variables of a server session. -/
def Session.rxPart : Part Session Rx where
  get s := ⟨s.inBuf, s.inLen, s.inPos⟩
  set r s := { s with inBuf := r.buf, inLen := r.len, inPos := r.pos }
  get_set _ _ := rfl
  set_set _ _ _ := rfl
  set_get _ := rfl

def Ue.rxPart : Part Ue Rx where
  get u := ⟨u.inBuf, u.inLen, u.inPos⟩
  set r u := { u with inBuf := r.buf, inLen := r.len, inPos := r.pos }
  get_set _ _ := rfl
  set_set _ _ _ := rfl
  set_get _ := rfl

/-- On the variables of the receiver, the server treats the length field as `acceptLength` does. -/
theorem consumeLength_acts (inp : List UInt8) :
    Session.rxPart.Acts id (consumeLength inp) (Rx.acceptLength inp) := by
  refine .bind (.require Iff.rfl _) fun _ => .bind (.require Iff.rfl _) fun _ => ?_
  refine .load_bind fun s => .ite Iff.rfl (fun _ => ?_) fun _ => ?_
  · exact .store fun _ => rfl
  · exact .require Iff.rfl _

/-- It treats a piece as `acceptPiece` does. -/
theorem consumePiece_acts (more : Bool) (piece : List UInt8) :
    Session.rxPart.Acts id (consumePiece more piece) (Rx.acceptPiece more piece) := by
  refine .load_bind fun s => .bind (.require Iff.rfl _) fun _ => ?_
  refine .bind (.store fun _ => rfl) fun _ => .ite Iff.rfl (fun _ => .pure _) fun _ => ?_
  exact .load_bind fun s => .bind (.require Iff.rfl _) fun _ =>
    .bind (.store fun _ => rfl) fun _ => .pure _

/-- It treats what follows the length field as `acceptRest` does. -/
theorem consumeRest_acts (more : Bool) (piece : List UInt8) :
    Session.rxPart.Acts id
      (do
        let s ← load
        if s.inLen ≠ 0 then consumePiece more piece
        else
          require (more = false) .parse
          return some piece)
      (Rx.acceptRest more piece) := by
  refine .load_bind fun s => .ite Iff.rfl (fun _ => consumePiece_acts more piece) fun _ => ?_
  exact .bind (.require Iff.rfl _) fun _ => .pure _

/-- `edhoc_consume_incoming` is the common receiver. -/
theorem edhocConsumeIncoming_acts (inp : List UInt8) :
    Session.rxPart.Acts id (edhocConsumeIncoming inp) (Rx.accept inp) := by
  refine .bind (.require Iff.rfl _) fun _ => .ite Iff.rfl (fun long => ?_) fun short => ?_
  · rw [if_pos long]
    exact .bind (consumeLength_acts inp) fun _ =>
      .bind (.require Iff.rfl _) fun _ => consumeRest_acts _ _
  · rw [if_neg short]
    exact .bind (.require Iff.rfl _) fun _ => consumeRest_acts _ _

/-- On the variables of the receiver, the UE treats the length field as `acceptLength` does. -/
theorem parseLength_acts (inp : List UInt8) :
    Ue.rxPart.Acts (fun _ => ()) (parseLength inp) (Rx.acceptLength inp) := by
  refine .bind (.require Iff.rfl _) fun _ => .bind (.require Iff.rfl _) fun _ => ?_
  refine .load_bind fun s => .ite Iff.rfl (fun _ => ?_) fun _ => ?_
  · exact .store fun _ => rfl
  · exact .require Iff.rfl _

theorem parsePiece_acts (more : Bool) (piece : List UInt8) :
    Ue.rxPart.Acts (fun _ => ()) (parsePiece more piece) (Rx.acceptPiece more piece) := by
  refine .load_bind fun s => .bind (.require Iff.rfl _) fun _ => ?_
  refine .bind (.store fun _ => rfl) fun _ => .ite Iff.rfl (fun _ => .pure _) fun _ => ?_
  exact .load_bind fun s => .bind (.require Iff.rfl _) fun _ =>
    .bind (.store fun _ => rfl) fun _ => .pure _

theorem parseRest_acts (more : Bool) (piece : List UInt8) :
    Ue.rxPart.Acts (fun _ => ())
      (do
        let u ← load
        if 0 < u.inLen then parsePiece more piece
        else
          require (more = false) ()
          return some piece)
      (Rx.acceptRest more piece) := by
  refine .load_bind fun s =>
    .ite Nat.pos_iff_ne_zero (fun _ => parsePiece_acts more piece) fun _ => ?_
  exact .bind (.require Iff.rfl _) fun _ => .pure _

/-- `ParseEdhocWire` is the common receiver, with one error for all. -/
theorem parseEdhocWire_acts (inp : List UInt8) :
    Ue.rxPart.Acts (fun _ => ()) (parseEdhocWire inp) (Rx.accept inp) := by
  refine .bind (.require Iff.rfl _) fun _ => .ite Iff.rfl (fun long => ?_) fun short => ?_
  · rw [if_pos long]
    exact .bind (parseLength_acts inp) fun _ =>
      .bind (.require Iff.rfl _) fun _ => parseRest_acts _ _
  · rw [if_neg short]
    exact .bind (.require Iff.rfl _) fun _ => parseRest_acts _ _

/-! ### Wires -/

theorem ntohs_htons {n : Nat} (small : n < 65536) :
    ntohs (UInt8.ofNat (n / 256)) (UInt8.ofNat n) = n := by
  simp only [ntohs, UInt8.toNat_ofNat']
  omega

namespace Rx

variable {more : Bool} {total : Nat} {piece : List UInt8} {r : Rx}

/-- What `acceptLength` does with an announced length. -/
def announce (total : Nat) : Proc Rx Edhoc4.Err Unit := do
  require (total ≠ 0 ∧ total ≤ Edhoc4.maxMsg) .buf
  let r ← load
  if r.len = 0 then store fun r => { r with len := total, pos := 0 }
  else require (r.len = total) .parse

theorem acceptLength_fragWire (small : total < 65536) (r : Rx) :
    acceptLength (fragWire more true total piece) r = announce total r := by
  have field : ntohs ((fragWire more true total piece).getD 1 0)
      ((fragWire more true total piece).getD 2 0) = total := ntohs_htons small
  refine (bind_ok (require_ok ?_)).trans ?_
  · show 3 ≤ piece.length + 1 + 1 + 1
    omega
  · show announce (ntohs ((fragWire more true total piece).getD 1 0) _) r = _
    rw [field]

/-- A wire with a length field. -/
theorem accept_announced (small : total < 65536) (r : Rx) :
    accept (fragWire more true total piece) r =
      (announce total >>= fun _ => acceptRest more piece) r := by
  have flag : hasFlag fragFlagLen ((fragWire more true total piece).headD 0) = true :=
    hasFlag_len_fragFlags more true
  have moreFlag : hasFlag fragFlagMore ((fragWire more true total piece).headD 0) = more :=
    hasFlag_more_fragFlags more true
  have long : fragHdrLen + fragLenLen ≤ (fragWire more true total piece).length := by
    show 3 ≤ piece.length + 1 + 1 + 1
    omega
  refine (bind_ok (require_ok (Nat.succ_ne_zero _))).trans ?_
  rw [if_pos flag, moreFlag, bind_apply, bind_apply, acceptLength_fragWire small]
  split
  · exact bind_ok (require_ok long)
  · rfl

/-- A wire without one. -/
theorem accept_plain (r : Rx) :
    accept (fragWire more false total piece) r = acceptRest more piece r := by
  have flag : hasFlag fragFlagLen ((fragWire more false total piece).headD 0) ≠ true := by
    rw [show hasFlag fragFlagLen ((fragWire more false total piece).headD 0) = false from
      hasFlag_len_fragFlags more false]
    decide
  have moreFlag : hasFlag fragFlagMore ((fragWire more false total piece).headD 0) = more :=
    hasFlag_more_fragFlags more false
  refine (bind_ok (require_ok (Nat.succ_ne_zero _))).trans ?_
  rw [if_neg flag, moreFlag]
  exact bind_ok (require_ok (Nat.le_add_left _ _))

end Rx

/-! ### The wires of one message -/

/-- The size of the piece of `msg` that starts at `p`. -/
def pieceLen (msg : List UInt8) (p : Nat) : Nat := fragLen p (msg.length - p)

/-- The wire that carries `msg` from position `p` on. -/
def frag (msg : List UInt8) (p : Nat) : List UInt8 :=
  let more := decide (pieceLen msg p < msg.length - p)
  fragWire more (decide (p = 0) && more) msg.length ((msg.drop p).take (pieceLen msg p))

section Message

variable {msg : List UInt8} {p : Nat}

theorem pieceLen_le (msg : List UInt8) (p : Nat) : pieceLen msg p ≤ msg.length - p :=
  fragLen_le _ _

theorem length_piece (msg : List UInt8) (p : Nat) :
    ((msg.drop p).take (pieceLen msg p)).length = pieceLen msg p := by
  rw [List.length_take, List.length_drop]
  exact Nat.min_eq_left (pieceLen_le msg p)

/-- While octets are left, a piece has some. -/
theorem pieceLen_pos (left : p < msg.length) : 0 < pieceLen msg p :=
  fragLen_pos (by omega)

/-- A short message is one piece. -/
theorem pieceLen_short (short : msg.length ≤ firstCap) : pieceLen msg 0 = msg.length := by
  unfold pieceLen fragLen
  dsimp only
  rw [if_pos rfl, Nat.sub_zero]
  split <;> omega

/-- A message that fits into one wire goes out behind a flags octet of zero. -/
theorem frag_short (short : msg.length ≤ firstCap) : frag msg 0 = 0 :: msg := by
  simp [frag, pieceLen_short short, fragWire, fragFlags]

end Message

namespace Rx

variable {msg piece : List UInt8} {p : Nat} {r : Rx}

/-- No message is being reassembled. -/
structure Idle (r : Rx) : Prop where
  len : r.len = 0
  pos : r.pos = 0

/-- The first `p` octets of `msg` have been taken in. -/
structure Holds (msg : List UInt8) (p : Nat) (r : Rx) : Prop where
  len : r.len = msg.length
  pos : r.pos = p
  buf : r.buf.take p = msg.take p

def put (piece : List UInt8) (r : Rx) : Rx :=
  { r with buf := memcpyAt r.buf r.pos piece, pos := r.pos + piece.length }

/-- A receiver that holds the front of a message holds more of it after the next piece. -/
theorem Holds.put {n : Nat} (here : Holds msg p r) (inside : p + n ≤ msg.length) :
    Holds msg (p + n) (r.put ((msg.drop p).take n)) := by
  have room : p ≤ r.buf.length := by
    have cut := congrArg List.length here.buf
    rw [List.length_take, List.length_take_of_le (by omega)] at cut
    omega
  have front : (r.buf.take p).length = p := List.length_take_of_le room
  have size : ((msg.drop p).take n).length = n := by
    rw [List.length_take, List.length_drop]
    omega
  refine ⟨here.len, ?_, ?_⟩
  · show r.pos + _ = _
    rw [here.pos, size]
  · show (memcpyAt r.buf r.pos _).take _ = _
    rw [here.pos, memcpyAt, ← List.append_assoc, List.take_left', here.buf]
    · exact List.take_add.symm
    · rw [List.length_append, front, size]

/-- A piece with others to follow is put into the buffer. -/
theorem acceptPiece_more (fits : r.pos + piece.length ≤ r.len) :
    acceptPiece true piece r = (.ok none, r.put piece) :=
  bind_ok (require_ok fits)

/-- The last piece completes the message and closes the receiver. -/
theorem acceptPiece_last (fits : r.pos + piece.length = r.len) :
    acceptPiece false piece r =
      (.ok (some ((r.put piece).buf.take r.len)), { r.put piece with len := 0, pos := 0 }) :=
  (bind_ok (require_ok fits.le)).trans (bind_ok (require_ok fits))

theorem acceptRest_of_open {more : Bool} (opened : r.len ≠ 0) :
    acceptRest more piece r = acceptPiece more piece r :=
  congrFun (if_pos opened) r

/-- In the middle of a message a wire with or without a length field adds its piece. -/
theorem Holds.accept_eq {more announced : Bool} (here : Holds msg p r) (nonempty : msg.length ≠ 0)
    (fits : msg.length ≤ Edhoc4.maxMsg) :
    accept (fragWire more announced msg.length piece) r = acceptPiece more piece r := by
  have bound : Edhoc4.maxMsg = 8192 := rfl
  have opened : r.len ≠ 0 := by
    rw [here.len]
    exact nonempty
  cases announced with
  | true =>
    have repeated : announce msg.length r = (.ok (), r) := by
      refine (bind_ok (require_ok ⟨nonempty, fits⟩)).trans ?_
      exact (congrFun (if_neg opened) r).trans (require_ok here.len)
    rw [accept_announced (by omega), bind_ok repeated, acceptRest_of_open opened]
  | false => rw [accept_plain, acceptRest_of_open opened]

/-- A length field opens the message and then adds the piece. -/
theorem Idle.accept_eq (idle : r.Idle) (nonempty : msg.length ≠ 0)
    (fits : msg.length ≤ Edhoc4.maxMsg) (more : Bool) (piece : List UInt8) :
    accept (fragWire more true msg.length piece) r =
        acceptPiece more piece { r with len := msg.length, pos := 0 } ∧
      Holds msg 0 { r with len := msg.length, pos := 0 } := by
  have bound : Edhoc4.maxMsg = 8192 := rfl
  have opened : announce msg.length r = (.ok (), { r with len := msg.length, pos := 0 }) := by
    refine (bind_ok (require_ok ⟨nonempty, fits⟩)).trans ?_
    exact congrFun (if_pos idle.len) r
  refine ⟨?_, rfl, rfl, rfl⟩
  rw [accept_announced (by omega), bind_ok opened, acceptRest_of_open nonempty]

/-- A message in one wire passes through an idle receiver. -/
theorem Idle.accept_plain (idle : r.Idle) (total : Nat) :
    accept (fragWire false false total msg) r = (.ok (some msg), r) := by
  have closed : ¬ r.len ≠ 0 := not_not.mpr idle.len
  rw [Rx.accept_plain]
  exact (congrFun (if_neg closed) r).trans (bind_ok (require_ok rfl))

/-- A whole message is delivered to an idle receiver at once. -/
theorem Idle.accept_whole (idle : r.Idle) (whole : pieceLen msg 0 = msg.length) :
    accept (frag msg 0) r = (.ok (some msg), r) := by
  have flags : frag msg 0 = fragWire false false msg.length msg := by
    simp [frag, whole]
  rw [flags]
  exact idle.accept_plain _

/-- A piece of the message with others to follow is acknowledged. -/
theorem Holds.piece_more {n : Nat} (here : Holds msg p r) (inside : p + n ≤ msg.length) :
    acceptPiece true ((msg.drop p).take n) r = (.ok none, r.put ((msg.drop p).take n)) := by
  apply acceptPiece_more
  rw [List.length_take, List.length_drop, here.len, here.pos]
  omega

/-- The last piece of the message delivers it. -/
theorem Holds.piece_last (here : Holds msg p r) (inside : p ≤ msg.length) :
    ∃ r', acceptPiece false (msg.drop p) r = (.ok (some msg), r') ∧ r'.Idle := by
  have rest : (msg.drop p).take (msg.length - p) = msg.drop p := by
    rw [← List.length_drop, List.take_length]
  have all := (here.put (n := msg.length - p) (by omega)).buf
  rw [rest, Nat.add_sub_cancel' inside, List.take_length] at all
  refine ⟨{ r.put (msg.drop p) with len := 0, pos := 0 }, ?_, rfl, rfl⟩
  rw [acceptPiece_last, here.len, all]
  rw [List.length_drop, here.len, here.pos]
  omega

/-- The receiver between two wires of `msg`, the next of which starts at `p`. -/
def Receiving (msg : List UInt8) (p : Nat) (r : Rx) : Prop :=
  (p = 0 ∧ r.Idle) ∨ (0 < p ∧ r.Holds msg p)

/-- What the next wire of a message does to a receiver. -/
theorem Receiving.accept (here : Receiving msg p r) (left : p < msg.length)
    (fits : msg.length ≤ Edhoc4.maxMsg) :
    (p + pieceLen msg p < msg.length ∧
      ∃ r', Rx.accept (frag msg p) r = (.ok none, r') ∧ Receiving msg (p + pieceLen msg p) r') ∨
    (p + pieceLen msg p = msg.length ∧
      ∃ r', Rx.accept (frag msg p) r = (.ok (some msg), r') ∧ r'.Idle) := by
  have bound := pieceLen_le msg p
  have progress := pieceLen_pos left
  have nonempty : msg.length ≠ 0 := by omega
  by_cases more : pieceLen msg p < msg.length - p
  · refine .inl ⟨by omega, ?_⟩
    have inside : p + pieceLen msg p ≤ msg.length := by omega
    rcases here with ⟨rfl, idle⟩ | ⟨later, holds⟩
    · have several : pieceLen msg 0 < msg.length := more
      have flags : frag msg 0 =
          fragWire true true msg.length ((msg.drop 0).take (pieceLen msg 0)) := by
        simp [frag, several]
      obtain ⟨opens, holds⟩ := idle.accept_eq nonempty fits true
        ((msg.drop 0).take (pieceLen msg 0))
      rw [flags, opens]
      exact ⟨_, holds.piece_more inside, .inr ⟨by omega, holds.put inside⟩⟩
    · have flags : frag msg p =
          fragWire true false msg.length ((msg.drop p).take (pieceLen msg p)) := by
        simp [frag, more, later.ne']
      rw [flags, holds.accept_eq nonempty fits]
      exact ⟨_, holds.piece_more inside, .inr ⟨by omega, holds.put inside⟩⟩
  · refine .inr ⟨by omega, ?_⟩
    rcases here with ⟨rfl, idle⟩ | ⟨later, holds⟩
    · exact ⟨r, idle.accept_whole (by omega), idle⟩
    · have last : pieceLen msg p = msg.length - p := by omega
      have rest : (msg.drop p).take (pieceLen msg p) = msg.drop p := by
        rw [last, ← List.length_drop, List.take_length]
      have flags : frag msg p = fragWire false false msg.length (msg.drop p) := by
        rw [frag, decide_eq_false more, rest, Bool.and_false]
      rw [flags, holds.accept_eq nonempty fits]
      exact holds.piece_last left.le

/-! ### What any wire does to a receiver -/

def totalLen (inp : List UInt8) : Nat := ntohs (inp.getD 1 0) (inp.getD 2 0)

/-- A wire whose length field opens a message. -/
structure Announces (inp : List UInt8) : Prop where
  flag : hasFlag fragFlagLen (inp.headD 0) = true
  long : fragHdrLen + fragLenLen ≤ inp.length
  total : totalLen inp ≠ 0 ∧ totalLen inp ≤ Edhoc4.maxMsg

/-- The wire passes the checks before its piece is looked at, and leaves the receiver at
`r'`, in the middle of a message: of a new one, or of the one it was in already. -/
inductive Admits (inp : List UInt8) (r : Rx) : Rx → Prop where
  | opens (announces : Announces inp) (closed : r.len = 0) :
      Admits inp r { r with len := totalLen inp, pos := 0 }
  | repeats (announces : Announces inp) (opened : r.len ≠ 0) (same : r.len = totalLen inp) :
      Admits inp r r
  | continues (plain : hasFlag fragFlagLen (inp.headD 0) = false) (nonempty : inp ≠ [])
      (opened : r.len ≠ 0) : Admits inp r r

theorem Admits.opened {inp : List UInt8} {r' : Rx} (admits : Admits inp r r') : r'.len ≠ 0 := by
  cases admits with
  | opens announces _ => exact announces.total.1
  | repeats _ opened _ => exact opened
  | continues _ _ opened => exact opened

theorem Admits.of_open {inp : List UInt8} {r' : Rx} (admits : Admits inp r r')
    (opened : r.len ≠ 0) : r' = r := by
  cases admits with
  | opens _ closed => exact absurd closed opened
  | repeats _ _ _ => rfl
  | continues _ _ _ => rfl

theorem Admits.of_closed {inp : List UInt8} {r' : Rx} (admits : Admits inp r r')
    (closed : r.len = 0) :
    Announces inp := by
  cases admits with
  | opens announces _ => exact announces
  | repeats _ opened _ => exact absurd closed opened
  | continues _ _ opened => exact absurd closed opened

/-- A wire is admitted in one way. -/
theorem Admits.unique {inp : List UInt8} {s t : Rx} (one : Admits inp r s)
    (other : Admits inp r t) : s = t := by
  by_cases closed : r.len = 0
  · cases one with
    | opens _ _ =>
      cases other with
      | opens _ _ => rfl
      | repeats _ opened _ => exact absurd closed opened
      | continues _ _ opened => exact absurd closed opened
    | repeats _ opened _ => exact absurd closed opened
    | continues _ _ opened => exact absurd closed opened
  · exact (one.of_open closed).trans (other.of_open closed).symm

/-- A message in one wire, for an idle receiver. -/
structure Alone (inp : List UInt8) (r : Rx) : Prop where
  nonempty : inp ≠ []
  plain : hasFlag fragFlagLen (inp.headD 0) = false
  last : hasFlag fragFlagMore (inp.headD 0) = false
  closed : r.len = 0

/-- A whole message for an idle receiver is not admitted as a piece. -/
theorem Alone.outside {inp : List UInt8} (alone : Alone inp r) (r' : Rx) : ¬ Admits inp r r' := by
  rintro (⟨announces, -⟩ | ⟨announces, -, -⟩ | ⟨-, -, opened⟩)
  · exact absurd announces.flag (ne_true_of_eq_false alone.plain)
  · exact absurd announces.flag (ne_true_of_eq_false alone.plain)
  · exact opened alone.closed

/-- What a wire can do to a receiver. -/
inductive Step (inp : List UInt8) (r : Rx) :
    Except Edhoc4.Err (Option (List UInt8)) → Rx → Prop where
  | refused {e : Edhoc4.Err} (outside : ∀ r', ¬ Admits inp r r') (other : ¬ Alone inp r) :
      Step inp r (.error e) r
  | alone (alone : Alone inp r) : Step inp r (.ok (some (wirePayload inp))) r
  /-- The piece does not fit; the length field has been taken over. -/
  | tooLong {r' : Rx} (admits : Admits inp r r')
      (long : r'.len < r'.pos + (wirePayload inp).length) : Step inp r (.error .buf) r'
  | part {r' : Rx} (admits : Admits inp r r') (fits : r'.pos + (wirePayload inp).length ≤ r'.len)
      (more : hasFlag fragFlagMore (inp.headD 0) = true) :
      Step inp r (.ok none) (r'.put (wirePayload inp))
  | whole {r' : Rx} (admits : Admits inp r r') (fits : r'.pos + (wirePayload inp).length = r'.len)
      (last : hasFlag fragFlagMore (inp.headD 0) = false) :
      Step inp r (.ok (some ((r'.put (wirePayload inp)).buf.take r'.len)))
        { r'.put (wirePayload inp) with len := 0, pos := 0 }
  /-- The last piece leaves a gap; it has been taken over. -/
  | short {r' : Rx} (admits : Admits inp r r') (gap : r'.pos + (wirePayload inp).length < r'.len)
      (last : hasFlag fragFlagMore (inp.headD 0) = false) :
      Step inp r (.error .parse) (r'.put (wirePayload inp))

def IsStep (inp : List UInt8) (r : Rx) (out : Except Edhoc4.Err (Option (List UInt8)) × Rx) :
    Prop :=
  Step inp r out.1 out.2

/-- A piece beyond the announced length is rejected and changes nothing. -/
theorem acceptPiece_tooLong {more : Bool} (long : r.len < r.pos + piece.length) :
    acceptPiece more piece r = (.error .buf, r) :=
  load_require_error (c := fun r : Rx => r.pos + piece.length ≤ r.len) (not_le.mpr long)

/-- A last piece short of the announced length is rejected, but has been put into the buffer. -/
theorem acceptPiece_short (gap : r.pos + piece.length < r.len) :
    acceptPiece false piece r = (.error .parse, r.put piece) :=
  (bind_ok (require_ok gap.le)).trans (bind_error (s := r.put piece) (require_error gap.ne))

theorem wirePayload_announced {inp : List UInt8} (nonempty : inp ≠ [])
    (flag : hasFlag fragFlagLen (inp.headD 0) = true) :
    wirePayload inp = inp.drop (fragHdrLen + fragLenLen) := by
  cases inp with
  | nil => exact absurd rfl nonempty
  | cons flags rest => exact if_pos flag

theorem wirePayload_plain {inp : List UInt8} (nonempty : inp ≠ [])
    (flag : hasFlag fragFlagLen (inp.headD 0) = false) :
    wirePayload inp = inp.drop fragHdrLen := by
  cases inp with
  | nil => exact absurd rfl nonempty
  | cons flags rest => exact if_neg (ne_true_of_eq_false flag)

/-- The length field is refused without a trace, or opens or repeats a message. -/
theorem acceptLength_cases {inp : List UInt8} (flag : hasFlag fragFlagLen (inp.headD 0) = true)
    (r : Rx) :
    (∃ e, acceptLength inp r = (.error e, r) ∧ ∀ r', ¬ Admits inp r r') ∨
      (∃ r', acceptLength inp r = (.ok (), r') ∧ Admits inp r r' ∧
        fragHdrLen + fragLenLen ≤ inp.length) := by
  have announced {r' : Rx} (admits : Admits inp r r') : Announces inp := by
    cases admits with
    | opens announces _ => exact announces
    | repeats announces _ _ => exact announces
    | continues plain _ _ => exact absurd flag (ne_true_of_eq_false plain)
  by_cases long : fragHdrLen + fragLenLen ≤ inp.length
  · by_cases total : totalLen inp ≠ 0 ∧ totalLen inp ≤ Edhoc4.maxMsg
    · have checked : acceptLength inp r =
          (ite (r.len = 0) (store fun r => { r with len := totalLen inp, pos := 0 })
            (require (r.len = totalLen inp) .parse) : Proc Rx Edhoc4.Err Unit) r :=
        (bind_ok (require_ok long)).trans (bind_ok (require_ok total))
      rw [checked]
      by_cases closed : r.len = 0
      · rw [if_pos closed]
        exact .inr ⟨_, rfl, .opens ⟨flag, long, total⟩ closed, long⟩
      · rw [if_neg closed]
        by_cases same : r.len = totalLen inp
        · exact .inr ⟨r, require_ok same, .repeats ⟨flag, long, total⟩ closed same, long⟩
        · refine .inl ⟨.parse, require_error same, fun r' admits => ?_⟩
          cases admits with
          | opens _ closed' => exact closed closed'
          | repeats _ _ same' => exact same same'
          | continues plain _ _ => exact absurd flag (ne_true_of_eq_false plain)
    · refine .inl ⟨.buf, ?_, fun r' admits => total (announced admits).total⟩
      exact (bind_ok (require_ok long)).trans (bind_error (require_error total))
  · exact .inl ⟨.parse, bind_error (require_error long),
      fun r' admits => long (announced admits).long⟩

/-- A wire is refused without a trace, is a message of its own, or is admitted and its
piece is added. -/
theorem accept_cases (inp : List UInt8) (r : Rx) :
    ((∃ e, accept inp r = (.error e, r)) ∧ (∀ r', ¬ Admits inp r r') ∧ ¬ Alone inp r) ∨
    (accept inp r = (.ok (some (wirePayload inp)), r) ∧ Alone inp r) ∨
    (∃ r', accept inp r = acceptPiece (hasFlag fragFlagMore (inp.headD 0)) (wirePayload inp) r' ∧
      Admits inp r r') := by
  by_cases nonempty : inp = []
  · subst nonempty
    refine .inl ⟨⟨.parse, rfl⟩, fun r' admits => ?_, fun alone => alone.nonempty rfl⟩
    cases admits with
    | opens announces _ => exact absurd announces.flag (by decide)
    | repeats announces _ _ => exact absurd announces.flag (by decide)
    | continues _ nonempty _ => exact nonempty rfl
  · have first : inp.length ≠ 0 := mt List.length_eq_zero_iff.mp nonempty
    cases flag : hasFlag fragFlagLen (inp.headD 0) with
    | true =>
      have branch : accept inp r = (acceptLength inp >>= fun _ =>
          require (fragHdrLen + fragLenLen ≤ inp.length) .parse >>= fun _ =>
          acceptRest (hasFlag fragFlagMore (inp.headD 0)) (inp.drop (fragHdrLen + fragLenLen))) r :=
        (bind_ok (require_ok first)).trans (congrFun (if_pos flag) r)
      obtain ⟨e, failed, outside⟩ | ⟨r', passed, admits, long⟩ := acceptLength_cases flag r
      · refine .inl ⟨⟨e, branch.trans (bind_error failed)⟩, outside, fun alone => ?_⟩
        exact absurd flag (ne_true_of_eq_false alone.plain)
      · refine .inr (.inr ⟨r', branch.trans ?_, admits⟩)
        rw [bind_ok passed, bind_ok (require_ok long), acceptRest_of_open admits.opened,
          ← wirePayload_announced nonempty flag]
    | false =>
      have branch : accept inp r =
          acceptRest (hasFlag fragFlagMore (inp.headD 0)) (wirePayload inp) r := by
        rw [wirePayload_plain nonempty flag]
        exact (bind_ok (require_ok first)).trans
          ((congrFun (if_neg (ne_true_of_eq_false flag)) r).trans
            (bind_ok (require_ok (Nat.pos_of_ne_zero first))))
      by_cases closed : r.len = 0
      · have alone : accept inp r = (require (hasFlag fragFlagMore (inp.headD 0) = false) .parse >>=
            fun _ => pure (some (wirePayload inp))) r :=
          branch.trans (congrFun (if_neg (not_not.mpr closed)) r)
        by_cases last : hasFlag fragFlagMore (inp.headD 0) = false
        · exact .inr (.inl ⟨alone.trans (bind_ok (require_ok last)), nonempty, flag, last, closed⟩)
        · refine .inl ⟨⟨.parse, alone.trans (bind_error (require_error last))⟩, fun r' admits => ?_,
            fun alone => last alone.last⟩
          cases admits with
          | opens announces _ => exact absurd announces.flag (ne_true_of_eq_false flag)
          | repeats _ opened _ => exact opened closed
          | continues _ _ opened => exact opened closed
      · exact .inr (.inr ⟨r, branch.trans (acceptRest_of_open closed),
          .continues flag nonempty closed⟩)

/-- There are no other cases. -/
theorem accept_step (inp : List UInt8) (r : Rx) : IsStep inp r (accept inp r) := by
  obtain ⟨⟨e, refused⟩, outside, other⟩ | ⟨delivered, alone⟩ | ⟨r', admitted, admits⟩ :=
    accept_cases inp r
  · rw [refused]
    exact .refused outside other
  · rw [delivered]
    exact .alone alone
  · rw [admitted]
    by_cases fits : r'.pos + (wirePayload inp).length ≤ r'.len
    · cases flag : hasFlag fragFlagMore (inp.headD 0) with
      | true =>
        rw [acceptPiece_more fits]
        exact .part admits fits flag
      | false =>
        rcases fits.eq_or_lt with all | gap
        · rw [acceptPiece_last all]
          exact .whole admits all flag
        · rw [acceptPiece_short gap]
          exact .short admits gap flag
    · rw [acceptPiece_tooLong (not_le.mp fits)]
      exact .tooLong admits (not_le.mp fits)

/-- A position inside the announced message, which fits into the buffer. -/
structure Wf (r : Rx) : Prop where
  pos : r.pos ≤ r.len
  len : r.len ≤ Edhoc4.maxMsg
  buf : r.buf.length = Edhoc4.maxMsg

/-- A piece that fits keeps the receiver within its buffer. -/
theorem Wf.put (here : r.Wf) (fits : r.pos + piece.length ≤ r.len) : (r.put piece).Wf := by
  refine ⟨fits, here.len, ?_⟩
  have room := here.len
  rw [← here.buf] at room ⊢
  exact memcpyAt_length (fits.trans room)

theorem Wf.inside (wf : r.Wf) : r.pos ≤ r.buf.length := by
  rw [wf.buf]
  exact wf.pos.trans wf.len

/-- A piece is put behind what has been taken in. -/
theorem Wf.taken (wf : r.Wf) (piece : List UInt8) :
    (r.put piece).buf.take (r.put piece).pos = r.buf.take r.pos ++ piece :=
  take_memcpyAt wf.inside

/-- An empty piece changes nothing. -/
theorem put_nil (r : Rx) : r.put [] = r := by
  show ({ r with buf := memcpyAt r.buf r.pos [] } : Rx) = r
  rw [memcpyAt_nil]

/-- Any other piece moves the position. -/
theorem put_ne (nonempty : piece ≠ []) : r.put piece ≠ r := by
  intro same
  have size := List.length_pos_of_ne_nil nonempty
  have moved : r.pos + piece.length = r.pos := congrArg Rx.pos same
  omega

/-- Announcing a length keeps the receiver within its buffer. -/
theorem Admits.wf {inp : List UInt8} {r' : Rx} (admits : Admits inp r r') (here : r.Wf) :
    r'.Wf := by
  cases admits with
  | opens announces _ => exact ⟨Nat.zero_le _, announces.total.2, here.buf⟩
  | repeats _ _ _ => exact here
  | continues _ _ _ => exact here

/-- No wire moves a receiver out of its buffer. -/
theorem Step.wf {inp : List UInt8} {r' : Rx} {out : Except Edhoc4.Err (Option (List UInt8))}
    (step : Step inp r out r') (here : r.Wf) : r'.Wf := by
  cases step with
  | refused _ _ => exact here
  | alone _ => exact here
  | tooLong admits _ => exact admits.wf here
  | part admits fits _ => exact (admits.wf here).put fits
  | whole admits fits _ =>
    exact ⟨le_refl 0, Nat.zero_le _, ((admits.wf here).put fits.le).buf⟩
  | short admits gap _ => exact (admits.wf here).put gap.le

end Rx

end EdhocAuth.Eap
