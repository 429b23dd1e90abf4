/-
The EAP-EDHOC fragmentation wrapper: what `edhoc4.h` fixes for the UE and the
server, and the octets both move between buffers and wires.

A wire is one flags octet, the length of the whole message if the flags say so, and
a piece of the message. `wirePayload` is that piece.
-/

import Mathlib.Data.List.TakeDrop

namespace EdhocAuth.Eap

/-- `E4_EDHOC_FRAG_WIRE_MAX`: the largest wire. -/
abbrev fragWireMax : Nat := 1000

abbrev fragHdrLen : Nat := 1

abbrev fragLenLen : Nat := 2

def fragFlagLen : UInt8 := 0x80

def fragFlagMore : UInt8 := 0x40

/-- The largest piece in a first fragment, and the largest unfragmented message. -/
abbrev firstCap : Nat := fragWireMax - fragHdrLen - fragLenLen

abbrev nextCap : Nat := fragWireMax - fragHdrLen

/-- The size of the next piece when `remaining` octets are left from position `pos` on. -/
def fragLen (pos remaining : Nat) : Nat :=
  let cap := if pos = 0 then firstCap else nextCap
  if remaining < cap then remaining else cap

theorem fragLen_le (pos remaining : Nat) : fragLen pos remaining ≤ remaining := by
  unfold fragLen
  dsimp only
  generalize (if pos = 0 then firstCap else nextCap) = cap
  split <;> omega

/-- No piece exceeds the room in its fragment. -/
theorem fragLen_le_cap (pos remaining : Nat) :
    fragLen pos remaining ≤ if pos = 0 then firstCap else nextCap := by
  unfold fragLen
  dsimp only
  generalize (if pos = 0 then firstCap else nextCap) = cap
  split <;> omega

/-- A piece of a message of which something is left is not empty. -/
theorem fragLen_pos {pos remaining : Nat} (left : 0 < remaining) : 0 < fragLen pos remaining := by
  have cap : 0 < if pos = 0 then firstCap else nextCap := by split <;> decide
  unfold fragLen
  dsimp only
  generalize (if pos = 0 then firstCap else nextCap) = cap at cap ⊢
  split <;> omega

def hasFlag (flag flags : UInt8) : Bool := flags &&& flag != 0

/-- The octets of `htons((uint16_t) n)` in memory. -/
def htons (n : Nat) : List UInt8 := [UInt8.ofNat (n / 256), UInt8.ofNat n]

def ntohs (hi lo : UInt8) : Nat := hi.toNat * 256 + lo.toNat

def memcpyAt (buf : List UInt8) (pos : Nat) (data : List UInt8) : List UInt8 :=
  buf.take pos ++ (data ++ buf.drop (pos + data.length))

/-- A copy inside a buffer keeps its size. -/
theorem memcpyAt_length {buf data : List UInt8} {pos : Nat}
    (fits : pos + data.length ≤ buf.length) :
    (memcpyAt buf pos data).length = buf.length := by
  simp only [memcpyAt, List.length_append, List.length_take, List.length_drop]
  omega

theorem memcpyAt_nil (buf : List UInt8) (pos : Nat) : memcpyAt buf pos [] = buf :=
  List.take_append_drop pos buf

theorem memcpyAt_left {front tail data : List UInt8} {pos : Nat}
    (fits : pos + data.length ≤ front.length) :
    memcpyAt (front ++ tail) pos data = memcpyAt front pos data ++ tail := by
  rw [memcpyAt, memcpyAt, List.take_append_of_le_length (by omega),
    List.drop_append_of_le_length fits, List.append_assoc, List.append_assoc]

/-- A copy behind the front of a buffer. -/
theorem memcpyAt_append {front tail data : List UInt8} {pos : Nat} (start : front.length = pos) :
    memcpyAt (front ++ tail) pos data = front ++ (data ++ tail.drop data.length) := by
  rw [memcpyAt, List.take_left' start, ← List.drop_drop, List.drop_left' start]

/-- What stands up to the end of a copy. -/
theorem take_memcpyAt {buf data : List UInt8} {pos : Nat} (inside : pos ≤ buf.length) :
    (memcpyAt buf pos data).take (pos + data.length) = buf.take pos ++ data := by
  rw [memcpyAt, ← List.append_assoc]
  apply List.take_left'
  rw [List.length_append, List.length_take_of_le inside]

/-- What lies behind the copied octets stays. -/
theorem drop_memcpyAt {buf data : List UInt8} {pos n : Nat} (fits : pos + data.length ≤ buf.length)
    (behind : pos + data.length ≤ n) : (memcpyAt buf pos data).drop n = buf.drop n := by
  have front : (buf.take pos ++ data).length = pos + data.length := by
    rw [List.length_append, List.length_take_of_le (by omega)]
  rw [memcpyAt, ← List.append_assoc, List.drop_append, front,
    List.drop_eq_nil_of_le (by omega), List.nil_append, List.drop_drop, Nat.add_sub_cancel' behind]

def fragFlags (more first : Bool) : UInt8 :=
  (if more then fragFlagMore else 0) ||| (if first then fragFlagLen else 0)

@[simp] theorem hasFlag_len_fragFlags (more first : Bool) :
    hasFlag fragFlagLen (fragFlags more first) = first := by
  cases more <;> cases first <;> rfl

@[simp] theorem hasFlag_more_fragFlags (more first : Bool) :
    hasFlag fragFlagMore (fragFlags more first) = more := by
  cases more <;> cases first <;> rfl

/-- The piece of a message that a wire carries. -/
def wirePayload : List UInt8 → List UInt8
  | [] => []
  | flags :: rest => if hasFlag fragFlagLen flags then rest.drop fragLenLen else rest

/-- A fragment: flags, the total length on the first of several, and the piece. -/
def fragWire (more first : Bool) (total : Nat) (piece : List UInt8) : List UInt8 :=
  fragFlags more first :: ((if first then htons total else []) ++ piece)

/-- A fragment carries its piece. -/
@[simp] theorem wirePayload_fragWire (more first : Bool) (total : Nat) (piece : List UInt8) :
    wirePayload (fragWire more first total piece) = piece := by
  cases first <;> simp [wirePayload, fragWire, htons]

end EdhocAuth.Eap
