/-
MD5 and HMAC-MD5 as the relay computes them (`src/upf/eap-relay.c`).

A context buffers what does not fill a block. The bytes of `buffer` behind `buffer_len`
are never read, so the model keeps the live ones only. `md5_hash` and `hmac_md5` feed a
context in parts; `md5Hash_eq` and `hmacMd5_eq` say that they compute the iterated hash of
the padded message and HMAC over it.
-/

import EdhocAuth.Lib.Hash
import EdhocAuth.Lib.Octets

namespace EdhocAuth.Upf

/-! ### The compression function -/

/-- The chaining value, and the registers of a step in the order `a`, `b`, `c`, `d`. -/
structure Md5State where
  a : UInt32
  b : UInt32
  c : UInt32
  d : UInt32
deriving DecidableEq

def md5Rotl (x n : UInt32) : UInt32 := (x <<< n) ||| (x >>> (32 - n))

def md5F (x y z : UInt32) : UInt32 := (x &&& y) ||| (~~~x &&& z)

def md5G (x y z : UInt32) : UInt32 := (x &&& z) ||| (y &&& ~~~z)

def md5H (x y z : UInt32) : UInt32 := x ^^^ y ^^^ z

def md5I (x y z : UInt32) : UInt32 := y ^^^ (x ||| ~~~z)

def md5Word (block : List UInt8) (i : Nat) : UInt32 :=
  (block.getD (i * 4) 0).toUInt32 ||| ((block.getD (i * 4 + 1) 0).toUInt32 <<< 8) |||
    ((block.getD (i * 4 + 2) 0).toUInt32 <<< 16) ||| ((block.getD (i * 4 + 3) 0).toUInt32 <<< 24)

/-- `MD5_STEP`. The next step has the registers one place further, which is how the source
permutes its arguments. -/
def md5Step (f : UInt32 → UInt32 → UInt32 → UInt32) (block : List UInt8) (r : Md5State) :
    Nat × UInt32 × UInt32 → Md5State
  | (k, t, s) => ⟨r.d, md5Rotl (r.a + (f r.b r.c r.d + md5Word block k + t)) s + r.b, r.b, r.c⟩

/-! The arguments `m[k]`, `t` and `s` of the steps. -/

def md5RoundF : List (Nat × UInt32 × UInt32) :=
  [(0, 0xd76aa478, 7), (1, 0xe8c7b756, 12), (2, 0x242070db, 17), (3, 0xc1bdceee, 22),
    (4, 0xf57c0faf, 7), (5, 0x4787c62a, 12), (6, 0xa8304613, 17), (7, 0xfd469501, 22),
    (8, 0x698098d8, 7), (9, 0x8b44f7af, 12), (10, 0xffff5bb1, 17), (11, 0x895cd7be, 22),
    (12, 0x6b901122, 7), (13, 0xfd987193, 12), (14, 0xa679438e, 17), (15, 0x49b40821, 22)]

def md5RoundG : List (Nat × UInt32 × UInt32) :=
  [(1, 0xf61e2562, 5), (6, 0xc040b340, 9), (11, 0x265e5a51, 14), (0, 0xe9b6c7aa, 20),
    (5, 0xd62f105d, 5), (10, 0x02441453, 9), (15, 0xd8a1e681, 14), (4, 0xe7d3fbc8, 20),
    (9, 0x21e1cde6, 5), (14, 0xc33707d6, 9), (3, 0xf4d50d87, 14), (8, 0x455a14ed, 20),
    (13, 0xa9e3e905, 5), (2, 0xfcefa3f8, 9), (7, 0x676f02d9, 14), (12, 0x8d2a4c8a, 20)]

def md5RoundH : List (Nat × UInt32 × UInt32) :=
  [(5, 0xfffa3942, 4), (8, 0x8771f681, 11), (11, 0x6d9d6122, 16), (14, 0xfde5380c, 23),
    (1, 0xa4beea44, 4), (4, 0x4bdecfa9, 11), (7, 0xf6bb4b60, 16), (10, 0xbebfbc70, 23),
    (13, 0x289b7ec6, 4), (0, 0xeaa127fa, 11), (3, 0xd4ef3085, 16), (6, 0x04881d05, 23),
    (9, 0xd9d4d039, 4), (12, 0xe6db99e5, 11), (15, 0x1fa27cf8, 16), (2, 0xc4ac5665, 23)]

def md5RoundI : List (Nat × UInt32 × UInt32) :=
  [(0, 0xf4292244, 6), (7, 0x432aff97, 10), (14, 0xab9423a7, 15), (5, 0xfc93a039, 21),
    (12, 0x655b59c3, 6), (3, 0x8f0ccc92, 10), (10, 0xffeff47d, 15), (1, 0x85845dd1, 21),
    (8, 0x6fa87e4f, 6), (15, 0xfe2ce6e0, 10), (6, 0xa3014314, 15), (13, 0x4e0811a1, 21),
    (4, 0xf7537e82, 6), (11, 0xbd3af235, 10), (2, 0x2ad7d2bb, 15), (9, 0xeb86d391, 21)]

def md5Transform (state : Md5State) (block : List UInt8) : Md5State :=
  let r := md5RoundF.foldl (md5Step md5F block) state
  let r := md5RoundG.foldl (md5Step md5G block) r
  let r := md5RoundH.foldl (md5Step md5H block) r
  let r := md5RoundI.foldl (md5Step md5I block) r
  ⟨state.a + r.a, state.b + r.b, state.c + r.c, state.d + r.d⟩

/-! ### Contexts -/

structure Md5Ctx where
  state : Md5State
  bitLen : UInt64
  buffer : List UInt8
  short : buffer.length < 64

def md5InitState : Md5State := ⟨0x67452301, 0xefcdab89, 0x98badcfe, 0x10325476⟩

def md5Init : Md5Ctx := ⟨md5InitState, 0, [], by decide⟩

/-- The loop of `md5_update` over the complete blocks of `data`, and the copy of the rest. -/
def md5Blocks (state : Md5State) (bitLen : UInt64) (data : List UInt8) : Md5Ctx :=
  let done := Hash.absorb 64 md5Transform state data
  ⟨done.1, bitLen, done.2, by
    rw [Hash.length_absorb (by decide)]
    exact Nat.mod_lt _ (by decide)⟩

def md5Update (ctx : Md5Ctx) (data : List UInt8) : Md5Ctx :=
  if data = [] then ctx
  else
    let bitLen := ctx.bitLen + UInt64.ofNat data.length * 8
    if ctx.buffer ≠ [] then
      let space := 64 - ctx.buffer.length
      if fits : data.length < space then
        ⟨ctx.state, bitLen, ctx.buffer ++ data, by rw [List.length_append]; omega⟩
      else
        md5Blocks (md5Transform ctx.state (ctx.buffer ++ data.take space)) bitLen (data.drop space)
    else md5Blocks ctx.state bitLen data

def md5LenLe (bitLen : UInt64) : List UInt8 :=
  (List.range 8).map fun i => (bitLen >>> UInt64.ofNat (8 * i)).toUInt8

/-- `pad` with `pad_len`. -/
def md5Pad (bufferLen : Nat) : List UInt8 :=
  0x80 :: List.replicate ((if bufferLen < 56 then 56 - bufferLen else 120 - bufferLen) - 1) 0

def md5Le (v : UInt32) : List UInt8 :=
  [v.toUInt8, (v >>> 8).toUInt8, (v >>> 16).toUInt8, (v >>> 24).toUInt8]

def md5Out (s : Md5State) : List UInt8 := md5Le s.a ++ md5Le s.b ++ md5Le s.c ++ md5Le s.d

def md5Final (ctx : Md5Ctx) : List UInt8 :=
  let padded := md5Update ctx (md5Pad ctx.buffer.length)
  md5Out (md5Update { padded with bitLen := ctx.bitLen } (md5LenLe ctx.bitLen)).state

def md5Hash (data : List UInt8) : List UInt8 := md5Final (md5Update md5Init data)

def hmacMd5 (key data : List UInt8) : List UInt8 :=
  let key := if 64 < key.length then md5Hash key else key
  let ipad := Hash.xorPad 64 0x36 key
  let opad := Hash.xorPad 64 0x5c key
  let tk := md5Final (md5Update (md5Update md5Init ipad) data)
  md5Final (md5Update (md5Update md5Init opad) tk)

/-! ### What a context stands for -/

/-- The padding behind a message of `len` octets. -/
def md5Padding (len : Nat) : List UInt8 :=
  0x80 :: List.replicate ((119 - len % 64) % 64) 0 ++ md5LenLe (UInt64.ofNat (8 * len))

def md5 (message : List UInt8) : List UInt8 :=
  md5Out (Hash.absorb 64 md5Transform md5InitState (message ++ md5Padding message.length)).1

/-- The context that has been fed `message`. -/
structure Fed (ctx : Md5Ctx) (message : List UInt8) : Prop where
  absorbed : Hash.absorb 64 md5Transform md5InitState message = (ctx.state, ctx.buffer)
  bitLen : ctx.bitLen = UInt64.ofNat (8 * message.length)

variable {ctx : Md5Ctx} {message : List UInt8}

theorem fed_init : Fed md5Init [] := ⟨rfl, rfl⟩

/-- An update absorbs the data behind what has been buffered. -/
theorem md5Update_absorb (ctx : Md5Ctx) (data : List UInt8) :
    Hash.absorb 64 md5Transform ctx.state (ctx.buffer ++ data) =
      ((md5Update ctx data).state, (md5Update ctx data).buffer) := by
  have short := ctx.short
  unfold md5Update
  split
  · next empty => rw [empty, List.append_nil, Hash.absorb_short short]
  · dsimp only
    split
    · split
      · next fits =>
        apply Hash.absorb_short
        rw [List.length_append]
        omega
      · next full =>
        -- the first octets of the data complete the buffered block
        have block : (ctx.buffer ++ data.take (64 - ctx.buffer.length)).length = 64 := by
          rw [List.length_append, List.length_take_of_le (by omega)]
          omega
        rw [← List.take_append_drop (64 - ctx.buffer.length) data, ← List.append_assoc,
          Hash.absorb_block (by decide) block, List.take_append_drop]
        rfl
    · next empty =>
      rw [not_not.mp empty, List.nil_append]
      rfl

/-- An update counts the bits. -/
theorem md5Update_bitLen (ctx : Md5Ctx) (data : List UInt8) :
    (md5Update ctx data).bitLen = ctx.bitLen + UInt64.ofNat data.length * 8 := by
  unfold md5Update
  split
  · next empty => simp [empty]
  · dsimp only
    split
    · split <;> rfl
    · rfl

/-- A context that was fed a message is fed a longer one. -/
theorem Fed.update (fed : Fed ctx message) (data : List UInt8) :
    Fed (md5Update ctx data) (message ++ data) where
  absorbed := by
    rw [Hash.absorb_append (by decide), fed.absorbed]
    exact md5Update_absorb ctx data
  bitLen := by
    rw [md5Update_bitLen, fed.bitLen, List.length_append, Nat.mul_add, UInt64.ofNat_add,
      Nat.mul_comm 8 data.length, UInt64.ofNat_mul data.length]
    rfl

/-- The buffer holds what is behind the last block. -/
theorem Fed.length_buffer (fed : Fed ctx message) : ctx.buffer.length = message.length % 64 := by
  rw [← Hash.length_absorb (by decide) md5InitState message, fed.absorbed]

/-- Padding and the length complete the last block. -/
theorem Fed.final (fed : Fed ctx message) : md5Final ctx = md5 message := by
  have zeros : (119 - message.length % 64) % 64 =
      (if message.length % 64 < 56 then 56 - message.length % 64
          else 120 - message.length % 64) - 1 := by
    split <;> omega
  have padding : md5Padding message.length = md5Pad ctx.buffer.length ++ md5LenLe ctx.bitLen := by
    rw [md5Padding, md5Pad, fed.length_buffer, fed.bitLen, zeros]
  have padded := fed.update (md5Pad ctx.buffer.length)
  have last := md5Update_absorb
    { md5Update ctx (md5Pad ctx.buffer.length) with bitLen := ctx.bitLen } (md5LenLe ctx.bitLen)
  rw [md5, padding, ← List.append_assoc, Hash.absorb_append (by decide), padded.absorbed, last,
    md5Final]

/-- MD5 of one piece. -/
theorem md5Hash_eq (data : List UInt8) : md5Hash data = md5 data :=
  (fed_init.update data).final

/-- HMAC-MD5 -/
theorem hmacMd5_eq (key data : List UInt8) : hmacMd5 key data = Hash.hmac 64 md5 key data := by
  have parts (first second : List UInt8) :
      md5Final (md5Update (md5Update md5Init first) second) = md5 (first ++ second) :=
    ((fed_init.update first).update second).final
  simp only [hmacMd5, parts, md5Hash_eq]
  rfl

theorem length_hmacMd5 (key data : List UInt8) : (hmacMd5 key data).length = 16 := rfl

example : md5 [0x61, 0x62, 0x63] =
    [0x90, 0x01, 0x50, 0x98, 0x3c, 0xd2, 0x4f, 0xb0, 0xd6, 0x96, 0x3f, 0x7d, 0x28, 0xe1, 0x7f,
      0x72] := by
  decide +kernel

end EdhocAuth.Upf
