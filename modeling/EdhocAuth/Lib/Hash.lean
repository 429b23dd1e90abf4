/-
Iterated hash functions and HMAC.

A compression function `f` takes a chaining value and a block of `n` elements. `absorb`
compresses the complete blocks of a message from the left and returns the rest;
`absorb_append` says that a message may be absorbed in parts, as long as the rest of one
part is put in front of the next. `blockInduction` is the induction on the blocks of a
message. `hmac` is HMAC over any hash function.
-/

import Mathlib.Data.List.TakeDrop

namespace Hash

section Absorb

variable {σ α : Type} {n : Nat} {f : σ → List α → σ}

/-- Compresses `k` blocks. -/
def absorbBlocks (n : Nat) (f : σ → List α → σ) : Nat → σ → List α → σ × List α
  | 0, s, message => (s, message)
  | k + 1, s, message => absorbBlocks n f k (f s (message.take n)) (message.drop n)

/-- Compresses all complete blocks of a message. -/
def absorb (n : Nat) (f : σ → List α → σ) (s : σ) (message : List α) : σ × List α :=
  absorbBlocks n f (message.length / n) s message

/-- The blocks are compressed in order. -/
theorem absorbBlocks_eq (k : Nat) (s : σ) (message : List α) :
    (absorbBlocks n f k s message).1 =
      (List.range k).foldl (fun s i => f s ((message.drop (n * i)).take n)) s := by
  induction k generalizing s message with
  | zero => rfl
  | succ k ih =>
    rw [absorbBlocks, ih, List.range_succ_eq_map, List.foldl_cons, List.foldl_map]
    simp only [List.drop_drop, Nat.mul_succ, Nat.mul_zero, List.drop_zero, Nat.add_comm]

/-- A message shorter than a block is left for the next call. -/
theorem absorb_short {s : σ} {message : List α} (short : message.length < n) :
    absorb n f s message = (s, message) := by
  rw [absorb, Nat.div_eq_of_lt short]
  rfl

/-- A leading block is compressed first. -/
theorem absorb_block {s : σ} {block rest : List α} (pos : 0 < n) (size : block.length = n) :
    absorb n f s (block ++ rest) = absorb n f (f s block) rest := by
  have count : (block ++ rest).length / n = rest.length / n + 1 := by
    rw [List.length_append, size, Nat.add_comm, Nat.add_div_right _ pos]
  rw [absorb, count, absorbBlocks, List.take_left' size, List.drop_left' size]
  rfl

/-- Induction on a message, block by block. -/
theorem blockInduction {P : List α → Prop} (pos : 0 < n) (short : ∀ m, m.length < n → P m)
    (block : ∀ b m, b.length = n → P m → P (b ++ m)) (m : List α) : P m := by
  induction size : m.length using Nat.strongRecOn generalizing m with
  | ind len ih =>
    by_cases h : m.length < n
    · exact short m h
    · rw [← List.take_append_drop n m]
      apply block
      · exact List.length_take_of_le (by omega)
      · exact ih (m.drop n).length (by rw [List.length_drop]; omega) _ rfl

/-- The rest is what the blocks leave of the message. -/
theorem length_absorb (pos : 0 < n) (s : σ) (message : List α) :
    (absorb n f s message).2.length = message.length % n := by
  induction message using blockInduction pos generalizing s with
  | short m short => rw [absorb_short short, Nat.mod_eq_of_lt short]
  | block b m size ih => rw [absorb_block pos size, ih, List.length_append, size, Nat.add_mod_left]

/-- A message may be absorbed in two pieces: the second continues what the first has left. -/
theorem absorb_append (pos : 0 < n) (s : σ) (first second : List α) :
    absorb n f s (first ++ second) =
      absorb n f (absorb n f s first).1 ((absorb n f s first).2 ++ second) := by
  induction first using blockInduction pos generalizing s with
  | short m short => rw [absorb_short short]
  | block b m size ih => rw [List.append_assoc, absorb_block pos size, absorb_block pos size, ih]

end Absorb

/-! ### HMAC -/

/-- `key ^ pad` in a block: the key is padded with zeros. -/
def xorPad (blockLen : Nat) (pad : UInt8) (key : List UInt8) : List UInt8 :=
  (key.map (pad ^^^ ·)) ++ List.replicate (blockLen - key.length) pad

/-- The key of an HMAC: hashed if it is longer than a block. -/
def blockKey (blockLen : Nat) (hash : List UInt8 → List UInt8) (key : List UInt8) : List UInt8 :=
  if blockLen < key.length then hash key else key

def hmac (blockLen : Nat) (hash : List UInt8 → List UInt8) (key message : List UInt8) :
    List UInt8 :=
  hash (xorPad blockLen 0x5c (blockKey blockLen hash key) ++
    hash (xorPad blockLen 0x36 (blockKey blockLen hash key) ++ message))

end Hash
