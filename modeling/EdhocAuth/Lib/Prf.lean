/-
Output of any length from a pseudorandom function with a fixed output length.

`T1 = F(S ‖ 1)`, `T2 = F(T1 ‖ S ‖ 2)` and so on: each block takes in the one before it,
the seed and a counter of one octet. Two computations of such a stream differ in how many
blocks they make and in where they stop; `take_expand` says that this does not show in
what both have.
-/

import Mathlib.Data.Vector.Basic
import EdhocAuth.Lib.Block

namespace Prf

variable {w : Nat} (f : List UInt8 → Block UInt8 w) (seed : List UInt8)

/-- The input of block `i`, given the block before it. -/
def blockInput (i : Nat) (previous : List UInt8) : List UInt8 :=
  previous ++ seed ++ [UInt8.ofNat (i + 1)]

/-- Block `i`, and nothing in front of the first one. -/
def block : Nat → List UInt8
  | 0 => []
  | i + 1 => (f (blockInput seed i (block i))).toList

def expand : Nat → List UInt8
  | 0 => []
  | n + 1 => expand n ++ block f seed (n + 1)

@[simp] theorem length_block (i : Nat) : (block f seed (i + 1)).length = w :=
  List.Vector.toList_length _

@[simp] theorem length_expand (n : Nat) : (expand f seed n).length = n * w := by
  induction n with
  | zero => rw [Nat.zero_mul]; rfl
  | succ n ih => rw [expand, List.length_append, ih, length_block, Nat.succ_mul]

/-- More blocks go on where fewer end. -/
theorem expand_prefix {n m : Nat} (le : n ≤ m) :
    ∃ more, expand f seed m = expand f seed n ++ more := by
  induction m, le using Nat.le_induction with
  | base => exact ⟨[], by simp⟩
  | succ m _ ih =>
    obtain ⟨more, eq⟩ := ih
    exact ⟨more ++ block f seed (m + 1), by rw [expand, eq, List.append_assoc]⟩

/-- What lies in the first `n` blocks does not depend on how many more there are. -/
theorem take_expand {k n m : Nat} (inside : k ≤ n * w) (le : n ≤ m) :
    (expand f seed m).take k = (expand f seed n).take k := by
  obtain ⟨more, eq⟩ := expand_prefix f seed le
  rw [eq, List.take_append_of_le_length (by rw [length_expand]; exact inside)]

/-- Octets that lie inside do not depend on how many blocks are made. -/
theorem take_expand_eq {k n m : Nat} (inside : k ≤ n * w) (inside' : k ≤ m * w) :
    (expand f seed n).take k = (expand f seed m).take k := by
  rcases Nat.le_total n m with less | more
  · exact (take_expand f seed inside less).symm
  · exact take_expand f seed inside' more

/-- Where a computation that stops in block `n + 1` stops. -/
theorem take_expand_succ {k n : Nat} (le : n * w ≤ k) :
    (expand f seed (n + 1)).take k =
      expand f seed n ++ (block f seed (n + 1)).take (k - n * w) := by
  have whole : (expand f seed n).take k = expand f seed n :=
    List.take_of_length_le (by rw [length_expand]; exact le)
  rw [expand, List.take_append, whole, length_expand]

end Prf
