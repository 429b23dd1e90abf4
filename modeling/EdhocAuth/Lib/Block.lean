/-
Fixed-size blocks inside variable-length buffers.

Keys, hashes and signatures have a size the type carries; messages and plaintexts
are lists. A message is built by writing blocks one after the other and parsed by
reading them back in the same order, so two facts are needed: reading the block
that was written first returns it (`read_toList_append`), and a buffer that is
long enough is the block read from it followed by the rest
(`read_append_of_eq_drop`).
-/

import Mathlib.Data.Vector.Basic
import Mathlib.Data.List.TakeDrop

/-- A buffer of exactly `n` elements. -/
abbrev Block (α : Type) (n : Nat) : Type := List.Vector α n

namespace Block

variable {α : Type} {n m : Nat}

/-- A buffer filled with one value. -/
def fill (n : Nat) (a : α) : Block α n := List.Vector.replicate n a

/-- The first `n` elements of `buf`; a short buffer is padded with `pad`. -/
def read (pad : α) (n : Nat) (buf : List α) : Block α n :=
  ⟨buf.takeD n pad, List.takeD_length _ _ _⟩

def cat (a : Block α n) (b : Block α m) : Block α (n + m) :=
  ⟨a.toList ++ b.toList, by simp⟩

def fst (c : Block α (n + m)) : Block α n := ⟨c.toList.take n, by simp⟩

def snd (c : Block α (n + m)) : Block α m := ⟨c.toList.drop n, by simp⟩

theorem toList_ne_nil (b : Block α (n + 1)) : b.toList ≠ [] := by
  intro empty
  have size := b.toList_length
  rw [empty] at size
  exact absurd size (Nat.succ_ne_zero n).symm

@[simp] theorem toList_cat (a : Block α n) (b : Block α m) :
    (cat a b).toList = a.toList ++ b.toList := rfl

@[simp] theorem fst_cat (a : Block α n) (b : Block α m) : fst (cat a b) = a := by
  apply List.Vector.eq
  show (a.toList ++ b.toList).take n = a.toList
  exact List.take_left' a.toList_length

@[simp] theorem snd_cat (a : Block α n) (b : Block α m) : snd (cat a b) = b := by
  apply List.Vector.eq
  show (a.toList ++ b.toList).drop n = b.toList
  exact List.drop_left' a.toList_length

/-- A block can be read back from the front of a buffer. -/
@[simp] theorem read_toList_append (pad : α) (a : Block α n) (rest : List α) :
    read pad n (a.toList ++ rest) = a :=
  List.Vector.eq _ _ (List.takeD_left' a.toList_length)

@[simp] theorem read_toList (pad : α) (a : Block α n) : read pad n a.toList = a := by
  simpa using read_toList_append pad a []

@[simp] theorem drop_toList_append (a : Block α n) (rest : List α) :
    (a.toList ++ rest).drop n = rest :=
  List.drop_left' a.toList_length

/-- A buffer of at least `n` elements is its first block followed by the rest. -/
theorem read_append_of_eq_drop (pad : α) {buf rest : List α} (long : n ≤ buf.length)
    (h : rest = buf.drop n) : (read pad n buf).toList ++ rest = buf := by
  subst h
  show buf.takeD n pad ++ buf.drop n = buf
  rw [List.takeD_eq_take _ long, List.take_append_drop]

/-- The same from an offset on. -/
theorem read_drop_append (pad : α) {buf rest : List α} {k : Nat} (long : k + n ≤ buf.length)
    (h : rest = buf.drop (k + n)) : (read pad n (buf.drop k)).toList ++ rest = buf.drop k := by
  apply read_append_of_eq_drop pad
  · rw [List.length_drop]
    omega
  · rw [List.drop_drop, h]

/-- A buffer of at least `n` elements starts with a block. -/
theorem exists_append {buf : List α} (long : n ≤ buf.length) :
    ∃ (a : Block α n) (rest : List α), buf = a.toList ++ rest :=
  ⟨⟨buf.take n, List.length_take_of_le long⟩, buf.drop n, (List.take_append_drop n buf).symm⟩

/-- A buffer of exactly `n` elements is the block read from it. -/
theorem toList_read (pad : α) {buf : List α} (exact : buf.length = n) :
    (read pad n buf).toList = buf := by
  show buf.takeD n pad = buf
  rw [List.takeD_eq_take _ exact.ge, List.take_of_length_le exact.le]

/-- Blocks of one size at the front of equal buffers are equal, and so are the rests. -/
theorem append_inj {a b : Block α n} {l r : List α}
    (h : a.toList ++ l = b.toList ++ r) : a = b ∧ l = r := by
  have parts := List.append_inj h (by simp)
  exact ⟨List.Vector.eq _ _ parts.1, parts.2⟩

/-- A pair of blocks is determined by the block they make. -/
theorem cat_inj {a a' : Block α n} {b b' : Block α m} (h : cat a b = cat a' b') :
    a = a' ∧ b = b' := by
  have parts := append_inj (congrArg List.Vector.toList h)
  exact ⟨parts.1, List.Vector.eq _ _ parts.2⟩

end Block
