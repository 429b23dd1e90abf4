/-
Octets in network order, fields of a datagram, and C strings.

A datagram is built by appending fields and read at absolute offsets. `field` is what
stands at an offset; `field_eq` finds it in a datagram written as what stands before it, the
field and what stands behind it. A C string is what a buffer holds before its
first NUL.
-/

import Mathlib.Algebra.Ring.Nat
import Mathlib.Data.List.Induction
import Mathlib.Data.List.TakeDrop
import Mathlib.Data.List.TakeWhile

namespace Octets

/-! ### Numbers in network order -/

/-- The low `w` octets of `n`, the highest first. -/
def ofNat : Nat → Nat → List UInt8
  | 0, _ => []
  | w + 1, n => ofNat w (n / 256) ++ [UInt8.ofNat n]

/-- The number that octets spell. -/
def toNat (octets : List UInt8) : Nat := octets.foldl (fun n b => n * 256 + b.toNat) 0

@[simp] theorem length_ofNat (w n : Nat) : (ofNat w n).length = w := by
  induction w generalizing n with
  | zero => rfl
  | succ w ih => simp [ofNat, ih]

theorem toNat_concat (octets : List UInt8) (b : UInt8) :
    toNat (octets ++ [b]) = toNat octets * 256 + b.toNat := by
  simp [toNat, List.foldl_append]

/-- A number that fits is the one its octets spell. -/
theorem toNat_ofNat {w n : Nat} (fits : n < 256 ^ w) : toNat (ofNat w n) = n := by
  induction w generalizing n with
  | zero =>
    simp only [Nat.pow_zero, Nat.lt_one_iff] at fits
    subst fits
    rfl
  | succ w ih =>
    have high : n / 256 < 256 ^ w := by
      rw [Nat.div_lt_iff_lt_mul (by decide)]
      simpa only [Nat.pow_succ] using fits
    have low : (UInt8.ofNat n).toNat = n % 256 := by simp
    rw [ofNat, toNat_concat, ih high, low]
    omega

/-- The octets bound the number they spell. -/
theorem toNat_lt (octets : List UInt8) : toNat octets < 256 ^ octets.length := by
  induction octets using List.reverseRecOn with
  | nil => exact Nat.one_pos
  | append_singleton octets b ih =>
    rw [toNat_concat, List.length_append, List.length_singleton, Nat.pow_succ]
    have small := b.toNat_lt
    omega

theorem ofNat_toNat {w : Nat} {octets : List UInt8} (size : octets.length = w) :
    ofNat w (toNat octets) = octets := by
  induction octets using List.reverseRecOn generalizing w with
  | nil =>
    subst size
    rfl
  | append_singleton octets b ih =>
    subst size
    have small := b.toNat_lt
    have high : (toNat octets * 256 + b.toNat) / 256 = toNat octets := by omega
    have low : UInt8.ofNat (toNat octets * 256 + b.toNat) = b := by
      apply UInt8.toNat_inj.mp
      rw [UInt8.toNat_ofNat']
      omega
    rw [List.length_append, List.length_singleton, ofNat, toNat_concat, high, low, ih rfl]

/-- A number that fits is determined by its octets. -/
theorem ofNat_inj {w n m : Nat} (fits : n < 256 ^ w) (fits' : m < 256 ^ w)
    (same : ofNat w n = ofNat w m) : n = m := by
  rw [← toNat_ofNat fits, same, toNat_ofNat fits']

/-- Octets that are masked twice with the same octets are back. -/
theorem zipWith_xor_xor {octets mask : List UInt8} (covered : octets.length ≤ mask.length) :
    List.zipWith (· ^^^ ·) (List.zipWith (· ^^^ ·) octets mask) mask = octets := by
  induction octets generalizing mask with
  | nil => rfl
  | cons b octets ih =>
    cases mask with
    | nil => exact absurd covered (Nat.not_succ_le_zero _)
    | cons m mask =>
      have back : b ^^^ m ^^^ m = b := by rw [UInt8.xor_assoc, UInt8.xor_self, UInt8.xor_zero]
      simp only [List.zipWith_cons_cons, back, ih (Nat.le_of_succ_le_succ covered)]

/-! ### Fields -/

def field (buf : List UInt8) (pos len : Nat) : List UInt8 := (buf.drop pos).take len

def octet (buf : List UInt8) (pos : Nat) : UInt8 := buf.getD pos 0

/-- A field that is not all inside the buffer is cut. -/
theorem length_field (buf : List UInt8) (pos len : Nat) :
    (field buf pos len).length = min len (buf.length - pos) := by
  simp [field]

theorem length_field_of_le {buf : List UInt8} {pos len : Nat} (inside : pos + len ≤ buf.length) :
    (field buf pos len).length = len := by
  rw [length_field]
  omega

/-- The field in a datagram that is written in three parts. -/
theorem field_eq {buf : List UInt8} {pos len : Nat} (before here behind : List UInt8)
    (parts : buf = before ++ (here ++ behind)) (start : before.length = pos)
    (size : here.length = len) :
    field buf pos len = here := by
  rw [parts, field, List.drop_left' start, List.take_left' size]

/-- The octet that stands behind a given front. -/
theorem octet_eq {buf : List UInt8} {pos : Nat} {b : UInt8} (before behind : List UInt8)
    (parts : buf = before ++ b :: behind) (start : before.length = pos) : octet buf pos = b := by
  subst start parts
  simp [octet, List.getD_eq_getElem?_getD]

theorem octet_append_left {front tail : List UInt8} {i : Nat} (inside : i < front.length) :
    octet (front ++ tail) i = octet front i := by
  simp [octet, List.getElem?_append_left inside]

theorem octet_append_right (front tail : List UInt8) (i : Nat) :
    octet (front ++ tail) (front.length + i) = octet tail i := by
  simp [octet, List.getD_eq_getElem?_getD, List.getElem?_append_right]

/-- There is no octet behind the buffer. -/
theorem octet_of_le {buf : List UInt8} {i : Nat} (behind : buf.length ≤ i) : octet buf i = 0 := by
  simp [octet, List.getElem?_eq_none behind]

/-- A field that lies in the first `n` octets is not touched by cutting the rest off. -/
theorem field_take {buf : List UInt8} {pos len n : Nat} (inside : pos + len ≤ n) :
    field (buf.take n) pos len = field buf pos len := by
  rw [field, field, List.drop_take, List.take_take, min_eq_left (by omega)]

theorem octet_take {buf : List UInt8} {pos n : Nat} (inside : pos < n) :
    octet (buf.take n) pos = octet buf pos := by
  simp [octet, List.getD_eq_getElem?_getD, inside]

/-- Writing one octet changes no field that does not cover it. -/
theorem field_set {buf : List UInt8} {i pos len : Nat} (b : UInt8)
    (outside : i < pos ∨ pos + len ≤ i) :
    field (buf.set i b) pos len = field buf pos len := by
  unfold field
  rcases outside with before | behind
  · rw [List.drop_set, if_pos before]
  · rw [List.drop_set, if_neg (by omega), List.take_set_of_le (by omega)]

/-- A store leaves the other octets alone. -/
theorem octet_set_ne {buf : List UInt8} {i pos : Nat} (b : UInt8) (other : i ≠ pos) :
    octet (buf.set i b) pos = octet buf pos := by
  simp [octet, List.getD_eq_getElem?_getD, List.getElem?_set_ne other]

theorem octet_set_self {buf : List UInt8} {i : Nat} (b : UInt8) (inside : i < buf.length) :
    octet (buf.set i b) i = b := by
  simp [octet, List.getD_eq_getElem?_getD, inside]

/-! ### C strings -/

/-- A C string without its terminator. -/
structure CString where
  octets : List UInt8
  nulFree : 0 ∉ octets

/-- The string at the start of a buffer. -/
def CString.ofBuffer (buf : List UInt8) : CString where
  octets := buf.takeWhile (· != 0)
  nulFree mem := by simpa using List.mem_takeWhile_imp mem

def CString.strlen (s : CString) : Nat := s.octets.length

/-- A C string is determined by its octets. -/
theorem CString.ext {s t : CString} (same : s.octets = t.octets) : s = t := by
  cases s
  cases t
  cases same
  rfl

/-- A string copied to the start of a buffer that has a NUL behind it is read back. -/
theorem CString.ofBuffer_append (s : CString) (rest : List UInt8) :
    CString.ofBuffer (s.octets ++ 0 :: rest) = s := by
  apply CString.ext
  have all : ∀ b ∈ s.octets, (b != 0) = true := by
    intro b mem
    have other : b ≠ 0 := by
      rintro rfl
      exact s.nulFree mem
    simpa using other
  show (s.octets ++ 0 :: rest).takeWhile (· != 0) = s.octets
  rw [List.takeWhile_append_of_pos all]
  simp

end Octets
