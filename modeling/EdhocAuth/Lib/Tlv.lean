/-
Attributes of a type octet, a length octet that counts both, and a value.

`walk` goes over a buffer attribute by attribute and stops with an error at a length that
is too small, that leaves the buffer, or that the body of the loop rejects; at most one
octet stays behind. `walk_eq_some_iff`: it succeeds exactly on the encodings of lists of
attributes, and then it has folded its body over the list. `attributes` is the list.
`collect` puts a value together that has been split over several attributes.
-/

import Mathlib.Data.List.TakeDrop
import Mathlib.Data.List.Basic

namespace Tlv

structure Attr where
  type : UInt8
  value : List UInt8
  fits : value.length ≤ 253
deriving DecidableEq

/-- Octets of one attribute. -/
def Attr.encode (a : Attr) : List UInt8 := a.type :: UInt8.ofNat (2 + a.value.length) :: a.value

def encodeAll (as : List Attr) : List UInt8 := as.flatMap Attr.encode

@[simp] theorem encodeAll_nil : encodeAll [] = [] := rfl

@[simp] theorem encodeAll_cons (a : Attr) (as : List Attr) :
    encodeAll (a :: as) = a.encode ++ encodeAll as := rfl

@[simp] theorem encodeAll_append (as bs : List Attr) :
    encodeAll (as ++ bs) = encodeAll as ++ encodeAll bs := List.flatMap_append

@[simp] theorem length_encode (a : Attr) : a.encode.length = 2 + a.value.length := by
  simp only [Attr.encode, List.length_cons]
  omega

theorem toNat_length (a : Attr) :
    (UInt8.ofNat (2 + a.value.length)).toNat = 2 + a.value.length := by
  have := a.fits
  simp only [UInt8.toNat_ofNat']
  omega

section Walk

variable {β : Type} {step : β → Nat → Attr → Option β} {acc r : β} {pos fuel : Nat}

/-- The attribute behind the type octet and the length octet. -/
def Attr.read (type len : UInt8) (rest : List UInt8) : Attr where
  type := type
  value := rest.take (len.toNat - 2)
  fits := by
    have := len.toNat_lt
    rw [List.length_take]
    omega

/-- The loop; `step` is its body, and `pos` the position of the attribute it looks at. The
fuel bounds the number of attributes. -/
def walk (step : β → Nat → Attr → Option β) : Nat → β → Nat → List UInt8 → Option β
  | fuel + 1, acc, pos, type :: len :: rest =>
    if len.toNat < 2 ∨ rest.length < len.toNat - 2 then none
    else
      match step acc pos (.read type len rest) with
      | none => none
      | some acc => walk step fuel acc (pos + len.toNat) (rest.drop (len.toNat - 2))
  | _, acc, _, _ => some acc

/-- The body folded over a list of attributes that starts at `pos`. -/
def foldFrom (step : β → Nat → Attr → Option β) : β → Nat → List Attr → Option β
  | acc, _, [] => some acc
  | acc, pos, a :: as => (step acc pos a).bind fun acc =>
      foldFrom step acc (pos + (2 + a.value.length)) as

/-- An attribute is read back, whatever follows it. -/
theorem read_encode (a : Attr) (rest : List UInt8) :
    Attr.read a.type (UInt8.ofNat (2 + a.value.length)) (a.value ++ rest) = a := by
  obtain ⟨type, value, fits⟩ := a
  simp only [Attr.read, Attr.mk.injEq, true_and]
  rw [toNat_length ⟨type, value, fits⟩, Nat.add_sub_cancel_left, List.take_left]

/-- At most one octet is left to the walk as it is. -/
theorem walk_short {body : List UInt8} (short : body.length ≤ 1) :
    walk step fuel acc pos body = some acc := by
  match fuel, body, short with
  | 0, _, _ => rw [walk]; simp
  | fuel + 1, [], _ => rfl
  | fuel + 1, [_], _ => rfl

/-- The walk takes an attribute and goes on behind it. -/
theorem walk_encode_append (a : Attr) (rest : List UInt8) :
    walk step (fuel + 1) acc pos (a.encode ++ rest) =
      (step acc pos a).bind fun acc => walk step fuel acc (pos + (2 + a.value.length)) rest := by
  have len := toNat_length a
  have inside : ¬ (2 + a.value.length < 2 ∨ (a.value ++ rest).length < 2 + a.value.length - 2) := by
    rw [List.length_append]
    omega
  rw [Attr.encode, List.cons_append, List.cons_append, walk, read_encode, len, if_neg inside,
    Nat.add_sub_cancel_left, List.drop_left]
  cases step acc pos a with
  | none => rfl
  | some acc => rfl

/-- On an encoding the loop folds its body over the attributes. -/
theorem walk_encodeAll (as : List Attr) {rest : List UInt8} (short : rest.length ≤ 1)
    (enough : as.length ≤ fuel) :
    walk step fuel acc pos (encodeAll as ++ rest) = foldFrom step acc pos as := by
  induction as generalizing acc pos fuel with
  | nil => exact walk_short short
  | cons a as ih =>
    obtain ⟨fuel, rfl⟩ : ∃ n, fuel = n + 1 := ⟨fuel - 1, by simp at enough; omega⟩
    rw [encodeAll_cons, List.append_assoc, walk_encode_append, foldFrom]
    congr 1
    funext acc
    exact ih (by simpa using enough)

/-- Each attribute takes an octet at least, which is the fuel of the walk. -/
theorem length_le_length_encodeAll (as : List Attr) : as.length ≤ (encodeAll as).length := by
  induction as with
  | nil => exact Nat.le_refl 0
  | cons a as ih =>
    rw [encodeAll_cons, List.length_append, length_encode, List.length_cons]
    omega

/-- What does not start with an attribute is short or stops the loop. -/
theorem exists_encode {type len : UInt8} {rest : List UInt8} (two : 2 ≤ len.toNat)
    (inside : len.toNat - 2 ≤ rest.length) :
    type :: len :: rest = (Attr.read type len rest).encode ++ rest.drop (len.toNat - 2) := by
  have size : (rest.take (len.toNat - 2)).length = len.toNat - 2 := List.length_take_of_le inside
  have len' : UInt8.ofNat (2 + (len.toNat - 2)) = len := by
    rw [Nat.add_sub_cancel' two]
    exact UInt8.ofNat_toNat
  simp only [Attr.encode, Attr.read, size, len', List.cons_append, List.take_append_drop]

/-- The loop succeeds exactly on encodings. The induction is on the fuel, which decreases
with the octets left. -/
theorem walk_eq_some_iff {body : List UInt8} (enough : body.length ≤ fuel) :
    walk step fuel acc pos body = some r ↔
      ∃ as rest, body = encodeAll as ++ rest ∧ rest.length ≤ 1 ∧
        foldFrom step acc pos as = some r := by
  constructor
  · intro walked
    induction fuel generalizing acc pos body with
    | zero =>
      have empty : body = [] := List.length_eq_zero_iff.mp (by omega)
      subst empty
      exact ⟨[], [], rfl, by decide, by simpa [walk, foldFrom] using walked⟩
    | succ fuel ih =>
      match body with
      | [] => exact ⟨[], [], rfl, by decide, walked⟩
      | [last] => exact ⟨[], [last], rfl, Nat.le_refl 1, walked⟩
      | type :: len :: rest =>
        rw [walk] at walked
        split at walked
        · cases walked
        · next ok =>
          simp only [List.length_cons] at enough
          rw [exists_encode (by omega) (by omega)]
          have size : (Attr.read type len rest).value.length = len.toNat - 2 :=
            List.length_take_of_le (by omega)
          split at walked
          · cases walked
          · next acc' stepped =>
            obtain ⟨as, tail, split, short, folded⟩ := ih (by rw [List.length_drop]; omega) walked
            refine ⟨Attr.read type len rest :: as, tail, ?_, short, ?_⟩
            · rw [split, encodeAll_cons, List.append_assoc]
            · rw [foldFrom, stepped, size, Nat.add_sub_cancel' (by omega)]
              exact folded
  · rintro ⟨as, rest, rfl, short, folded⟩
    rw [walk_encodeAll as short, folded]
    have count := length_le_length_encodeAll as
    rw [List.length_append] at enough
    omega

/-- Attributes may be folded in two parts, with the position in between. -/
theorem foldFrom_append (acc : β) (pos : Nat)
    (as bs : List Attr) :
    foldFrom step acc pos (as ++ bs) =
      (foldFrom step acc pos as).bind fun acc =>
        foldFrom step acc (pos + (encodeAll as).length) bs := by
  induction as generalizing acc pos with
  | nil => rfl
  | cons a as ih =>
    rw [List.cons_append, foldFrom, foldFrom, Option.bind_assoc]
    congr 1
    funext acc'
    rw [ih, encodeAll_cons, List.length_append, length_encode, Nat.add_assoc]

end Walk

/-! ### The attributes of a buffer -/

/-- The attributes that a buffer is the encoding of. -/
def attributes (body : List UInt8) : Option (List Attr) :=
  walk (fun as _ a => some (as ++ [a])) body.length [] 0 body

variable {body : List UInt8} {as : List Attr}

/-- A buffer is the encoding of attributes if at most one octet follows them. -/
theorem attributes_eq_some_iff :
    attributes body = some as ↔ ∃ rest, body = encodeAll as ++ rest ∧ rest.length ≤ 1 := by
  have folded (as bs : List Attr) (pos : Nat) :
      foldFrom (fun as _ a => some (as ++ [a])) bs pos as = some (bs ++ as) := by
    induction as generalizing bs pos with
    | nil => simp [foldFrom]
    | cons a as ih => simp [foldFrom, ih]
  rw [attributes, walk_eq_some_iff (Nat.le_refl _)]
  constructor
  · rintro ⟨as', rest, split, short, same⟩
    rw [folded, List.nil_append, Option.some.injEq] at same
    exact ⟨rest, same ▸ split, short⟩
  · rintro ⟨rest, split, short⟩
    exact ⟨as, rest, split, short, by rw [folded, List.nil_append]⟩

/-- Every loop over the buffer goes over its attributes. -/
theorem walk_eq_some {β : Type} {step : β → Nat → Attr → Option β} {acc r : β} {pos : Nat} :
    walk step body.length acc pos body = some r ↔
      ∃ as, attributes body = some as ∧ foldFrom step acc pos as = some r := by
  rw [walk_eq_some_iff (Nat.le_refl _)]
  constructor
  · rintro ⟨as, rest, split, short, folded⟩
    exact ⟨as, attributes_eq_some_iff.mpr ⟨rest, split, short⟩, folded⟩
  · rintro ⟨as, is, folded⟩
    obtain ⟨rest, split, short⟩ := attributes_eq_some_iff.mp is
    exact ⟨as, rest, split, short, folded⟩

/-- The values of one type, one after the other. -/
def collect (type : UInt8) (as : List Attr) : List UInt8 :=
  (as.filter (·.type = type)).flatMap Attr.value

@[simp] theorem collect_nil (type : UInt8) : collect type [] = [] := rfl

theorem collect_cons (type : UInt8) (a : Attr) (as : List Attr) :
    collect type (a :: as) = (if a.type = type then a.value else []) ++ collect type as := by
  unfold collect
  by_cases same : a.type = type <;> simp [same]

@[simp] theorem collect_append (type : UInt8) (as bs : List Attr) :
    collect type (as ++ bs) = collect type as ++ collect type bs := by
  simp [collect]

theorem collect_of_all {type : UInt8} (all : ∀ a ∈ as, a.type = type) :
    collect type as = as.flatMap Attr.value := by
  rw [collect, List.filter_eq_self.mpr (by simpa using all)]

theorem collect_of_none {type : UInt8} (none : ∀ a ∈ as, a.type ≠ type) : collect type as = [] := by
  rw [collect, List.filter_eq_nil_iff.mpr (by simpa using none)]
  rfl

end Tlv
