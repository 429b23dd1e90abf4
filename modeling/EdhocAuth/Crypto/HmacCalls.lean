/-
HMAC computations by what they are for.

The info strings of the key schedule carry no label and no length. Inputs for two purposes have
different lengths, or hold the transcript hashes of two messages at one place.
-/

import EdhocAuth.Crypto.Primitives

namespace EdhocAuth

open Primitives

variable {B : Type} [Octet B] {P : Primitives B}

/-! ### HMAC computations -/

/-- What a computation is for; AEAD keys and MACs belong to a message. -/
inductive Purpose where
  | nextPrk
  | aead (message : Nat)
  | mac (message : Nat)
  | prkOut
  | msk
  | emsk
deriving DecidableEq

structure HmacCall (B : Type) where
  purpose : Purpose
  key : Block B 32
  input : List B

def extractCall (salt ikm : Block B 32) : HmacCall B := ⟨.nextPrk, salt, ikm.toList⟩

def expandCallsLoop (P : Primitives B) (purpose : Purpose) (prk : Block B 32) (info t : List B)
    (ctr : UInt8) (left : Nat) : List (HmacCall B) :=
  if left = 0 then []
  else
    let input := t ++ info ++ [Octet.ofByte ctr]
    ⟨purpose, prk, input⟩ ::
      expandCallsLoop P purpose prk info (P.hmac prk input).toList (ctr + 1) (left - min left 32)
termination_by left

/-- The computations of `hkdf_expand`. -/
def expandCalls (P : Primitives B) (purpose : Purpose) (prk : Block B 32) (info : List B)
    (n : Nat) :
    List (HmacCall B) :=
  expandCallsLoop P purpose prk info [] 1 n

/-- HMAC is the same on these computations. -/
def AgreeOn (P : Primitives B) (hmac : Block B 32 → List B → Block B 32)
    (calls : List (HmacCall B)) : Prop :=
  ∀ x ∈ calls, hmac x.key x.input = P.hmac x.key x.input

/-- Computations for different purposes under one key have different inputs. -/
def Separated (calls calls' : List (HmacCall B)) : Prop :=
  ∀ x ∈ calls, ∀ y ∈ calls', x.purpose ≠ y.purpose → x.key = y.key → x.input ≠ y.input

section Agreement

variable {hmac : Block B 32 → List B → Block B 32} {purpose : Purpose} {prk : Block B 32}
    {info : List B}

omit [Octet B] in
/-- Agreement on some computations is agreement on both halves of them. -/
theorem AgreeOn.append {calls calls' : List (HmacCall B)}
    (agree : AgreeOn P hmac (calls ++ calls')) :
    AgreeOn P hmac calls ∧ AgreeOn P hmac calls' :=
  ⟨fun x mem => agree x (List.mem_append_left _ mem),
    fun x mem => agree x (List.mem_append_right _ mem)⟩

omit [Octet B] in
/-- `hkdf_extract` does not notice a change of HMAC elsewhere. -/
theorem AgreeOn.extract {salt ikm : Block B 32} (agree : AgreeOn P hmac [extractCall salt ikm]) :
    { P with hmac := hmac }.hkdfExtract salt ikm = P.hkdfExtract salt ikm :=
  agree _ List.mem_cons_self

/-- The loop of `hkdf_expand` does not notice a change of HMAC elsewhere. -/
theorem AgreeOn.expandLoop {t : List B} {ctr : UInt8} {left : Nat}
    (agree : AgreeOn P hmac (expandCallsLoop P purpose prk info t ctr left)) :
    { P with hmac := hmac }.hkdfExpandLoop prk info t ctr left =
      P.hkdfExpandLoop prk info t ctr left := by
  induction left using Nat.strong_induction_on generalizing t ctr with
  | _ left ih =>
    rw [expandCallsLoop] at agree
    rw [hkdfExpandLoop, hkdfExpandLoop]
    split
    · rfl
    · next more =>
      rw [if_neg more] at agree
      have first :
          hmac prk (t ++ info ++ [Octet.ofByte ctr]) =
            P.hmac prk (t ++ info ++ [Octet.ofByte ctr]) :=
        agree _ List.mem_cons_self
      have later := ih _ (by omega) fun x mem => agree x (List.mem_cons_of_mem _ mem)
      dsimp only
      rw [first, later]

/-- `hkdf_expand` does not notice a change of HMAC elsewhere. -/
theorem AgreeOn.expand {n : Nat} (agree : AgreeOn P hmac (expandCalls P purpose prk info n)) :
    { P with hmac := hmac }.hkdfExpand prk info n = P.hkdfExpand prk info n :=
  List.Vector.eq _ _ agree.expandLoop

/-- `derive_k` does not notice a change of HMAC elsewhere. -/
theorem AgreeOn.deriveKey {label : String} {th : Block B 32}
    (agree : AgreeOn P hmac (expandCalls P purpose prk (th.toList ++ ascii label) 44)) :
    { P with hmac := hmac }.deriveKey label prk th = P.deriveKey label prk th := by
  rw [Primitives.deriveKey, Primitives.deriveKey, agree.expand (n := 32 + 12)]

end Agreement

/-! ### Inputs -/

section Inputs

variable {purpose : Purpose} {prk : Block B 32} {info : List B} {n : Nat} {x : HmacCall B}

/-- One block is one computation. -/
theorem mem_expandCalls_short (pos : 0 < n) (short : n ≤ 32)
    (mem : x ∈ expandCalls P purpose prk info n) :
    x = ⟨purpose, prk, info ++ [Octet.ofByte 1]⟩ := by
  have done : n - min n 32 = 0 := by omega
  rw [expandCalls, expandCallsLoop, if_neg (by omega)] at mem
  dsimp only at mem
  rw [done, expandCallsLoop, if_pos rfl] at mem
  exact List.mem_singleton.mp mem

/-- The second block has the first one before the info string. -/
theorem mem_expandCalls_long (more : 32 < n) (short : n ≤ 64)
    (mem : x ∈ expandCalls P purpose prk info n) :
    ∃ t ctr, (t.length = 0 ∨ t.length = 32) ∧
      x = ⟨purpose, prk, t ++ (info ++ [Octet.ofByte ctr])⟩ := by
  have second : n - min n 32 ≠ 0 := by omega
  have done : n - min n 32 - min (n - min n 32) 32 = 0 := by omega
  rw [expandCalls, expandCallsLoop, if_neg (by omega)] at mem
  dsimp only at mem
  rw [expandCallsLoop, if_neg second] at mem
  dsimp only at mem
  rw [done, expandCallsLoop, if_pos rfl] at mem
  rcases List.mem_cons.mp mem with rfl | mem
  · exact ⟨[], 1, .inl rfl, rfl⟩
  · obtain rfl := List.mem_singleton.mp mem
    exact ⟨_, 1 + 1, .inr (List.Vector.toList_length _), by rw [List.append_assoc]⟩

/-- What the inputs look like: `th` are the transcript hashes of the messages, `macSize` the sizes
of the inputs for the MACs. -/
def Shaped (messages : List Nat) (th : Nat → Block B 32) (macSize : Nat → Nat) (x : HmacCall B) :
    Prop :=
  match x.purpose with
  | .nextPrk => x.input.length = 32
  | .aead i => i ∈ messages ∧ ∃ t rest, x.input = t ++ ((th i).toList ++ rest) ∧ rest.length = 6 ∧
      (t.length = 0 ∨ t.length = 32)
  | .mac i => i ∈ messages ∧ x.input.length = macSize i ∧ ∃ rest, x.input = (th i).toList ++ rest
  | .prkOut => x.input.length = 33
  | .msk => x.input.length = 14 ∨ x.input.length = 46
  | .emsk => x.input.length = 15 ∨ x.input.length = 47

/-- The lengths an input can have. -/
def sizes (macSize : Nat → Nat) : Purpose → List Nat
  | .nextPrk => [32]
  | .aead _ => [38, 70]
  | .mac i => [macSize i]
  | .prkOut => [33]
  | .msk => [14, 46]
  | .emsk => [15, 47]

variable {messages : List Nat} {th th' : Nat → Block B 32} {macSize : Nat → Nat} {y : HmacCall B}

omit [Octet B] in
/-- What the inputs look like fixes their size. -/
theorem Shaped.size (shaped : Shaped messages th macSize x) :
    x.input.length ∈ sizes macSize x.purpose := by
  obtain ⟨purpose, key, input⟩ := x
  cases purpose with
  | nextPrk => simpa [Shaped, sizes] using shaped
  | aead i =>
    obtain ⟨-, t, rest, rfl, six, front⟩ := shaped
    simp only [List.length_append, List.Vector.toList_length, six, sizes, List.mem_cons,
      List.not_mem_nil]
    omega
  | mac i => simpa [sizes] using shaped.2.1
  | prkOut => simpa [Shaped, sizes] using shaped
  | msk => simpa [Shaped, sizes] using shaped
  | emsk => simpa [Shaped, sizes] using shaped

def otherSizes : List Nat := [32, 38, 70, 33, 14, 46, 15, 47]

/-- Two purposes that share a size are both for AEAD keys or both for MACs. -/
theorem sizes_meet {p q : Purpose} (first : n ∈ sizes macSize p) (second : n ∈ sizes macSize q)
    (differ : p ≠ q) (apart : ∀ i, p = .mac i ∨ q = .mac i → macSize i ∉ otherSizes) :
    (∃ i j, p = .aead i ∧ q = .aead j) ∨ ∃ i j, p = .mac i ∧ q = .mac j := by
  cases p <;> cases q
  case aead.aead i j => exact .inl ⟨i, j, rfl, rfl⟩
  case mac.mac i j => exact .inr ⟨i, j, rfl, rfl⟩
  -- what is left is one purpose twice, or has no size in common
  all_goals
    first
    | exact absurd rfl differ
    | simp [sizes, otherSizes] at first second apart
      omega

omit [Octet B] in
/-- Computations are separated by their size, or by the transcript hash at the front of the input.
-/
theorem separated_of_shaped {calls calls' : List (HmacCall B)}
    (shaped : ∀ x ∈ calls, Shaped messages th macSize x)
    (shaped' : ∀ y ∈ calls', Shaped messages th' macSize y)
    (apart : ∀ i ∈ messages, macSize i ∉ otherSizes)
    (differ : ∀ i ∈ messages, ∀ j ∈ messages, i ≠ j → th i ≠ th' j) : Separated calls calls' := by
  rintro ⟨p, key, input⟩ mem ⟨q, key', input'⟩ mem' others - rfl
  have first := shaped _ mem
  have second := shaped' _ mem'
  have macs (i : Nat) (mac : p = .mac i ∨ q = .mac i) : macSize i ∉ otherSizes := by
    rcases mac with rfl | rfl
    · exact apart i first.1
    · exact apart i second.1
  rcases sizes_meet first.size second.size others macs with ⟨i, j, rfl, rfl⟩ | ⟨i, j, rfl, rfl⟩
  · have other : i ≠ j := fun same => others (congrArg Purpose.aead same)
    obtain ⟨inside, t, rest, rfl, six, -⟩ := first
    obtain ⟨inside', t', rest', same, six', -⟩ := second
    have front : t.length = t'.length := by
      have total := congrArg List.length same
      simp only [List.length_append, List.Vector.toList_length] at total
      omega
    exact differ i inside j inside' other (Block.append_inj (List.append_inj same front).2).1
  · have other : i ≠ j := fun same => others (congrArg Purpose.mac same)
    obtain ⟨inside, -, rest, rfl⟩ := first
    obtain ⟨inside', -, rest', same⟩ := second
    exact differ i inside j inside' other (Block.append_inj same).1

end Inputs

/-! ### Both suites -/

/-- The computations of PRK_out, MSK and EMSK. -/
def exportCalls (P : Primitives B) (prk4e3m th4 prkOut : Block B 32) : List (HmacCall B) :=
  expandCalls P .prkOut prk4e3m th4.toList 32 ++
    (expandCalls P .msk prkOut (ascii "EDHOC-EAP-MSK") 64 ++
    expandCalls P .emsk prkOut (ascii "EDHOC-EAP-EMSK") 64)

/-- The exported keys do not notice a change of HMAC elsewhere. -/
theorem AgreeOn.exports {hmac : Block B 32 → List B → Block B 32} {prk4e3m th4 prkOut : Block B 32}
    (agree : AgreeOn P hmac (exportCalls P prk4e3m th4 prkOut)) :
    { P with hmac := hmac }.hkdfExpand prk4e3m th4.toList 32 = P.hkdfExpand prk4e3m th4.toList 32 ∧
      { P with hmac := hmac }.hkdfExpand prkOut (ascii "EDHOC-EAP-MSK") 64 =
        P.hkdfExpand prkOut (ascii "EDHOC-EAP-MSK") 64 ∧
      { P with hmac := hmac }.hkdfExpand prkOut (ascii "EDHOC-EAP-EMSK") 64 =
        P.hkdfExpand prkOut (ascii "EDHOC-EAP-EMSK") 64 :=
  ⟨agree.append.1.expand, agree.append.2.append.1.expand, agree.append.2.append.2.expand⟩

section Both

variable {messages : List Nat} {th : Nat → Block B 32} {macSize : Nat → Nat} {x : HmacCall B}
    {prk salt ikm : Block B 32}

omit [Octet B] in
theorem shaped_extract : Shaped messages th macSize (extractCall salt ikm) := ikm.toList_length

/-- The computations of an AEAD key have the transcript hash in front. -/
theorem shaped_aead (label : String) {i : Nat} (five : label.length = 5) (inside : i ∈ messages)
    (mem : x ∈ expandCalls P (.aead i) prk ((th i).toList ++ ascii label) 44) :
    Shaped messages th macSize x := by
  obtain ⟨t, ctr, front, rfl⟩ := mem_expandCalls_long (by decide) (by decide) mem
  refine ⟨inside, t, ascii label ++ [Octet.ofByte ctr], by rw [List.append_assoc], ?_, front⟩
  rw [List.length_append, ascii, List.length_map, String.length_toList, five]
  rfl

/-- The computation of a MAC has the transcript hash in front. -/
theorem shaped_mac {i : Nat} {rest : List B} (inside : i ∈ messages)
    (size : 33 + rest.length = macSize i)
    (mem : x ∈ expandCalls P (.mac i) prk ((th i).toList ++ rest) 8) :
    Shaped messages th macSize x := by
  obtain rfl := mem_expandCalls_short (by decide) (by decide) mem
  refine ⟨inside, ?_, rest ++ [Octet.ofByte 1], List.append_assoc ..⟩
  simp only [List.length_append, List.Vector.toList_length, List.length_singleton]
  omega

theorem shaped_export {prk4e3m th4 prkOut : Block B 32}
    (mem : x ∈ exportCalls P prk4e3m th4 prkOut) :
    Shaped messages th macSize x := by
  have label (s : String) : (ascii s : List B).length = s.length := by
    rw [ascii, List.length_map, String.length_toList]
  rcases List.mem_append.mp mem with mem | mem
  · obtain rfl := mem_expandCalls_short (by decide) (by decide) mem
    simp [Shaped]
  · rcases List.mem_append.mp mem with mem | mem
    · obtain ⟨t, ctr, front, rfl⟩ := mem_expandCalls_long (by decide) (by decide) mem
      have thirteen : "EDHOC-EAP-MSK".length = 13 := by decide
      simp only [Shaped, List.length_append, label, thirteen, List.length_singleton]
      omega
    · obtain ⟨t, ctr, front, rfl⟩ := mem_expandCalls_long (by decide) (by decide) mem
      have fourteen : "EDHOC-EAP-EMSK".length = 14 := by decide
      simp only [Shaped, List.length_append, label, fourteen, List.length_singleton]
      omega

end Both

end EdhocAuth
