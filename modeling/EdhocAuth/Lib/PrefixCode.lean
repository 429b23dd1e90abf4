/-
Codes in which a word can be told from what follows it.

Words that are written one after the other can then be read one after the other
(`Code.append`), and a list behind a word for its length is again such a word (`Code.counted`).
-/

import Mathlib.Data.List.Basic

namespace PrefixCode

variable {α β γ : Type}

/-- On the domain `dom`, a word of `enc` and what follows it are determined by their octets. -/
def Code (enc : α → List γ) (dom : α → Prop) : Prop :=
  ∀ a b s t, dom a → dom b → enc a ++ s = enc b ++ t → a = b ∧ s = t

variable {enc : α → List γ} {dom : α → Prop}

/-- A code word is that of one value only. -/
theorem Code.inj (code : Code enc dom) {a b : α} (ha : dom a) (hb : dom b) (same : enc a = enc b) :
    a = b :=
  (code a b [] [] ha hb (congrArg (· ++ []) same)).1

/-- Code words that follow one another are again a code. -/
theorem Code.append {enc' : β → List γ} {dom' : β → Prop} (code : Code enc dom)
    (code' : Code enc' dom') :
    Code (fun p : α × β => enc p.1 ++ enc' p.2) (fun p => dom p.1 ∧ dom' p.2) := by
  rintro ⟨a, b⟩ ⟨a', b'⟩ s t ⟨ha, hb⟩ ⟨ha', hb'⟩ same
  simp only [List.append_assoc] at same
  obtain ⟨rfl, rest⟩ := code a a' _ _ ha ha' same
  obtain ⟨rfl, rfl⟩ := code' b b' _ _ hb hb' rest
  exact ⟨rfl, rfl⟩

/-- A list behind its length. -/
theorem Code.counted {head : Nat → List γ} {bound : Nat} (code : Code head (· < bound)) :
    Code (fun xs : List γ => head xs.length ++ xs) (·.length < bound) := by
  intro xs ys s t hx hy same
  simp only [List.append_assoc] at same
  obtain ⟨size, rest⟩ := code xs.length ys.length _ _ hx hy same
  exact List.append_inj rest size

end PrefixCode
