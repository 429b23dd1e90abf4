/-
Machines whose outputs never go back.

A machine keeps a mark for each key; an output has a key and a rank. If every step puts out only what
is above the mark of its key, and leaves the mark at least there, then in every run the ranks of the
outputs of one key rise. With a strict order this is protection against replays; with one key for all
outputs and `≤`, it says that nothing is put out behind what has been put out before.
-/

import EdhocAuth.Lib.Machine
import Mathlib.Order.Defs.Unbundled

namespace Machine

variable {σ ι ω κ ρ : Type} {step : σ → ι → σ × List ω} {I : σ → Prop} {key : ω → κ} {rank : ω → ρ}
  {mark : σ → κ → ρ} {r : ρ → ρ → Prop} {s : σ} {is : List ι}

/-- A step puts out what is above the marks, and moves the marks up to it. -/
structure Rising (step : σ → ι → σ × List ω) (I : σ → Prop) (key : ω → κ) (rank : ω → ρ)
    (mark : σ → κ → ρ) (r : ρ → ρ → Prop) : Prop where
  keeps : ∀ {s}, I s → ∀ i, I (step s i).1
  marks : ∀ {s}, I s → ∀ i k, mark s k = mark (step s i).1 k ∨ r (mark s k) (mark (step s i).1 k)
  above : ∀ {s}, I s → ∀ i, ∀ o ∈ (step s i).2, r (mark s (key o)) (rank o)
  below : ∀ {s}, I s → ∀ i, ∀ o ∈ (step s i).2,
    rank o = mark (step s i).1 (key o) ∨ r (rank o) (mark (step s i).1 (key o))
  apart : ∀ {s}, I s → ∀ i,
    (step s i).2.Pairwise fun o o' => key o = key o' → r (rank o) (rank o')

/-- What a run puts out is above the marks it starts with. -/
theorem Rising.outputs_above [IsTrans ρ r] (rising : Rising step I key rank mark r) (start : I s) :
    ∀ o ∈ outputs step s is, r (mark s (key o)) (rank o) := by
  induction is generalizing s with
  | nil =>
    intro o mem
    exact absurd mem List.not_mem_nil
  | cons i is ih =>
    intro o mem
    rcases List.mem_append.mp mem with here | later
    · exact rising.above start i o here
    · have beyond := ih (rising.keeps start i) o later
      rcases rising.marks start i (key o) with same | up
      · rwa [same]
      · exact IsTrans.trans _ _ _ up beyond

/-- In every run the ranks of one key rise. -/
theorem Rising.outputs_pairwise [IsTrans ρ r] (rising : Rising step I key rank mark r)
    (start : I s) (is : List ι) :
    (outputs step s is).Pairwise fun o o' => key o = key o' → r (rank o) (rank o') := by
  induction is generalizing s with
  | nil => exact List.Pairwise.nil
  | cons i is ih =>
    rw [outputs, List.pairwise_append]
    refine ⟨rising.apart start i, ih (rising.keeps start i), ?_⟩
    intro o here o' later same
    have beyond := rising.outputs_above (rising.keeps start i) o' later
    rw [← same] at beyond
    rcases rising.below start i o here with mark | up
    · rwa [mark]
    · exact IsTrans.trans _ _ _ up beyond

end Machine
