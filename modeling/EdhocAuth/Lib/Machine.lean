/-
Machines that answer every input.

In a state a machine answers an input with the next state and a list of outputs. A run
is any finite sequence of inputs.

* `Steps` says that every step of a run has a property of the state it starts in and of
  its input; `steps_iff` reads it off the positions of the run, and `after_inv` is the
  invariant rule for runs whose steps have one.
* `tally` adds up what the steps of a run count for. `tally_balance` and `tally_le` are the rules
  for accounts that every step keeps: what goes out, and is still inside afterwards, came in or was
  inside before.
* `outputs_map` and `after_map` are the rules for comparing a run with the run in which
  every input has been replaced.
-/

import Mathlib.Data.List.Basic

namespace Machine

variable {σ ι ω : Type} {step : σ → ι → σ × List ω} {s : σ} {i : ι} {is js : List ι}

/-- The state after a run. -/
def after (step : σ → ι → σ × List ω) : σ → List ι → σ
  | s, [] => s
  | s, i :: is => after step (step s i).1 is

/-- The outputs of a run. -/
def outputs (step : σ → ι → σ × List ω) : σ → List ι → List ω
  | _, [] => []
  | s, i :: is => (step s i).2 ++ outputs step (step s i).1 is

/-- A run of two parts goes on where the first part ended. -/
theorem after_append : after step s (is ++ js) = after step (after step s is) js := by
  induction is generalizing s with
  | nil => rfl
  | cons i is ih => exact ih

theorem after_concat : after step s (is ++ [i]) = (step (after step s is) i).1 := after_append

theorem outputs_append :
    outputs step s (is ++ js) = outputs step s is ++ outputs step (after step s is) js := by
  induction is generalizing s with
  | nil => rfl
  | cons i is ih => rw [List.cons_append, outputs, outputs, after, ih, List.append_assoc]

/-- Every step of the run has the property. -/
def Steps (step : σ → ι → σ × List ω) (P : σ → ι → Prop) : σ → List ι → Prop
  | _, [] => True
  | s, i :: is => P s i ∧ Steps step P (step s i).1 is

variable {P : σ → ι → Prop} {I : σ → Prop}

/-- Every step has the property just if each input has it on the state that it meets. -/
theorem steps_iff :
    Steps step P s is ↔ ∀ before i rest, is = before ++ i :: rest → P (after step s before) i := by
  induction is generalizing s with
  | nil => simp [Steps]
  | cons i is ih =>
    rw [Steps, ih]
    constructor
    · rintro ⟨first, later⟩ before j rest split
      cases before with
      | nil =>
        obtain ⟨rfl, -⟩ := List.cons.inj split
        exact first
      | cons _ before =>
        obtain ⟨rfl, tail⟩ := List.cons.inj split
        exact later before j rest tail
    · intro all
      refine ⟨all [] i is rfl, fun before j rest split => ?_⟩
      exact all (i :: before) j rest (by rw [split, List.cons_append])

/-- The states of a run whose steps all keep an invariant have it. -/
theorem after_inv (keep : ∀ s i, I s → P s i → I (step s i).1) (start : I s)
    (steps : Steps step P s is) : I (after step s is) := by
  induction is generalizing s with
  | nil => exact start
  | cons i is ih => exact ih (keep s i start steps.1) steps.2

/-- What holds of every step holds of every step of a part. -/
theorem Steps.append_left (steps : Steps step P s (is ++ js)) : Steps step P s is := by
  induction is generalizing s with
  | nil => trivial
  | cons i is ih => exact ⟨steps.1, ih steps.2⟩

/-- The outputs of a run whose steps all have the property. -/
theorem outputs_all {good : ω → Prop} (keep : ∀ s i, I s → P s i → I (step s i).1)
    (outs : ∀ s i, I s → P s i → ∀ o ∈ (step s i).2, good o) (start : I s)
    (steps : Steps step P s is) : ∀ o ∈ outputs step s is, good o := by
  induction is generalizing s with
  | nil => simp [outputs]
  | cons i is ih =>
    intro o mem
    rcases List.mem_append.mp mem with here | later
    · exact outs s i start steps.1 o here
    · exact ih (keep s i start steps.1) steps.2 o later

/-- A property of the inputs alone. -/
theorem steps_of_forall {good : ι → Prop} (all : ∀ i ∈ is, good i) :
    Steps step (fun _ i => good i) s is := by
  induction is generalizing s with
  | nil => trivial
  | cons i is ih =>
    exact ⟨all i List.mem_cons_self, ih fun j mem => all j (List.mem_cons_of_mem i mem)⟩

/-! ### Accounts -/

/-- What the steps of a run count for. -/
def tally (step : σ → ι → σ × List ω) (f : σ → ι → Nat) : σ → List ι → Nat
  | _, [] => 0
  | s, i :: is => f s i + tally step f (step s i).1 is

section Tally

variable {f g : σ → ι → Nat} {inside : σ → Nat}

theorem tally_append :
    tally step f s (is ++ js) = tally step f s is + tally step f (after step s is) js := by
  induction is generalizing s with
  | nil => exact (Nat.zero_add _).symm
  | cons i is ih => rw [List.cons_append, tally, tally, after, ih, Nat.add_assoc]

/-- If each step takes in as much as it gives out or stores, so does a run. -/
theorem tally_balance (keep : ∀ s i, f s i + inside (step s i).1 = g s i + inside s) (s : σ)
    (is : List ι) :
    tally step f s is + inside (after step s is) = tally step g s is + inside s := by
  induction is generalizing s with
  | nil => rfl
  | cons i is ih =>
    have first := keep s i
    have later := ih (step s i).1
    rw [tally, tally, after]
    omega

/-- If no step gives out or stores more than it takes in, no run does. -/
theorem tally_le (keep : ∀ s i, f s i + inside (step s i).1 ≤ g s i + inside s) (s : σ)
    (is : List ι) :
    tally step f s is + inside (after step s is) ≤ tally step g s is + inside s := by
  induction is generalizing s with
  | nil => exact Nat.le_refl _
  | cons i is ih =>
    have first := keep s i
    have later := ih (step s i).1
    rw [tally, tally, after]
    omega

theorem tally_congr (same : ∀ s i, f s i = g s i) (s : σ) (is : List ι) :
    tally step f s is = tally step g s is := by
  induction is generalizing s with
  | nil => rfl
  | cons i is ih => rw [tally, tally, same, ih]

end Tally

/-! ### Replacing the inputs -/

variable {f : ι → ι}

/-- Inputs may be replaced by others that every step treats alike. -/
theorem after_map (same : ∀ s i, step s (f i) = step s i) :
    after step s (is.map f) = after step s is := by
  induction is generalizing s with
  | nil => rfl
  | cons i is ih => rw [List.map_cons, after, after, same, ih]

theorem outputs_map (same : ∀ s i, step s (f i) = step s i) :
    outputs step s (is.map f) = outputs step s is := by
  induction is generalizing s with
  | nil => rfl
  | cons i is ih => rw [List.map_cons, outputs, outputs, same, ih]

end Machine
