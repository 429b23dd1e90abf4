/-
Pools of independent objects under arbitrary calls.

An object reacts to a call by changing its own state and by reporting events. A
pool has any number of objects, and a run is any finite sequence of calls, each on
one of them. Nothing is assumed about the order of the calls or about their
arguments, so a statement about all runs covers every interleaving, and every
delivery, loss, replay or change of whatever the objects exchange.

`run_inv` and `run_events` reduce a statement about all runs to one object and one
call.
-/

import Mathlib.Logic.Function.Basic

namespace Pool

variable {ι σ κ ε : Type} [DecidableEq ι]

/-- The states after a run, and the events it reported, the first one first. -/
def run (step : σ → κ → σ × List ε) (s : ι → σ) : List (ι × κ) → (ι → σ) × List (ι × ε)
  | [] => (s, [])
  | (i, k) :: calls =>
    let here := step (s i) k
    let rest := run step (Function.update s i here.1) calls
    (rest.1, here.2.map (fun e => (i, e)) ++ rest.2)

variable {step : σ → κ → σ × List ε} {s : ι → σ} {inv : σ → Prop} {good : ε → Prop}

/-- An invariant of every member survives a new value that has it. -/
theorem update_inv {i : ι} {x : σ} (start : ∀ j, inv (s j)) (here : inv x) (j : ι) :
    inv (Function.update s i x j) := by
  by_cases same : j = i
  · subst same
    simpa using here
  · simpa [Function.update_of_ne same] using start j

/-- If calls report only good events from states with the invariant, runs do. -/
theorem run_events (keep : ∀ x k, inv x → inv (step x k).1)
    (report : ∀ x k e, inv x → e ∈ (step x k).2 → good e) (calls : List (ι × κ))
    (start : ∀ i, inv (s i)) {i : ι} {e : ε} (mem : (i, e) ∈ (run step s calls).2) : good e := by
  induction calls generalizing s with
  | nil => cases mem
  | cons call calls ih =>
    rcases List.mem_append.mp mem with now | later
    · obtain ⟨e', mem', same⟩ := List.mem_map.mp now
      obtain ⟨-, rfl⟩ := Prod.mk.inj same
      exact report _ _ _ (start _) mem'
    · exact ih (update_inv start (keep _ _ (start _))) later

end Pool
