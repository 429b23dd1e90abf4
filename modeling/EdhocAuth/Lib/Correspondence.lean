/-
Injective correspondence between the events of a run.

A run is a list of events and the position of an event is its time. A correspondence
says that every event of one kind has an earlier source; it is injective if no two of
them share it. `InjectiveCorrespondence.intro` is the rule for proving one: find a
source for every event, and show that a source fixes the time of its event.
-/

import Mathlib.Tactic.Choose

namespace EdhocAuth

variable {ε : Type} {run : List ε} {accepts : ε → Prop} {source : ε → ε → Prop}

def InjectiveCorrespondence (run : List ε) (accepts : ε → Prop) (source : ε → ε → Prop) : Prop :=
  ∃ f : Nat → Nat,
    (∀ n e, run[n]? = some e → accepts e → ∃ s, f n < n ∧ run[f n]? = some s ∧ source e s) ∧
    ∀ n n' e e', run[n]? = some e → accepts e → run[n']? = some e' → accepts e' →
      f n = f n' → n = n'

/-- It is enough that every acceptance has a source, and that no source serves two. -/
theorem InjectiveCorrespondence.intro
    (find : ∀ (n : Nat) (e : ε), run[n]? = some e → accepts e →
      ∃ (k : Nat) (s : ε), k < n ∧ run[k]? = some s ∧ source e s)
    (unique : ∀ (n n' : Nat) (e e' s : ε), run[n]? = some e → run[n']? = some e' →
      source e s → source e' s → n = n') :
    InjectiveCorrespondence run accepts source := by
  have total (n : Nat) : ∃ k, ∀ e, run[n]? = some e → accepts e →
      ∃ s, k < n ∧ run[k]? = some s ∧ source e s := by
    by_cases h : ∃ e, run[n]? = some e ∧ accepts e
    · obtain ⟨e, at_n, acc⟩ := h
      obtain ⟨k, s, found⟩ := find n e at_n acc
      refine ⟨k, fun e' at_n' _ => ?_⟩
      obtain rfl := Option.some.inj (at_n.symm.trans at_n')
      exact ⟨s, found⟩
    · exact ⟨0, fun e at_n acc => absurd ⟨e, at_n, acc⟩ h⟩
  choose f spec using total
  refine ⟨f, spec, fun n n' e e' at_n acc at_n' acc' eq => ?_⟩
  obtain ⟨s, -, at_s, src⟩ := spec n e at_n acc
  obtain ⟨s', -, at_s', src'⟩ := spec n' e' at_n' acc'
  rw [eq, at_s'] at at_s
  obtain rfl := Option.some.inj at_s
  exact unique n n' e e' s' at_n at_n' src src'

end EdhocAuth
