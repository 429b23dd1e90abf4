/-
Procedures over a mutable record with early returns.

A C function that updates a context through a pointer and leaves with an error
code at its first failed check is a map from the context to a result and the
context it leaves behind. The context survives a failed call with whatever had
been written by then, so the state is returned on both branches.

* `bind_eq_ok` and its companions turn "the call returned OK with this value and
  this context" into the conjunction of its checks, from the first to the last;
* `Keeps` states that a procedure leaves a projection of the context alone on
  every branch; its rules follow the text of a procedure;
* `Part.Acts` states that a procedure does on a part of the state what another one
  does on that part alone, up to the names of the errors; its rules follow the text
  of both;
* `feed` runs a procedure on one input after the other.
-/

import Mathlib.Logic.Basic
import Mathlib.Data.Prod.Basic

/-- A procedure on a state `σ` that returns a value or leaves with an error. -/
def Proc (σ ε α : Type) : Type := σ → Except ε α × σ

namespace Proc

variable {σ ε α β γ : Type}

instance : Monad (Proc σ ε) where
  pure a := fun s => (.ok a, s)
  bind x f := fun s =>
    match x s with
    | (.ok a, s') => f a s'
    | (.error e, s') => (.error e, s')

/-- The current state. -/
def load : Proc σ ε σ := fun s => (.ok s, s)

/-- Assign to the state. -/
def store (f : σ → σ) : Proc σ ε Unit := fun s => (.ok (), f s)

/-- Return early with `e` unless `c` holds. -/
def require (c : Prop) [Decidable c] (e : ε) : Proc σ ε Unit :=
  fun s => if c then (.ok (), s) else (.error e, s)

/-- The result of a call that may fail, or an early return with `e`. -/
def demand (o : Option α) (e : ε) : Proc σ ε α :=
  fun s => match o with
    | some a => (.ok a, s)
    | none => (.error e, s)

theorem bind_apply (x : Proc σ ε α) (f : α → Proc σ ε β) (s : σ) :
    (x >>= f) s = match x s with
      | (.ok a, t) => f a t
      | (.error e, t) => (.error e, t) := rfl

/-! ### What a successful run went through -/

section Inversion

variable {x : Proc σ ε α} {f : α → Proc σ ε β} {s s' t : σ} {a a' : α} {b : β}

/-- A sequence returns if its parts do, the second on the state that the first left. -/
@[simp] theorem bind_eq_ok :
    (x >>= f) s = (.ok b, s') ↔ ∃ a t, x s = (.ok a, t) ∧ f a t = (.ok b, s') := by
  rw [bind_apply]
  obtain ⟨r, t⟩ := x s
  cases r with
  | error e => simp
  | ok a => simp [and_assoc]

@[simp] theorem pure_eq_ok :
    (pure a : Proc σ ε α) s = (.ok a', s') ↔ a' = a ∧ s' = s := by
  show ((.ok a, s) : Except ε α × σ) = _ ↔ _
  simp [eq_comm]

@[simp] theorem load_eq_ok :
    (load : Proc σ ε σ) s = (.ok t, s') ↔ t = s ∧ s' = s := by
  simp [load, eq_comm]

@[simp] theorem store_eq_ok {g : σ → σ} {u : Unit} :
    (store g : Proc σ ε Unit) s = (.ok u, s') ↔ s' = g s := by
  simp [store, eq_comm]

/-- A check that is passed changes nothing. -/
@[simp] theorem require_eq_ok {c : Prop} [Decidable c] {e : ε} {u : Unit} :
    (require c e : Proc σ ε Unit) s = (.ok u, s') ↔ c ∧ s' = s := by
  unfold require
  split <;> simp [*, eq_comm]

/-- A call that succeeds changes nothing. -/
@[simp] theorem demand_eq_ok {o : Option α} {e : ε} :
    (demand o e : Proc σ ε α) s = (.ok a, s') ↔ o = some a ∧ s' = s := by
  cases o <;> simp [demand, eq_comm]

end Inversion

/-! ### Running a procedure -/

/-- After a part that returns, the rest goes on. -/
theorem bind_ok {x : Proc σ ε α} {f : α → Proc σ ε β} {s t : σ} {a : α} (h : x s = (.ok a, t)) :
    (x >>= f) s = f a t := by
  rw [bind_apply, h]

theorem require_ok {c : Prop} [Decidable c] {e : ε} {s : σ} (h : c) :
    (require c e : Proc σ ε Unit) s = (.ok (), s) := if_pos h

/-- Equivalent checks are the same check. -/
theorem require_congr {c c' : Prop} [Decidable c] [Decidable c'] {e : ε} (same : c ↔ c') :
    (require c e : Proc σ ε Unit) = require c' e := by
  funext s
  by_cases h : c
  · rw [require_ok h, require_ok (same.mp h)]
  · rw [require, require, if_neg h, if_neg (mt same.mpr h)]

/-! ### Early returns -/

/-- After an early return, the rest is skipped. -/
theorem bind_error {x : Proc σ ε α} {f : α → Proc σ ε β} {s s' : σ} {e : ε}
    (h : x s = (.error e, s')) : (x >>= f) s = (.error e, s') := by
  rw [bind_apply, h]

theorem require_error {c : Prop} [Decidable c] {e : ε} {s : σ} (h : ¬ c) :
    (require c e : Proc σ ε Unit) s = (.error e, s) := if_neg h

/-- A procedure that starts with a check on its state fails without a trace. -/
theorem load_require_error {c : σ → Prop} [DecidablePred c] {e : ε} {f : σ → Proc σ ε α} {s : σ}
    (h : ¬ c s) : (load >>= fun t => require (c t) e >>= fun _ => f t) s = (.error e, s) := by
  show (require (c s) e >>= fun _ => f s) s = _
  exact bind_error (require_error h)

/-! ### Which failure it is -/

/-- The procedure returns early with `e`. -/
def FailsWith (e : ε) (x : Proc σ ε α) (s : σ) : Prop := (x s).1 = .error e

section FailsWith

variable {e e' : ε} {s t : σ}

/-- A sequence returns early with `e` in its first part, or behind it. -/
theorem failsWith_bind {x : Proc σ ε α} {f : α → Proc σ ε β} :
    FailsWith e (x >>= f) s ↔ FailsWith e x s ∨ ∃ a t, x s = (.ok a, t) ∧ FailsWith e (f a) t := by
  rw [FailsWith, FailsWith, bind_apply]
  obtain ⟨r, t⟩ := x s
  cases r with
  | error e' => simp
  | ok a => simp [FailsWith, and_assoc]

/-- Behind a part that returns, an early return is one of the rest. -/
theorem failsWith_bind_ok {x : Proc σ ε α} {f : α → Proc σ ε β} {a : α} (ok : x s = (.ok a, t)) :
    FailsWith e (x >>= f) s ↔ FailsWith e (f a) t := by
  rw [FailsWith, bind_ok ok, FailsWith]

theorem not_failsWith_pure (a : α) : ¬ FailsWith e (pure a : Proc σ ε α) s := fun failed =>
  nomatch failed

/-- A return behind `x` adds no early return. -/
theorem failsWith_bind_pure {x : Proc σ ε α} {g : α → β} :
    FailsWith e (x >>= fun a => pure (g a)) s ↔ FailsWith e x s := by
  rw [failsWith_bind]
  constructor
  · rintro (failed | ⟨a, t, -, failed⟩)
    · exact failed
    · exact absurd failed (not_failsWith_pure _)
  · exact .inl

/-- A check that fails otherwise is a condition on what follows it. -/
theorem failsWith_require_bind {c : Prop} [Decidable c] {f : Unit → Proc σ ε α} (other : e' ≠ e) :
    FailsWith e (require c e' >>= f) s ↔ c ∧ FailsWith e (f ()) s := by
  by_cases h : c
  · rw [failsWith_bind_ok (require_ok h)]
    exact ⟨fun failed => ⟨h, failed⟩, fun both => both.2⟩
  · rw [FailsWith, bind_error (require_error h)]
    exact ⟨fun failed => absurd (Except.error.inj failed) other, fun both => absurd both.1 h⟩

end FailsWith

/-! ### Projections a procedure leaves alone -/

/-- `x` leaves the projection `p` of the state alone, whether it returns or fails. -/
def Keeps (p : σ → γ) (x : Proc σ ε α) : Prop := ∀ s, p (x s).2 = p s

section Keeps

variable {p : σ → γ}

/-- A sequence leaves alone what its parts leave alone. -/
theorem Keeps.bind {x : Proc σ ε α} {f : α → Proc σ ε β}
    (first : Keeps p x) (rest : ∀ a, Keeps p (f a)) : Keeps p (x >>= f) := by
  intro s
  rw [bind_apply]
  have here := first s
  generalize x s = out at here ⊢
  obtain ⟨r, t⟩ := out
  cases r with
  | error e => exact here
  | ok a => exact (rest a t).trans here

theorem Keeps.ite {c : Prop} [Decidable c] {x y : Proc σ ε α} (yes : Keeps p x)
    (no : Keeps p y) : Keeps p (if c then x else y) := by
  split
  · exact yes
  · exact no

theorem Keeps.pure (a : α) : Keeps p (Pure.pure a : Proc σ ε α) := fun _ => rfl

theorem Keeps.load : Keeps p (Proc.load : Proc σ ε σ) := fun _ => rfl

/-- An assignment to other fields. -/
theorem Keeps.store {g : σ → σ} (h : ∀ s, p (g s) = p s) :
    Keeps p (Proc.store g : Proc σ ε Unit) := h

theorem Keeps.require {c : Prop} [Decidable c] {e : ε} :
    Keeps p (Proc.require c e : Proc σ ε Unit) := by
  intro s
  unfold Proc.require
  split <;> rfl

theorem Keeps.demand {o : Option α} {e : ε} :
    Keeps p (Proc.demand o e : Proc σ ε α) := by
  intro s
  cases o <;> rfl

/-- What reads only the part that is kept is kept. -/
theorem Keeps.of_reads {r : σ → σ} {x : Proc σ ε α} (frame : Keeps r x)
    (reads : ∀ s, p (r s) = p s) : Keeps p x := by
  intro s
  rw [← reads, frame s, reads]

end Keeps

/-! ### Procedures on a part of the state -/

/-- A part of a state that can be read and assigned. -/
structure Part (σ τ : Type) where
  get : σ → τ
  set : τ → σ → σ
  get_set (t : τ) (s : σ) : get (set t s) = t
  set_set (t t' : τ) (s : σ) : set t (set t' s) = set t s
  set_get (s : σ) : set (get s) s = s

/-- `x` does on the whole state what `y` does on a part of it; `f` names the errors. -/
def Part.Acts {τ δ : Type} (part : Part σ τ) (f : δ → ε) (x : Proc σ ε α) (y : Proc τ δ α) : Prop :=
  ∀ s, x s = ((y (part.get s)).1.mapError f, part.set (y (part.get s)).2 s)

section Acts

variable {τ δ : Type} {part : Part σ τ} {f : δ → ε}

/-- What returns on the part returns on the whole, with the part replaced. -/
theorem Part.Acts.ok {x : Proc σ ε α} {y : Proc τ δ α} {s : σ} {t : τ} {a : α}
    (acts : part.Acts f x y) (h : y (part.get s) = (.ok a, t)) : x s = (.ok a, part.set t s) := by
  rw [acts s, h]
  rfl

/-- What lies outside the part is left alone. -/
theorem Part.Acts.keeps {x : Proc σ ε α} {y : Proc τ δ α} {p : σ → γ} (acts : part.Acts f x y)
    (outside : ∀ t s, p (part.set t s) = p s) : Keeps p x := by
  intro s
  rw [acts s]
  exact outside _ s

/-- Actions on a part compose. -/
theorem Part.Acts.bind {x : Proc σ ε α} {y : Proc τ δ α} {g : α → Proc σ ε β}
    {h : α → Proc τ δ β} (first : part.Acts f x y) (rest : ∀ a, part.Acts f (g a) (h a)) :
    part.Acts f (x >>= g) (y >>= h) := by
  intro s
  rw [bind_apply, first s, bind_apply]
  generalize y (part.get s) = out
  obtain ⟨r, t⟩ := out
  cases r with
  | error e => rfl
  | ok a =>
    have here := rest a (part.set t s)
    rw [part.get_set, part.set_set] at here
    exact here

theorem Part.Acts.load_bind {g : σ → Proc σ ε β} {h : τ → Proc τ δ β}
    (rest : ∀ s, part.Acts f (g s) (h (part.get s))) :
    part.Acts f (Proc.load >>= g) (Proc.load >>= h) :=
  fun s => rest s s

theorem Part.Acts.pure (a : α) :
    part.Acts f (Pure.pure a : Proc σ ε α) (Pure.pure a : Proc τ δ α) := by
  intro s
  show (Except.ok a, s) = (Except.ok a, part.set (part.get s) s)
  rw [part.set_get]

/-- An assignment to fields of the part. -/
theorem Part.Acts.store {g : σ → σ} {h : τ → τ} (same : ∀ s, g s = part.set (h (part.get s)) s) :
    part.Acts f (Proc.store g : Proc σ ε Unit) (Proc.store h : Proc τ δ Unit) := by
  intro s
  show (Except.ok (), g s) = (Except.ok (), part.set (h (part.get s)) s)
  rw [same]

/-- A check that the part decides. -/
theorem Part.Acts.require {c c' : Prop} [Decidable c] [Decidable c'] (same : c ↔ c') (e : δ) :
    part.Acts f (Proc.require c (f e) : Proc σ ε Unit) (Proc.require c' e : Proc τ δ Unit) := by
  intro s
  by_cases h : c
  · rw [Proc.require, if_pos h, Proc.require, if_pos (same.mp h)]
    exact Prod.ext rfl (part.set_get s).symm
  · rw [Proc.require, if_neg h, Proc.require, if_neg (mt same.mpr h)]
    exact Prod.ext rfl (part.set_get s).symm

/-- A branch that the part decides. -/
theorem Part.Acts.ite {c c' : Prop} [Decidable c] [Decidable c'] (same : c ↔ c')
    {x x' : Proc σ ε α} {y y' : Proc τ δ α} (yes : c → part.Acts f x y)
    (no : ¬ c → part.Acts f x' y') : part.Acts f (if c then x else x') (if c' then y else y') := by
  by_cases h : c
  · rw [if_pos h, if_pos (same.mp h)]
    exact yes h
  · rw [if_neg h, if_neg (mt same.mpr h)]
    exact no h

end Acts

/-! ### One input after the other -/

/-- The results of a procedure on a list of inputs, each on the state the one before
left behind, whether it returned or failed. -/
def feed {ι : Type} (x : ι → Proc σ ε α) : List ι → σ → List (Except ε α) × σ
  | [], s => ([], s)
  | i :: is, s => ((x i s).1 :: (feed x is (x i s).2).1, (feed x is (x i s).2).2)

section Feed

variable {ι τ δ : Type} {x : ι → Proc σ ε α} {i : ι} {is : List ι}

/-- The first input leaves the state for the others. -/
theorem feed_cons {s t t' : σ} {r : Except ε α} {rs : List (Except ε α)} (first : x i s = (r, t))
    (rest : feed x is t = (rs, t')) : feed x (i :: is) s = (r :: rs, t') := by
  rw [feed, first, rest]

/-- Procedures that act on a part of the state do so one after the other. -/
theorem Part.Acts.feed {part : Part σ τ} {f : δ → ε} {y : ι → Proc τ δ α}
    (acts : ∀ i, part.Acts f (x i) (y i)) (is : List ι) (s : σ) :
    Proc.feed x is s = ((Proc.feed y is (part.get s)).1.map (Except.mapError f),
      part.set (Proc.feed y is (part.get s)).2 s) := by
  induction is generalizing s with
  | nil => exact Prod.ext rfl (part.set_get s).symm
  | cons i is ih =>
    refine (feed_cons (acts i s) (ih _)).trans ?_
    rw [part.get_set, part.set_set]
    rfl

/-- A condition on every input and the state that it meets. -/
def Along (x : ι → Proc σ ε α) (c : ι → σ → Prop) : List ι → σ → Prop
  | [], _ => True
  | i :: is, s => c i s ∧ Along x c is (x i s).2

/-- What every call preserves holds after any inputs. -/
theorem feed_inv {inv : σ → Prop} (keeps : ∀ i s, inv s → inv (x i s).2) {s : σ} (start : inv s)
    (is : List ι) : inv (feed x is s).2 := by
  induction is generalizing s with
  | nil => exact start
  | cons i is ih => exact ih (keeps i s start)

/-- Results of one kind are bounded by a measure that each of them lowers and no other result
raises. -/
theorem countP_feed_le (inv : σ → Prop) (c : ι → σ → Prop) (μ : σ → Nat)
    (hit : Except ε α → Bool) (keeps : ∀ i s, inv s → inv (x i s).2)
    (lowers : ∀ i s, inv s → c i s → hit (x i s).1 = true → μ (x i s).2 < μ s)
    (other : ∀ i s, inv s → c i s → μ (x i s).2 ≤ μ s) {s : σ} (start : inv s)
    (along : Along x c is s) : (feed x is s).1.countP hit ≤ μ s := by
  induction is generalizing s with
  | nil => exact Nat.zero_le _
  | cons i is ih =>
    obtain ⟨here, rest⟩ := along
    have later := ih (keeps i s start) rest
    show ((x i s).1 :: (feed x is (x i s).2).1).countP hit ≤ μ s
    rw [List.countP_cons]
    split
    · next counted =>
      have less := lowers i s start here counted
      omega
    · have less := other i s start here
      omega

end Feed

end Proc
