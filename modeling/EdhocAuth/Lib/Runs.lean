/-
Runs of calls on one record.

A family of procedures `x` is called one after the other, each on the state the one
before left behind, whether that one returned or failed.

* `Returned` is the history of a run: a call of this kind returned OK in it.
  `Typestate` says that calls return OK only in an order and that a flag is raised
  only by a certain kind of call; `Typestate.of_steps` reduces it to single calls.
* `Made` says of a part of the state that the run has made it what it is, and that it is not
  left over from a call of a certain kind; `Made.returned` turns this into a history.
* `notes` collects what the calls of a run note down; `notes_pairwise` compares two
  notes of one run.
* `observe` is all that a user of the record sees of a run. `observe_eq` is the
  simulation rule, and `SameOutcome` compares two outcomes of one procedure, with rules
  that follow its text.
* `Shows` states that a procedure does, seen through a projection of its state, what another
  one does; `accepts` is what is seen of a run.
* `FailsClean` states that an early return leaves a projection of the state alone, and
  `ReturnsIfChanged` the same from a given state.
-/

import EdhocAuth.Lib.Proc
import Mathlib.Data.List.Induction

namespace Proc

variable {σ ε α β γ ι κ : Type}

/-! ### The monad laws -/

/-- Procedures can be cut at any place. -/
theorem bind_assoc (x : Proc σ ε α) (f : α → Proc σ ε β) (g : β → Proc σ ε γ) :
    x >>= f >>= g = x >>= fun a => f a >>= g := by
  funext s
  simp only [bind_apply]
  obtain ⟨r, t⟩ := x s
  cases r with
  | error e => rfl
  | ok a => rfl

theorem pure_bind (a : α) (f : α → Proc σ ε β) : (pure a >>= f : Proc σ ε β) = f a := rfl

/-- A result without its error is that of a call that returned. -/
theorem toOption_eq_some {x : Proc σ ε α} {s : σ} {a : α} :
    (x s).1.toOption = some a ↔ ∃ t, x s = (.ok a, t) := by
  obtain ⟨r, t⟩ := x s
  cases r with
  | error e => simp [Except.toOption]
  | ok b => simp [Except.toOption]

/-! ### Histories -/

section Histories

variable {x : ι → Proc σ ε α} {s : σ} {i j : ι} {is js : List ι}

def after (x : ι → Proc σ ε α) (is : List ι) (s : σ) : σ := (feed x is s).2

theorem after_nil : after x [] s = s := rfl

theorem after_cons : after x (i :: is) s = after x is (x i s).2 := rfl

theorem after_append : after x (is ++ js) s = after x js (after x is s) := by
  induction is generalizing s with
  | nil => rfl
  | cons i is ih => exact ih

theorem after_concat : after x (is ++ [i]) s = (x i (after x is s)).2 := after_append

/-- What every call keeps is the same after a run. -/
theorem after_keeps {p : σ → γ} (keeps : ∀ i, Keeps p (x i)) (is : List ι) (s : σ) :
    p (after x is s) = p s := by
  induction is generalizing s with
  | nil => rfl
  | cons i is ih => exact (ih _).trans (keeps i s)

def Ok (x : ι → Proc σ ε α) (i : ι) (s : σ) : Prop := ∃ a, (x i s).1 = .ok a

theorem ok_iff : Ok x i s ↔ ∃ a t, x i s = (.ok a, t) := by
  constructor
  · rintro ⟨a, ok⟩
    exact ⟨a, (x i s).2, Prod.ext ok rfl⟩
  · rintro ⟨a, t, ok⟩
    exact ⟨a, congrArg Prod.fst ok⟩

/-- A call of kind `k` returned OK in the run. -/
def Returned (x : ι → Proc σ ε α) (kind : ι → κ) (k : κ) (is : List ι) (s : σ) : Prop :=
  ∃ before i rest, is = before ++ i :: rest ∧ kind i = k ∧ Ok x i (after x before s)

variable {kind : ι → κ} {k : κ}

theorem not_returned_nil : ¬ Returned x kind k [] s := by
  rintro ⟨before, i, rest, split, -⟩
  cases before <;> cases split

/-- What has returned has returned in every longer run. -/
theorem Returned.append (returned : Returned x kind k is s) (js : List ι) :
    Returned x kind k (is ++ js) s := by
  obtain ⟨before, i, rest, rfl, same, ok⟩ := returned
  exact ⟨before, i, rest ++ js, by simp, same, ok⟩

/-- The last call of a run has returned. -/
theorem Returned.last (ok : Ok x i (after x is s)) : Returned x kind (kind i) (is ++ [i]) s :=
  ⟨is, i, [], rfl, rfl, ok⟩

/-- Calls return OK only after one of the kind they need returned OK, and `flag` is
raised only after one of the kind `last` returned OK. -/
structure Typestate (x : ι → Proc σ ε α) (kind : ι → κ) (needs : κ → Option κ) (flag : σ → Prop)
    (last : κ) (is : List ι) (s : σ) : Prop where
  order : ∀ before i rest, is = before ++ i :: rest → Ok x i (after x before s) →
    ∀ k, needs (kind i) = some k → Returned x kind k before s
  flag : ∀ before rest, is = before ++ rest → flag (after x before s) →
    Returned x kind last before s

/-- What one call has to do for the order to be kept, if `had` are the kinds of the calls
that returned OK before it. -/
structure KeepsOrder (x : ι → Proc σ ε α) (kind : ι → κ) (needs : κ → Option κ) (flag : σ → Prop)
    (last : κ) (had : κ → Prop) (i : ι) (s : σ) : Prop where
  order : Ok x i s → ∀ k, needs (kind i) = some k → had k
  flag : flag (x i s).2 → flag s ∨ had last ∨ kind i = last ∧ Ok x i s

/-- The order is kept if every call keeps it, given those before. -/
theorem Typestate.of_steps {needs : κ → Option κ} {flag : σ → Prop} {last : κ}
    (lowered : ¬ flag s)
    (step : ∀ before i rest, is = before ++ i :: rest →
      KeepsOrder x kind needs flag last (Returned x kind · before s) i (after x before s)) :
    Typestate x kind needs flag last is s := by
  refine ⟨fun before i rest split => (step before i rest split).order, fun before => ?_⟩
  -- the flag at the end of a run was raised by its last call or before it
  induction before using List.reverseRecOn with
  | nil => exact fun _ _ raised => absurd raised lowered
  | append_singleton before i ih =>
    intro rest split raised
    rw [List.append_assoc] at split
    rw [after_concat] at raised
    obtain earlier | had | ⟨same, ok⟩ := (step before i rest split).flag raised
    · exact (ih (i :: rest) split earlier).append [i]
    · exact had.append [i]
    · rw [← same]
      exact .last ok

/-! #### Where a part of the state comes from -/

variable {p : σ → γ} {who : ι → σ → Prop}

/-- What a run has changed was changed to its present value by one of the calls. -/
theorem exists_changed (changed : p (after x is s) ≠ p s) :
    ∃ before i rest, is = before ++ i :: rest ∧
      p (x i (after x before s)).2 ≠ p (after x before s) ∧
      p (x i (after x before s)).2 = p (after x is s) := by
  induction is using List.reverseRecOn with
  | nil => exact absurd rfl changed
  | append_singleton is i ih =>
    rw [after_concat] at changed ⊢
    by_cases same : p (x i (after x is s)).2 = p (after x is s)
    · rw [same] at changed ⊢
      obtain ⟨before, j, rest, rfl, here⟩ := ih changed
      exact ⟨before, j, rest ++ [i], by simp, here⟩
    · exact ⟨is, i, [], rfl, same, rfl⟩

/-- The present value of `p` was put there by a call of the run with `who`. -/
def LeftOver (x : ι → Proc σ ε α) (p : σ → γ) (who : ι → σ → Prop) (is : List ι) (s : σ) : Prop :=
  ∃ before i rest, is = before ++ i :: rest ∧ who i (after x before s) ∧
    p (x i (after x before s)).2 ≠ p (after x before s) ∧
    p (x i (after x before s)).2 = p (after x is s)

/-- The run has given `p` another value than at the start, and it is not left over from a
call with `who`. -/
def Made (x : ι → Proc σ ε α) (p : σ → γ) (who : ι → σ → Prop) (is : List ι) (s : σ) : Prop :=
  p (after x is s) ≠ p s ∧ ¬ LeftOver x p who is s

/-- In a run without such calls nothing is left over. -/
theorem Made.of_none (changed : p (after x is s) ≠ p s)
    (room : ∀ before i rest, is = before ++ i :: rest → ¬ who i (after x before s)) :
    Made x p who is s :=
  ⟨changed, fun ⟨before, i, rest, split, left, _⟩ => room before i rest split left⟩

/-- If all calls that change `p`, those with `who` apart, are of one kind and return, such a
call has returned where `p` was made. -/
theorem Made.returned (made : Made x p who is s)
    (step : ∀ before i rest, is = before ++ i :: rest →
      p (x i (after x before s)).2 ≠ p (after x before s) → ¬ who i (after x before s) →
      kind i = k ∧ Ok x i (after x before s)) :
    Returned x kind k is s := by
  obtain ⟨before, i, rest, split, changed, present⟩ := exists_changed made.1
  have other : ¬ who i (after x before s) := fun left =>
    made.2 ⟨before, i, rest, split, left, changed, present⟩
  exact ⟨before, i, rest, split, step before i rest split changed other⟩

end Histories

/-! ### What the calls of a run note down -/

section Notes

variable {x : ι → Proc σ ε α} {s : σ} {is : List ι} {note : σ → ι → Option β} {b b' : β}

def notes (x : ι → Proc σ ε α) (note : σ → ι → Option β) : List ι → σ → List β
  | [], _ => []
  | i :: is, s => (note s i).toList ++ notes x note is (x i s).2

/-- A note is made by one call, on the state that the calls before it left. -/
theorem mem_notes :
    b ∈ notes x note is s ↔
      ∃ before i rest, is = before ++ i :: rest ∧ note (after x before s) i = some b := by
  induction is generalizing s with
  | nil => simp [notes]
  | cons i is ih =>
    rw [notes, List.mem_append, Option.mem_toList, ih]
    constructor
    · rintro (here | ⟨before, j, rest, rfl, noted⟩)
      · exact ⟨[], i, is, rfl, here⟩
      · exact ⟨i :: before, j, rest, rfl, noted⟩
    · rintro ⟨before, j, rest, split, noted⟩
      cases before with
      | nil =>
        obtain ⟨rfl, rfl⟩ := List.cons.inj split
        exact .inl noted
      | cons _ before =>
        obtain ⟨rfl, rfl⟩ := List.cons.inj split
        exact .inr ⟨before, j, rest, rfl, noted⟩

/-- Two notes of a run are one, or one was made before the other. -/
theorem notes_pairwise {R : β → β → Prop} (refl : ∀ b, R b b) (symm : ∀ b b', R b b' → R b' b)
    (pairs : ∀ before i between j rest, is = before ++ i :: (between ++ j :: rest) →
      ∀ b b', note (after x before s) i = some b →
        note (after x (before ++ i :: between) s) j = some b' → R b b')
    (first : b ∈ notes x note is s) (second : b' ∈ notes x note is s) : R b b' := by
  obtain ⟨before, i, rest, split, noted⟩ := mem_notes.mp first
  obtain ⟨before', j, rest', split', noted'⟩ := mem_notes.mp second
  rw [split] at split' pairs
  obtain ⟨more, same, tail⟩ | ⟨more, same, tail⟩ := List.append_eq_append_iff.mp split'
  · cases more with
    | nil =>
      obtain ⟨rfl, rfl⟩ := List.cons.inj tail
      rw [List.append_nil] at same
      rw [← same, noted'] at noted
      obtain rfl := Option.some.inj noted
      exact refl _
    | cons i' between =>
      obtain ⟨rfl, rfl⟩ := List.cons.inj tail
      rw [same] at noted'
      exact pairs before i between j rest' rfl b b' noted noted'
  · cases more with
    | nil =>
      obtain ⟨rfl, rfl⟩ := List.cons.inj tail
      rw [List.append_nil] at same
      rw [same, noted'] at noted
      obtain rfl := Option.some.inj noted
      exact refl _
    | cons j' between =>
      obtain ⟨rfl, rfl⟩ := List.cons.inj tail
      rw [same] at noted
      exact symm _ _ (pairs before' j between i rest (by simp [same]) b' b noted' noted)

end Notes

/-! ### Outcomes that cannot be told apart -/

/-- States with one projection. -/
abbrev Agree (p : σ → γ) (s t : σ) : Prop := p s = p t

/-- Two outcomes with one result, and states related by `S` after a return and by `E`
after an early one. -/
inductive SameOutcome (S E : σ → σ → Prop) : Except ε α × σ → Except ε α × σ → Prop
  | ok {s t : σ} (a : α) (related : S s t) : SameOutcome S E (.ok a, s) (.ok a, t)
  | error {s t : σ} (e : ε) (related : E s t) : SameOutcome S E (.error e, s) (.error e, t)

section SameOutcome

variable {S T E : σ → σ → Prop} {s t : σ}

theorem SameOutcome.result {o o' : Except ε α × σ} (same : SameOutcome S E o o') : o.1 = o'.1 := by
  cases same <;> rfl

theorem SameOutcome.state {o o' : Except ε α × σ} (same : SameOutcome S S o o') : S o.2 o'.2 := by
  cases same <;> assumption

/-- The relation of the states may be weakened. -/
theorem SameOutcome.imp {o o' : Except ε α × σ} (same : SameOutcome S S o o')
    (weaker : S o.2 o'.2 → T o.2 o'.2) : SameOutcome T T o o' := by
  cases same with
  | ok a related => exact .ok a (weaker related)
  | error e related => exact .error e (weaker related)

/-- Same outcomes compose. -/
theorem SameOutcome.bind {x y : Proc σ ε α} {f g : α → Proc σ ε β}
    (first : SameOutcome S E (x s) (y t))
    (rest : ∀ a s' t', S s' t' → SameOutcome T E (f a s') (g a t')) :
    SameOutcome T E ((x >>= f) s) ((y >>= g) t) := by
  rw [bind_apply, bind_apply]
  generalize x s = o at first ⊢
  generalize y t = o' at first ⊢
  cases first with
  | ok a related => exact rest a _ _ related
  | error e related => exact .error e related

theorem SameOutcome.load {f g : σ → Proc σ ε β} (rest : SameOutcome T E (f s s) (g t t)) :
    SameOutcome T E ((Proc.load >>= f) s) ((Proc.load >>= g) t) := rest

theorem SameOutcome.store {u v : σ → σ} {f g : Unit → Proc σ ε β}
    (rest : SameOutcome T E (f () (u s)) (g () (v t))) :
    SameOutcome T E ((Proc.store u >>= f) s) ((Proc.store v >>= g) t) := rest

/-- A check that is the same on both sides. -/
theorem SameOutcome.require {c c' : Prop} [Decidable c] [Decidable c'] {e : ε}
    {f g : Unit → Proc σ ε β} (same : c ↔ c') (early : E s t)
    (rest : SameOutcome T E (f () s) (g () t)) :
    SameOutcome T E ((Proc.require c e >>= f) s) ((Proc.require c' e >>= g) t) := by
  by_cases h : c
  · rw [bind_ok (require_ok h), bind_ok (require_ok (same.mp h))]
    exact rest
  · rw [bind_error (require_error h), bind_error (require_error (mt same.mpr h))]
    exact .error e early

/-- A value that is the same on both sides, or missing on both. -/
theorem SameOutcome.demand {o o' : Option α} {e : ε} {f g : α → Proc σ ε β} (same : o = o')
    (early : E s t) (rest : ∀ a, SameOutcome T E (f a s) (g a t)) :
    SameOutcome T E ((Proc.demand o e >>= f) s) ((Proc.demand o' e >>= g) t) := by
  subst same
  cases o with
  | none => exact .error e early
  | some a => exact rest a

theorem SameOutcome.pure {a b : α} (same : a = b) (related : T s t) :
    SameOutcome T E ((Pure.pure a : Proc σ ε α) s) ((Pure.pure b : Proc σ ε α) t) := by
  subst same
  exact .ok a related

theorem SameOutcome.stored {u v : σ → σ} (related : T (u s) (v t)) :
    SameOutcome T E ((Proc.store u : Proc σ ε Unit) s) ((Proc.store v : Proc σ ε Unit) t) :=
  .ok () related

theorem SameOutcome.required {c c' : Prop} [Decidable c] [Decidable c'] {e : ε} (same : c ↔ c')
    (early : E s t) (related : T s t) :
    SameOutcome T E ((Proc.require c e : Proc σ ε Unit) s)
      ((Proc.require c' e : Proc σ ε Unit) t) := by
  by_cases h : c
  · rw [require_ok h, require_ok (same.mp h)]
    exact .ok () related
  · rw [require_error h, require_error (mt same.mpr h)]
    exact .error e early

/-- What a user of the record sees of a run: each result, and `p` after the call. -/
def observe (x : ι → Proc σ ε α) (p : σ → γ) : List ι → σ → List (Except ε α × γ)
  | [], _ => []
  | i :: is, s => ((x i s).1, p (x i s).2) :: observe x p is (x i s).2

/-- States that no call can tell apart give the same run. -/
theorem observe_eq {x : ι → Proc σ ε α} {p : σ → γ}
    (step : ∀ i s t, S s t → SameOutcome S S (x i s) (x i t))
    (seen : ∀ s t, S s t → p s = p t) (is : List ι) (related : S s t) :
    observe x p is s = observe x p is t := by
  induction is generalizing s t with
  | nil => rfl
  | cons i is ih =>
    have same := step i s t related
    rw [observe, observe, same.result, seen _ _ same.state, ih same.state]

end SameOutcome

/-! ### What can be seen of the state -/

/-- Seen through `p`, the procedure `x` does what `y` does; `f` names the errors. -/
def Shows {τ δ : Type} (p : σ → τ) (f : δ → ε) (x : Proc σ ε α) (y : Proc τ δ α) : Prop :=
  ∀ s, ((x s).1, p (x s).2) = ((y (p s)).1.mapError f, (y (p s)).2)

section Shows

variable {τ δ : Type} {p : σ → τ} {f : δ → ε}

/-- What acts on a part of the state shows on that part. -/
theorem Part.Acts.shows {part : Part σ τ} {x : Proc σ ε α} {y : Proc τ δ α}
    (acts : part.Acts f x y) :
    Shows part.get f x y := by
  intro s
  rw [acts s]
  exact Prod.ext rfl (part.get_set _ s)

/-- What shows composes. -/
theorem Shows.bind {x : Proc σ ε α} {y : Proc τ δ α} {g : α → Proc σ ε β} {h : α → Proc τ δ β}
    (first : Shows p f x y) (rest : ∀ a, Shows p f (g a) (h a)) :
    Shows p f (x >>= g) (y >>= h) := by
  intro s
  have here := first s
  rw [bind_apply, bind_apply]
  generalize x s = out at here ⊢
  generalize y (p s) = out' at here ⊢
  obtain ⟨r, t⟩ := out
  obtain ⟨r', t'⟩ := out'
  obtain ⟨result, state⟩ := Prod.mk.inj here
  dsimp only at result state
  subst result state
  cases r' with
  | error e => rfl
  | ok a => exact rest a t

/-- An assignment that cannot be seen. -/
theorem Shows.hidden {g : σ → σ} {x : Proc σ ε α} {y : Proc τ δ α} (unseen : ∀ s, p (g s) = p s)
    (rest : Shows p f x y) : Shows p f (Proc.store g >>= fun _ => x) y := by
  intro s
  have here := rest (g s)
  rw [unseen] at here
  exact here

theorem Shows.load_bind {g : σ → Proc σ ε β} {h : τ → Proc τ δ β}
    (rest : ∀ s, Shows p f (g s) (h (p s))) : Shows p f (Proc.load >>= g) (Proc.load >>= h) :=
  fun s => rest s s

theorem Shows.pure (a : α) : Shows p f (Pure.pure a : Proc σ ε α) (Pure.pure a : Proc τ δ α) :=
  fun _ => rfl

theorem Shows.store {g : σ → σ} {h : τ → τ} (same : ∀ s, p (g s) = h (p s)) :
    Shows p f (Proc.store g : Proc σ ε Unit) (Proc.store h : Proc τ δ Unit) :=
  fun s => Prod.ext rfl (same s)

/-- A check that is the same on both sides, with the error renamed. -/
theorem Shows.require {c c' : Prop} [Decidable c] [Decidable c'] (same : c ↔ c') (e : δ) :
    Shows p f (Proc.require c (f e) : Proc σ ε Unit) (Proc.require c' e : Proc τ δ Unit) := by
  intro s
  by_cases h : c
  · rw [require_ok h, require_ok (same.mp h)]
    rfl
  · rw [require_error h, require_error (mt same.mpr h)]
    rfl

/-- A branch that both sides take alike. -/
theorem Shows.ite {c c' : Prop} [Decidable c] [Decidable c'] (same : c ↔ c')
    {x x' : Proc σ ε α} {y y' : Proc τ δ α} (yes : c → Shows p f x y)
    (no : ¬ c → Shows p f x' y') : Shows p f (if c then x else x') (if c' then y else y') := by
  by_cases h : c
  · rw [if_pos h, if_pos (same.mp h)]
    exact yes h
  · rw [if_neg h, if_neg (mt same.mpr h)]
    exact no h

/-- What is accepted of the inputs, with its result, and what is seen of the state after each. -/
def accepts {ι : Type} (x : ι → Proc σ ε α) (p : σ → τ) (is : List ι) (s : σ) :
    List (Option α × τ) :=
  (observe x p is s).map fun seen => (seen.1.toOption, seen.2)

/-- What shows on one input shows on a sequence of them. -/
theorem Shows.accepts {ι : Type} {x : ι → Proc σ ε α} {y : ι → Proc τ δ α}
    (shows : ∀ i, Shows p f (x i) (y i)) (is : List ι) (s : σ) :
    Proc.accepts x p is s = Proc.accepts y id is (p s) := by
  induction is generalizing s with
  | nil => rfl
  | cons i is ih =>
    obtain ⟨result, state⟩ := Prod.mk.inj (shows i s)
    have same : (x i s).1.toOption = (y i (p s)).1.toOption := by
      rw [result]
      cases (y i (p s)).1 <;> rfl
    have rest := ih (x i s).2
    rw [state] at rest
    show ((x i s).1.toOption, p (x i s).2) :: Proc.accepts x p is (x i s).2 = _
    rw [same, state, rest]
    rfl

end Shows

/-! ### Early returns that leave no trace -/

/-- An early return of `x` leaves the projection `p` of the state alone. -/
def FailsClean (p : σ → γ) (x : Proc σ ε α) : Prop := ∀ s t e, x s = (.error e, t) → p t = p s

section FailsClean

variable {p : σ → γ}

/-- What no outcome changes no failure changes. -/
theorem Keeps.failsClean {x : Proc σ ε α} (keeps : Keeps p x) : FailsClean p x := by
  intro s t e failed
  have kept := keeps s
  rwa [failed] at kept

/-- The part before the first assignment fails clean. -/
theorem FailsClean.bind {x : Proc σ ε α} {f : α → Proc σ ε β} (first : Keeps p x)
    (rest : ∀ a, FailsClean p (f a)) : FailsClean p (x >>= f) := by
  intro s t e failed
  have kept := first s
  rw [bind_apply] at failed
  generalize x s = o at kept failed
  obtain ⟨r, u⟩ := o
  cases r with
  | error e' =>
    obtain ⟨-, rfl⟩ := Prod.mk.inj failed
    exact kept
  | ok a => exact (rest a u t e failed).trans kept

/-- A projection of what is left alone is left alone. -/
theorem FailsClean.of_reads {r : σ → σ} {x : Proc σ ε α} (frame : FailsClean r x)
    (reads : ∀ s, p (r s) = p s) : FailsClean p x := by
  intro s t e failed
  rw [← reads, frame s t e failed, reads]

/-- What always returns has no early return. -/
theorem FailsClean.of_returns {x : Proc σ ε α} (returns : ∀ s, ∃ a t, x s = (.ok a, t)) :
    FailsClean p x := by
  intro s t e failed
  obtain ⟨a, u, ok⟩ := returns s
  rw [ok] at failed
  cases failed

/-- A procedure that failed did so in its first part, or that part returned. -/
theorem FailsClean.of_bind {x : Proc σ ε α} {f : α → Proc σ ε β} {s t : σ} {e : ε}
    (first : FailsClean p x) (failed : (x >>= f) s = (.error e, t)) :
    p t = p s ∨ ∃ a u, x s = (.ok a, u) := by
  rw [bind_apply] at failed
  generalize out : x s = o at failed
  obtain ⟨r, u⟩ := o
  cases r with
  | error e' =>
    obtain ⟨-, rfl⟩ := Prod.mk.inj failed
    exact .inl (first s u e' out)
  | ok a => exact .inr ⟨a, u, rfl⟩

/-- From this state `x` returns if it changes `p`. -/
def ReturnsIfChanged (p : σ → γ) (x : Proc σ ε α) (s : σ) : Prop :=
  p (x s).2 ≠ p s → ∃ a t, x s = (.ok a, t)

/-- If failures leave `p` alone, a change comes with a return. -/
theorem FailsClean.returnsIfChanged {x : Proc σ ε α} (clean : FailsClean p x) (s : σ) :
    ReturnsIfChanged p x s := by
  intro changed
  obtain ⟨r, t, out⟩ : ∃ r t, x s = (r, t) := ⟨_, _, rfl⟩
  cases r with
  | ok a => exact ⟨a, t, out⟩
  | error e =>
    rw [out] at changed
    exact absurd (clean s t e out) changed

/-- What returns need not be looked into. -/
theorem ReturnsIfChanged.of_returns {x : Proc σ ε α} {s : σ} (returns : ∃ a t, x s = (.ok a, t)) :
    ReturnsIfChanged p x s :=
  fun _ => returns

/-- The part before the first assignment does not matter. -/
theorem ReturnsIfChanged.bind {x : Proc σ ε α} {f : α → Proc σ ε β} {s : σ} (first : Keeps p x)
    (rest : ∀ a t, x s = (.ok a, t) → ReturnsIfChanged p (f a) t) :
    ReturnsIfChanged p (x >>= f) s := by
  intro changed
  have kept := first s
  rw [bind_apply] at changed ⊢
  generalize out : x s = o at changed kept
  obtain ⟨r, t⟩ := o
  cases r with
  | error e => exact absurd kept changed
  | ok a =>
    rw [← kept] at changed
    exact rest a t out changed

end FailsClean

end Proc
