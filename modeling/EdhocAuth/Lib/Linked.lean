/-
Doubly linked lists whose nodes hold the pointers.

The owner of a list keeps the addresses of its first and last node, and every node those of its
neighbours. `Spells` says which list the pointers stand for. `append` and `unlink` are the
assignments that put a node at the end and take one out; `Spells.append` and `Spells.unlink` say
what they do to the list.
-/

import Mathlib.Data.List.Induction
import Mathlib.Data.List.Nodup
import Mathlib.Logic.Function.Basic

namespace Linked

variable {α : Type} [DecidableEq α]

/-- The pointers of a node. -/
structure Links (α : Type) where
  prev : Option α
  next : Option α

/-- The pointers of a list. -/
structure Pointers (α : Type) where
  links : α → Links α
  head : Option α
  tail : Option α

def empty (α : Type) : Pointers α := ⟨fun _ => ⟨none, none⟩, none, none⟩

def setNext (links : α → Links α) (a : α) (next : Option α) : α → Links α :=
  Function.update links a { links a with next := next }

def setPrev (links : α → Links α) (a : α) (prev : Option α) : α → Links α :=
  Function.update links a { links a with prev := prev }

/-- A node is put behind the last one. -/
def append (a : α) (p : Pointers α) : Pointers α :=
  match p.tail with
  | some last =>
    { p with
      links := Function.update (setNext p.links last (some a)) a ⟨some last, none⟩
      tail := some a }
  | none => ⟨Function.update p.links a ⟨none, none⟩, some a, some a⟩

/-- The first half of taking a node out: its successor becomes that of its predecessor. -/
def bypassNext (a : α) (p : Pointers α) : Pointers α :=
  match (p.links a).prev with
  | some before => { p with links := setNext p.links before (p.links a).next }
  | none => { p with head := (p.links a).next }

/-- The second half: its predecessor becomes that of its successor. -/
def bypassPrev (a : α) (p : Pointers α) : Pointers α :=
  match (p.links a).next with
  | some behind => { p with links := setPrev p.links behind (p.links a).prev }
  | none => { p with tail := (p.links a).prev }

/-- A node is taken out. -/
def unlink (a : α) (p : Pointers α) : Pointers α :=
  let q := bypassPrev a (bypassNext a p)
  { q with links := Function.update q.links a ⟨none, none⟩ }

/-- The pointers stand for this list. -/
structure Spells (p : Pointers α) (l : List α) : Prop where
  nodup : l.Nodup
  head : p.head = l.head?
  tail : p.tail = l.getLast?
  links : ∀ before a behind, l = before ++ a :: behind →
    p.links a = ⟨before.getLast?, behind.head?⟩

variable {p : Pointers α} {l before behind : List α} {a b : α}

omit [DecidableEq α] in
theorem spells_empty : Spells (empty α) [] where
  nodup := List.nodup_nil
  head := rfl
  tail := rfl
  links := by
    intro before a behind split
    cases before <;> cases split

@[simp] theorem setNext_self (links : α → Links α) (a : α) (next : Option α) :
    setNext links a next a = { links a with next := next } := Function.update_self ..

@[simp] theorem setPrev_self (links : α → Links α) (a : α) (prev : Option α) :
    setPrev links a prev a = { links a with prev := prev } := Function.update_self ..

theorem setNext_ne (links : α → Links α) (next : Option α) (other : b ≠ a) :
    setNext links a next b = links b := Function.update_of_ne other ..

theorem setPrev_ne (links : α → Links α) (prev : Option α) (other : b ≠ a) :
    setPrev links a prev b = links b := Function.update_of_ne other ..

/-! ### Appending -/

omit [DecidableEq α] in
/-- Where a list with a last element is split: at that element, or before it. -/
theorem split_concat {l before behind : List α} {z b : α}
    (split : l ++ [z] = before ++ b :: behind) :
    (before = l ∧ b = z ∧ behind = []) ∨ ∃ front, behind = front ++ [z] ∧
      l = before ++ b :: front := by
  rcases List.eq_nil_or_concat' behind with rfl | ⟨front, y, rfl⟩
  · obtain ⟨rfl, same⟩ := List.append_inj' split rfl
    exact .inl ⟨rfl, (List.singleton_inj.mp same).symm, rfl⟩
  · rw [← List.cons_append, ← List.append_assoc] at split
    obtain ⟨rfl, same⟩ := List.append_inj' split rfl
    exact .inr ⟨front, by rw [List.singleton_inj.mp same], rfl⟩

/-- Putting a new node at the end lengthens the list by it. -/
theorem Spells.append (spells : Spells p l) (new : a ∉ l) : Spells (append a p) (l ++ [a]) := by
  have nodup : (l ++ [a]).Nodup :=
    List.nodup_append_comm.mp (List.nodup_cons.mpr ⟨new, spells.nodup⟩)
  cases l using List.reverseRecOn with
  | nil =>
    have last : p.tail = none := spells.tail
    rw [Linked.append, last]
    refine ⟨nodup, rfl, rfl, ?_⟩
    intro before b behind split
    rcases split_concat split with ⟨rfl, rfl, rfl⟩ | ⟨front, -, split⟩
    · exact Function.update_self ..
    · cases before <;> cases split
  | append_singleton l z =>
    have last : p.tail = some z := by
      rw [spells.tail]
      exact List.getLast?_concat ..
    rw [Linked.append, last]
    refine ⟨nodup, ?_, List.getLast?_concat.symm, ?_⟩
    · rw [spells.head]
      cases l <;> rfl
    intro before b behind split
    -- the new node, the one before it, or one further up
    rcases split_concat split with ⟨rfl, rfl, rfl⟩ | ⟨front, rfl, inner⟩
    · rw [List.getLast?_concat]
      exact Function.update_self ..
    have here := spells.links before b front inner
    have other : b ≠ a := by
      rintro rfl
      exact new (by rw [inner]; simp)
    dsimp only
    rw [Function.update_of_ne other]
    rcases split_concat inner with ⟨rfl, rfl, rfl⟩ | ⟨further, rfl, rfl⟩
    · rw [setNext_self, here]
      rfl
    · have apart : b ≠ z := by
        rintro rfl
        have twice := spells.nodup
        simp [List.nodup_append] at twice
      rw [setNext_ne _ _ apart, here]
      cases further <;> rfl

/-! ### Taking out -/

section Unlink

variable {prev next : Option α}

/-- What `unlink` assigns, if the node does not precede itself. -/
theorem unlink_eq (here : p.links a = ⟨prev, next⟩) (apart : prev ≠ some a) :
    (unlink a p).head = (if prev = none then next else p.head) ∧
    (unlink a p).tail = (if next = none then prev else p.tail) ∧
    ∀ x, x ≠ a → (unlink a p).links x =
      ⟨if next = some x then prev else (p.links x).prev,
        if prev = some x then next else (p.links x).next⟩ := by
  have same : (bypassNext a p).links a = ⟨prev, next⟩ := by
    rw [bypassNext, here]
    cases prev with
    | none => exact here
    | some before =>
      exact (setNext_ne _ _ fun eq => apart (congrArg some eq.symm)).trans here
  have after : ∀ x, (bypassNext a p).links x =
      ⟨(p.links x).prev, if prev = some x then next else (p.links x).next⟩ := by
    intro x
    rw [bypassNext, here]
    cases prev with
    | none => simp
    | some before =>
      by_cases eq : before = x
      · subst eq
        simp
      · simp [setNext_ne _ _ (Ne.symm eq), eq]
  refine ⟨?_, ?_, ?_⟩
  · rw [unlink, bypassPrev, same, bypassNext, here]
    cases next <;> cases prev <;> rfl
  · rw [unlink, bypassPrev, same, bypassNext, here]
    cases next <;> cases prev <;> rfl
  · intro x other
    rw [unlink]
    dsimp only
    rw [Function.update_of_ne other, bypassPrev, same]
    cases next with
    | none => simp [after]
    | some behind =>
      by_cases eq : behind = x
      · subst eq
        simp [after]
      · simp [setPrev_ne _ _ (Ne.symm eq), eq, after]

omit [DecidableEq α] in
/-- Where two lists one after the other are split: in the second one, or in the first. -/
theorem split_append {front back : List α} {x : α}
    (split : before ++ behind = front ++ x :: back) :
    (∃ middle, front = before ++ middle ∧ behind = middle ++ x :: back) ∨
      ∃ middle, before = front ++ x :: middle ∧ back = middle ++ behind := by
  rcases List.append_eq_append_iff.mp split with ⟨middle, rfl, rest⟩ | ⟨middle, rfl, rest⟩
  · exact .inl ⟨middle, rfl, rest⟩
  cases middle with
  | nil => exact .inl ⟨[], by simp, rest.symm⟩
  | cons y middle =>
    obtain ⟨rfl, rfl⟩ := List.cons.inj rest
    exact .inr ⟨middle, rfl, rfl⟩

omit [DecidableEq α] in
/-- A node of the right part is not in the left. -/
theorem not_mem_of_append {l r : List α} {x : α} (nodup : (l ++ r).Nodup) (mem : x ∈ r) : x ∉ l :=
  fun here => (List.disjoint_of_nodup_append nodup here) mem

/-- A node behind the one that is taken out. -/
theorem links_behind {middle back : List α} {x : α}
    (spells : Spells p (before ++ a :: (middle ++ x :: back)))
    (nodup : (before ++ (middle ++ x :: back)).Nodup) :
    (⟨if (middle ++ x :: back).head? = some x then before.getLast? else (p.links x).prev,
      if before.getLast? = some x then (middle ++ x :: back).head? else (p.links x).next⟩ :
        Links α) = ⟨(before ++ middle).getLast?, back.head?⟩ := by
  have here := spells.links (before ++ a :: middle) x back (by simp)
  have last : before.getLast? ≠ some x := fun eq =>
    not_mem_of_append nodup (by simp) (List.mem_of_getLast? eq)
  rw [if_neg last, here]
  cases middle with
  | nil => simp
  | cons m middle =>
    have first : (m :: middle ++ x :: back).head? ≠ some x := by
      rintro eq
      obtain rfl : m = x := Option.some.inj eq
      have twice := (List.nodup_append.mp nodup).2.1
      simp at twice
    rw [if_neg first]
    simp

/-- A node before it. -/
theorem links_before {front middle : List α} {x : α}
    (spells : Spells p (front ++ x :: middle ++ a :: behind))
    (nodup : (front ++ x :: middle ++ behind).Nodup) :
    (⟨if behind.head? = some x then (front ++ x :: middle).getLast? else (p.links x).prev,
      if (front ++ x :: middle).getLast? = some x then behind.head? else (p.links x).next⟩ :
        Links α) = ⟨front.getLast?, (middle ++ behind).head?⟩ := by
  have here := spells.links front x (middle ++ a :: behind) (by simp)
  have first : behind.head? ≠ some x := fun eq =>
    not_mem_of_append nodup (List.mem_of_mem_head? eq) (by simp)
  rw [if_neg first, here]
  cases middle using List.reverseRecOn with
  | nil => simp
  | append_singleton middle z =>
    have last : (front ++ x :: (middle ++ [z])).getLast? ≠ some x := by
      rw [← List.cons_append, ← List.append_assoc, List.getLast?_concat]
      rintro eq
      obtain rfl : z = x := Option.some.inj eq
      have twice := (List.nodup_append.mp (List.nodup_append.mp nodup).1).2.1
      simp at twice
    rw [if_neg last]
    cases middle <;> rfl

/-- Taking a node out leaves the others in their order. -/
theorem Spells.unlink (spells : Spells p (before ++ a :: behind)) :
    Spells (unlink a p) (before ++ behind) := by
  have nodup := spells.nodup
  have shorter : (before ++ behind).Nodup := by
    refine nodup.sublist ?_
    simp
  have notMem : a ∉ before ++ behind := by
    have front := List.nodup_middle.mp nodup
    exact (List.nodup_cons.mp front).1
  have here := spells.links before a behind rfl
  have apart : before.getLast? ≠ some a := fun eq =>
    notMem (List.mem_append_left _ (List.mem_of_getLast? eq))
  obtain ⟨head, tail, links⟩ := unlink_eq here apart
  refine ⟨shorter, ?_, ?_, ?_⟩
  · rw [head, spells.head]
    cases before with
    | nil => rfl
    | cons b before => simp
  · rw [tail, spells.tail]
    cases behind using List.reverseRecOn with
    | nil => simp
    | append_singleton behind z =>
      rw [← List.cons_append, ← List.append_assoc, ← List.append_assoc, List.getLast?_concat,
        List.getLast?_concat, if_neg (by simp)]
  intro front x back split
  have other : x ≠ a := by
    rintro rfl
    exact notMem (by rw [split]; simp)
  rw [links x other]
  -- the node stands behind the one that is taken out, or before it
  rcases split_append split with ⟨middle, rfl, rfl⟩ | ⟨middle, rfl, rfl⟩
  · exact links_behind spells shorter
  · exact links_before spells shorter

end Unlink

end Linked
