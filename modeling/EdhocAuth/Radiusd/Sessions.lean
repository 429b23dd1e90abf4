/-
The sessions of FreeRADIUS's EAP module (`rlm_eap/mem.c`).

Between two requests of a conversation its `eap_handler_t` stands in a tree, which finds it by
its key, and in a doubly linked list, which keeps the order of arrival. `Eaplist` has both, with
the pointers of the source. What they are for is a queue: `Eaplist.Holds` relates the two, and
`Eaplist.Refines` says that the operations on the pointers are those on the queue. A `Sessions` is a
queue in which no two handlers have the same key and that has no more handlers than configured.

Each operation holds the mutex of the list from its first access to its last, so it is one step
here, whatever other threads of the server do.
-/

import EdhocAuth.Lib.Block
import EdhocAuth.Lib.Linked

namespace EdhocAuth.Radiusd

variable {ω : Type}

/-! ### Handlers -/

inductive Stage where
  | initiate | process
deriving DecidableEq

abbrev eapStateLen : Nat := 16

/-- `eap_handler_t`. The session of the EAP method is `opaque`; `freeOpaque` says whether there is a
`free_opaque`. -/
structure Handler (ω : Type) where
  state : Block UInt8 eapStateLen
  eapId : UInt8
  type : Nat
  timestamp : Int
  identity : List UInt8
  opaqueData : Option ω
  freeOpaque : Bool
  stage : Stage
  trips : Nat
  started : Bool

/-- What `eap_handler_cmp` compares. -/
abbrev Key : Type := UInt8 × Block UInt8 eapStateLen

def Handler.key (h : Handler ω) : Key := (h.eapId, h.state)

/-- A handler with its address. -/
abbrev Entry (ω : Type) : Type := Nat × Handler ω

def Entry.key (e : Entry ω) : Key := e.2.key

/-- The limits of `rlm_eap_t`; `version` is `HEXIFY(RADIUSD_VERSION)`. -/
structure Limits where
  timerLimit : Nat
  maxSessions : Nat
  version : Nat

/-! ### The list of sessions -/

/-- `session_tree`, whose nodes are kept with the addresses of their handlers, and
`session_head` and `session_tail` with the pointers of the handlers. -/
structure Eaplist (ω : Type) where
  tree : List (Entry ω)
  list : Linked.Pointers Nat

def Eaplist.empty : Eaplist ω := ⟨[], Linked.empty Nat⟩

def rbtreeFind (k : Key) (s : Eaplist ω) : Option (Entry ω) := s.tree.find? fun e => e.key = k

/-- `eaplist_delete`. The caller gets the handler, which it may free. -/
def eaplistDelete (k : Key) (s : Eaplist ω) : Option (Entry ω) × Eaplist ω :=
  match rbtreeFind k s with
  | none => (none, s)
  | some e => (some e, ⟨s.tree.eraseP fun e => e.key = k, Linked.unlink e.1 s.list⟩)

def expireLoop (l : Limits) (timestamp : Int) : Nat → Eaplist ω → Eaplist ω
  | 0, s => s
  | i + 1, s =>
    match s.list.head with
    | none => s
    | some a =>
      -- the handler at the address
      match s.tree.find? fun e => e.1 = a with
      | none => s
      | some e =>
        if (l.timerLimit : Int) < timestamp - e.2.timestamp then
          expireLoop l timestamp i (eaplistDelete e.key s).2
        else s

def eaplistExpire (l : Limits) (timestamp : Int) (s : Eaplist ω) : Eaplist ω :=
  expireLoop l timestamp 3 s

/-- Octet `i` of `version`. -/
def versionOctet (l : Limits) (i : Nat) : UInt8 := UInt8.ofNat (l.version / 256 ^ i)

/-- The octets of the State that `eaplist_add` writes in every round. -/
def restamp (l : Limits) (h : Handler ω) : Block UInt8 eapStateLen :=
  (((((h.state.set 4 (UInt8.ofNat h.trips ^^^ h.state.get 0)).set 5 (h.eapId ^^^ h.state.get 1)).set
    6 (UInt8.ofNat h.type ^^^ h.state.get 2)).set 8 (h.state.get 2 ^^^ versionOctet l 0)).set
    10 (h.state.get 2 ^^^ versionOctet l 1)).set 12 (h.state.get 2 ^^^ versionOctet l 2)

/-- The handler that `eaplist_add` puts on the list: its random octets are drawn in the first
round. -/
def stamped (l : Limits) (timestamp : Int) (id : UInt8) (words : Block UInt8 eapStateLen)
    (h : Handler ω) : Handler ω :=
  let h := { h with timestamp := timestamp, eapId := id }
  let h := if h.trips = 0 then { h with state := words } else h
  { h with state := restamp l h }

/-- `eaplist_add`: the State attribute of the reply, or `none` if it returns 0. -/
def eaplistAdd (l : Limits) (timestamp : Int) (id : UInt8) (words : Block UInt8 eapStateLen)
    (e : Entry ω) (s : Eaplist ω) : Option (Block UInt8 eapStateLen) × Eaplist ω :=
  if l.maxSessions ≤ s.tree.length then
    (none, eaplistExpire l timestamp s)
  else
    let h := stamped l timestamp id words e.2
    match rbtreeFind h.key s with
    | some _ => (none, s)
    | none => (some h.state, ⟨(e.1, h) :: s.tree, Linked.append e.1 s.list⟩)

/-- The number of round trips after which `eaplist_find` gives up. -/
abbrev maxTrips : Nat := 50

def eaplistFind (l : Limits) (timestamp : Int) (id : UInt8) (state : Option (List UInt8))
    (s : Eaplist ω) : Option (Entry ω) × Eaplist ω :=
  match state with
  | none => (none, s)
  | some state =>
    if len : state.length = eapStateLen then
      match eaplistDelete (id, ⟨state, len⟩) (eaplistExpire l timestamp s) with
      | (none, s) => (none, s)
      | (some e, s) =>
        if maxTrips ≤ e.2.trips then (none, s)
        else (some (e.1, { e.2 with trips := e.2.trips + 1 }), s)
    else (none, s)

/-! ### The queue -/

/-- No two handlers of a queue have the same address or the same key. -/
structure Distinct (q : List (Entry ω)) : Prop where
  addresses : (q.map Prod.fst).Nodup
  keys : (q.map Entry.key).Nodup

/-- The sessions of a server. -/
structure Sessions (ω : Type) (max : Nat) where
  entries : List (Entry ω)
  distinct : Distinct entries
  bounded : entries.length ≤ max

def without (k : Key) (q : List (Entry ω)) : List (Entry ω) := q.filter fun e => e.key ≠ k

def lookup (k : Key) (q : List (Entry ω)) : Option (Entry ω) := q.find? fun e => e.key = k

/-- A queue without the first `n` handlers, as far as they are too old. -/
def expired (l : Limits) (timestamp : Int) : Nat → List (Entry ω) → List (Entry ω)
  | n + 1, e :: q =>
    if (l.timerLimit : Int) < timestamp - e.2.timestamp then expired l timestamp n q else e :: q
  | _, q => q

def queueFind (l : Limits) (timestamp : Int) (id : UInt8) (state : Option (List UInt8))
    (q : List (Entry ω)) : Option (Entry ω) × List (Entry ω) :=
  match state with
  | none => (none, q)
  | some state =>
    if len : state.length = eapStateLen then
      let k := (id, ⟨state, len⟩)
      let q := expired l timestamp 3 q
      (((lookup k q).filter fun e => e.2.trips < maxTrips).map fun e =>
        (e.1, { e.2 with trips := e.2.trips + 1 }), without k q)
    else (none, q)

def queueAdd (l : Limits) (timestamp : Int) (id : UInt8) (words : Block UInt8 eapStateLen)
    (e : Entry ω) (q : List (Entry ω)) : Option (Block UInt8 eapStateLen) × List (Entry ω) :=
  if l.maxSessions ≤ q.length then
    (none, expired l timestamp 3 q)
  else
    let h := stamped l timestamp id words e.2
    if (lookup h.key q).isSome then (none, q) else (some h.state, q ++ [(e.1, h)])

/-- The tree and the list hold the handlers of the queue, the list in their order. -/
structure Eaplist.Holds (s : Eaplist ω) (q : List (Entry ω)) : Prop where
  tree : s.tree.Perm q
  list : Linked.Spells s.list (q.map Prod.fst)

theorem Eaplist.holds_empty : (Eaplist.empty : Eaplist ω).Holds [] :=
  ⟨List.Perm.refl _, Linked.spells_empty⟩

/-! ### Queues -/

section Queue

variable {q q' : List (Entry ω)} {k : Key} {e : Entry ω}

theorem Distinct.sublist (distinct : Distinct q) (sub : q'.Sublist q) : Distinct q' :=
  ⟨distinct.addresses.sublist (sub.map _), distinct.keys.sublist (sub.map _)⟩

/-- The order of the handlers does not matter. -/
theorem Distinct.perm (distinct : Distinct q) (perm : q'.Perm q) : Distinct q' :=
  ⟨(perm.map _).nodup_iff.mpr distinct.addresses, (perm.map _).nodup_iff.mpr distinct.keys⟩

/-- What a search by a distinct value finds. -/
theorem find_eq_some {β : Type} [DecidableEq β] {f : Entry ω → β} (distinct : (q.map f).Nodup)
    {b : β} : (q.find? fun e => f e = b) = some e ↔ e ∈ q ∧ f e = b := by
  constructor
  · intro found
    exact ⟨List.mem_of_find?_eq_some found, by simpa using List.find?_some found⟩
  · rintro ⟨mem, rfl⟩
    induction q with
    | nil => cases mem
    | cons x q ih =>
      obtain ⟨first, rest⟩ := List.nodup_cons.mp distinct
      rcases List.mem_cons.mp mem with rfl | mem
      · exact List.find?_cons_of_pos (by simp)
      · have other : f x ≠ f e := fun eq => first (eq ▸ List.mem_map_of_mem mem)
        rw [List.find?_cons_of_neg (by simpa using other)]
        exact ih rest mem

/-- With distinct keys, the handler that is found is the one with the key. -/
theorem lookup_eq_some (distinct : Distinct q) : lookup k q = some e ↔ e ∈ q ∧ e.key = k :=
  find_eq_some distinct.keys

theorem lookup_eq_none : lookup k q = none ↔ ∀ e ∈ q, e.key ≠ k := by
  simp [lookup, List.find?_eq_none]

/-- With distinct keys, the order does not matter to the search. -/
theorem lookup_perm (distinct : Distinct q) (perm : q'.Perm q) : lookup k q' = lookup k q := by
  apply Option.ext
  intro e
  rw [lookup_eq_some distinct, lookup_eq_some (distinct.perm perm), perm.mem_iff]

theorem without_sublist : (without k q).Sublist q := List.filter_sublist

theorem mem_without : e ∈ without k q ↔ e ∈ q ∧ e.key ≠ k := by
  simp [without]

theorem without_of_none (none : lookup k q = none) : without k q = q := by
  rw [without, List.filter_eq_self]
  intro e mem
  simpa using lookup_eq_none.mp none e mem

/-- A handler divides the queue into those before and those behind it. -/
theorem without_split {before behind : List (Entry ω)}
    (distinct : Distinct (before ++ e :: behind)) :
    without e.key (before ++ e :: behind) = before ++ behind := by
  have keys := distinct.keys
  rw [List.map_append, List.map_cons, List.nodup_middle, List.nodup_cons] at keys
  have apart : ∀ x ∈ before ++ behind, x.key ≠ e.key := by
    intro x mem eq
    rw [← List.map_append] at keys
    exact keys.1 (eq ▸ List.mem_map_of_mem mem)
  have rest : (before ++ behind).filter (fun x => x.key ≠ e.key) = before ++ behind := by
    rw [List.filter_eq_self]
    intro x mem
    simpa using apart x mem
  rw [without, List.filter_append, List.filter_cons_of_neg (by simp), ← List.filter_append]
  exact rest

/-- With distinct keys, taking out the first handler with a key takes out all. -/
theorem eraseP_key (keys : (q.map Entry.key).Nodup) :
    (q.eraseP fun e => e.key = k) = without k q := by
  induction q with
  | nil => rfl
  | cons x q ih =>
    obtain ⟨first, rest⟩ := List.nodup_cons.mp keys
    by_cases here : x.key = k
    · have others : lookup k q = none := lookup_eq_none.mpr fun e mem eq =>
        first (by rw [here, ← eq]; exact List.mem_map_of_mem mem)
      rw [List.eraseP_cons_of_pos (by simpa using here), without,
        List.filter_cons_of_neg (by simpa using here)]
      exact (without_of_none others).symm
    · rw [List.eraseP_cons_of_neg (by simpa using here), ih rest, without, without,
        List.filter_cons_of_pos (by simpa using here)]

theorem expired_sublist (l : Limits) (timestamp : Int) (n : Nat) (q : List (Entry ω)) :
    (expired l timestamp n q).Sublist q := by
  induction n generalizing q with
  | zero =>
    cases q <;> exact List.Sublist.refl _
  | succ n ih =>
    cases q with
    | nil => exact List.Sublist.refl _
    | cons e q =>
      rw [expired]
      split
      · exact (ih q).cons e
      · exact List.Sublist.refl _

end Queue

/-! ### The pointers do what the queue does -/

section Refinement

variable {s : Eaplist ω} {q : List (Entry ω)} {k : Key}

/-- The tree finds what a search of the queue does. -/
theorem Eaplist.Holds.find (holds : s.Holds q) (distinct : Distinct q) :
    rbtreeFind k s = lookup k q := lookup_perm distinct holds.tree

/-- `eaplist_delete` takes the handler out of tree and list. -/
theorem eaplistDelete_refines (holds : s.Holds q) (distinct : Distinct q) :
    (eaplistDelete k s).1 = lookup k q ∧ (eaplistDelete k s).2.Holds (without k q) := by
  rw [eaplistDelete, holds.find distinct]
  cases found : lookup k q with
  | none => exact ⟨rfl, by rwa [without_of_none found]⟩
  | some e =>
    refine ⟨rfl, ?_, ?_⟩
    · have keys := (distinct.perm holds.tree).keys
      rw [eraseP_key keys]
      exact holds.tree.filter _
    · obtain ⟨mem, rfl⟩ := (lookup_eq_some distinct).mp found
      obtain ⟨before, behind, rfl⟩ := List.append_of_mem mem
      rw [without_split distinct, List.map_append]
      have spells := holds.list
      rw [List.map_append, List.map_cons] at spells
      exact spells.unlink

/-- The loop takes out old handlers from the front. -/
theorem expireLoop_refines (l : Limits) (timestamp : Int) (n : Nat) (holds : s.Holds q)
    (distinct : Distinct q) : (expireLoop l timestamp n s).Holds (expired l timestamp n q) := by
  induction n generalizing s q with
  | zero =>
    cases q <;> exact holds
  | succ n ih =>
    cases q with
    | nil =>
      have head : s.list.head = none := holds.list.head
      rw [expireLoop, head]
      exact holds
    | cons e q =>
      have head : s.list.head = some e.1 := holds.list.head
      have here : (s.tree.find? fun x => x.1 = e.1) = some e :=
        (find_eq_some (distinct.perm holds.tree).addresses).mpr
          ⟨holds.tree.mem_iff.mpr List.mem_cons_self, rfl⟩
      rw [expireLoop, head]
      dsimp only
      rw [here, expired]
      dsimp only
      split
      · have deleted := (eaplistDelete_refines (k := e.key) holds distinct).2
        have rest : without e.key ([] ++ e :: q) = [] ++ q := without_split distinct
        rw [List.nil_append, List.nil_append] at rest
        rw [rest] at deleted
        exact ih deleted (distinct.sublist (List.sublist_cons_self e q))
      · exact holds

/-- `eaplist_expire` takes out three old handlers at most. -/
theorem eaplistExpire_refines (l : Limits) (timestamp : Int) (holds : s.Holds q)
    (distinct : Distinct q) : (eaplistExpire l timestamp s).Holds (expired l timestamp 3 q) :=
  expireLoop_refines l timestamp 3 holds distinct

/-- `eaplist_find` does on the pointers what it is for. -/
theorem eaplistFind_refines (l : Limits) (timestamp : Int) (id : UInt8)
    (state : Option (List UInt8)) (holds : s.Holds q) (distinct : Distinct q) :
    (eaplistFind l timestamp id state s).1 = (queueFind l timestamp id state q).1 ∧
      (eaplistFind l timestamp id state s).2.Holds (queueFind l timestamp id state q).2 := by
  cases state with
  | none => exact ⟨rfl, holds⟩
  | some state =>
    rw [eaplistFind, queueFind]
    dsimp only
    split
    · next len =>
      obtain ⟨found, left⟩ := eaplistDelete_refines (k := (id, ⟨state, len⟩))
        (eaplistExpire_refines l timestamp holds distinct)
        (distinct.sublist (expired_sublist l timestamp 3 q))
      generalize eaplistDelete (id, ⟨state, len⟩) (eaplistExpire l timestamp s) = out at found left
      obtain ⟨o, s'⟩ := out
      dsimp only at found left
      rw [← found]
      cases o with
      | none => exact ⟨rfl, left⟩
      | some e =>
        dsimp only
        split
        · next many => exact ⟨by simp [Option.filter, many], left⟩
        · next few => exact ⟨by simp [Option.filter, not_le.mp few], left⟩
    · exact ⟨rfl, holds⟩

/-- `eaplist_add` does on the pointers what it is for, if the handler is not on the list. -/
theorem eaplistAdd_refines (l : Limits) (timestamp : Int) (id : UInt8)
    (words : Block UInt8 eapStateLen) {e : Entry ω} (holds : s.Holds q) (distinct : Distinct q)
    (new : e.1 ∉ q.map Prod.fst) :
    (eaplistAdd l timestamp id words e s).1 = (queueAdd l timestamp id words e q).1 ∧
      (eaplistAdd l timestamp id words e s).2.Holds (queueAdd l timestamp id words e q).2 := by
  rw [eaplistAdd, queueAdd, holds.tree.length_eq]
  split
  · exact ⟨rfl, eaplistExpire_refines l timestamp holds distinct⟩
  · dsimp only
    rw [holds.find distinct]
    cases lookup (stamped l timestamp id words e.2).key q with
    | some x => exact ⟨rfl, holds⟩
    | none =>
      refine ⟨rfl, ?_, ?_⟩
      · exact (holds.tree.cons _).trans (List.perm_append_singleton _ _).symm
      · show Linked.Spells (Linked.append e.1 s.list) ((q ++ [(e.1, _)]).map Prod.fst)
        rw [List.map_append]
        exact holds.list.append new

/-- On a list `s` that holds the queue `q`, the operations on the pointers give what those on the
queue give, and leave a list that holds the queue that those leave. -/
structure Eaplist.Refines (l : Limits) (s : Eaplist ω) (q : List (Entry ω)) : Prop where
  delete : ∀ k, (eaplistDelete k s).1 = lookup k q ∧ (eaplistDelete k s).2.Holds (without k q)
  expire : ∀ timestamp, (eaplistExpire l timestamp s).Holds (expired l timestamp 3 q)
  find : ∀ timestamp id state,
    (eaplistFind l timestamp id state s).1 = (queueFind l timestamp id state q).1 ∧
      (eaplistFind l timestamp id state s).2.Holds (queueFind l timestamp id state q).2
  add : ∀ timestamp id words (e : Entry ω), e.1 ∉ q.map Prod.fst →
    (eaplistAdd l timestamp id words e s).1 = (queueAdd l timestamp id words e q).1 ∧
      (eaplistAdd l timestamp id words e s).2.Holds (queueAdd l timestamp id words e q).2

/-- On a tree and a list that hold a queue, all operations are those on the queue. -/
theorem Eaplist.Holds.refines (l : Limits) (holds : s.Holds q) (distinct : Distinct q) :
    s.Refines l q where
  delete _ := eaplistDelete_refines holds distinct
  expire timestamp := eaplistExpire_refines l timestamp holds distinct
  find timestamp id state := eaplistFind_refines l timestamp id state holds distinct
  add timestamp id words _ new := eaplistAdd_refines l timestamp id words holds distinct new

end Refinement

/-! ### Sessions -/

section Sessions

variable {q : List (Entry ω)} {e : Entry ω}

/-- A search adds no handler. -/
theorem queueFind_sublist (l : Limits) (timestamp : Int) (id : UInt8)
    (state : Option (List UInt8)) (q : List (Entry ω)) :
    (queueFind l timestamp id state q).2.Sublist q := by
  cases state with
  | none => exact List.Sublist.refl _
  | some state =>
    rw [queueFind]
    dsimp only
    split
    · exact without_sublist.trans (expired_sublist l timestamp 3 q)
    · exact List.Sublist.refl _

/-- The handler is not too old. -/
def Live (l : Limits) (timestamp : Int) (e : Entry ω) : Prop :=
  timestamp - e.2.timestamp ≤ (l.timerLimit : Int)

/-- A part of the queue that has all handlers that are neither too old nor called for. -/
structure Kept (l : Limits) (timestamp : Int) (called : Entry ω → Prop) (q q' : List (Entry ω)) :
    Prop where
  sub : q'.Sublist q
  live : ∀ e ∈ q, Live l timestamp e → ¬ called e → e ∈ q'

theorem Kept.refl (l : Limits) (timestamp : Int) (called : Entry ω → Prop) (q : List (Entry ω)) :
    Kept l timestamp called q q := ⟨List.Sublist.refl q, fun _ mem _ _ => mem⟩

/-- What is kept may be said more weakly. -/
theorem Kept.imp {l : Limits} {timestamp : Int} {called called' : Entry ω → Prop}
    {q q' : List (Entry ω)} (kept : Kept l timestamp called q q')
    (weaker : ∀ e, called e → called' e) : Kept l timestamp called' q q' :=
  ⟨kept.sub, fun e mem live other => kept.live e mem live fun here => other (weaker e here)⟩

/-- Expiry keeps the handlers that are not too old. -/
theorem expired_kept (l : Limits) (timestamp : Int) (n : Nat) (q : List (Entry ω)) :
    Kept l timestamp (fun _ => False) q (expired l timestamp n q) := by
  refine ⟨expired_sublist l timestamp n q, ?_⟩
  induction n generalizing q with
  | zero =>
    intro e mem live _
    cases q <;> exact mem
  | succ n ih =>
    cases q with
    | nil =>
      intro e mem
      cases mem
    | cons x q =>
      intro e mem live never
      rw [expired]
      split
      · next old =>
        rcases List.mem_cons.mp mem with rfl | mem
        · exact absurd live (not_le.mpr old)
        · exact ih q e mem live never
      · exact mem

/-- `eaplist_find` takes out the handler that it is called for, and old ones. -/
theorem queueFind_kept (l : Limits) (timestamp : Int) (id : UInt8) (state : Option (List UInt8))
    (q : List (Entry ω)) :
    Kept l timestamp (fun e => state = some e.2.state.toList ∧ id = e.2.eapId) q
      (queueFind l timestamp id state q).2 := by
  cases state with
  | none => exact Kept.refl _ _ _ q
  | some state =>
    rw [queueFind]
    dsimp only
    split
    · next len =>
      obtain ⟨sub, live⟩ := expired_kept l timestamp 3 q
      refine ⟨without_sublist.trans sub, ?_⟩
      intro e mem young other
      refine mem_without.mpr ⟨live e mem young not_false, ?_⟩
      intro key
      obtain ⟨same, state⟩ := Prod.mk.inj key
      refine other ⟨?_, same.symm⟩
      rw [state]
      rfl
    · exact Kept.refl _ _ _ q

/-- A handler that is called for, young enough and not at its last round trip is found. -/
theorem queueFind_called {l : Limits} {timestamp : Int} {e : Entry ω} (distinct : Distinct q)
    (mem : e ∈ q) (young : Live l timestamp e) (few : e.2.trips < maxTrips) :
    (queueFind l timestamp e.2.eapId (some e.2.state.toList) q).1 =
      some (e.1, { e.2 with trips := e.2.trips + 1 }) := by
  have len : e.2.state.toList.length = eapStateLen := e.2.state.toList_length
  obtain ⟨sub, live⟩ := expired_kept l timestamp 3 q
  have found : lookup (e.2.eapId, ⟨e.2.state.toList, len⟩) (expired l timestamp 3 q) = some e :=
    (lookup_eq_some (distinct.sublist sub)).mpr ⟨live e mem young not_false, rfl⟩
  rw [queueFind]
  dsimp only
  rw [dif_pos len, found, Option.filter_some_pos (by simpa using few)]
  rfl

/-- What a handler that has been found was before, and that it is not on the list any more. -/
theorem queueFind_eq_some {l : Limits} {timestamp : Int} {id : UInt8}
    {state : Option (List UInt8)} (distinct : Distinct q)
    (found : (queueFind l timestamp id state q).1 = some e) :
    ∃ h : Handler ω, (e.1, h) ∈ q ∧ h.eapId = id ∧ state = some h.state.toList ∧
      h.trips < maxTrips ∧ e.2 = { h with trips := h.trips + 1 } ∧
      e.1 ∉ (queueFind l timestamp id state q).2.map Prod.fst := by
  cases state with
  | none => cases found
  | some state =>
    rw [queueFind] at found ⊢
    dsimp only at found ⊢
    split at found
    · next len =>
      rw [dif_pos len]
      obtain ⟨x, passed, rfl⟩ := Option.map_eq_some_iff.mp found
      obtain ⟨known, few⟩ := Option.filter_eq_some_iff.mp passed
      have sub := expired_sublist l timestamp 3 q
      have left := distinct.sublist sub
      obtain ⟨mem, key⟩ := (lookup_eq_some left).mp known
      obtain ⟨rfl, same⟩ := Prod.mk.inj key
      refine ⟨x.2, sub.mem mem, rfl, ?_, by simpa using few, rfl, ?_⟩
      · rw [same]
        rfl
      · intro still
        obtain ⟨y, mem', address⟩ := List.mem_map.mp still
        obtain ⟨mem', other⟩ := mem_without.mp mem'
        have eq := List.inj_on_of_nodup_map left.addresses mem' mem address
        exact other (eq ▸ key)
    · cases found

/-- A handler is refused, or put at the end behind those that are kept. -/
theorem queueAdd_cases (l : Limits) (timestamp : Int) (id : UInt8)
    (words : Block UInt8 eapStateLen) (e : Entry ω) (q : List (Entry ω)) :
    ((queueAdd l timestamp id words e q).1 = none ∧
        Kept l timestamp (fun _ => False) q (queueAdd l timestamp id words e q).2 ∧
        (l.maxSessions ≤ q.length ∨
          lookup (stamped l timestamp id words e.2).key q ≠ none)) ∨
      (∃ h, h = stamped l timestamp id words e.2 ∧ q.length < l.maxSessions ∧
        lookup h.key q = none ∧
        queueAdd l timestamp id words e q = (some h.state, q ++ [(e.1, h)])) := by
  rw [queueAdd]
  split
  · next full => exact .inl ⟨rfl, expired_kept l timestamp 3 q, .inl full⟩
  · next room =>
    dsimp only
    split
    · next known =>
      refine .inl ⟨rfl, Kept.refl _ _ _ q, .inr ?_⟩
      intro none
      rw [none] at known
      cases known
    · next new => exact .inr ⟨_, rfl, not_le.mp room, by simpa using new, rfl⟩

/-- A handler with a new key keeps the keys distinct. -/
theorem Distinct.add {h : Handler ω} {a : Nat} (distinct : Distinct q)
    (new : a ∉ q.map Prod.fst) (other : lookup h.key q = none) : Distinct (q ++ [(a, h)]) := by
  constructor
  · rw [List.map_append]
    exact List.nodup_append_comm.mp (List.nodup_cons.mpr ⟨new, distinct.addresses⟩)
  · rw [List.map_append]
    refine List.nodup_append_comm.mp (List.nodup_cons.mpr ⟨?_, distinct.keys⟩)
    intro mem
    obtain ⟨x, here, key⟩ := List.mem_map.mp mem
    exact lookup_eq_none.mp other x here key

def Sessions.find (l : Limits) (timestamp : Int) (id : UInt8) (state : Option (List UInt8))
    (s : Sessions ω l.maxSessions) : Option (Entry ω) × Sessions ω l.maxSessions :=
  have sub := queueFind_sublist l timestamp id state s.entries
  ((queueFind l timestamp id state s.entries).1,
    ⟨(queueFind l timestamp id state s.entries).2, s.distinct.sublist sub,
      sub.length_le.trans s.bounded⟩)

/-- Adding keeps the queue within its bound, with distinct keys. -/
theorem queueAdd_sessions (l : Limits) (timestamp : Int) (id : UInt8)
    (words : Block UInt8 eapStateLen) (s : Sessions ω l.maxSessions)
    (new : e.1 ∉ s.entries.map Prod.fst) :
    Distinct (queueAdd l timestamp id words e s.entries).2 ∧
      (queueAdd l timestamp id words e s.entries).2.length ≤ l.maxSessions := by
  rcases queueAdd_cases l timestamp id words e s.entries with
    ⟨-, kept, -⟩ | ⟨h, -, room, other, eq⟩
  · exact ⟨s.distinct.sublist kept.sub, kept.sub.length_le.trans s.bounded⟩
  · rw [eq]
    refine ⟨s.distinct.add new other, ?_⟩
    rw [List.length_append]
    exact room

def Sessions.add (l : Limits) (timestamp : Int) (id : UInt8) (words : Block UInt8 eapStateLen)
    (e : Entry ω) (s : Sessions ω l.maxSessions) (new : e.1 ∉ s.entries.map Prod.fst) :
    Option (Block UInt8 eapStateLen) × Sessions ω l.maxSessions :=
  have kept := queueAdd_sessions l timestamp id words s new
  ((queueAdd l timestamp id words e s.entries).1,
    ⟨(queueAdd l timestamp id words e s.entries).2, kept.1, kept.2⟩)

end Sessions

end EdhocAuth.Radiusd
