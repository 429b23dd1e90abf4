/-
What an attacker can compute, and a bound on it.

`Knows` closes the octets an attacker has seen under every library call, with
bytes and randomness of its own; signatures do not hide what they sign. `Safe` is
the bound: a set of octets, fixed by a ledger of what the honest parties put out,
that is closed under the same calls (`Computes.safe`), so whatever is known is safe
(`Knows.safe`). Secrecy is then shown by inversion: an octet outside `Safe` is not
known.

* A ledger lists the origins that are open, the MACs, the encryptions and the
  signatures made by honest parties; it only ever grows (`Safe.mono`).
* A scalar multiple is safe as long as at most one of its scalars is not: its
  holder may publish it, but nobody without a second scalar gets further.
* An ML-KEM secret is safe to whoever knows the encapsulation coins or the coins
  of the key pair.
-/

import EdhocAuth.Crypto.Symbolic

namespace EdhocAuth.Symbolic

/-! ### Computing -/

/-- One library call: the octets it reads and an octet of its result. -/
inductive Computes : List Sym → Sym → Prop
  | sha256 {m : List Sym} {y : Sym} : y ∈ (primitives.sha256 m).toList → Computes m y
  | hmac {k : Block Sym 32} {m : List Sym} {y : Sym} :
      y ∈ (primitives.hmac k m).toList → Computes (k.toList ++ m) y
  | aeadEncrypt {k : Block Sym 32} {n : Block Sym 12} {ad pt ct : List Sym} {y : Sym} :
      primitives.aeadEncrypt k n ad pt = some ct → y ∈ ct →
      Computes (k.toList ++ (n.toList ++ (ad ++ pt))) y
  | aeadDecrypt {k : Block Sym 32} {n : Block Sym 12} {ad pt ct : List Sym} {y : Sym} :
      primitives.aeadDecrypt k n ad ct = some pt → y ∈ pt →
      Computes (k.toList ++ (n.toList ++ (ad ++ ct))) y
  | scalarmultBase {s : Block Sym 32} {y : Sym} :
      y ∈ (primitives.scalarmultBase s).toList → Computes s.toList y
  | scalarmult {s p q : Block Sym 32} {y : Sym} :
      primitives.scalarmult s p = some q → y ∈ q.toList → Computes (s.toList ++ p.toList) y
  | mlkemKeypair {d : Block Sym 64} {pk : Block Sym 1184} {sk : Block Sym 2400} {y : Sym} :
      primitives.mlkemKeypair d = some (pk, sk) → y ∈ pk.toList ++ sk.toList →
      Computes d.toList y
  | mlkemEnc {pk : Block Sym 1184} {m : Block Sym 32} {ct : Block Sym 1088} {ss : Block Sym 32}
      {y : Sym} :
      primitives.mlkemEnc pk m = some (ct, ss) → y ∈ ct.toList ++ ss.toList →
      Computes (pk.toList ++ m.toList) y
  | mlkemDec {ct : Block Sym 1088} {sk : Block Sym 2400} {ss : Block Sym 32} {y : Sym} :
      primitives.mlkemDec ct sk = some ss → y ∈ ss.toList → Computes (ct.toList ++ sk.toList) y
  | mldsaKeypair {seed : Block Sym 32} {vk : Block Sym 1312} {sk : Block Sym 2560} {y : Sym} :
      primitives.mldsaKeypair seed = some (vk, sk) → y ∈ vk.toList ++ sk.toList →
      Computes seed.toList y
  | mldsaSign {msg : List Sym} {sk : Block Sym 2560} {rnd : Block Sym 32} {sig : Block Sym 2420}
      {len : Nat} {y : Sym} :
      primitives.mldsaSign msg sk rnd = some (sig, len) → y ∈ sig.toList →
      Computes (msg ++ (sk.toList ++ rnd.toList)) y
  | edKeypair {seed : Block Sym 32} {y : Sym} :
      y ∈ (primitives.edKeypair seed).1.toList ++ (primitives.edKeypair seed).2.toList →
      Computes seed.toList y
  | edSign {msg : List Sym} {sk sig : Block Sym 64} {y : Sym} :
      primitives.edSign msg sk = some sig → y ∈ sig.toList → Computes (msg ++ sk.toList) y
  | recover {scheme : Scheme} {len : Nat} {seed rnd msg : List Sym} {y : Sym} :
      0 < len → y ∈ msg → Computes (out len (.sig scheme seed rnd msg)).toList y

/-- What an attacker that has seen `seen` can compute. -/
inductive Knows (seen : Sym → Prop) : Sym → Prop
  | seen {x : Sym} : seen x → Knows seen x
  | lit (b : UInt8) : Knows seen (.lit b)
  | coin (n i : Nat) : Knows seen (.rnd (.attacker n) i)
  | compute {inputs : List Sym} {y : Sym} :
      Computes inputs y → (∀ x ∈ inputs, Knows seen x) → Knows seen y

/-! ### The bound -/

/-- What the honest parties have put out: opened randomness, MACs `(key, message)`,
encryptions `(key, nonce, associated data, plaintext)` and signatures
`(scheme, seed, message)`. -/
structure Ledger where
  opened : Origin → Prop
  maced : List Sym → List Sym → Prop
  encrypted : List Sym → List Sym → List Sym → List Sym → Prop
  signed : Scheme → List Sym → List Sym → Prop

/-- The order of ledgers: everything in the first is in the second. -/
structure Ledger.Sub (L L' : Ledger) : Prop where
  opened {o : Origin} : L.opened o → L'.opened o
  maced {k m : List Sym} : L.maced k m → L'.maced k m
  encrypted {k n ad pt : List Sym} : L.encrypted k n ad pt → L'.encrypted k n ad pt
  signed {scheme : Scheme} {seed m : List Sym} : L.signed scheme seed m → L'.signed scheme seed m

inductive Safe (L : Ledger) : Sym → Prop
  | lit (b : UInt8) : Safe L (.lit b)
  | rnd {o : Origin} {i : Nat} : L.opened o → Safe L (.rnd o i)
  | hash {m : List Sym} {i : Nat} : (∀ x ∈ m, Safe L x) → Safe L (.hash m i)
  | hmac {k m : List Sym} {i : Nat} :
      (∀ x ∈ k, Safe L x) → (∀ x ∈ m, Safe L x) → Safe L (.hmac k m i)
  | maced {k m : List Sym} {i : Nat} : L.maced k m → Safe L (.hmac k m i)
  | aead {k n ad pt : List Sym} {i : Nat} :
      (∀ x ∈ k, Safe L x) → (∀ x ∈ pt, Safe L x) → Safe L (.aead k n ad pt i)
  | encrypted {k n ad pt : List Sym} {i : Nat} :
      L.encrypted k n ad pt → (∀ x ∈ pt, Safe L x) → Safe L (.aead k n ad pt i)
  | point {base s : List Sym} {scalars rest : List (List Sym)} {i : Nat} :
      scalars.Perm (s :: rest) → (∀ x ∈ base, Safe L x) → (∀ s ∈ rest, ∀ x ∈ s, Safe L x) →
      Safe L (.point base scalars i)
  | kemPk {coins : List Sym} {i : Nat} : Safe L (.kemPk coins i)
  | kemSk {coins : List Sym} {i : Nat} : (∀ x ∈ coins, Safe L x) → Safe L (.kemSk coins i)
  | kemCt {pk coins : List Sym} {i : Nat} : (∀ x ∈ pk, Safe L x) → Safe L (.kemCt pk coins i)
  | kemSs {pk coins : List Sym} {i : Nat} :
      (∀ x ∈ pk, Safe L x) → (∀ x ∈ coins, Safe L x) → Safe L (.kemSs pk coins i)
  | kemSsOfKey {coins m : List Sym} {i : Nat} :
      (∀ x ∈ coins, Safe L x) → Safe L (.kemSs (out 1184 (.kemPk coins)).toList m i)
  | kemReject {sk ct : List Sym} {i : Nat} :
      (∀ x ∈ sk, Safe L x) → (∀ x ∈ ct, Safe L x) → Safe L (.kemReject sk ct i)
  | sigVk {scheme : Scheme} {seed : List Sym} {i : Nat} : Safe L (.sigVk scheme seed i)
  | sigSk {scheme : Scheme} {seed : List Sym} {i : Nat} :
      (∀ x ∈ seed, Safe L x) → Safe L (.sigSk scheme seed i)
  | sig {scheme : Scheme} {seed rnd m : List Sym} {i : Nat} :
      (∀ x ∈ seed, Safe L x) → (∀ x ∈ m, Safe L x) → Safe L (.sig scheme seed rnd m i)
  | signed {scheme : Scheme} {seed rnd m : List Sym} {i : Nat} :
      L.signed scheme seed m → (∀ x ∈ m, Safe L x) → Safe L (.sig scheme seed rnd m i)

/-- All octets of a string are safe. -/
def SafeAll (L : Ledger) (l : List Sym) : Prop := ∀ x ∈ l, Safe L x

variable {L L' : Ledger}

/-- With more put out, no less is safe. -/
theorem Safe.mono (sub : L.Sub L') {x : Sym} (h : Safe L x) : Safe L' x := by
  induction h with
  | lit b => exact .lit b
  | rnd h => exact .rnd (sub.opened h)
  | hash _ m => exact .hash m
  | hmac _ _ k m => exact .hmac k m
  | maced h => exact .maced (sub.maced h)
  | aead _ _ k pt => exact .aead k pt
  | encrypted h _ pt => exact .encrypted (sub.encrypted h) pt
  | point perm _ _ base rest => exact .point perm base rest
  | kemPk => exact .kemPk
  | kemSk _ coins => exact .kemSk coins
  | kemCt _ pk => exact .kemCt pk
  | kemSs _ _ pk coins => exact .kemSs pk coins
  | kemSsOfKey _ coins => exact .kemSsOfKey coins
  | kemReject _ _ sk ct => exact .kemReject sk ct
  | sigVk => exact .sigVk
  | sigSk _ seed => exact .sigSk seed
  | sig _ _ seed m => exact .sig seed m
  | signed h _ m => exact .signed (sub.signed h) m

@[simp] theorem safeAll_append {l l' : List Sym} :
    SafeAll L (l ++ l') ↔ SafeAll L l ∧ SafeAll L l' := by
  simp [SafeAll, or_imp, forall_and]

@[simp] theorem safeAll_cons {x : Sym} {l : List Sym} :
    SafeAll L (x :: l) ↔ Safe L x ∧ SafeAll L l := by
  simp [SafeAll]

@[simp] theorem safeAll_nil : SafeAll L [] := by
  simp [SafeAll]

/-- An output is safe if its octets are. -/
theorem safeAll_out {n : Nat} {f : Nat → Sym} (h : ∀ i, Safe L (f i)) :
    SafeAll L (out n f).toList := by
  intro x mem
  obtain ⟨i, -, rfl⟩ := mem_out.mp mem
  exact h i

/-- The first octet of a safe output. -/
theorem SafeAll.out_zero {n : Nat} {f : Nat → Sym} (pos : 0 < n)
    (h : SafeAll L (out n f).toList) : Safe L (f 0) :=
  h _ (mem_out.mpr ⟨0, pos, rfl⟩)

theorem SafeAll.take {l : List Sym} (n : Nat) (h : SafeAll L l) : SafeAll L (l.take n) :=
  fun x mem => h x (List.mem_of_mem_take mem)

/-! ### Inversion -/

theorem safe_hash {m : List Sym} {i : Nat} : Safe L (.hash m i) ↔ SafeAll L m := by
  constructor
  · intro h
    cases h with
    | hash m => exact m
  · exact .hash

/-- An HMAC is known from key and message, or because it was put out. -/
theorem safe_hmac {k m : List Sym} {i : Nat} :
    Safe L (.hmac k m i) ↔ (SafeAll L k ∧ SafeAll L m) ∨ L.maced k m := by
  constructor
  · intro h
    cases h with
    | hmac k m => exact .inl ⟨k, m⟩
    | maced h => exact .inr h
  · rintro (⟨k, m⟩ | h)
    · exact .hmac k m
    · exact .maced h

/-- A ciphertext is known from key and plaintext, or because it was put out. -/
theorem safe_aead {k n ad pt : List Sym} {i : Nat} :
    Safe L (.aead k n ad pt i) ↔ (SafeAll L k ∨ L.encrypted k n ad pt) ∧ SafeAll L pt := by
  constructor
  · intro h
    cases h with
    | aead k pt => exact ⟨.inl k, pt⟩
    | encrypted h pt => exact ⟨.inr h, pt⟩
  · rintro ⟨k | h, pt⟩
    · exact .aead k pt
    · exact .encrypted h pt

/-- A signature is known from seed and message, or because it was put out. -/
theorem safe_sig {scheme : Scheme} {seed rnd m : List Sym} {i : Nat} :
    Safe L (.sig scheme seed rnd m i) ↔
      (SafeAll L seed ∨ L.signed scheme seed m) ∧ SafeAll L m := by
  constructor
  · intro h
    cases h with
    | sig seed m => exact ⟨.inl seed, m⟩
    | signed h m => exact ⟨.inr h, m⟩
  · rintro ⟨seed | h, m⟩
    · exact .sig seed m
    · exact .signed h m

/-- A point is known if all scalars but one are. -/
theorem safe_point {base : List Sym} {scalars : Multiset (List Sym)} {i : Nat} :
    Safe L (.point base scalars.toList i) ↔
      SafeAll L base ∧ ∃ s rest, scalars = s ::ₘ rest ∧ ∀ t ∈ rest, SafeAll L t := by
  constructor
  · intro h
    cases h with
    | @point _ s _ rest _ perm base rest' =>
      refine ⟨base, s, rest, ?_, rest'⟩
      rw [← Multiset.coe_toList scalars]
      exact Multiset.coe_eq_coe.mpr perm
  · rintro ⟨base, s, rest, rfl, rest'⟩
    have perm : (s ::ₘ rest).toList.Perm (s :: rest.toList) := by
      refine Multiset.coe_eq_coe.mp ?_
      rw [Multiset.coe_toList, ← Multiset.cons_coe, Multiset.coe_toList]
    exact .point perm base fun t mem => rest' t (Multiset.mem_toList.mp mem)

theorem safeAll_point {base : List Sym} {scalars : Multiset (List Sym)} :
    SafeAll L (point base scalars).toList ↔
      SafeAll L base ∧ ∃ s rest, scalars = s ::ₘ rest ∧ ∀ t ∈ rest, SafeAll L t := by
  constructor
  · intro h
    exact safe_point.mp (SafeAll.out_zero (by decide) h)
  · intro h
    exact safeAll_out fun i => safe_point.mpr h

theorem safeAll_basePoint : SafeAll L basePoint := by
  intro x mem
  rcases List.mem_cons.mp mem with rfl | mem
  · exact .lit _
  · rw [List.eq_of_mem_replicate mem]
    exact .lit _

/-- A public key is safe whoever holds its scalar. -/
theorem safeAll_scalarmultBase (s : Block Sym 32) :
    SafeAll L (primitives.scalarmultBase s).toList :=
  safeAll_point.mpr ⟨safeAll_basePoint, s.toList, 0, rfl, by simp⟩

/-- Two scalars that are not safe make a Diffie–Hellman secret that is not. -/
theorem not_safe_point {base s t : List Sym} {i : Nat} (hs : ¬ SafeAll L s) (ht : ¬ SafeAll L t) :
    ¬ Safe L (.point base (s ::ₘ {t} : Multiset (List Sym)).toList i) := by
  intro h
  obtain ⟨-, u, rest, split, rest'⟩ := safe_point.mp h
  have card := congrArg Multiset.card split
  rw [Multiset.card_cons, Multiset.card_singleton, Multiset.card_cons] at card
  obtain ⟨v, rfl⟩ := Multiset.card_eq_one.mp (show Multiset.card rest = 1 by omega)
  have v_mem : v ∈ (s ::ₘ {t} : Multiset (List Sym)) := by
    rw [split]
    simp
  rcases Multiset.mem_cons.mp v_mem with rfl | v_mem
  · exact hs (rest' _ (Multiset.mem_singleton_self _))
  · rw [Multiset.mem_singleton.mp v_mem] at rest'
    exact ht (rest' _ (Multiset.mem_singleton_self _))

theorem safe_kemSk {coins : List Sym} {i : Nat} : Safe L (.kemSk coins i) ↔ SafeAll L coins := by
  constructor
  · intro h
    cases h with
    | kemSk coins => exact coins
  · exact .kemSk

theorem safe_sigSk {scheme : Scheme} {seed : List Sym} {i : Nat} :
    Safe L (.sigSk scheme seed i) ↔ SafeAll L seed := by
  constructor
  · intro h
    cases h with
    | sigSk seed => exact seed
  · exact .sigSk

theorem safe_rnd {o : Origin} {i : Nat} : Safe L (.rnd o i) ↔ L.opened o := by
  constructor
  · intro h
    cases h with
    | rnd h => exact h
  · exact .rnd

/-! ### The bound is closed under the library calls -/

/-- Multiplying what is known gives nothing new away. -/
theorem safeAll_mulPoint {s p : Block Sym 32} (hs : SafeAll L s.toList) (hp : SafeAll L p.toList) :
    SafeAll L (mulPoint s p).toList := by
  by_cases h : ∃ q : List Sym × Multiset (List Sym), p = point q.1 q.2
  · obtain ⟨⟨base, scalars⟩, rfl⟩ := h
    obtain ⟨base', t, rest, rfl, rest'⟩ := safeAll_point.mp hp
    rw [mulPoint_point]
    refine safeAll_point.mpr ⟨base', t, s.toList ::ₘ rest, Multiset.cons_swap _ _ _, ?_⟩
    intro u mem
    rcases Multiset.mem_cons.mp mem with rfl | mem
    · exact hs
    · exact rest' u mem
  · rw [mulPoint, dif_neg h]
    exact safeAll_point.mpr ⟨hp, s.toList, 0, rfl, by simp⟩

/-- Decapsulating what is known gives nothing new away. -/
theorem safeAll_kemDec {ct : Block Sym 1088} {sk : Block Sym 2400} (hct : SafeAll L ct.toList)
    (hsk : SafeAll L sk.toList) : SafeAll L (kemDec ct sk).toList := by
  by_cases h : ∃ q : List Sym × List Sym, sk = out 2400 (.kemSk q.1) ∧
      ct = out 1088 (.kemCt (out 1184 (.kemPk q.1)).toList q.2)
  · obtain ⟨⟨coins, m⟩, rfl, rfl⟩ := h
    rw [kemDec_kemCt]
    exact safeAll_out fun i => .kemSsOfKey (safe_kemSk.mp (hsk.out_zero (by decide)))
  · rw [kemDec, dif_neg h]
    exact safeAll_out fun i => .kemReject hsk hct

/-- Signing with a known key gives nothing new away. -/
theorem safeAll_signWith {scheme : Scheme} {len skLen : Nat} {msg rnd : List Sym}
    {sk : Block Sym skLen} {sig : Block Sym len} (pos : 0 < skLen) (hmsg : SafeAll L msg)
    (hsk : SafeAll L sk.toList) (signed : signWith scheme len msg sk rnd = some sig) :
    SafeAll L sig.toList := by
  by_cases h : ∃ seed, sk = out skLen (.sigSk scheme seed)
  · obtain ⟨seed, rfl⟩ := h
    rw [signWith_sigSk _ _ pos] at signed
    obtain rfl := Option.some.inj signed
    exact safeAll_out fun i => .sig (safe_sigSk.mp (hsk.out_zero pos)) hmsg
  · rw [signWith, dif_neg h] at signed
    cases signed

theorem safeAll_sealed {k n ad pt : List Sym} :
    SafeAll L (sealed k n ad pt) ↔ (SafeAll L k ∨ L.encrypted k n ad pt) ∧ SafeAll L pt := by
  constructor
  · intro h
    exact safe_aead.mp (SafeAll.out_zero (by omega) h)
  · intro h
    exact safeAll_out fun i => safe_aead.mpr h

/-- A library call on what is safe gives what is safe. -/
theorem Computes.safe {inputs : List Sym} {y : Sym} (h : Computes inputs y)
    (hin : SafeAll L inputs) : Safe L y := by
  cases h with
  | sha256 mem => exact safeAll_out (fun i => .hash hin) y mem
  | hmac mem =>
    obtain ⟨k, m⟩ := safeAll_append.mp hin
    exact safeAll_out (fun i => .hmac k m) y mem
  | aeadEncrypt enc mem =>
    simp only [safeAll_append] at hin
    obtain rfl := Option.some.inj enc
    exact safeAll_sealed.mpr ⟨.inl hin.1, hin.2.2.2⟩ y mem
  | aeadDecrypt dec mem =>
    simp only [safeAll_append] at hin
    have ct := hin.2.2.2
    rw [aeadDec_eq_some.mp dec] at ct
    exact (safeAll_sealed.mp ct).2 y mem
  | scalarmultBase mem => exact safeAll_scalarmultBase _ y mem
  | scalarmult mul mem =>
    obtain ⟨s, p⟩ := safeAll_append.mp hin
    obtain rfl := Option.some.inj mul
    exact safeAll_mulPoint s p y mem
  | mlkemKeypair pair mem =>
    obtain ⟨rfl, rfl⟩ := Prod.mk.inj (Option.some.inj pair)
    rcases List.mem_append.mp mem with mem | mem
    · exact safeAll_out (fun i => .kemPk) y mem
    · exact safeAll_out (fun i => .kemSk hin) y mem
  | mlkemEnc enc mem =>
    obtain ⟨pk, m⟩ := safeAll_append.mp hin
    obtain ⟨rfl, rfl⟩ := Prod.mk.inj (Option.some.inj enc)
    rcases List.mem_append.mp mem with mem | mem
    · exact safeAll_out (fun i => .kemCt pk) y mem
    · exact safeAll_out (fun i => .kemSs pk m) y mem
  | mlkemDec dec mem =>
    obtain ⟨ct, sk⟩ := safeAll_append.mp hin
    obtain rfl := Option.some.inj dec
    exact safeAll_kemDec ct sk y mem
  | mldsaKeypair pair mem =>
    obtain ⟨rfl, rfl⟩ := Prod.mk.inj (Option.some.inj pair)
    rcases List.mem_append.mp mem with mem | mem
    · exact safeAll_out (fun i => .sigVk) y mem
    · exact safeAll_out (fun i => .sigSk hin) y mem
  | mldsaSign signed mem =>
    simp only [safeAll_append] at hin
    obtain ⟨sig, made, same⟩ := Option.map_eq_some_iff.mp signed
    obtain ⟨rfl, -⟩ := Prod.mk.inj same
    exact safeAll_signWith (by decide) hin.1 hin.2.1 made y mem
  | edKeypair mem =>
    rcases List.mem_append.mp mem with mem | mem
    · exact safeAll_out (fun i => .sigVk) y mem
    · exact safeAll_out (fun i => .sigSk hin) y mem
  | edSign signed mem =>
    obtain ⟨msg, sk⟩ := safeAll_append.mp hin
    exact safeAll_signWith (by decide) msg sk signed y mem
  | recover pos mem => exact (safe_sig.mp (SafeAll.out_zero pos hin)).2 y mem

/-- Whatever is known is safe, if what was seen is. -/
theorem Knows.safe {seen : Sym → Prop} (own : ∀ n, L.opened (.attacker n))
    (hseen : ∀ x, seen x → Safe L x) {x : Sym} (h : Knows seen x) : Safe L x := by
  induction h with
  | seen h => exact hseen _ h
  | lit b => exact .lit b
  | coin n i => exact .rnd (own n)
  | compute calls _ ih => exact calls.safe ih

end EdhocAuth.Symbolic
