/-
What `radius_verify_response` accepts (`src/upf/eap-relay.c`).

The loop over the attributes goes on while two octets are left. One octet behind the last
attribute is never looked at, and both digests cover it: `Verifies` is what the relay checks
of a response whose attributes are followed by `rest`, and a response is accepted if `rest` has at
most one octet (`radiusVerifyResponse_iff`). For the packets of the standard `rest` is empty.
-/

import EdhocAuth.Upf.Radius

namespace EdhocAuth.Upf

open Octets Eap Smf

/-! ### Responses -/

/-- The header that the digests cover: code, identifier and length of the response with the
authenticator of the request. -/
def digestHeader (req resp : List UInt8) : List UInt8 := resp.take 4 ++ field req 4 16

/-- The attributes of a response whose header is `header` and in which `rest` follows them. -/
structure Signed (header secret rest : List UInt8) (as : List Tlv.Attr) : Prop where
  /-- There is at most one Message-Authenticator. -/
  single : (as.filter (·.type = attrMessageAuthenticator)).length ≤ 1
  /-- It has eighteen octets. -/
  sized : ∀ a ∈ as, a.type = attrMessageAuthenticator → a.value.length = 16
  /-- There is one if there is an EAP-Message. -/
  present : (∃ a ∈ as, a.type = attrEapMessage) → ∃ a ∈ as, a.type = attrMessageAuthenticator
  /-- Its value is the HMAC of the packet with zeros in its place. -/
  value : ∀ before a behind, as = before ++ a :: behind → a.type = attrMessageAuthenticator →
    a.value = Hash.hmac 64 md5 secret
      (header ++ Tlv.encodeAll before ++ [attrMessageAuthenticator, 18] ++
      List.replicate 16 0 ++ Tlv.encodeAll behind ++ rest)

/-- A response to the request in which `rest` follows the attributes. -/
structure Verifies (req resp secret rest : List UInt8) : Prop where
  header : 20 ≤ resp.length
  identifier : Octets.octet resp 1 = Octets.octet req 1
  length : 20 ≤ packetLen resp ∧ packetLen resp ≤ 4096 ∧ packetLen resp ≤ resp.length
  attributes :
    ∃ as, packetBody resp = Tlv.encodeAll as ++ rest ∧ Signed (digestHeader req resp) secret rest as
  authenticator : field resp 4 16 = md5 (digestHeader req resp ++ packetBody resp ++ secret)

/-! ### The loop -/

section Loop

variable {as before behind : List Tlv.Attr} {a : Tlv.Attr} {hasEap : Bool} {maOff : Option Nat}
    {pos : Nat}

/-- Without a Message-Authenticator the loop looks for an EAP-Message. -/
theorem foldFrom_verifyStep_none (none : ∀ a ∈ as, a.type ≠ attrMessageAuthenticator) :
    Tlv.foldFrom verifyStep (hasEap, maOff) pos as =
      some (hasEap || as.any fun a => a.type = attrEapMessage, maOff) := by
  induction as generalizing hasEap pos with
  | nil => simp [Tlv.foldFrom]
  | cons a as ih =>
    obtain ⟨here, none⟩ := List.forall_mem_cons.mp none
    rw [Tlv.foldFrom, verifyStep, if_neg here, Option.bind_some, ih none, List.any_cons,
      Bool.or_assoc]

/-- With one of eighteen octets it returns where its value is. -/
theorem foldFrom_verifyStep_one (type : a.type = attrMessageAuthenticator)
    (size : a.value.length = 16) (none : ∀ b ∈ before, b.type ≠ attrMessageAuthenticator)
    (none' : ∀ b ∈ behind, b.type ≠ attrMessageAuthenticator) :
    ∃ hasEap, Tlv.foldFrom verifyStep (false, Option.none) 20 (before ++ a :: behind) =
      some (hasEap, some (20 + (Tlv.encodeAll before).length + 2)) := by
  rw [Tlv.foldFrom_append, foldFrom_verifyStep_none none, Option.bind_some, Tlv.foldFrom,
    verifyStep, if_pos type, if_neg (by omega), if_neg (by simp), Option.bind_some,
    foldFrom_verifyStep_none none']
  exact ⟨_, rfl⟩

/-- Either there is no Message-Authenticator, or one that divides the attributes. -/
theorem single_cases (single : (as.filter (·.type = attrMessageAuthenticator)).length ≤ 1) :
    (∀ a ∈ as, a.type ≠ attrMessageAuthenticator) ∨
      ∃ before a behind, as = before ++ a :: behind ∧ a.type = attrMessageAuthenticator ∧
        (∀ b ∈ before, b.type ≠ attrMessageAuthenticator) ∧
        ∀ b ∈ behind, b.type ≠ attrMessageAuthenticator := by
  by_cases some : ∃ a ∈ as, a.type = attrMessageAuthenticator
  · obtain ⟨a, mem, type⟩ := some
    obtain ⟨before, behind, rfl⟩ := List.append_of_mem mem
    rw [List.filter_append, List.filter_cons_of_pos (by simpa using type), List.length_append,
      List.length_cons] at single
    have first : before.filter (·.type = attrMessageAuthenticator) = [] :=
      List.length_eq_zero_iff.mp (by omega)
    have second : behind.filter (·.type = attrMessageAuthenticator) = [] :=
      List.length_eq_zero_iff.mp (by omega)
    refine .inr ⟨before, a, behind, rfl, type, ?_, ?_⟩
    · simpa using List.filter_eq_nil_iff.mp first
    · simpa using List.filter_eq_nil_iff.mp second
  · exact .inl fun a mem type => some ⟨a, mem, type⟩

end Loop

/-! ### What the digests cover -/

section Digest

variable {req resp secret rest : List UInt8} {before behind : List Tlv.Attr} {a : Tlv.Attr}

/-- What the digest of an answer is computed over. -/
theorem substituted_eq (long : 20 ≤ req.length) (header : 20 ≤ packetLen resp) :
    substituted req resp = digestHeader req resp ++ packetBody resp := by
  have size : (field req 4 16).length = 16 := length_field_of_le (by omega)
  rw [substituted, memcpyAt, size, List.take_take, Nat.min_eq_left (by omega), digestHeader,
    packetBody, List.append_assoc]

theorem length_digestHeader (long : 20 ≤ req.length) (header : 20 ≤ resp.length) :
    (digestHeader req resp).length = 20 := by
  rw [digestHeader, List.length_append, List.length_take_of_le (by omega),
    length_field_of_le (by omega)]

/-- The packet with zeros for the Message-Authenticator. -/
theorem zeroedAt_eq {header : List UInt8} (twenty : header.length = 20)
    (type : a.type = attrMessageAuthenticator) (size : a.value.length = 16) :
    zeroedAt (header ++ (Tlv.encodeAll (before ++ a :: behind) ++ rest))
      (20 + (Tlv.encodeAll before).length + 2) =
      header ++ Tlv.encodeAll before ++ [attrMessageAuthenticator, 18] ++ List.replicate 16 0 ++
        Tlv.encodeAll behind ++ rest := by
  have parts : header ++ (Tlv.encodeAll (before ++ a :: behind) ++ rest) =
      (header ++ Tlv.encodeAll before ++ [attrMessageAuthenticator, 18]) ++
        (a.value ++ (Tlv.encodeAll behind ++ rest)) := by
    simp [Tlv.Attr.encode, type, size]
  have start : (header ++ Tlv.encodeAll before ++ [attrMessageAuthenticator, 18]).length =
      20 + (Tlv.encodeAll before).length + 2 := by
    rw [List.length_append, List.length_append, twenty]
    rfl
  rw [zeroedAt, parts, memcpyAt_append start, List.length_replicate, List.drop_left' size]
  simp only [List.append_assoc]

/-- Where the loop has found a Message-Authenticator, its comparison is the one of the standard. -/
theorem messageAuthenticatorOk_iff {header : List UInt8} (twenty : header.length = 20)
    (type : a.type = attrMessageAuthenticator) (size : a.value.length = 16) :
    messageAuthenticatorOk secret (header ++ (Tlv.encodeAll (before ++ a :: behind) ++ rest))
        (some (20 + (Tlv.encodeAll before).length + 2)) = true ↔
      a.value = Hash.hmac 64 md5 secret
        (header ++ Tlv.encodeAll before ++ [attrMessageAuthenticator, 18] ++
        List.replicate 16 0 ++ Tlv.encodeAll behind ++ rest) := by
  have value : field (header ++ (Tlv.encodeAll (before ++ a :: behind) ++ rest))
      (20 + (Tlv.encodeAll before).length + 2) 16 = a.value := by
    refine field_eq (header ++ Tlv.encodeAll before ++
      [a.type, UInt8.ofNat (2 + a.value.length)]) a.value
      (Tlv.encodeAll behind ++ rest) ?_ ?_ size
    · simp [Tlv.Attr.encode]
    · rw [List.length_append, List.length_append, twenty]
      rfl
  rw [messageAuthenticatorOk, decide_eq_true_iff, value, hmacMd5_eq, zeroedAt_eq twenty type size]

end Digest

/-! ### Exactly what is accepted -/

section Exact

variable {req resp secret rest : List UInt8} {as : List Tlv.Attr}

/-- What the loop and the comparison behind it accept of the attributes. -/
theorem signed_iff {header : List UInt8} (twenty : header.length = 20) :
    (∃ hasEap maOff, Tlv.foldFrom verifyStep (false, none) 20 as = some (hasEap, maOff) ∧
        ¬ (hasEap = true ∧ maOff = none) ∧
        messageAuthenticatorOk secret (header ++ (Tlv.encodeAll as ++ rest)) maOff = true) ↔
      Signed header secret rest as := by
  constructor
  · rintro ⟨hasEap, maOff, folded, found, ok⟩
    have eap := foldFrom_verifyStep_eap folded
    simp only [Bool.false_eq_true, false_or] at eap
    rcases foldFrom_verifyStep folded with
      ⟨rfl, none⟩ | ⟨before, a, behind, rfl, type, size, rfl, before', behind'⟩
    · have noEap : ¬ ∃ a ∈ as, a.type = attrEapMessage := fun some => found ⟨eap.mpr some, rfl⟩
      exact {
        single := by rw [filter_eq_nil_of_forall none]; decide
        sized := fun a mem type => absurd type (none a mem)
        present := fun some => absurd some noEap
        value := fun before a behind split type => absurd type (none a (by simp [split])) }
    · have one := filter_eq_singleton type before' behind'
      have only {b : Tlv.Attr} (mem : b ∈ before ++ a :: behind)
          (same : b.type = attrMessageAuthenticator) :
          b = a := by
        have kept : b ∈ (before ++ a :: behind).filter (·.type = attrMessageAuthenticator) :=
          List.mem_filter.mpr ⟨mem, by simpa using same⟩
        rw [one] at kept
        exact List.mem_singleton.mp kept
      exact {
        single := by rw [one]; exact Nat.le_refl 1
        sized := fun b mem same => by rw [only mem same]; exact size
        present := fun _ => ⟨a, by simp, type⟩
        value := by
          intro before₂ a₂ behind₂ split type₂
          obtain ⟨rfl, rfl⟩ := eq_of_unique_type split type₂ before' behind'
          obtain rfl : behind = behind₂ := (List.cons.inj (List.append_cancel_left split)).2
          exact (messageAuthenticatorOk_iff twenty type size).mp ok }
  · intro signed
    rcases single_cases signed.single with none | ⟨before, a, behind, rfl, type, before', behind'⟩
    · refine ⟨_, _, foldFrom_verifyStep_none none, ?_, rfl⟩
      rintro ⟨some, -⟩
      have eap : ∃ a ∈ as, a.type = attrEapMessage := by simpa using some
      obtain ⟨a, mem, type⟩ := signed.present eap
      exact none a mem type
    · have size := signed.sized a (by simp) type
      obtain ⟨hasEap, folded⟩ := foldFrom_verifyStep_one type size before' behind'
      exact ⟨hasEap, _, folded, by simp,
        (messageAuthenticatorOk_iff twenty type size).mpr (signed.value before a behind rfl type)⟩

/-- The relay accepts what verifies with at most one octet behind the attributes. -/
theorem radiusVerifyResponse_iff (long : 20 ≤ req.length) :
    radiusVerifyResponse req resp secret = true ↔
      ∃ rest, rest.length ≤ 1 ∧ Verifies req resp secret rest := by
  rw [radiusVerifyResponse_eq_true]
  constructor
  · rintro ⟨-, ident, header, inside, max, ⟨as, hasEap, maOff, is, folded, found, ok⟩, authentic⟩
    obtain ⟨rest, split, short⟩ := Tlv.attributes_eq_some_iff.mp is
    rw [substituted_eq long header] at ok authentic
    rw [split] at ok
    have twenty := length_digestHeader long (header.trans inside)
    exact ⟨rest, short, header.trans inside, ident, ⟨header, max, inside⟩,
      ⟨as, split, (signed_iff twenty).mp ⟨hasEap, maOff, folded, found, ok⟩⟩, authentic.symm⟩
  · rintro ⟨rest, short, verifies⟩
    obtain ⟨size, ident, ⟨header, max, inside⟩, ⟨as, split, signed⟩, authentic⟩ := verifies
    obtain ⟨hasEap, maOff, folded, found, ok⟩ :=
      (signed_iff (length_digestHeader long size)).mpr signed
    rw [← split, ← substituted_eq long header] at ok
    rw [← substituted_eq long header] at authentic
    exact ⟨long, ident, header, inside, max,
      ⟨as, hasEap, maOff, Tlv.attributes_eq_some_iff.mpr ⟨rest, split, short⟩, folded, found, ok⟩,
      authentic.symm⟩

/-- A response has one octet behind its attributes, or none. -/
theorem Verifies.unique {rest' : List UInt8} (verifies : Verifies req resp secret rest)
    (verifies' : Verifies req resp secret rest') (short : rest.length ≤ 1)
    (short' : rest'.length ≤ 1) :
    rest = rest' := by
  obtain ⟨as, split, -⟩ := verifies.attributes
  obtain ⟨as', split', -⟩ := verifies'.attributes
  have is := Tlv.attributes_eq_some_iff.mpr ⟨rest, split, short⟩
  have is' := Tlv.attributes_eq_some_iff.mpr ⟨rest', split', short'⟩
  obtain rfl : as = as' := Option.some.inj (is.symm.trans is')
  exact List.append_cancel_left (split.symm.trans split')

end Exact

/-- The relay accepts a response exactly if it verifies with nothing behind its attributes, unless
it verifies with a single octet behind them. -/
theorem radiusVerifyResponse_exact_iff (req resp secret : List UInt8) (long : 20 ≤ req.length) :
    (radiusVerifyResponse req resp secret = true ↔ Verifies req resp secret []) ↔
      ¬ ∃ last, Verifies req resp secret [last] := by
  rw [radiusVerifyResponse_iff long]
  constructor
  · rintro exactly ⟨last, verifies⟩
    have whole := exactly.mp ⟨[last], Nat.le_refl 1, verifies⟩
    have same := verifies.unique whole (Nat.le_refl 1) (Nat.zero_le 1)
    cases same
  · intro none
    constructor
    · rintro ⟨rest, short, verifies⟩
      match rest, short with
      | [], _ => exact verifies
      | [last], _ => exact absurd ⟨last, verifies⟩ none
    · intro whole
      exact ⟨[], Nat.zero_le 1, whole⟩

/-- An Access-Accept whose length covers one octet behind the header. -/
def leftoverAccept : List UInt8 :=
  [2, 1, 0, 21, 4, 222, 102, 122, 20, 136, 86, 255, 48, 225, 102, 112, 29, 128, 242, 160, 0xFF]

/-- It is accepted, although no attributes tile its body. -/
theorem leftoverAccept_accepted :
    20 ≤ someRequest.length ∧
    radiusVerifyResponse someRequest leftoverAccept someParams.secret = true ∧
      ¬ Verifies someRequest leftoverAccept someParams.secret [] := by
  refine ⟨by decide, by decide +kernel, ?_⟩
  intro verifies
  obtain ⟨as, split, -⟩ := verifies.attributes
  have is := Tlv.attributes_eq_some_iff.mpr ⟨[], split, Nat.zero_le 1⟩
  have none : Tlv.attributes (packetBody leftoverAccept) = some [] := by decide
  rw [none, Option.some.injEq] at is
  subst is
  cases split

/-- A response without a leftover octet is judged exactly. -/
theorem someChallenge_exact :
    20 ≤ someRequest.length ∧
      (radiusVerifyResponse someRequest someChallenge someParams.secret = true ↔
        Verifies someRequest someChallenge someParams.secret []) := by
  have long : 20 ≤ someRequest.length := by decide
  refine ⟨long,
    (radiusVerifyResponse_exact_iff someRequest someChallenge someParams.secret long).mpr ?_⟩
  rintro ⟨last, verifies⟩
  obtain ⟨as, split, -⟩ := verifies.attributes
  have is := Tlv.attributes_eq_some_iff.mpr ⟨[last], split, Nat.le_refl 1⟩
  have whole :
      (Tlv.attributes (packetBody someChallenge)).map (fun as => (Tlv.encodeAll as).length) =
      some (packetBody someChallenge).length := by decide
  rw [is, Option.map_some, Option.some.injEq, split, List.length_append] at whole
  simp at whole

end EdhocAuth.Upf
