/-
Reads of `DecodeEapPdu` behind the end of its view.

Only the values of attributes and the data of the other types are checked against the end of the
view. The header, the subtype and the headers of the attributes are read octet by octet as the
packet's own fields ask for them. `Headed` is what a view has to hold for these reads,
and `decode_stays_inside_iff` that it is all that is needed.
-/

import EdhocAuth.Aka.Decode

namespace EdhocAuth.Aka

open Octets Eap Proc

/-! ### Single reads -/

section Reads

variable {α : Type} {view : List UInt8}

/-- The reader reads behind the end of the view. -/
abbrev RunsOver (x : Reader α) (view : List UInt8) : Prop := FailsWith .outside x view

theorem readI_cons (b : UInt8) (view : List UInt8) : readI (b :: view) = (.ok b, view) := rfl

/-- Reading an empty view runs over its end. -/
theorem runsOver_readI_nil {f : UInt8 → Reader α} : RunsOver (readI >>= f) [] := rfl

theorem runsOver_readI_cons {f : UInt8 → Reader α} {b : UInt8} :
    RunsOver (readI >>= f) (b :: view) ↔ RunsOver (f b) view :=
  failsWith_bind_ok (readI_cons b view)

/-- A check reads nothing. -/
theorem runsOver_require {c : Prop} [Decidable c] {f : Unit → Reader α} :
    RunsOver (require c .refused >>= f) view ↔ c ∧ RunsOver (f ()) view :=
  failsWith_require_bind (by decide)

/-- Two octets behind the end, or what follows them. -/
theorem runsOver_read2I {f : Nat → Reader α} :
    RunsOver (read2I >>= f) view ↔
      view.length < 2 ∨
        RunsOver (f ((Octets.octet view 0).toNat * 256 + (Octets.octet view 1).toNat))
          (view.drop 2) := by
  match view with
  | [] => exact ⟨fun _ => .inl (by decide), fun _ => rfl⟩
  | [_] => exact ⟨fun _ => .inl (Nat.lt_succ_self 1), fun _ => rfl⟩
  | hi :: lo :: view =>
    have read : read2I (hi :: lo :: view) = (.ok (hi.toNat * 256 + lo.toNat), view) := rfl
    rw [RunsOver, failsWith_bind_ok read]
    constructor
    · exact .inr
    · rintro (short | past)
      · exact absurd short (by simp)
      · exact past

/-- A string that is too long throws, and is not read. -/
theorem not_runsOver_readOctetString (length : Int) :
    ¬ RunsOver (readOctetString length) view := by
  unfold readOctetString
  split
  · exact not_failsWith_pure _
  · rw [RunsOver, failsWith_bind]
    rintro (past | ⟨_, _, -, past⟩)
    · cases past
    · obtain ⟨-, past⟩ := (failsWith_require_bind (by decide)).mp past
      cases past

end Reads

/-! ### Attributes -/

section Attributes

variable {view : List UInt8} {inner readBytes : Int}

/-- The type and the length of an attribute are inside the view. -/
def HasHeader (view : List UInt8) : Prop := ∃ t rest, view = t :: rest ∧ lenLen t ≤ rest.length

/-- The length field is read without a look at the end. -/
theorem runsOver_readUnits {t : UInt8} : RunsOver (readUnits t) view ↔ view.length < lenLen t := by
  unfold readUnits lenLen
  split
  · match view with
    | [] => exact ⟨fun _ => by decide, fun _ => rfl⟩
    | [_] => exact ⟨fun _ => Nat.lt_succ_self 1, fun _ => rfl⟩
    | hi :: lo :: view =>
      exact ⟨fun past => (nomatch past), fun short => absurd short (by simp)⟩
  · cases view with
    | nil => exact ⟨fun _ => Nat.one_pos, fun _ => runsOver_readI_nil⟩
    | cons b view =>
      rw [runsOver_readI_cons]
      constructor
      · intro past
        exact absurd past (not_failsWith_pure _)
      · intro short
        exact absurd short (by simp)

/-- An attribute runs over the end with its header, and not with its value. -/
theorem runsOver_decodeAttribute : RunsOver decodeAttribute view ↔ ¬ HasHeader view := by
  unfold decodeAttribute
  cases view with
  | nil =>
    constructor
    · rintro - ⟨t, rest, empty, -⟩
      cases empty
    · intro _
      exact runsOver_readI_nil
  | cons t rest =>
    have headed : HasHeader (t :: rest) ↔ lenLen t ≤ rest.length := by
      constructor
      · rintro ⟨_, _, ⟨⟩, long⟩
        exact long
      · intro long
        exact ⟨t, rest, rfl, long⟩
    rw [runsOver_readI_cons, headed, not_le, ← runsOver_readUnits]
    constructor
    · intro past
      rcases failsWith_bind.mp past with short | ⟨n, tail, -, later⟩
      · exact short
      · rcases failsWith_bind.mp later with value | ⟨_, _, -, done⟩
        · exact absurd value (not_runsOver_readOctetString _)
        · exact absurd done (not_failsWith_pure _)
    · intro short
      exact failsWith_bind.mpr (.inl short)

/-- Attributes that fit stand in front of the end of the packet, and no header follows them. -/
def Stops (left : Int) (view : List UInt8) : Prop :=
  ∃ es tail, (∀ e ∈ es, e.Fits) ∧ view = wire es ++ tail ∧ (wire es).length < left ∧
    ¬ HasHeader tail

/-- Behind the last attribute nothing is read. -/
theorem runsOver_finish {as : EapAttributes} (done : ¬ readBytes < inner) :
    RunsOver (do require (readBytes = inner) .refused; return as : Reader EapAttributes) view ↔
      Stops (inner - readBytes) view := by
  constructor
  · intro past
    obtain ⟨-, past⟩ := (failsWith_require_bind (by decide)).mp past
    exact absurd past (not_failsWith_pure _)
  · rintro ⟨es, tail, -, -, inside, -⟩
    omega

/-- The loop runs over the end if attributes that fit are followed by less than a header. -/
theorem runsOver_decodeAttributes {fuel : Nat} {as : EapAttributes}
    (enough : inner ≤ readBytes + fuel) :
    RunsOver (decodeAttributes inner fuel readBytes as) view ↔ Stops (inner - readBytes) view := by
  induction fuel generalizing readBytes as view with
  | zero =>
    rw [decodeAttributes]
    exact runsOver_finish (by omega)
  | succ fuel ih =>
    rw [decodeAttributes]
    by_cases more : readBytes < inner
    · rw [if_pos more]
      constructor
      · intro past
        rcases failsWith_bind.mp past with first | ⟨next, rest, decoded, later⟩
        · refine ⟨[], view, by simp, rfl, ?_, runsOver_decodeAttribute.mp first⟩
          show (0 : Int) < inner - readBytes
          omega
        · obtain ⟨fits, rfl, read⟩ := decodeAttribute_eq_ok.mp decoded
          have long : 0 < next.1.octets.length := Nat.succ_pos _
          obtain ⟨es, tail, all, rfl, inside, none⟩ := (ih (by omega)).mp later
          refine ⟨next.1 :: es, tail, List.forall_mem_cons.mpr ⟨fits, all⟩, ?_, ?_, none⟩
          · rw [wire_cons, List.append_assoc]
          · rw [wire_cons, List.length_append]
            omega
      · rintro ⟨es, tail, all, rfl, inside, none⟩
        cases es with
        | nil => exact failsWith_bind.mpr (.inl (runsOver_decodeAttribute.mpr none))
        | cons e es =>
          obtain ⟨fits, all⟩ := List.forall_mem_cons.mp all
          have long : 0 < e.octets.length := Nat.succ_pos _
          rw [wire_cons, List.length_append] at inside
          refine failsWith_bind.mpr (.inr ⟨(e, e.octets.length), wire es ++ tail, ?_, ?_⟩)
          · rw [decodeAttribute_eq_ok, wire_cons, List.append_assoc]
            exact ⟨fits, rfl, rfl⟩
          · refine (ih ?_).mpr ⟨es, tail, all, rfl, ?_, none⟩
            · show inner ≤ readBytes + e.octets.length + fuel
              omega
            · show ((wire es).length : Int) < inner - (readBytes + e.octets.length)
              omega
    · rw [if_neg more]
      exact runsOver_finish more

end Attributes

/-! ### Packets -/

/-- The length that the packet claims to have. -/
def lengthField (view : List UInt8) : Nat :=
  (Octets.octet view 2).toNat * 256 + (Octets.octet view 3).toNat

/-- The headers of the attributes of an AKA' packet of a length are inside the view: they follow
the subtype, the reserved octets and attributes that do not fill the packet. -/
def AttributesHeaded (length : Nat) (view : List UInt8) : Prop :=
  ∀ es tail, (∀ e ∈ es, e.Fits) → view = wire es ++ tail → 8 + (wire es).length < length →
    HasHeader tail

/-- The view holds the headers that its own octets call for: the code; with a code that is known,
the identifier and the length; with a length other than four, the type; with type AKA', the
subtype; and with a subtype that is known, the reserved octets and the headers of the attributes. -/
def Headed (view : List UInt8) : Prop :=
  1 ≤ view.length ∧ (1 ≤ Octets.octet view 0 ∧ Octets.octet view 0 ≤ 6 →
    4 ≤ view.length ∧ (lengthField view ≠ 4 →
      5 ≤ view.length ∧ (Octets.octet view 4 = 50 →
        6 ≤ view.length ∧ (1 ≤ Octets.octet view 5 ∧ Octets.octet view 5 ≤ 14 →
          8 ≤ view.length ∧ AttributesHeaded (lengthField view) (view.drop 8)))))

section Packets

variable {view : List UInt8}

/-- The headers of all attributes are inside unless the loop comes to a stop without one. -/
theorem stops_iff {length : Nat} :
    Stops (length - 5 - 3) view ↔ ¬ AttributesHeaded length view := by
  constructor
  · rintro ⟨es, tail, fits, parts, inside, none⟩ headed
    exact none (headed es tail fits parts (by omega))
  · intro lacks
    by_contra never
    apply lacks
    intro es tail fits parts inside
    by_contra none
    exact never ⟨es, tail, fits, parts, by omega, none⟩

/-- Behind the type of an AKA' packet, the decoder runs over the end unless all headers are inside.
-/
theorem runsOver_decodeAkaPrime {length : Nat} :
    RunsOver (decodeAkaPrime (length - 5)) view ↔
      ¬ (1 ≤ view.length ∧ (1 ≤ Octets.octet view 0 ∧ Octets.octet view 0 ≤ 14 →
        3 ≤ view.length ∧ AttributesHeaded length (view.drop 3))) := by
  unfold decodeAkaPrime
  cases view with
  | nil => exact ⟨fun _ headed => absurd headed.1 (by decide), fun _ => runsOver_readI_nil⟩
  | cons subType view =>
    have loop (tail : List UInt8) :
        RunsOver (decodeAttributes (length - 5) ((length : Int) - 5).toNat 3 EapAttributes.empty >>=
          fun as => pure (PduBody.akaPrime subType as)) tail ↔ ¬ AttributesHeaded length tail := by
      rw [RunsOver, failsWith_bind_pure, ← stops_iff]
      exact runsOver_decodeAttributes (by omega)
    have first : Octets.octet (subType :: view) 0 = subType := rfl
    rw [runsOver_readI_cons, runsOver_require, runsOver_read2I, loop, first, List.drop_succ_cons,
      List.length_cons]
    constructor
    · rintro ⟨known, short | lacks⟩ ⟨-, headed⟩
      · have long := (headed known).1
        omega
      · exact lacks (headed known).2
    · intro none
      by_contra inside
      apply none
      refine ⟨by omega, ?_⟩
      intro known
      rw [not_and, not_or, not_lt, not_not] at inside
      obtain ⟨long, headed⟩ := inside known
      exact ⟨by omega, headed⟩

/-- The other types are read as one piece, which is checked. -/
theorem runsOver_decodeBody {type : UInt8} {inner : Int} :
    RunsOver (decodeBody type inner) view ↔ type = 50 ∧ RunsOver (decodeAkaPrime inner) view := by
  unfold decodeBody
  by_cases aka : type = 50
  · rw [if_pos aka]
    rw [and_iff_right aka]
  · rw [if_neg aka]
    constructor
    · intro past
      repeat' split at past
      · exact absurd (failsWith_bind_pure.mp past) (not_runsOver_readOctetString _)
      · exact absurd (failsWith_bind_pure.mp past) (not_runsOver_readOctetString _)
      · exact absurd (failsWith_bind_pure.mp past) (not_runsOver_readOctetString _)
      · exact (runsOver_require.mp past).1.elim
    · intro both
      exact absurd both.1 aka

/-- What is asked of a view that goes on behind the length. -/
theorem headed_iff {code id hi lo type : UInt8} (known : 1 ≤ code ∧ code ≤ 6)
    (other : lengthField (code :: id :: hi :: lo :: type :: view) ≠ 4) :
    Headed (code :: id :: hi :: lo :: type :: view) ↔
      (type = 50 → 1 ≤ view.length ∧ (1 ≤ Octets.octet view 0 ∧ Octets.octet view 0 ≤ 14 →
        3 ≤ view.length ∧
          AttributesHeaded (lengthField (code :: id :: hi :: lo :: type :: view))
            (view.drop 3))) := by
  have subType : Octets.octet (code :: id :: hi :: lo :: type :: view) 5 = Octets.octet view 0 :=
    rfl
  have attributes : (code :: id :: hi :: lo :: type :: view).drop 8 = view.drop 3 := rfl
  have size : (code :: id :: hi :: lo :: type :: view).length = view.length + 5 := rfl
  rw [Headed, subType, attributes, size]
  constructor
  · rintro ⟨-, behind⟩ aka
    obtain ⟨one, rest⟩ := ((behind known).2 other).2 aka
    refine ⟨by omega, ?_⟩
    intro range
    obtain ⟨three, headed⟩ := rest range
    exact ⟨by omega, headed⟩
  · intro behind
    refine ⟨by omega, fun _ => ⟨by omega, fun _ => ⟨by omega, fun aka => ?_⟩⟩⟩
    obtain ⟨one, rest⟩ := behind aka
    refine ⟨by omega, ?_⟩
    intro range
    obtain ⟨three, headed⟩ := rest range
    exact ⟨by omega, headed⟩

/-- The decoder reads behind the end of the view just when a header is missing. -/
theorem runsOver_decodeEapPdu : RunsOver decodeEapPdu view ↔ ¬ Headed view := by
  unfold decodeEapPdu
  cases view with
  | nil => exact ⟨fun _ headed => absurd headed.1 (by decide), fun _ => runsOver_readI_nil⟩
  | cons code view =>
    rw [runsOver_readI_cons, runsOver_require]
    by_cases known : 1 ≤ code ∧ code ≤ 6
    · rw [and_iff_right known]
      match view with
      | [] => exact ⟨fun _ headed => absurd (headed.2 known).1 (by simp), fun _ => rfl⟩
      | [_] => exact ⟨fun _ headed => absurd (headed.2 known).1 (by simp), fun _ => rfl⟩
      | [_, _] => exact ⟨fun _ headed => absurd (headed.2 known).1 (by simp), fun _ => rfl⟩
      | id :: hi :: lo :: view =>
        have read : read2I (hi :: lo :: view) = (.ok (hi.toNat * 256 + lo.toNat), view) := rfl
        rw [runsOver_readI_cons, RunsOver, failsWith_bind_ok read]
        have field : lengthField (code :: id :: hi :: lo :: view) = hi.toNat * 256 + lo.toNat := rfl
        rw [← field]
        by_cases four : lengthField (code :: id :: hi :: lo :: view) = 4
        · rw [if_pos four]
          constructor
          · intro past
            exact absurd past (not_failsWith_pure _)
          · intro none
            exact absurd ⟨by simp, fun _ => ⟨by simp, fun other => absurd four other⟩⟩ none
        · rw [if_neg four]
          cases view with
          | nil =>
            constructor
            · intro _ headed
              exact absurd ((headed.2 known).2 four).1 (by simp)
            · intro _
              rfl
          | cons type view =>
            rw [failsWith_bind_ok (readI_cons type view), failsWith_bind_pure]
            refine runsOver_decodeBody.trans ?_
            rw [runsOver_decodeAkaPrime, headed_iff known four, Classical.not_imp]
    · constructor
      · intro past
        exact absurd past.1 known
      · intro none
        exact absurd ⟨by simp, fun here => absurd here known⟩ none

/-! ### What has been consumed -/

/-- What stands behind the type is read in its length. -/
theorem decodeBody_consumes {type : UInt8} {inner : Int} {body : PduBody} {rest : List UInt8}
    (decoded : decodeBody type inner view = (.ok body, rest)) :
    ∃ octets, view = octets ++ rest ∧ octets.length = inner := by
  have piece {make : List UInt8 → PduBody}
      (read : (readOctetString inner >>= fun rawData => pure (make rawData) : Reader PduBody) view =
        (.ok body, rest)) : ∃ octets, view = octets ++ rest ∧ octets.length = inner := by
    simp only [bind_eq_ok, readOctetString_eq_ok, pure_eq_ok] at read
    obtain ⟨octets, _, ⟨parts, size⟩, -, rfl⟩ := read
    exact ⟨octets, parts, size⟩
  unfold decodeBody at decoded
  repeat' split at decoded
  · obtain ⟨subType, reserved, es, -, -, -, rfl, size, -⟩ := decodeAkaPrime_eq_ok.mp decoded
    refine ⟨subType :: (Octets.ofNat 2 reserved ++ wire es), by simp, ?_⟩
    rw [List.length_cons, List.length_append, length_ofNat]
    omega
  · exact piece decoded
  · exact piece decoded
  · exact piece decoded
  · simp only [bind_eq_ok, require_eq_ok] at decoded
    obtain ⟨-, _, ⟨none, -⟩, -⟩ := decoded
    exact none.elim

/-- A PDU has taken as many octets from the view as its length field says. -/
theorem decodeEapPdu_consumes {pdu : EapPdu} {rest : List UInt8}
    (decoded : decodeEapPdu view = (.ok pdu, rest)) :
    lengthField view ≤ view.length ∧ rest = view.drop (lengthField view) := by
  obtain ⟨length, tail, -, small, rfl, behind⟩ := decodeEapPdu_eq_ok.mp decoded
  have field : lengthField (pdu.code :: pdu.id :: (Octets.ofNat 2 length ++ tail)) = length := by
    show (UInt8.ofNat (length / 256)).toNat * 256 + (UInt8.ofNat length).toNat = length
    rw [UInt8.toNat_ofNat', UInt8.toNat_ofNat']
    omega
  have all : ∃ octets, tail = octets ++ rest ∧ 4 + octets.length = length := by
    split at behind
    · next four =>
      exact ⟨[], behind.2, four.symm⟩
    · obtain ⟨type, between, rfl, body⟩ := behind
      obtain ⟨octets, rfl, size⟩ := decodeBody_consumes body
      exact ⟨type :: octets, rfl, by rw [List.length_cons]; omega⟩
  obtain ⟨octets, rfl, size⟩ := all
  have parts : pdu.code :: pdu.id :: (Octets.ofNat 2 length ++ (octets ++ rest)) =
      (pdu.code :: pdu.id :: (Octets.ofNat 2 length ++ octets)) ++ rest := by simp
  have consumed : (pdu.code :: pdu.id :: (Octets.ofNat 2 length ++ octets)).length = length := by
    simp only [List.length_cons, List.length_append, length_ofNat]
    omega
  rw [field, parts]
  refine ⟨?_, (List.drop_left' consumed).symm⟩
  rw [List.length_append, consumed]
  exact Nat.le_add_right _ _

end Packets

/-! ### The loop comes to an end -/

/-- A run of the loop over the attributes that ends, with its result: the condition is tested before
each attribute, and nothing bounds the number of attributes. -/
inductive LoopEnds (inner : Int) : Int → EapAttributes → List UInt8 →
    Except DecodeError EapAttributes × List UInt8 → Prop where
  | leave {readBytes : Int} {as : EapAttributes} {view : List UInt8} (done : ¬ readBytes < inner) :
      LoopEnds inner readBytes as view
        ((do require (readBytes = inner) .refused; return as : Reader EapAttributes) view)
  | fail {readBytes : Int} {as : EapAttributes} {view rest : List UInt8} {e : DecodeError}
      (more : readBytes < inner) (failed : decodeAttribute view = (.error e, rest)) :
      LoopEnds inner readBytes as view (.error e, rest)
  | next {readBytes : Int} {as : EapAttributes} {view rest : List UInt8} {next : Entry × Int}
      {out : Except DecodeError EapAttributes × List UInt8} (more : readBytes < inner)
      (decoded : decodeAttribute view = (.ok next, rest))
      (later : LoopEnds inner (readBytes + next.2)
        (as.putRawAttribute next.1.key next.1.value) rest out) :
      LoopEnds inner readBytes as view out

/-- Every attribute has an octet at least. -/
theorem decodeAttributes_ends {inner readBytes : Int} {fuel : Nat} {as : EapAttributes}
    {view : List UInt8} (enough : inner ≤ readBytes + fuel) :
    LoopEnds inner readBytes as view (decodeAttributes inner fuel readBytes as view) := by
  induction fuel generalizing readBytes as view with
  | zero => exact .leave (by omega)
  | succ fuel ih =>
    rw [decodeAttributes]
    by_cases more : readBytes < inner
    · rw [if_pos more]
      cases step : decodeAttribute view with
      | mk result rest =>
        cases result with
        | error e =>
          rw [bind_error step]
          exact .fail more step
        | ok next =>
          obtain ⟨-, -, read⟩ := decodeAttribute_eq_ok.mp step
          have long : 0 < next.1.octets.length := Nat.succ_pos _
          rw [bind_ok step]
          exact .next more step (ih (by omega))
    · rw [if_neg more]
      exact .leave more

/-! ### The decoder -/

/-- The decoder comes to an end inside the view, and a PDU takes as many octets as it says. -/
structure StaysInside (view : List UInt8) : Prop where
  ends : ∀ (inner : Int) (attributes : List UInt8),
    LoopEnds inner 3 EapAttributes.empty attributes
      (decodeAttributes inner inner.toNat 3 EapAttributes.empty attributes)
  inside : (decodeEapPdu view).1 ≠ .error .outside
  consumed : ∀ pdu rest, decodeEapPdu view = (.ok pdu, rest) →
    lengthField view ≤ view.length ∧ rest = view.drop (lengthField view)

/-- The decoder stays inside a view just when the view holds the headers that its octets call
for. -/
theorem decode_stays_inside_iff (view : List UInt8) : StaysInside view ↔ Headed view := by
  constructor
  · intro stays
    by_contra lacks
    exact stays.inside (runsOver_decodeEapPdu.mpr lacks)
  · intro headed
    exact ⟨fun inner attributes => decodeAttributes_ends (by omega),
      fun past => runsOver_decodeEapPdu.mp past headed, fun pdu rest => decodeEapPdu_consumes⟩

/-- An empty view, and an AKA' packet that claims 32 octets and ends behind its reserved octets. -/
theorem short_views_run_over :
    ¬ StaysInside [] ∧ ¬ StaysInside [1, 7, 0, 32, 50, 1, 0, 0] :=
  ⟨fun stays => stays.inside rfl, fun stays => stays.inside rfl⟩

end EdhocAuth.Aka
