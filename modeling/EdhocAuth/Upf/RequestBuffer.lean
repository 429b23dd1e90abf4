/-
Access-Requests in their buffer (`src/upf/eap-relay.c`).

`radius_build_request` writes into a buffer of the caller. Here the buffer is explicit, and a
write that does not fit into it is an error of its own: `Buffer.radiusBuildRequest_wrote` says that
this error never occurs and that otherwise the octets of the buffer are those of
`radiusBuildRequest`. `request_exact` says for which arguments there is a request, and what it looks
like.
-/

import EdhocAuth.Lib.Proc
import EdhocAuth.Upf.EndToEnd

namespace EdhocAuth.Upf

open Octets Eap Smf Proc

namespace Buffer

/-! ### Writing -/

structure Req where
  buf : List UInt8
  pos : Nat

/-- Why there is no request: the return value -1, or a write outside the buffer. -/
inductive Error where
  | refused
  | outside
deriving DecidableEq

abbrev Writer : Type → Type := Proc Req Error

def write (off : Nat) (data : List UInt8) : Writer Unit := do
  let r ← load
  require (off + data.length ≤ r.buf.length) .outside
  store fun r => { r with buf := memcpyAt r.buf off data }

def put (data : List UInt8) : Writer Unit := do
  let r ← load
  write r.pos data
  store fun r => { r with pos := r.pos + data.length }

def radiusAppendAttr (cap : Nat) (type : UInt8) : Nat → List UInt8 → Writer Unit
  | fuel + 1, data =>
    if data = [] then return ()
    else do
      let chunk := min 253 data.length
      let r ← load
      require (r.pos + 2 + chunk ≤ cap) .refused
      write r.pos [type]
      write (r.pos + 1) [UInt8.ofNat (2 + chunk)]
      write (r.pos + 2) (data.take chunk)
      store fun r => { r with pos := r.pos + (2 + chunk) }
      radiusAppendAttr cap type fuel (data.drop chunk)
  | 0, _ => return ()

def radiusAppendU16Attr (cap : Nat) (type : UInt8) (value : Nat) : Writer Unit :=
  radiusAppendAttr cap type 2 (Octets.ofNat 2 value)

/-- The start of `radius_build_request`: the checks and the header. -/
def writeHeader (p : RadiusParams) (cap : Nat) (username : CString) (eap : List UInt8) :
    Writer Unit := do
  require (username.strlen ≤ 253) .refused
  put [codeAccessRequest]
  require (20 + 2 + username.strlen + 2 + 2 + eap.length + 18 ≤ cap) .refused
  put [p.identifier]
  put [0]
  put [0]
  put p.auth.toList

/-- Its end: the Message-Authenticator and the length. -/
def sign (p : RadiusParams) (cap : Nat) : Writer Unit := do
  let r ← load
  let maPos := r.pos + 2
  require (r.pos + 18 ≤ cap) .refused
  put [attrMessageAuthenticator]
  put [18]
  put (List.replicate 16 0)
  let r ← load
  require (r.pos ≤ 4096) .refused
  write 2 (Octets.ofNat 2 r.pos)
  let r ← load
  write maPos (hmacMd5 p.secret (r.buf.take r.pos))

def writeState (cap : Nat) (state : List UInt8) : Writer Unit :=
  if state ≠ [] then radiusAppendAttr cap attrState state.length state else pure ()

/-- `radius_build_request` up to the assignment of `req_len`. -/
def writeRequest (p : RadiusParams) (cap : Nat) (username : CString) (state eap : List UInt8) :
    Writer Unit := do
  writeHeader p cap username eap
  radiusAppendAttr cap attrUserName username.strlen username.octets
  radiusAppendU16Attr cap attrServiceType serviceFramedUser
  radiusAppendU16Attr cap attrNasPortType nasPortVirtual
  writeState cap state
  radiusAppendAttr cap attrEapMessage eap.length eap
  sign p cap

/-- `radius_build_request`: the value is `*req_len`. -/
def radiusBuildRequest (p : RadiusParams) (cap : Nat) (username : CString)
    (state eap : List UInt8) :
    Writer Nat := do
  writeRequest p cap username state eap
  let r ← load
  return r.pos

/-! ### What has been written -/

/-- The octets in front of `pos` in a buffer of `cap` octets. -/
structure Holds (cap : Nat) (req : List UInt8) (r : Req) : Prop where
  size : r.buf.length = cap
  pos : r.pos = req.length
  octets : r.buf.take r.pos = req

/-- An outcome for some octets, or for none. -/
def Wrote (cap : Nat) : Option (List UInt8) → Except Error Unit × Req → Prop
  | some req, out => out.1 = .ok () ∧ Holds cap req out.2
  | none, out => out.1 = .error .refused ∧ out.2.buf.length = cap

section Wrote

variable {cap : Nat} {req data : List UInt8} {r : Req} {x y : Writer Unit} {o : Option (List UInt8)}
  {f : List UInt8 → Option (List UInt8)}

theorem Holds.fits (holds : Holds cap req r) : req.length ≤ cap := by
  have cut := congrArg List.length holds.octets
  rw [List.length_take, holds.size, holds.pos] at cut
  omega

/-- The buffer is what has been written and a rest. -/
theorem Holds.parts (holds : Holds cap req r) : r.buf = req ++ r.buf.drop req.length := by
  have parts := (List.take_append_drop r.pos r.buf).symm
  rwa [holds.octets, holds.pos] at parts

/-- Parts that write what they should make a whole that does. -/
theorem Wrote.bind (first : Wrote cap o (x r))
    (rest : ∀ req r', o = some req → Holds cap req r' → Wrote cap (f req) (y r')) :
    Wrote cap (o.bind f) ((x >>= fun _ => y) r) := by
  rw [bind_apply]
  generalize x r = out at first ⊢
  obtain ⟨result, r'⟩ := out
  cases o with
  | none =>
    obtain ⟨refused, size⟩ := first
    subst refused
    exact ⟨rfl, size⟩
  | some req =>
    obtain ⟨ok, holds⟩ := first
    subst ok
    exact rest req r' rfl holds

/-- A check that leads to -1. -/
theorem Wrote.require {c : Prop} [Decidable c] (holds : Holds cap req r)
    (rest : c → Wrote cap o (x r)) :
    Wrote cap (if c then o else none) ((Proc.require c .refused >>= fun _ => x) r) := by
  by_cases h : c
  · rw [if_pos h, bind_ok (require_ok h)]
    exact rest h
  · rw [if_neg h, bind_error (require_error h)]
    exact ⟨rfl, holds.size⟩

theorem write_ok {off : Nat} (inside : off + data.length ≤ r.buf.length) :
    write off data r = (.ok (), { r with buf := memcpyAt r.buf off data }) :=
  bind_ok (require_ok inside)

/-- Octets with room behind what has been written. -/
theorem Holds.put (holds : Holds cap req r) (room : req.length + data.length ≤ cap) :
    ∃ r', Buffer.put data r = (.ok (), r') ∧ Holds cap (req ++ data) r' := by
  have inside : r.pos + data.length ≤ r.buf.length := by
    rw [holds.pos, holds.size]
    exact room
  refine ⟨⟨memcpyAt r.buf r.pos data, r.pos + data.length⟩, bind_ok (write_ok inside), ?_, ?_, ?_⟩
  · rw [memcpyAt_length inside, holds.size]
  · rw [List.length_append, holds.pos]
  · dsimp only
    rw [take_memcpyAt (by omega), holds.octets]

/-- Octets are written over those that have been written before. -/
theorem Holds.overwrite {off : Nat} (holds : Holds cap req r)
    (inside : off + data.length ≤ req.length) :
    ∃ r', write off data r = (.ok (), r') ∧ Holds cap (memcpyAt req off data) r' := by
  have fits := holds.fits
  refine ⟨_, write_ok (by rw [holds.size]; omega), ?_, ?_, ?_⟩
  · rw [memcpyAt_length (by rw [holds.size]; omega), holds.size]
  · rw [memcpyAt_length inside, holds.pos]
  · dsimp only
    rw [holds.parts, memcpyAt_left inside, holds.pos, List.take_left' (memcpyAt_length inside)]

/-- Octets for which there is room are written. -/
theorem Wrote.put (holds : Holds cap req r) (room : req.length + data.length ≤ cap)
    (rest : ∀ r', Holds cap (req ++ data) r' → Wrote cap o (x r')) :
    Wrote cap o ((Buffer.put data >>= fun _ => x) r) := by
  obtain ⟨r', written, holds'⟩ := holds.put room
  rw [bind_ok written]
  exact rest r' holds'

/-- Octets that were written may be written over. -/
theorem Wrote.overwrite {off : Nat} (holds : Holds cap req r)
    (inside : off + data.length ≤ req.length)
    (rest : ∀ r', Holds cap (memcpyAt req off data) r' → Wrote cap o (x r')) :
    Wrote cap o ((write off data >>= fun _ => x) r) := by
  obtain ⟨r', written, holds'⟩ := holds.overwrite inside
  rw [bind_ok written]
  exact rest r' holds'

/-- Two writes side by side are one. -/
theorem memcpyAt_next {buf first second : List UInt8} {pos next : Nat}
    (inside : pos + first.length ≤ buf.length) (behind : next = pos + first.length) :
    memcpyAt (memcpyAt buf pos first) next second = memcpyAt buf pos (first ++ second) := by
  have start : (buf.take pos ++ first).length = next := by
    rw [List.length_append, List.length_take_of_le (by omega), behind]
  have written :
      memcpyAt buf pos first = (buf.take pos ++ first) ++ buf.drop (pos + first.length) := by
    rw [memcpyAt, List.append_assoc]
  rw [written, memcpyAt_append start, List.drop_drop, memcpyAt, List.length_append]
  simp only [List.append_assoc, Nat.add_assoc]

/-- One round of `radius_append_attr`. -/
theorem append_round (type len : UInt8) {value : List UInt8} (holds : Holds cap req r)
    (room : req.length + 2 + value.length ≤ cap) (rest : Writer Unit) :
    ∃ r', (do
        write r.pos [type]
        write (r.pos + 1) [len]
        write (r.pos + 2) value
        store fun r => { r with pos := r.pos + (2 + value.length) }
        rest : Writer Unit) r = rest r' ∧ Holds cap (req ++ ([type, len] ++ value)) r' := by
  have inside : r.pos + 2 + value.length ≤ r.buf.length := by
    rw [holds.pos, holds.size]
    exact room
  have one : r.pos + [type].length ≤ r.buf.length := by
    rw [List.length_singleton]
    omega
  have two :
      (memcpyAt (memcpyAt r.buf r.pos [type]) (r.pos + 1) [len]) =
        memcpyAt r.buf r.pos [type, len] :=
    memcpyAt_next one rfl
  have pair : r.pos + [type, len].length ≤ r.buf.length := by
    show r.pos + 2 ≤ _
    omega
  have three : memcpyAt (memcpyAt r.buf r.pos [type, len]) (r.pos + 2) value =
      memcpyAt r.buf r.pos ([type, len] ++ value) := memcpyAt_next pair rfl
  have whole : r.pos + ([type, len] ++ value).length ≤ r.buf.length := by
    rw [List.length_append]
    show r.pos + (2 + value.length) ≤ _
    omega
  refine ⟨⟨memcpyAt r.buf r.pos ([type, len] ++ value), r.pos + (2 + value.length)⟩, ?_, ?_, ?_, ?_⟩
  · rw [bind_ok (write_ok one), bind_ok (write_ok (by rw [memcpyAt_length one]; exact pair)), two,
      bind_ok (write_ok (by rw [memcpyAt_length pair]; exact inside)), three]
    rfl
  · rw [memcpyAt_length whole, holds.size]
  · simp only [List.length_append, List.length_cons, List.length_nil, holds.pos]
  · have end_ : r.pos + (2 + value.length) = r.pos + ([type, len] ++ value).length := by
      rw [List.length_append]
      rfl
    dsimp only
    rw [end_, take_memcpyAt (by omega), holds.octets]

/-- `radius_append_attr` writes what it appends. -/
theorem radiusAppendAttr_wrote (type : UInt8) (fuel : Nat) (holds : Holds cap req r) :
    Wrote cap (Upf.radiusAppendAttr cap type fuel req data)
      (radiusAppendAttr cap type fuel data r) := by
  induction fuel generalizing req data r with
  | zero => exact ⟨rfl, holds⟩
  | succ fuel ih =>
    rw [Upf.radiusAppendAttr, radiusAppendAttr]
    by_cases empty : data = []
    · rw [if_pos empty, if_pos empty]
      exact ⟨rfl, holds⟩
    · rw [if_neg empty, if_neg empty]
      have chunk : (data.take (min 253 data.length)).length = min 253 data.length := by
        rw [List.length_take]
        omega
      by_cases room : req.length + 2 + min 253 data.length ≤ cap
      · have checked : r.pos + 2 + min 253 data.length ≤ cap := by
          rw [holds.pos]
          exact room
        have fits : req.length + 2 + (data.take (min 253 data.length)).length ≤ cap := by
          rw [chunk]
          exact room
        obtain ⟨r', written, holds'⟩ :=
          append_round type (UInt8.ofNat (2 + min 253 data.length)) holds fits
            (radiusAppendAttr cap type fuel (data.drop (min 253 data.length)))
        rw [chunk] at written
        dsimp only
        rw [if_neg (by omega)]
        show Wrote cap _
          ((Proc.require (r.pos + 2 + min 253 data.length ≤ cap) .refused >>= fun _ => _) r)
        rw [bind_ok (require_ok checked), written]
        exact ih holds'
      · have full : ¬ r.pos + 2 + min 253 data.length ≤ cap := by
          rw [holds.pos]
          exact room
        dsimp only
        rw [if_pos (by omega)]
        show Wrote cap _
          ((Proc.require (r.pos + 2 + min 253 data.length ≤ cap) .refused >>= fun _ => _) r)
        rw [bind_error (require_error full)]
        exact ⟨rfl, holds.size⟩

end Wrote

section Request

variable {p : RadiusParams} {cap : Nat} {username : CString} {state eap req : List UInt8} {r : Req}

/-- The header, if the checks in front of it pass. -/
def header? (p : RadiusParams) (cap : Nat) (username : CString) (eap : List UInt8) :
    Option (List UInt8) :=
  if username.strlen ≤ 253 then
    if 20 + 2 + username.strlen + 2 + 2 + eap.length + 18 ≤ cap then
      some ([codeAccessRequest, p.identifier, 0, 0] ++ p.auth.toList)
    else none
  else none

/-- The header is written where there is room for it. -/
theorem writeHeader_wrote (large : 20 ≤ cap) (holds : Holds cap [] r) :
    Wrote cap (header? p cap username eap) (writeHeader p cap username eap r) := by
  refine .require holds fun _ => .put holds (show 0 + 1 ≤ cap by omega) fun r₁ one =>
    .require one fun _ => ?_
  refine .put one (show 1 + 1 ≤ cap by omega) fun r₂ two =>
    .put two (show 2 + 1 ≤ cap by omega) fun r₃ three => ?_
  refine .put three (show 3 + 1 ≤ cap by omega) fun r₄ four => ?_
  have sixteen : p.auth.toList.length = 16 := List.Vector.toList_length _
  obtain ⟨r₅, written, all⟩ := four.put (show 4 + p.auth.toList.length ≤ cap by omega)
  rw [written]
  exact ⟨rfl, all⟩

/-- The Message-Authenticator and the length are written where `signRequest` has them. -/
theorem sign_wrote (holds : Holds cap req r) (twenty : 20 ≤ req.length) :
    Wrote cap (signRequest p cap req) (sign p cap r) := by
  show Wrote cap _ ((Proc.require (r.pos + 18 ≤ cap) .refused >>= fun _ => _) r)
  rw [signRequest, holds.pos]
  by_cases room : cap < req.length + 18
  · rw [if_pos room, bind_error (require_error (by omega))]
    exact ⟨rfl, holds.size⟩
  · rw [if_neg room, bind_ok (require_ok (by omega))]
    refine .put holds (by simp; omega) fun r₁ one => .put one (by simp; omega) fun r₂ two => ?_
    refine .put two (by simp; omega) fun r₃ three => ?_
    have full : req ++ [attrMessageAuthenticator] ++ [18] ++ List.replicate 16 0 =
        req ++ [attrMessageAuthenticator, 18] ++ List.replicate 16 0 := by simp
    have size :
        (req ++ [attrMessageAuthenticator, 18] ++ List.replicate 16 0).length =
            req.length + 18 := by
      simp
    rw [full] at three
    generalize req ++ [attrMessageAuthenticator, 18] ++ List.replicate 16 0 = signed at three size ⊢
    show Wrote cap _ ((Proc.require (r₃.pos ≤ 4096) .refused >>= fun _ => _) r₃)
    rw [three.pos]
    by_cases large : 4096 < signed.length
    · dsimp only
      rw [if_pos large, bind_error (require_error (by omega))]
      exact ⟨rfl, three.size⟩
    · dsimp only
      rw [if_neg large, bind_ok (require_ok (by omega))]
      have length : 2 + (Octets.ofNat 2 signed.length).length ≤ signed.length := by
        rw [Octets.length_ofNat]
        omega
      refine .overwrite three length fun r₄ four => ?_
      show Wrote cap _ (write (req.length + 2) (hmacMd5 p.secret (r₄.buf.take r₄.pos)) r₄)
      rw [four.octets]
      generalize sized_eq : memcpyAt signed 2 (Octets.ofNat 2 signed.length) = sized at four ⊢
      have inside : req.length + 2 + (hmacMd5 p.secret sized).length ≤ sized.length := by
        rw [length_hmacMd5, ← sized_eq, memcpyAt_length length, size]
      obtain ⟨r₅, written, all⟩ := four.overwrite inside
      rw [written]
      exact ⟨rfl, all⟩

/-- Appending keeps what is there. -/
theorem length_le_of_append {type : UInt8} {fuel : Nat} {data req' : List UInt8}
    (appended : Upf.radiusAppendAttr cap type fuel req data = some req') :
    req.length ≤ req'.length := by
  induction fuel generalizing req data with
  | zero => rw [← Option.some.inj appended]
  | succ fuel ih =>
    rw [Upf.radiusAppendAttr] at appended
    split_ifs at appended with empty
    · rw [← Option.some.inj appended]
    · dsimp only at appended
      split_ifs at appended
      have longer := ih appended
      rw [List.length_append] at longer
      omega

def appendState (cap : Nat) (req state : List UInt8) : Option (List UInt8) :=
  if state ≠ [] then Upf.radiusAppendAttr cap attrState state.length req state else some req

/-- The State is written if there is one. -/
theorem writeState_wrote (holds : Holds cap req r) :
    Wrote cap (appendState cap req state) (writeState cap state r) := by
  rw [appendState, writeState]
  split
  · exact radiusAppendAttr_wrote _ _ holds
  · exact ⟨rfl, holds⟩

theorem length_le_of_appendState {req' : List UInt8}
    (appended : appendState cap req state = some req') :
    req.length ≤ req'.length := by
  rw [appendState] at appended
  split at appended
  · exact length_le_of_append appended
  · rw [← Option.some.inj appended]

/-- A request is made in five parts, each of which may lack room. -/
theorem radiusBuildRequest_binds (p : RadiusParams) (cap : Nat) (username : CString)
    (state eap : List UInt8) :
    Upf.radiusBuildRequest p cap username state eap = (header? p cap username eap).bind fun req =>
      (Upf.radiusAppendAttr cap attrUserName username.strlen req username.octets).bind fun req =>
      (Upf.radiusAppendU16Attr cap attrServiceType req serviceFramedUser).bind fun req =>
      (Upf.radiusAppendU16Attr cap attrNasPortType req nasPortVirtual).bind fun req =>
      (appendState cap req state).bind fun req =>
      (Upf.radiusAppendAttr cap attrEapMessage eap.length req eap).bind (signRequest p cap) := by
  rw [Upf.radiusBuildRequest, header?]
  by_cases user : username.strlen ≤ 253
  · rw [if_neg (by omega), if_pos user]
    by_cases room : 20 + 2 + username.strlen + 2 + 2 + eap.length + 18 ≤ cap
    · rw [if_neg (by omega), if_pos room, Option.bind_some]
      by_cases empty : state = []
      · simp only [appendState, empty, ne_eq, not_true, if_false]
        rfl
      · simp only [appendState, empty, ne_eq, not_false_iff, if_true]
        rfl
    · rw [if_pos (by omega), if_neg room]
      rfl
  · rw [if_pos (by omega), if_neg user]
    rfl

/-- The buffer holds what is built, and no write falls outside it. -/
theorem writeRequest_wrote (large : 20 ≤ cap) (holds : Holds cap [] r) :
    Wrote cap (Upf.radiusBuildRequest p cap username state eap)
      (writeRequest p cap username state eap r) := by
  rw [radiusBuildRequest_binds]
  refine (writeHeader_wrote large holds).bind fun req₀ r₀ built₀ holds₀ => ?_
  have twenty : req₀.length = 20 := by
    rw [header?] at built₀
    split_ifs at built₀
    rw [← Option.some.inj built₀]
    simp
  refine (radiusAppendAttr_wrote _ _ holds₀).bind fun req₁ r₁ built₁ holds₁ => ?_
  refine (radiusAppendAttr_wrote _ _ holds₁).bind fun req₂ r₂ built₂ holds₂ => ?_
  refine (radiusAppendAttr_wrote _ _ holds₂).bind fun req₃ r₃ built₃ holds₃ => ?_
  refine (writeState_wrote holds₃).bind fun req₄ r₄ built₄ holds₄ => ?_
  refine (radiusAppendAttr_wrote _ _ holds₄).bind fun req₅ r₅ built₅ holds₅ => sign_wrote holds₅ ?_
  calc 20 = req₀.length := twenty.symm
    _ ≤ req₁.length := length_le_of_append built₁
    _ ≤ req₂.length := length_le_of_append built₂
    _ ≤ req₃.length := length_le_of_append built₃
    _ ≤ req₄.length := length_le_of_appendState built₄
    _ ≤ req₅.length := length_le_of_append built₅

/-- The outcome for a request, with its length. -/
theorem radiusBuildRequest_wrote (large : 20 ≤ cap) (holds : Holds cap [] r) :
    (∀ req, Upf.radiusBuildRequest p cap username state eap = some req →
      ∃ r', radiusBuildRequest p cap username state eap r = (.ok req.length, r') ∧
      Holds cap req r') ∧
    (Upf.radiusBuildRequest p cap username state eap = none →
      ∃ r', radiusBuildRequest p cap username state eap r = (.error .refused, r') ∧
      r'.buf.length = cap) := by
  have wrote : Wrote cap (Upf.radiusBuildRequest p cap username state eap)
      (writeRequest p cap username state eap r) := writeRequest_wrote large holds
  constructor
  · intro req built
    rw [built] at wrote
    obtain ⟨ok, holds'⟩ := wrote
    refine ⟨(writeRequest p cap username state eap r).2, ?_, holds'⟩
    rw [radiusBuildRequest, bind_ok (Prod.ext ok rfl), ← holds'.pos]
    rfl
  · intro none
    rw [none] at wrote
    obtain ⟨refused, size⟩ := wrote
    exact ⟨_, bind_error (Prod.ext refused rfl), size⟩

end Request

end Buffer

/-! ### Which requests there are -/

/-- A value that has no room is refused. -/
theorem radiusAppendAttr_full {cap fuel : Nat} {buf data : List UInt8} (type : UInt8)
    (enough : data.length ≤ fuel) (fits : buf.length ≤ cap)
    (full : cap < buf.length + splitLen data.length) :
    radiusAppendAttr cap type fuel buf data = none := by
  induction fuel generalizing buf data with
  | zero =>
    have empty : data.length = 0 := by omega
    rw [empty] at full
    exact absurd fits (by simpa [splitLen] using full)
  | succ fuel ih =>
    have some : data ≠ [] := by
      rintro rfl
      exact absurd fits (by simpa [splitLen] using full)
    have pos : 0 < data.length := List.length_pos_iff.mpr some
    rw [radiusAppendAttr, if_neg some]
    dsimp only
    split
    · rfl
    · next room =>
      have left : splitLen data.length =
          2 + min 253 data.length + splitLen (data.drop (min 253 data.length)).length := by
        rw [List.length_drop]
        unfold splitLen
        omega
      have size : (buf ++ ([type, UInt8.ofNat (2 + min 253 data.length)] ++
          data.take (min 253 data.length))).length = buf.length + (2 + min 253 data.length) := by
        simp only [List.length_append, List.length_cons, List.length_nil, List.length_take]
        omega
      apply ih
      · rw [List.length_drop]
        omega
      · rw [size]
        omega
      · rw [size]
        omega

/-- Attributes that do not fit are refused. -/
theorem appendParts_full {cap : Nat} {parts : List (UInt8 × List UInt8)} {buf : List UInt8}
    (fits : buf.length ≤ cap) (full : cap < buf.length + partsLen parts) :
    appendParts cap buf parts = none := by
  induction parts generalizing buf with
  | nil => exact absurd fits (by simpa [partsLen] using full)
  | cons part parts ih =>
    have more : partsLen (part :: parts) = splitLen part.2.length + partsLen parts := by
      simp [partsLen]
    rw [appendParts, List.foldlM_cons]
    by_cases here : buf.length + splitLen part.2.length ≤ cap
    · obtain ⟨first, appended, split⟩ :=
        radiusAppendAttr_split part.1 buf (Nat.le_refl part.2.length) here
      rw [appended]
      apply ih
      · rw [List.length_append, split.size]
        exact here
      · rw [List.length_append, split.size]
        omega
    · rw [radiusAppendAttr_full part.1 (Nat.le_refl _) fits (by omega)]
      rfl

/-- The size of a packet: header, User-Name if there is one, two attributes of four octets, State
and EAP-Message in pieces of 253 octets, and the Message-Authenticator. -/
def requestLen (username : CString) (state eap : List UInt8) : Nat :=
  20 + (if username.strlen = 0 then 0 else 2 + username.strlen) + 4 + 4 + splitLen state.length +
    splitLen eap.length + 18

section Exact

variable {p : RadiusParams} {username : CString} {state eap : List UInt8}

/-- The length of a request is that of its parts. -/
theorem requestLen_eq (user : username.strlen ≤ 253) :
    requestLen username state eap = 20 + partsLen (requestParts username state eap) + 18 := by
  have name :
      (if username.strlen = 0 then 0 else 2 + username.strlen) =
        splitLen username.octets.length := by
    unfold CString.strlen at *
    unfold splitLen
    split <;> omega
  have two : splitLen 2 = 4 := rfl
  simp only [requestLen, name, partsLen, requestParts, List.map_cons, List.map_nil, List.sum_cons,
    List.sum_nil, Octets.length_ofNat, two]
  omega

/-- Requests that are too large are refused. -/
theorem radiusBuildRequest_none
    (not : ¬ (username.strlen ≤ 253 ∧ requestLen username state eap ≤ 4096)) :
    radiusBuildRequest p 8192 username state eap = none := by
  by_cases user : username.strlen ≤ 253
  · have large : 4096 < requestLen username state eap := by omega
    rw [requestLen_eq user] at large
    by_cases room : 44 + username.strlen + eap.length ≤ 8192
    · rw [radiusBuildRequest_eq p user room]
      have start : ([codeAccessRequest, p.identifier, 0, 0] ++ p.auth.toList).length = 20 := by simp
      by_cases parts : 20 + partsLen (requestParts username state eap) ≤ 8192
      · obtain ⟨as, appended, size, -, -⟩ :=
          appendParts_eq (show ([codeAccessRequest, p.identifier, 0, 0] ++ p.auth.toList).length +
            partsLen (requestParts username state eap) ≤ 8192 by omega)
        rw [appended, Option.bind_some, signRequest]
        split
        · rfl
        · dsimp only
          rw [if_pos]
          simp only [List.length_append, start, size, List.length_cons, List.length_nil,
            List.length_replicate]
          omega
      · rw [appendParts_full (by omega) (by omega)]
        rfl
    · rw [radiusBuildRequest, if_neg (by omega), if_pos (by omega)]
  · rw [radiusBuildRequest, if_pos (by omega)]

/-- A request for a user, a state and an EAP payload. -/
structure IsRequest (p : RadiusParams) (username : CString) (state eap packet : List UInt8) :
    Prop where
  header :
    packet.take 20 = [codeAccessRequest, p.identifier] ++ Octets.ofNat 2 packet.length ++
    p.auth.toList
  length : packetLen packet = packet.length
  /-- The attributes fill the packet. -/
  tiled : ∃ front eaps ma, packet.drop 20 = Tlv.encodeAll (front ++ eaps ++ [ma]) ∧
    Tlv.collect attrUserName (front ++ eaps ++ [ma]) = username.octets ∧
    Tlv.collect attrState (front ++ eaps ++ [ma]) = state ∧
    Tlv.collect attrEapMessage (front ++ eaps ++ [ma]) = eap ∧
    -- those of the EAP payload are consecutive
    (∀ a ∈ eaps, a.type = attrEapMessage) ∧ (∀ a ∈ front, a.type ≠ attrEapMessage) ∧
    -- the Message-Authenticator is the last one
    ma.type = attrMessageAuthenticator ∧ (∀ a ∈ front ++ eaps, a.type ≠ attrMessageAuthenticator) ∧
    ma.value = Hash.hmac 64 md5 p.secret (packet.take (packet.length - 16) ++ List.replicate 16 0)

/-- What is built for arguments that fit. -/
theorem radiusBuildRequest_some (user : username.strlen ≤ 253)
    (max : requestLen username state eap ≤ 4096) :
    ∃ packet, radiusBuildRequest p 8192 username state eap = some packet ∧
      packet.length = requestLen username state eap ∧ IsRequest p username state eap packet := by
  rw [requestLen_eq user] at max ⊢
  obtain ⟨front, eaps, digest, attrs, hmac, built⟩ := radiusBuildRequest_attrs p user
    (show 20 + partsLen (requestParts username state eap) + 18 ≤ 8192 by omega) max
  have sixteen : digest.length = 16 := by
    rw [hmac]
    exact length_hmacMd5 _ _
  have noEap : Tlv.collect attrEapMessage front = [] :=
    Tlv.collect_of_none fun a mem => (attrs.ne mem).1
  have size : (signedFront p (Tlv.encodeAll (front ++ eaps)) ++ digest).length =
      20 + (Tlv.encodeAll (front ++ eaps)).length + 18 := by
    rw [List.length_append, length_signedFront, sixteen]
  have parts :
      signedFront p (Tlv.encodeAll (front ++ eaps)) ++ digest = [codeAccessRequest, p.identifier] ++
      (Octets.ofNat 2 (20 + (Tlv.encodeAll (front ++ eaps)).length + 18) ++ (p.auth.toList ++
        (Tlv.encodeAll (front ++ eaps) ++ ([attrMessageAuthenticator, 18] ++ digest)))) := by
    simp only [signedFront, List.append_assoc]
  refine ⟨_, built, ?_, ?_, ?_, front, eaps, authenticatorOf digest sixteen,
    drop_signed p _ sixteen, ?_, ?_, ?_, attrs.split.types, fun a mem => (attrs.ne mem).1, rfl, ?_,
    ?_⟩
  · rw [size, attrs.size]
  · rw [size, parts, ← List.append_assoc, ← List.append_assoc]
    exact List.take_left' (by simp)
  · have two : [codeAccessRequest, p.identifier].length = 2 := rfl
    rw [packetLen, field_eq _ _ _ parts two (Octets.length_ofNat _ _), size, attrs.size]
    exact Octets.toNat_ofNat (by omega)
  · rw [Tlv.collect_append, Tlv.collect_append, attrs.name, attrs.split.collect_other (by decide)]
    simp [Tlv.collect_cons, authenticatorOf, attrUserName, attrMessageAuthenticator]
  · rw [Tlv.collect_append, Tlv.collect_append, attrs.collected,
      attrs.split.collect_other (by decide)]
    simp [Tlv.collect_cons, authenticatorOf, attrState, attrMessageAuthenticator]
  · rw [Tlv.collect_append, Tlv.collect_append, noEap, attrs.split.collect]
    simp [Tlv.collect_cons, authenticatorOf, attrEapMessage, attrMessageAuthenticator]
  · intro a mem
    rcases List.mem_append.mp mem with first | second
    · exact (attrs.ne first).2
    · rw [attrs.split.types a second]
      decide
  · rw [List.length_append, sixteen, Nat.add_sub_cancel, List.take_left, ← hmacMd5_eq, ← hmac]
    rfl

end Exact

/-- `radius_build_request` on a buffer of 8192 octets, whatever is in it: no write falls outside,
there is a request exactly if the user name has at most 253 octets and the packet at most 4096, and
then the buffer starts with it and the length is the one that is returned. -/
theorem request_exact (p : RadiusParams) (username : CString) (state eap buf : List UInt8)
    (size : buf.length = 8192) :
    (Buffer.radiusBuildRequest p 8192 username state eap ⟨buf, 0⟩).1 ≠ .error .outside ∧
      (Buffer.radiusBuildRequest p 8192 username state eap ⟨buf, 0⟩).2.buf.length = 8192 ∧
      ((∃ n, (Buffer.radiusBuildRequest p 8192 username state eap ⟨buf, 0⟩).1 = .ok n) ↔
        username.strlen ≤ 253 ∧ requestLen username state eap ≤ 4096) ∧
      ∀ n, (Buffer.radiusBuildRequest p 8192 username state eap ⟨buf, 0⟩).1 = .ok n →
        n = requestLen username state eap ∧
        packetLen ((Buffer.radiusBuildRequest p 8192 username state eap ⟨buf, 0⟩).2.buf.take n) =
          n ∧
        IsRequest p username state eap
          ((Buffer.radiusBuildRequest p 8192 username state eap ⟨buf, 0⟩).2.buf.take n) := by
  have start : Buffer.Holds 8192 [] ⟨buf, 0⟩ := ⟨size, rfl, rfl⟩
  by_cases fits : username.strlen ≤ 253 ∧ requestLen username state eap ≤ 4096
  · obtain ⟨packet, built, length, isRequest⟩ := radiusBuildRequest_some fits.1 fits.2
    obtain ⟨r', written, holds⟩ :=
      (Buffer.radiusBuildRequest_wrote (by decide) start).1 packet built
    rw [written]
    refine ⟨by simp, holds.size, iff_of_true ⟨_, rfl⟩ fits, ?_⟩
    rintro n ok
    obtain rfl := Except.ok.inj ok
    rw [← holds.pos, holds.octets]
    exact ⟨holds.pos.trans length, isRequest.length.trans holds.pos.symm, isRequest⟩
  · obtain ⟨r', refused, length⟩ :=
      (Buffer.radiusBuildRequest_wrote (by decide) start).2 (radiusBuildRequest_none fits)
    rw [refused]
    refine ⟨by simp, length, iff_of_false ?_ fits, ?_⟩
    · rintro ⟨n, ok⟩
      cases ok
    · intro n ok
      cases ok

/-- A user without a name and a payload of the largest size that fits. -/
theorem request_exact_largest :
    ∃ n, (Buffer.radiusBuildRequest someParams 8192 ⟨[], by simp⟩ [] (List.replicate 4018 0)
        ⟨List.replicate 8192 0, 0⟩).1 = .ok n ∧ n = 4096 := by
  have exact' :=
    request_exact someParams ⟨[], by simp⟩ [] (List.replicate 4018 0) (List.replicate 8192 0)
    List.length_replicate
  have total : requestLen ⟨[], by simp⟩ [] (List.replicate 4018 0) = 4096 := by
    rw [requestLen, List.length_replicate]
    rfl
  obtain ⟨n, ok⟩ := exact'.2.2.1.mpr ⟨Nat.zero_le _, total.le⟩
  exact ⟨n, ok, (exact'.2.2.2 n ok).1.trans total⟩

end EdhocAuth.Upf
