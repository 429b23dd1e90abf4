/-
Primary authentication over an undisturbed link.

A delivery takes the first request on its way to the UE, and the answer of the UE back to the AMF.
What the AMF sends beside requests is an output; what a reject does to the UE is another procedure
of it.

The UE refuses a request whose key set identifier it has in use, or whose sequence number it cannot
accept; the core then sends another vector. The identifiers of the AMF go round through seven values
and the UE has two contexts, so there are two refusals of the first kind at most, and one of the
second: the three failures that the UE reports before it gives the network up.
-/

import EdhocAuth.Primary.Agreement

namespace EdhocAuth.Primary

open Octets Aka Machine

/-! ### The system -/

/-- The UE and the core network, with the requests that are on their way to the UE. -/
structure Link where
  ue : NasMm
  core : CoreNetwork
  down : List AuthenticationRequest

inductive LinkInput where
  /-- A registration that needs authentication, with the key set identifier of the UE. -/
  | start (ksi : Nat) (rand : Block UInt8 16)
  /-- The next request reaches the UE, and what the UE sends the AMF; `rand` is for another
  vector. -/
  | deliver (rand : Block UInt8 16) (eph : Ephemeral)
  /-- T3560 of the AMF expires. -/
  | t3560
  /-- Another procedure of the UE. -/
  | procedure (a : Aftermath)

/-- The requests among the outputs of the core. -/
def requestsIn (out : List CoreOutput) : List AuthenticationRequest :=
  out.filterMap fun
    | .authenticationRequest msg => some msg
    | _ => none

/-- How an authentication ends. -/
inductive Verdict where
  | rejected
  | authenticated (kamf : Block UInt8 32)

def verdictsIn (out : List CoreOutput) : List Verdict :=
  out.filterMap fun
    | .authenticationRequest _ => none
    | .reject => some .rejected
    | .authenticated kamf => some (.authenticated kamf)

/-- What the AMF gets of an output of the UE. -/
def uplink (rand : Block UInt8 16) : MmOutput → Option CoreInput
  | .authenticationResponse resStar => some (.authenticationResponse resStar)
  | .authenticationFailure cause auts => some (.authenticationFailure cause (auts.getD []) rand)
  | _ => none

section Step

variable (aes : Cipher) (hmac : Hmac) (sha256 : List UInt8 → Block UInt8 32) (cfg : UeConfig)

/-- The core takes its inputs one after the other. -/
def Link.feed (l : Link) (is : List CoreInput) : Link × List Verdict :=
  let out := outputs (coreStep aes hmac sha256) l.core is
  ({ l with
      core := after (coreStep aes hmac sha256) l.core is
      down := l.down ++ requestsIn out },
    verdictsIn out)

def linkStep (l : Link) : LinkInput → Link × List Verdict
  | .start ksi rand => l.feed aes hmac sha256 [.start ksi rand]
  | .deliver rand eph =>
    match l.down with
    | [] => (l, [])
    | msg :: down =>
      let (ue, sent) := mmStep aes hmac cfg l.ue (.request msg eph)
      ({ l with ue := ue, down := down } : Link).feed aes hmac sha256 (sent.filterMap (uplink rand))
  | .t3560 => l.feed aes hmac sha256 [.t3560]
  | .procedure a => ({ l with ue := (mmStep aes hmac cfg l.ue (.procedure a)).1 }, [])

end Step

variable {aes : Cipher} {hmac : Hmac} {sha256 : List UInt8 → Block UInt8 32} {cfg : UeConfig}

theorem feed_nil (l : Link) : l.feed aes hmac sha256 [] = (l, []) := by
  simp only [Link.feed, outputs, after, requestsIn, verdictsIn, List.filterMap_nil, List.append_nil]

/-- One message to the AMF is one step of the core. -/
theorem feed_singleton (l : Link) (i : CoreInput) :
    l.feed aes hmac sha256 [i] =
      ({ l with
          core := (coreStep aes hmac sha256 l.core i).1
          down := l.down ++ requestsIn (coreStep aes hmac sha256 l.core i).2 },
        verdictsIn (coreStep aes hmac sha256 l.core i).2) := by
  simp only [Link.feed, outputs, after, List.append_nil]

/-- A delivery whose request makes the UE send one message to the AMF. -/
theorem deliver_eq (sha256 : List UInt8 → Block UInt8 32) {l : Link} {msg : AuthenticationRequest}
    {down : List AuthenticationRequest} (next : l.down = msg :: down) (rand : Block UInt8 16)
    {eph : Ephemeral} {ue : NasMm} {o : MmOutput} {i : CoreInput}
    (answer : mmStep aes hmac cfg l.ue (.request msg eph) = (ue, [o]))
    (sent : uplink rand o = some i) :
    linkStep aes hmac sha256 cfg l (.deliver rand eph) =
      ({ ue := ue
         core := (coreStep aes hmac sha256 l.core i).1
         down := down ++ requestsIn (coreStep aes hmac sha256 l.core i).2 },
        verdictsIn (coreStep aes hmac sha256 l.core i).2) := by
  have single : [o].filterMap (uplink rand) = [i] := by
    rw [List.filterMap_cons, sent, List.filterMap_nil]
  simp only [linkStep, next, answer, single, feed_singleton]

/-! ### Key set identifiers -/

/-- The AMF comes to the identifier of this context within `w` more requests. -/
def comesTo (ksi w : Nat) (ctx : NasSecurityContext) : Bool := (ctx.ngKsi + 7 - ksi) % 7 ≤ w

/-- How many contexts of the UE the AMF comes to. -/
def conflicts (u : NasMm) (ksi w : Nat) : Nat :=
  (if u.currentNsCtx.any (comesTo ksi w) then 1 else 0) +
    (if u.nonCurrentNsCtx.any (comesTo ksi w) then 1 else 0)

/-- Two contexts conflict with two identifiers at most. -/
theorem conflicts_le (u : NasMm) (ksi w : Nat) : conflicts u ksi w ≤ 2 := by
  unfold conflicts
  split <;> split <;> omega

/-- The identifiers of the AMF go round. -/
theorem nextKsi_eq {ksi : Nat} (small : ksi < ksiNotAvailable) : nextKsi ksi = (ksi + 1) % 7 := by
  unfold nextKsi
  unfold ksiNotAvailable at *
  split <;> omega

/-- What one request more does to the number of a context. -/
theorem comesTo_next (ctx : Option NasSecurityContext) {ksi w : Nat}
    (small : ksi < ksiNotAvailable) (short : w < 6) :
    (if ctx.any (comesTo (nextKsi ksi) w) then 1 else 0) +
        (if ctx.any (fun ctx => decide (ctx.ngKsi = ksi)) then 1 else 0) ≤
      (if ctx.any (comesTo ksi (w + 1)) then 1 else 0) := by
  cases ctx with
  | none => exact Nat.le_refl _
  | some ctx =>
    simp only [Option.any_some, comesTo, decide_eq_true_eq, nextKsi_eq small]
    unfold ksiNotAvailable at small
    split <;> split <;> split <;> omega

/-- An identifier that is in use is one conflict less among those to come. -/
theorem conflicts_next (u : NasMm) {ksi w : Nat} (small : ksi < ksiNotAvailable) (short : w < 6) :
    conflicts u (nextKsi ksi) w + (if u.ksiInUse ksi then 1 else 0) ≤ conflicts u ksi (w + 1) := by
  have current := comesTo_next u.currentNsCtx small short
  have other := comesTo_next u.nonCurrentNsCtx small short
  have both (a b : Bool) :
      (if a || b then 1 else 0) ≤ (if a then 1 else 0) + (if b then 1 else 0) := by
    cases a <;> cases b <;> decide
  have used := both (u.currentNsCtx.any fun ctx => ctx.ngKsi = ksi)
    (u.nonCurrentNsCtx.any fun ctx => ctx.ngKsi = ksi)
  unfold conflicts NasMm.ksiInUse
  omega

theorem conflicts_pos {u : NasMm} {ksi : Nat} (used : u.ksiInUse ksi = true) :
    0 < conflicts u ksi 0 := by
  unfold NasMm.ksiInUse at used
  rw [Bool.or_eq_true] at used
  have here {ctx : Option NasSecurityContext}
      (found : ctx.any (fun ctx => decide (ctx.ngKsi = ksi)) = true) :
      ctx.any (comesTo ksi 0) = true := by
    cases ctx with
    | none => exact found
    | some ctx =>
      rw [Option.any_some, decide_eq_true_iff] at found
      rw [Option.any_some, comesTo, decide_eq_true_iff]
      omega
  unfold conflicts
  rcases used with current | other
  · rw [if_pos (here current)]
    omega
  · rw [if_pos (here other)]
    omega

/-! ### Numbers -/

/-- How the sequence numbers of the two sides stand while a vector waits for its answer: whether a
resynchronisation may still come, and what the number of the document cannot exceed afterwards. -/
inductive Numbers (m : SqnManager) (sqn doc limit : Nat) : Nat → Prop where
  /-- The core is ahead. -/
  | ahead (above : m.top + 32 ≤ sqn) (between : sqn ≤ doc ∧ doc ≤ sqn + 32)
      (near : doc ≤ m.top + 65) (room : doc + 32 ≤ limit) : Numbers m sqn doc limit 0
  /-- The vector has the number of the document. -/
  | untried (same : sqn = doc) (level : seqOf m.top = seqOf doc → m.top ≤ doc)
      (room : max m.top doc + 97 ≤ limit) : Numbers m sqn doc limit 1

/-- After an authentication the document is one or two SEQ ahead of the UE. -/
structure InStep (u : NasMm) (doc limit : Nat) : Prop where
  above : u.sqnMng.top + 32 ≤ doc
  near : doc ≤ u.sqnMng.top + 64
  below : doc ≤ limit

/-- A number shortly ahead of all stored ones is acceptable. -/
theorem acceptable_ahead {u : NasMm} (kept : Kept u) {n : Nat} (above : u.sqnMng.top + 32 ≤ n)
    (near : n ≤ u.sqnMng.top + 65) : u.sqnMng.Acceptable n := by
  have last := u.sqnMng.last_le_top (u.sqnMng.indOf n)
  have window : u.sqnMng.wrappingDelta.toNat = 2 ^ 28 := by
    rw [kept.window]
    rfl
  unfold SqnManager.Acceptable
  rw [kept.seqOf_eq, kept.seqOf_eq, kept.seqOf_eq, window]
  unfold seqOf
  omega

/-- A document that is not behind in IND has an acceptable number only if it is ahead. -/
theorem level_of_acceptable {u : NasMm} (kept : Kept u) {doc : Nat}
    (level : seqOf u.sqnMng.top = seqOf doc → u.sqnMng.top ≤ doc)
    (acceptable : u.sqnMng.Acceptable doc) : u.sqnMng.top ≤ doc := by
  have above := acceptable.1
  rw [kept.seqOf_eq, kept.seqOf_eq] at above
  unfold seqOf at above level
  omega

/-- Where no resynchronisation comes any more, the number is accepted. -/
theorem Numbers.acceptable {u : NasMm} (kept : Kept u) {sqn doc limit : Nat}
    (numbers : Numbers u.sqnMng sqn doc limit 0) : u.sqnMng.Acceptable sqn := by
  cases numbers with
  | ahead above between near _ => exact acceptable_ahead kept above (by omega)

theorem Numbers.small {m : SqnManager} {sqn doc limit repairs : Nat}
    (numbers : Numbers m sqn doc limit repairs) : sqn ≤ doc ∧ doc + 32 ≤ limit := by
  cases numbers with
  | ahead _ between _ room => exact ⟨between.1, room⟩
  | untried same _ room => omega

/-- An accepted number is the highest, and leaves the two sides in step. -/
theorem Numbers.accepted {u : NasMm} (kept : Kept u) {sqn doc limit repairs : Nat}
    (numbers : Numbers u.sqnMng sqn doc limit repairs) (acceptable : u.sqnMng.Acceptable sqn) :
    u.sqnMng.top ≤ sqn ∧ sqn + 32 ≤ doc + 32 ∧ doc + 32 ≤ sqn + 64 := by
  cases numbers with
  | ahead above between near _ => omega
  | untried same level _ =>
    subst same
    have most := level_of_acceptable kept level acceptable
    omega

/-- A vector that follows a conflict has the number of the document. -/
theorem Numbers.again {m : SqnManager} {sqn doc limit repairs : Nat}
    (numbers : Numbers m sqn doc limit repairs) : Numbers m doc doc limit repairs := by
  cases numbers with
  | ahead above between near room => exact .ahead (by omega) (by omega) near room
  | untried same level room => exact .untried rfl level room

/-- A resynchronisation brings the core ahead. -/
theorem numbers_resynchronised {m : SqnManager} {doc limit : Nat}
    (room : max m.top doc + 97 ≤ limit) (fits : limit < 2 ^ 48) :
    Numbers m (resynchronised m.top) ((resynchronised m.top + 32) % 2 ^ 48) limit 0 := by
  have first : resynchronised m.top = m.top + 33 := Nat.mod_eq_of_lt (by omega)
  rw [first, Nat.mod_eq_of_lt (by omega)]
  exact .ahead (by omega) (by omega) (by omega) (by omega)

/-! ### One delivery -/

/-- A vector is on its way, with at most `w` failures to come. -/
structure Asked (aes : Cipher) (hmac : Hmac) (sha256 : List UInt8 → Block UInt8 32)
    (cfg : UeConfig) (snn : CString) (limit w repairs : Nat) (l : Link) (rand : Block UInt8 16)
    (sqn : Nat) : Prop where
  attached : Attached cfg snn l.ue
  named : l.core.amf.snn = snn
  waiting : Waiting aes hmac sha256 cfg rand (sqnBuffer sqn) l.core
  down : l.down = [gmmBuildAuthenticationRequest l.core.amf]
  new : l.ue.rand ≠ rand.toList
  numbers : Numbers l.ue.sqnMng sqn l.core.doc.sqn limit repairs
  budget : conflicts l.ue l.core.amf.ksi w + repairs ≤ w
  chances : l.ue.nwConsecutiveAuthFailure + conflicts l.ue l.core.amf.ksi w + repairs ≤ 3

/-- The UE and the core have the same keys, and go on from numbers in step. -/
structure Established (aes : Cipher) (cfg : UeConfig) (snn : CString) (limit : Nat) (l : Link) :
    Prop where
  attached : Attached cfg snn l.ue
  named : l.core.amf.snn = snn
  serves : Serves aes cfg l.core
  idle : l.down = []
  hopeful : l.ue.nwConsecutiveAuthFailure = 0
  inStep : InStep l.ue l.core.doc.sqn limit
  keys : ∃ ctx kamf, l.ue.nonCurrentNsCtx = some ctx ∧ l.core.amf.kamf = some kamf ∧
    SameKeys ctx l.core.ausf.kausf kamf ∧ ctx.ngKsi = l.core.amf.ksi

/-- The UE after a failure it has reported. -/
def NasMm.failed (u : NasMm) : NasMm :=
  ({ u with nwConsecutiveAuthFailure := u.nwConsecutiveAuthFailure + 1 } : NasMm).clear

/-- Before the third failure in a row a failure is reported. -/
theorem failing_sendFailure {u : NasMm} (chance : u.nwConsecutiveAuthFailure < 3)
    (cause : EMmCause) (auts : NasMm → Option (List UInt8))
    (same : auts { u with nwConsecutiveAuthFailure := u.nwConsecutiveAuthFailure + 1 } = auts u) :
    (failing u fun v => sendFailure v cause (auts v)) =
      (u.failed, [.authenticationFailure cause (auts u)]) := by
  simp only [failing, networkFailingTheAuthCheck, if_pos chance, List.nil_append, sendFailure, same]
  rfl

/-- A failure does not detach the UE. -/
theorem Attached.failed {snn : CString} {u : NasMm} (attached : Attached cfg snn u) :
    Attached cfg snn u.failed where
  kept := ⟨attached.kept.reached, attached.kept.bits, attached.kept.window⟩
  valid := attached.valid
  known := attached.known
  apart := attached.apart

/-- The next vector is on its way after a failure that the UE has reported. -/
theorem asked_of_requested {snn : CString} {limit w repairs : Nat} {l : Link} {sqn doc : Nat}
    {rand : Block UInt8 16} {r : CoreNetwork × List CoreOutput}
    (attached : Attached cfg snn l.ue) (named : l.core.amf.snn = snn)
    (requested : Requested aes hmac sha256 cfg l.core rand sqn doc r)
    (numbers : Numbers l.ue.sqnMng sqn doc limit repairs)
    (budget : conflicts l.ue (nextKsi l.core.amf.ksi) w + repairs ≤ w)
    (chances : l.ue.nwConsecutiveAuthFailure + conflicts l.ue (nextKsi l.core.amf.ksi) w + repairs <
      3) :
    verdictsIn r.2 = [] ∧
      Asked aes hmac sha256 cfg snn limit w repairs
        { ue := l.ue.failed, core := r.1, down := [] ++ requestsIn r.2 } rand sqn := by
  constructor
  · rw [requested.sent]
    rfl
  · constructor
    · exact attached.failed
    · exact requested.snn.trans named
    · exact requested.waiting
    · rw [requested.sent]
      rfl
    · exact (Block.toList_ne_nil rand).symm
    · show Numbers l.ue.sqnMng sqn r.1.doc.sqn limit repairs
      rwa [requested.docSqn]
    · show conflicts l.ue r.1.amf.ksi w + repairs ≤ w
      rwa [requested.ksi]
    · show l.ue.nwConsecutiveAuthFailure + 1 + conflicts l.ue r.1.amf.ksi w + repairs ≤ 3
      rw [requested.ksi]
      omega

section Deliver

variable {snn : CString} {limit w repairs : Nat} {l : Link} {rand : Block UInt8 16} {sqn : Nat}

/-- The key set identifier is in use: the UE says so, and the AMF takes the next one. -/
theorem Asked.conflict (asked : Asked aes hmac sha256 cfg snn limit (w + 1) repairs l rand sqn)
    (short : w < 6) (used : l.ue.ksiInUse l.core.amf.ksi = true) (rand' : Block UInt8 16)
    (eph : Ephemeral) :
    let r := linkStep aes hmac sha256 cfg l (.deliver rand' eph)
    r.2 = [] ∧ Asked aes hmac sha256 cfg snn limit w repairs r.1 rand' l.core.doc.sqn := by
  have fewer := conflicts_next l.ue asked.waiting.ksi short
  rw [if_pos used] at fewer
  have budget := asked.budget
  have chances := asked.chances
  have chance : l.ue.nwConsecutiveAuthFailure < 3 := by omega
  have same : l.ue.ksiInUse (gmmBuildAuthenticationRequest l.core.amf).ngKSI.ksi = true := used
  have answer := mmStep_carries aes hmac cfg asked.attached.valid asked.attached.known
    asked.waiting.carries eph
  rw [if_pos same, failing_sendFailure chance _ (fun _ => none) rfl] at answer
  have requested := refusedKsi asked.waiting [] rand'
  have delivered := deliver_eq sha256 asked.down rand' answer rfl
  intro r
  rw [show r = _ from delivered]
  exact asked_of_requested asked.attached asked.named requested asked.numbers.again (by omega)
    (by omega)

/-- The number cannot be accepted: the UE sends an AUTS, and the core goes ahead of it. -/
theorem Asked.resynchronise (asked : Asked aes hmac sha256 cfg snn limit (w + 1) 1 l rand sqn)
    (short : w < 6) (free : l.ue.ksiInUse l.core.amf.ksi = false)
    (outside : ¬ l.ue.sqnMng.Acceptable sqn) (fits : limit < 2 ^ 48) (rand' : Block UInt8 16)
    (eph : Ephemeral) :
    let r := linkStep aes hmac sha256 cfg l (.deliver rand' eph)
    r.2 = [] ∧ ∃ sqn', Asked aes hmac sha256 cfg snn limit w 0 r.1 rand' sqn' := by
  have fewer := conflicts_next l.ue asked.waiting.ksi short
  have budget := asked.budget
  have chances := asked.chances
  have chance : l.ue.nwConsecutiveAuthFailure < 3 := by omega
  have small := asked.numbers.small
  have number : SqnManager.number (sqnBuffer sqn) = sqn := number_sqnBuffer (by omega)
  have known : Attached cfg l.core.amf.snn l.ue := by
    rw [asked.named]
    exact asked.attached
  rcases mmStep_free hmac known asked.waiting.carries free asked.new eph with
    ⟨-, answer⟩ | ⟨acceptable, -⟩
  · rw [failing_sendFailure chance _
      (fun v => some (autsFor aes cfg v.sqnMng rand).toList) rfl] at answer
    have requested := resynchronises asked.attached.kept.reached asked.waiting rand'
    have delivered := deliver_eq sha256 asked.down rand' answer rfl
    intro r
    rw [show r = _ from delivered]
    cases asked.numbers with
    | untried same level room =>
      obtain ⟨silent, next⟩ := asked_of_requested asked.attached asked.named requested
        (numbers_resynchronised room fits) (w := w) (by omega) (by omega)
      exact ⟨silent, _, next⟩
  · rw [number] at acceptable
    exact absurd acceptable outside

/-- The UE answers, and the core confirms. -/
theorem Asked.accept (asked : Asked aes hmac sha256 cfg snn limit w repairs l rand sqn)
    (free : l.ue.ksiInUse l.core.amf.ksi = false) (acceptable : l.ue.sqnMng.Acceptable sqn)
    (fits : limit < 2 ^ 48) (rand' : Block UInt8 16) (eph : Ephemeral) :
    let r := linkStep aes hmac sha256 cfg l (.deliver rand' eph)
    ∃ kamf, r.2 = [.authenticated kamf] ∧ r.1.core.amf.kamf = some kamf ∧
      r.1.ue.rand = rand.toList ∧ Established aes cfg snn limit r.1 := by
  have small := asked.numbers.small
  have number : SqnManager.number (sqnBuffer sqn) = sqn := number_sqnBuffer (by omega)
  have known : Attached cfg l.core.amf.snn l.ue := by
    rw [asked.named]
    exact asked.attached
  rcases mmStep_free hmac known asked.waiting.carries free asked.new eph with
    ⟨outside, -⟩ | ⟨-, m, advanced, answer⟩
  · rw [number] at outside
    exact absurd acceptable outside
  · have delivered := deliver_eq sha256 asked.down rand' answer rfl
    rw [confirmed asked.waiting] at delivered
    intro r
    rw [show r = _ from delivered]
    obtain ⟨most, near⟩ := asked.numbers.accepted asked.attached.kept acceptable
    rw [number] at advanced
    have top := advanced.top
    rw [max_eq_right most] at top
    have docSqn : (ogsDbiIncrementSqn l.core.doc).sqn = l.core.doc.sqn + 32 := by
      have masked := and_maxSqn (l.core.doc.sqn + 32)
      rw [Nat.mod_eq_of_lt (by omega)] at masked
      exact masked
    have serves := asked.waiting.serves
    refine ⟨_, rfl, rfl, rfl, ?_⟩
    constructor
    · exact ⟨⟨advanced.reached, advanced.indBitLen.trans asked.attached.kept.bits,
        advanced.wrappingDelta.trans asked.attached.kept.window⟩, asked.attached.valid,
        asked.attached.known, asked.attached.apart⟩
    · exact asked.named
    · exact ⟨serves.k, serves.opc, serves.field,
        by rw [docSqn]; omega, serves.supi, serves.subscriber, serves.named, serves.abba⟩
    · rfl
    · rfl
    · constructor
      · show m.top + 32 ≤ (ogsDbiIncrementSqn l.core.doc).sqn
        omega
      · show (ogsDbiIncrementSqn l.core.doc).sqn ≤ m.top + 64
        omega
      · show (ogsDbiIncrementSqn l.core.doc).sqn ≤ limit
        omega
    · refine ⟨_, _, rfl, rfl, ?_, rfl⟩
      show SameKeys _ l.core.ausf.kausf _
      rw [asked.waiting.ausfKausf]
      exact sameKeys serves ((usedSqnXorAk_eq_iff aes cfg
        (by rw [number]; exact advanced) rand).mpr (by rw [number]; exact most))

/-- What a delivery comes to: an authentication, or another vector and one failure fewer to come. -/
theorem Asked.delivered (asked : Asked aes hmac sha256 cfg snn limit w repairs l rand sqn)
    (short : w < 6) (fits : limit < 2 ^ 48) (rand' : Block UInt8 16) (eph : Ephemeral) :
    let r := linkStep aes hmac sha256 cfg l (.deliver rand' eph)
    (∃ kamf, r.2 = [.authenticated kamf] ∧ r.1.core.amf.kamf = some kamf ∧
      r.1.ue.rand = rand.toList ∧ Established aes cfg snn limit r.1) ∨
    (r.2 = [] ∧ ∃ w' repairs' sqn', w = w' + 1 ∧
      Asked aes hmac sha256 cfg snn limit w' repairs' r.1 rand' sqn') := by
  have budget := asked.budget
  cases used : l.ue.ksiInUse l.core.amf.ksi with
  | true =>
    right
    cases w with
    | zero =>
      have some := conflicts_pos used
      omega
    | succ w =>
      obtain ⟨silent, next⟩ := asked.conflict (by omega) used rand' eph
      exact ⟨silent, w, _, _, rfl, next⟩
  | false =>
    by_cases acceptable : l.ue.sqnMng.Acceptable sqn
    · left
      exact asked.accept used acceptable fits rand' eph
    · right
      have untried : repairs = 1 := by
        cases numbers : asked.numbers with
        | ahead above between near room =>
          exact absurd (asked.numbers.acceptable asked.attached.kept) acceptable
        | untried _ _ _ => rfl
      subst untried
      cases w with
      | zero => omega
      | succ w =>
        obtain ⟨silent, sqn', next⟩ :=
          asked.resynchronise (by omega) used acceptable fits rand' eph
        exact ⟨silent, w, _, sqn', rfl, next⟩

end Deliver

/-! ### Registrations -/

def deliveriesOf (ds : List (Block UInt8 16 × Ephemeral)) : List LinkInput :=
  ds.map fun d => .deliver d.1 d.2

/-- Nothing is on its way: a delivery does nothing. -/
theorem deliveries_idle (aes : Cipher) (hmac : Hmac) (sha256 : List UInt8 → Block UInt8 32)
    (cfg : UeConfig) {l : Link} (idle : l.down = []) (ds : List (Block UInt8 16 × Ephemeral)) :
    after (linkStep aes hmac sha256 cfg) l (deliveriesOf ds) = l ∧
      outputs (linkStep aes hmac sha256 cfg) l (deliveriesOf ds) = [] := by
  induction ds with
  | nil => exact ⟨rfl, rfl⟩
  | cons d ds ih =>
    have same : linkStep aes hmac sha256 cfg l (.deliver d.1 d.2) = (l, []) := by
      simp only [linkStep, idle]
    show after _ (linkStep aes hmac sha256 cfg l (.deliver d.1 d.2)).1 _ = l ∧
      (linkStep aes hmac sha256 cfg l (.deliver d.1 d.2)).2 ++ outputs _
        (linkStep aes hmac sha256 cfg l (.deliver d.1 d.2)).1 _ = []
    rw [same]
    exact ih

/-- A run that ends in one authentication, with the keys the same on both sides. -/
structure Ends (aes : Cipher) (cfg : UeConfig) (snn : CString) (limit : Nat)
    (rands : List (Block UInt8 16)) (l : Link) (verdicts : List Verdict) : Prop where
  verdict : ∃ kamf, verdicts = [.authenticated kamf] ∧ l.core.amf.kamf = some kamf
  stored : ∃ rand ∈ rands, l.ue.rand = rand.toList
  established : Established aes cfg snn limit l

/-- More deliveries than failures to come end in an authentication. -/
theorem Asked.ends {snn : CString} {limit w repairs : Nat} {l : Link} {rand : Block UInt8 16}
    {sqn : Nat} (asked : Asked aes hmac sha256 cfg snn limit w repairs l rand sqn) (short : w < 6)
    (fits : limit < 2 ^ 48) {ds : List (Block UInt8 16 × Ephemeral)} (enough : w < ds.length) :
    Ends aes cfg snn limit (rand :: ds.map Prod.fst)
      (after (linkStep aes hmac sha256 cfg) l (deliveriesOf ds))
      (outputs (linkStep aes hmac sha256 cfg) l (deliveriesOf ds)) := by
  induction ds generalizing w repairs l rand sqn with
  | nil => exact absurd enough (Nat.not_lt_zero w)
  | cons d ds ih =>
    show Ends aes cfg snn limit _
      (after _ (linkStep aes hmac sha256 cfg l (.deliver d.1 d.2)).1 (deliveriesOf ds))
      ((linkStep aes hmac sha256 cfg l (.deliver d.1 d.2)).2 ++ outputs _
        (linkStep aes hmac sha256 cfg l (.deliver d.1 d.2)).1 (deliveriesOf ds))
    rcases asked.delivered short fits d.1 d.2 with
      ⟨kamf, verdict, key, stored, established⟩ | ⟨silent, w', repairs', sqn', less, next⟩
    · obtain ⟨same, nothing⟩ := deliveries_idle aes hmac sha256 cfg established.idle ds
      rw [same, nothing, List.append_nil]
      exact ⟨⟨kamf, verdict, key⟩, ⟨rand, List.mem_cons_self, stored⟩, established⟩
    · rw [silent, List.nil_append]
      have ends := ih next (by omega) (by simp only [List.length_cons] at enough; omega)
      obtain ⟨used, mem, stored⟩ := ends.stored
      exact ⟨ends.verdict, ⟨used, List.mem_cons_of_mem rand mem, stored⟩, ends.established⟩

/-- A registration: another procedure of the UE, the start of an authentication, and deliveries. -/
structure Registration where
  aftermath : Aftermath
  ksi : Nat
  rand : Block UInt8 16
  deliveries : List (Block UInt8 16 × Ephemeral)

def Registration.inputs (r : Registration) : List LinkInput :=
  .procedure r.aftermath :: .start r.ksi r.rand :: deliveriesOf r.deliveries

/-- The RANDs that a registration may use. -/
def Registration.rands (r : Registration) : List (Block UInt8 16) :=
  r.rand :: r.deliveries.map Prod.fst

/-- The UE is in the serving network, and the link lasts for four requests. -/
structure Registration.Proper (snn : CString) (r : Registration) : Prop where
  valid : r.aftermath.valid = true
  known : r.aftermath.currentSnn = some snn
  lasts : 3 < r.deliveries.length

/-- The UE and the core are ready for a registration. -/
structure Ready (aes : Cipher) (cfg : UeConfig) (snn : CString) (limit repairs : Nat) (l : Link) :
    Prop where
  kept : Kept l.ue
  apart : separated cfg.amf = true
  named : l.core.amf.snn = snn
  serves : Serves aes cfg l.core
  idle : l.down = []
  hopeful : l.ue.nwConsecutiveAuthFailure = 0
  numbers : Numbers l.ue.sqnMng l.core.doc.sqn l.core.doc.sqn limit repairs

/-- After an authentication the next registration can begin. -/
theorem Established.ready {snn : CString} {limit : Nat} {l : Link}
    (established : Established aes cfg snn limit l) : Ready aes cfg snn (limit + 32) 0 l where
  kept := established.attached.kept
  apart := established.attached.apart
  named := established.named
  serves := established.serves
  idle := established.idle
  hopeful := established.hopeful
  numbers := by
    have inStep := established.inStep
    apply Numbers.ahead inStep.above
    · omega
    · exact le_trans inStep.near (by omega)
    · exact Nat.add_le_add_right inStep.below 32

/-- One resynchronisation is enough. -/
theorem Numbers.repairs_le {m : SqnManager} {sqn doc limit repairs : Nat}
    (numbers : Numbers m sqn doc limit repairs) : repairs ≤ 1 := by
  cases numbers with
  | ahead => exact Nat.zero_le 1
  | untried => exact Nat.le_refl 1

theorem Aftermath.apply_sqnMng (a : Aftermath) (u : NasMm) : (a.apply u).sqnMng = u.sqnMng := by
  cases deletes : a.deletesRand <;> simp [Aftermath.apply, deletes, NasMm.clear]

theorem Aftermath.apply_failures (a : Aftermath) (u : NasMm) :
    (a.apply u).nwConsecutiveAuthFailure = u.nwConsecutiveAuthFailure := by
  cases deletes : a.deletesRand <;> simp [Aftermath.apply, deletes, NasMm.clear]

theorem Aftermath.apply_rand (a : Aftermath) {u : NasMm} {rand : Block UInt8 16}
    (new : u.rand ≠ rand.toList) : (a.apply u).rand ≠ rand.toList := by
  cases deletes : a.deletesRand with
  | false => simpa [Aftermath.apply, deletes] using new
  | true => simpa [Aftermath.apply, deletes, NasMm.clear] using (Block.toList_ne_nil rand).symm

/-- The start of an authentication. -/
theorem Ready.asked (hmac : Hmac) (sha256 : List UInt8 → Block UInt8 32) {snn : CString}
    {limit repairs : Nat} {l : Link} {a : Aftermath} {ksi : Nat} {rand : Block UInt8 16}
    (ready : Ready aes cfg snn limit repairs l) (valid : a.valid = true)
    (known : a.currentSnn = some snn) (new : l.ue.rand ≠ rand.toList) :
    let r := linkStep aes hmac sha256 cfg (linkStep aes hmac sha256 cfg l (.procedure a)).1
      (.start ksi rand)
    r.2 = [] ∧ Asked aes hmac sha256 cfg snn limit 3 repairs r.1 rand l.core.doc.sqn := by
  have requested := started hmac sha256 ready.serves ksi rand
  have few := ready.numbers.repairs_le
  have two :=
    conflicts_le (a.apply l.ue) (coreStep aes hmac sha256 l.core (.start ksi rand)).1.amf.ksi 3
  have kept := ready.kept
  intro r
  let begun : Link :=
    { ue := a.apply l.ue
      core := (coreStep aes hmac sha256 l.core (.start ksi rand)).1
      down := [gmmBuildAuthenticationRequest
      (coreStep aes hmac sha256 l.core (.start ksi rand)).1.amf] }
  have same : r = (begun, []) := by
    have fed : r = _ := feed_singleton { l with ue := a.apply l.ue } (.start ksi rand)
    rw [fed, ready.idle, requested.sent]
    rfl
  rw [same]
  constructor
  · rfl
  · constructor
    · exact ⟨⟨by rw [a.apply_sqnMng]; exact kept.reached, by rw [a.apply_sqnMng]; exact kept.bits,
        by rw [a.apply_sqnMng]; exact kept.window⟩, valid, known, ready.apart⟩
    · exact requested.snn.trans ready.named
    · exact requested.waiting
    · rfl
    · exact a.apply_rand new
    · show Numbers (a.apply l.ue).sqnMng _
        (coreStep aes hmac sha256 l.core (.start ksi rand)).1.doc.sqn _ _
      rw [a.apply_sqnMng, requested.docSqn]
      exact ready.numbers
    · exact le_trans (Nat.add_le_add two few) (Nat.le_refl 3)
    · show (a.apply l.ue).nwConsecutiveAuthFailure + conflicts (a.apply l.ue) _ 3 + repairs ≤ 3
      rw [a.apply_failures, ready.hopeful, Nat.zero_add]
      exact le_trans (Nat.add_le_add two few) (Nat.le_refl 3)

/-- One registration. -/
theorem Ready.register (hmac : Hmac) (sha256 : List UInt8 → Block UInt8 32) {snn : CString}
    {limit repairs : Nat} {l : Link} {r : Registration} (ready : Ready aes cfg snn limit repairs l)
    (proper : r.Proper snn) (fits : limit < 2 ^ 48) (new : l.ue.rand ≠ r.rand.toList) :
    Ends aes cfg snn limit r.rands (after (linkStep aes hmac sha256 cfg) l r.inputs)
      (outputs (linkStep aes hmac sha256 cfg) l r.inputs) := by
  obtain ⟨silent, asked⟩ := ready.asked hmac sha256 proper.valid proper.known new
  show Ends aes cfg snn limit r.rands
    (after _ (linkStep aes hmac sha256 cfg _ (.start r.ksi r.rand)).1 (deliveriesOf r.deliveries))
    ([] ++ ((linkStep aes hmac sha256 cfg (linkStep aes hmac sha256 cfg l
      (.procedure r.aftermath)).1 (.start r.ksi r.rand)).2 ++
      outputs _ (linkStep aes hmac sha256 cfg _ (.start r.ksi r.rand)).1
        (deliveriesOf r.deliveries)))
  rw [List.nil_append, silent, List.nil_append]
  exact asked.ends (by decide) fits proper.lasts

/-- The two sides after a run of registrations that have all ended in an authentication. -/
structure Registered (l : Link) (verdicts : List Verdict) (n : Nat) : Prop where
  all : ∃ kamfs : List (Block UInt8 32), verdicts = kamfs.map .authenticated ∧ kamfs.length = n
  keys : 0 < n → ∃ ctx kamf, l.ue.nonCurrentNsCtx = some ctx ∧ l.core.amf.kamf = some kamf ∧
    SameKeys ctx l.core.ausf.kausf kamf ∧ ctx.ngKsi = l.core.amf.ksi

/-- Any number of registrations in a row succeed. -/
theorem Ready.registrations {snn : CString} {limit repairs : Nat} {l : Link}
    {rs : List Registration} (ready : Ready aes cfg snn limit repairs l)
    (proper : ∀ r ∈ rs, r.Proper snn) (fits : limit + 32 * rs.length < 2 ^ 48 + 32)
    (fresh : (rs.flatMap Registration.rands).Nodup)
    (new : ∀ rand ∈ rs.flatMap Registration.rands, l.ue.rand ≠ rand.toList) :
    Registered (after (linkStep aes hmac sha256 cfg) l (rs.flatMap Registration.inputs))
      (outputs (linkStep aes hmac sha256 cfg) l (rs.flatMap Registration.inputs)) rs.length := by
  induction rs generalizing limit repairs l with
  | nil => exact ⟨⟨[], rfl, rfl⟩, fun positive => absurd positive (Nat.lt_irrefl 0)⟩
  | cons r rs ih =>
    rw [List.flatMap_cons] at fresh new
    obtain ⟨-, later, apart⟩ := List.nodup_append.mp fresh
    rw [List.length_cons] at fits
    have ends := ready.register hmac sha256 (proper r List.mem_cons_self)
      (by omega) (new r.rand (List.mem_append_left _ List.mem_cons_self))
    rw [List.flatMap_cons, after_append, outputs_append]
    obtain ⟨kamf, verdict, key⟩ := ends.verdict
    have rest := ih ends.established.ready (fun r' mem => proper r' (List.mem_cons_of_mem r mem))
      (by omega) later (by
        intro rand mem same
        obtain ⟨used, own, stored⟩ := ends.stored
        have equal : used = rand := List.Vector.eq _ _ (stored.symm.trans same)
        exact apart used own rand mem equal)
    obtain ⟨kamfs, all, count⟩ := rest.all
    constructor
    · exists kamf :: kamfs
      rw [verdict, all, List.length_cons, count]
      exact ⟨rfl, rfl⟩
    · intro _
      cases rs with
      | nil => exact ends.established.keys
      | cons r' rs => exact rest.keys (Nat.succ_pos _)

/-- Over an undisturbed link every registration ends in an authentication within four requests, and
the UE and the core have the same keys then, until the 48 bits of the sequence numbers run out. The
UE may be ahead of the core by any number, and its contexts may have any key set identifiers. -/
theorem registrations_succeed (aes : Cipher) (hmac : Hmac) (sha256 : List UInt8 → Block UInt8 32)
    (cfg : UeConfig) (snn : CString) (l : Link) (rs : List Registration) (kept : Kept l.ue)
    (hopeful : l.ue.nwConsecutiveAuthFailure = 0) (apart : separated cfg.amf = true)
    (named : l.core.amf.snn = snn) (serves : Serves aes cfg l.core) (idle : l.down = [])
    (level : seqOf l.ue.sqnMng.top = seqOf l.core.doc.sqn → l.ue.sqnMng.top ≤ l.core.doc.sqn)
    (room : max l.ue.sqnMng.top l.core.doc.sqn + 65 + 32 * rs.length < 2 ^ 48)
    (proper : ∀ r ∈ rs, r.Proper snn) (fresh : (rs.flatMap Registration.rands).Nodup)
    (new : ∀ rand ∈ rs.flatMap Registration.rands, l.ue.rand ≠ rand.toList) :
    Registered (after (linkStep aes hmac sha256 cfg) l (rs.flatMap Registration.inputs))
      (outputs (linkStep aes hmac sha256 cfg) l (rs.flatMap Registration.inputs)) rs.length := by
  have ready : Ready aes cfg snn (max l.ue.sqnMng.top l.core.doc.sqn + 97) 1 l :=
    { kept := kept
      apart := apart
      named := named
      serves := serves
      idle := idle
      hopeful := hopeful
      numbers := .untried rfl level (Nat.le_refl _) }
  exact ready.registrations proper (by omega) fresh new

def plainRegistration : Registration where
  aftermath := plainAftermath
  ksi := ksiNotAvailable
  rand := plainRand
  deliveries :=
    [(Block.fill 16 2, plainEph), (Block.fill 16 3, plainEph), (Block.fill 16 4, plainEph),
      (Block.fill 16 5, plainEph)]

def plainLink : Link := ⟨plainUe, plainCore, []⟩

/-- The example registers once. -/
theorem plain_registered :
    Registered
      (after (linkStep plainCipher plainHmac plainSha256 plainCfg) plainLink
        ([plainRegistration].flatMap Registration.inputs))
      (outputs (linkStep plainCipher plainHmac plainSha256 plainCfg) plainLink
        ([plainRegistration].flatMap Registration.inputs)) 1 := by
  apply registrations_succeed plainCipher plainHmac plainSha256 plainCfg plainSnn plainLink
    [plainRegistration] plain_attached.kept rfl (by decide) rfl plain_serves rfl
  · intro _
    decide +kernel
  · decide +kernel
  · intro r mem
    rw [List.mem_singleton.mp mem]
    exact ⟨rfl, rfl, by decide⟩
  · decide +kernel
  · intro rand _
    exact (Block.toList_ne_nil rand).symm

end EdhocAuth.Primary
