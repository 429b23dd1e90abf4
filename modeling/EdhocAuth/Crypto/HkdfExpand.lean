/-
HKDF-Expand, as it is written in `edhoc4.c`, `edhoc03.c` and `bootstrap.c`.

The three loops are the same: `t` holds the last block and is overwritten in place while it is an
input of the next one, only the last block is cut, and the counter has eight bits. `Expand.After` is
the invariant: after `n` iterations `t` is `T(n)` and the front of the caller's buffer is
`T(1) | ... | T(n)`. The outputs of `Primitives.hkdfExpand` and `C.hkdfExpand` are what these loops
leave in the buffer.
-/

import EdhocAuth.Bootstrap.KeySchedule
import EdhocAuth.Crypto.Transparent
import EdhocAuth.Eap.Fragment
import EdhocAuth.Lib.Prf
import EdhocAuth.Lib.Sha256

namespace EdhocAuth

open Eap (memcpyAt memcpyAt_append)

/-! ### The loop -/

/-- The variables of the loop and the caller's buffer `okm`. -/
structure Expand where
  t : List UInt8
  tlen : Nat
  done : Nat
  ctr : UInt8
  okm : List UInt8

namespace Expand

variable (hmac : List UInt8 → Block UInt8 32) (info : List UInt8) (okmLen : Nat)

/-- The body; `hmac` is HMAC-SHA256 under the PRK, over what is fed into it piece by piece. -/
def body (s : Expand) : Expand :=
  let previous := if s.tlen ≠ 0 then s.t.take s.tlen else []
  let t := (hmac (previous ++ info ++ [s.ctr])).toList
  let tlen := 32
  let n := if okmLen - s.done < tlen then okmLen - s.done else tlen
  { t := t
    tlen := tlen
    done := s.done + n
    ctr := s.ctr + 1
    okm := memcpyAt s.okm s.done (t.take n) }

def run : Nat → Expand → Expand
  | 0, s => s
  | fuel + 1, s => if s.done < okmLen then run fuel (s.body hmac info okmLen) else s

/-- The loop in front of which `t` holds anything. An iteration writes an octet at least. -/
def loop (t okm : List UInt8) : Expand := run hmac info okmLen okmLen ⟨t, 0, 0, 1, okm⟩

/-- A run of the loop that ends, however many iterations it has. -/
inductive Ends : Expand → Expand → Prop where
  | stop {s : Expand} (done : ¬ s.done < okmLen) : Ends s s
  | step {s s' : Expand} (more : s.done < okmLen) (later : Ends (s.body hmac info okmLen) s') :
      Ends s s'

/-- After `n` iterations on the buffer `buf`. -/
structure After (buf : List UInt8) (n : Nat) (s : Expand) : Prop where
  t : (if s.tlen ≠ 0 then s.t.take s.tlen else []) = Prf.block hmac info n
  ctr : s.ctr = UInt8.ofNat (n + 1)
  done : s.done = min okmLen (n * 32)
  okm : s.okm = (Prf.expand hmac info n).take okmLen ++ buf.drop s.done

variable {hmac info okmLen} {buf : List UInt8} {n : Nat} {s : Expand}

theorem After.start (t : List UInt8) : After hmac info okmLen buf 0 ⟨t, 0, 0, 1, buf⟩ := by
  refine ⟨rfl, rfl, ?_, ?_⟩
  · rw [Nat.zero_mul, Nat.min_zero]
  · rw [Prf.expand, List.take_nil]
    rfl

/-- One iteration writes one block, the last one cut, over what the buffer held. -/
theorem After.body (here : After hmac info okmLen buf n s) (more : s.done < okmLen) :
    After hmac info okmLen buf (n + 1) (s.body hmac info okmLen) := by
  -- the blocks so far are whole, since the loop goes on behind a whole block only
  have done : s.done = n * 32 := by
    have bound := here.done
    omega
  have all : (Prf.expand hmac info n).take okmLen = Prf.expand hmac info n :=
    List.take_of_length_le (by rw [Prf.length_expand]; omega)
  have block : (hmac ((if s.tlen ≠ 0 then s.t.take s.tlen else []) ++ info ++ [s.ctr])).toList =
      Prf.block hmac info (n + 1) := by
    rw [here.t, here.ctr]
    rfl
  have take : (if okmLen - s.done < 32 then okmLen - s.done else 32) =
      min (okmLen - n * 32) 32 := by
    rw [done]
    split <;> omega
  have size : ((Prf.block hmac info (n + 1)).take (min (okmLen - n * 32) 32)).length =
      min (okmLen - n * 32) 32 := by
    rw [List.length_take, Prf.length_block]
    omega
  have cut : (Prf.block hmac info (n + 1)).take (min (okmLen - n * 32) 32) =
      (Prf.block hmac info (n + 1)).take (okmLen - n * 32) := by
    rw [List.take_eq_take_iff, Prf.length_block]
    omega
  refine ⟨?_, ?_, ?_, ?_⟩
  · show (hmac _).toList.take 32 = _
    rw [block]
    exact List.take_of_length_le (Prf.length_block hmac info n).le
  · show s.ctr + 1 = _
    rw [here.ctr, UInt8.ofNat_add (n + 1) 1]
    rfl
  · show s.done + (if okmLen - s.done < 32 then okmLen - s.done else 32) = _
    rw [take, done]
    omega
  · show memcpyAt s.okm s.done ((hmac _).toList.take _) =
      _ ++ buf.drop (s.done + (if okmLen - s.done < 32 then okmLen - s.done else 32))
    rw [take, block, here.okm, all, memcpyAt_append (by rw [Prf.length_expand, done]), size, cut,
      Prf.take_expand_succ hmac info (by omega), List.append_assoc, List.drop_drop]

/-- The loop ends with as many blocks as the length asks for. -/
theorem After.run {fuel : Nat} (here : After hmac info okmLen buf n s)
    (enough : okmLen ≤ (n + fuel) * 32) :
    Ends hmac info okmLen s (Expand.run hmac info okmLen fuel s) ∧
      (Expand.run hmac info okmLen fuel s).okm =
        (Prf.expand hmac info okmLen).take okmLen ++ buf.drop okmLen := by
  have finished {n : Nat} {s : Expand} (here : After hmac info okmLen buf n s)
      (enough : okmLen ≤ n * 32) :
      Ends hmac info okmLen s s ∧
        s.okm = (Prf.expand hmac info okmLen).take okmLen ++ buf.drop okmLen := by
    have done : s.done = okmLen := here.done.trans (Nat.min_eq_left enough)
    refine ⟨.stop (by omega), ?_⟩
    have same := Prf.take_expand_eq hmac info enough (show okmLen ≤ okmLen * 32 by omega)
    rw [here.okm, done, same]
  induction fuel generalizing n s with
  | zero => exact finished here enough
  | succ fuel ih =>
    rw [Expand.run]
    split
    · next more =>
      obtain ⟨ends, written⟩ := ih (here.body more) (by omega)
      exact ⟨.step more ends, written⟩
    · next past =>
      have bound := here.done
      exact finished here (by omega)

variable (hmac info okmLen) in
/-- The loop ends, with the blocks in the buffer and the rest of it as it was. -/
theorem loop_spec (t okm : List UInt8) :
    Ends hmac info okmLen ⟨t, 0, 0, 1, okm⟩ (loop hmac info okmLen t okm) ∧
      (loop hmac info okmLen t okm).okm =
        (Prf.expand hmac info okmLen).take okmLen ++ okm.drop okmLen :=
  (After.start t).run (by omega)

end Expand

/-! ### The three functions -/

/-- `hkdf_expand` of `edhoc4.c`: what it leaves in `okm`; `t` is what its block holds at first. -/
def Edhoc4.hkdfExpand (P : Primitives UInt8) (t : List UInt8) (prk : Block UInt8 32)
    (info okm : List UInt8) (okmLen : Nat) : List UInt8 :=
  (Expand.loop (P.hmac prk) info okmLen t okm).okm

def Edhoc03.e3HkdfExpand (P : Primitives UInt8) (t : List UInt8) (prk : Block UInt8 32)
    (info okm : List UInt8) (okmLen : Nat) : List UInt8 :=
  (Expand.loop (P.hmac prk) info okmLen t okm).okm

/-- `hkdf_expand` of `bootstrap.c`; the PRK has any length. -/
def Bootstrap.C.hkdfExpandInto (hmac : Bootstrap.Hmac) (t prk info okm : List UInt8)
    (okmLen : Nat) : List UInt8 :=
  (Expand.loop (hmac prk) info okmLen t okm).okm

/-- `T(1) | ... | T(255)`, the most that RFC 5869 allows for. -/
def hkdfBlocks (hmac : List UInt8 → Block UInt8 32) (info : List UInt8) : List UInt8 :=
  Prf.expand hmac info 255

section Outputs

variable {hmac : List UInt8 → Block UInt8 32} {info : List UInt8}

theorem length_hkdfBlocks : (hkdfBlocks hmac info).length = 8160 := Prf.length_expand hmac info 255

/-- Up to 8160 octets, the blocks are among those that RFC 5869 allows for. -/
theorem take_expand_hkdfBlocks {okmLen : Nat} (limit : okmLen ≤ 8160) :
    (Prf.expand hmac info okmLen).take okmLen = (hkdfBlocks hmac info).take okmLen :=
  Prf.take_expand_eq hmac info (by omega) limit

/-- The recursive form of the loop over the blocks that are left. -/
theorem expand_append_hkdfExpandLoop (P : Primitives UInt8) (prk : Block UInt8 32)
    (info : List UInt8) (n left : Nat) :
    Prf.expand (P.hmac prk) info n ++
        P.hkdfExpandLoop prk info (Prf.block (P.hmac prk) info n) (UInt8.ofNat (n + 1)) left =
      (Prf.expand (P.hmac prk) info (n + left)).take (n * 32 + left) := by
  -- every call but the last takes a whole block off `left`
  induction left using Nat.strong_induction_on generalizing n with
  | _ left ih =>
    rw [Primitives.hkdfExpandLoop]
    split
    · next none =>
      subst none
      rw [List.append_nil]
      exact (List.take_of_length_le (Prf.length_expand _ info n).le).symm
    · next some =>
      have block : P.hmac prk (Prf.block (P.hmac prk) info n ++ info ++
          [Octet.ofByte (UInt8.ofNat (n + 1))]) =
            P.hmac prk (Prf.blockInput info n (Prf.block (P.hmac prk) info n)) := rfl
      dsimp only
      rw [block]
      rcases Nat.le_total left 32 with last | more
      · have rest : left - min left 32 = 0 := by omega
        rw [rest, Primitives.hkdfExpandLoop, if_pos rfl, List.append_nil, Nat.min_eq_left last]
        have cut := Prf.take_expand_succ (P.hmac prk) info (Nat.le_add_right (n * 32) left)
        rw [Nat.add_sub_cancel_left] at cut
        refine cut.symm.trans ?_
        exact Prf.take_expand_eq _ info (by omega) (by omega)
      · have whole : ((P.hmac prk (Prf.blockInput info n
            (Prf.block (P.hmac prk) info n))).toList).take 32 =
              Prf.block (P.hmac prk) info (n + 1) :=
          List.take_of_length_le (Prf.length_block _ info n).le
        have next : UInt8.ofNat (n + 1) + 1 = UInt8.ofNat (n + 1 + 1) :=
          (UInt8.ofNat_add (n + 1) 1).symm
        rw [Nat.min_eq_right more, whole, next, ← List.append_assoc]
        refine (ih (left - 32) (by omega) (n + 1)).trans ?_
        rw [show (n + 1) * 32 + (left - 32) = n * 32 + left by omega]
        exact Prf.take_expand_eq _ info (by omega) (by omega)

/-- The output of the model of both handlers is what their loops write. -/
theorem hkdfExpand_toList (P : Primitives UInt8) (prk : Block UInt8 32) (n : Nat) :
    (P.hkdfExpand prk info n).toList = (Prf.expand (P.hmac prk) info n).take n := by
  have all := expand_append_hkdfExpandLoop P prk info 0 n
  rw [Nat.zero_add, Nat.zero_mul, Nat.zero_add] at all
  exact all

/-- The loop on the buffer computes what `Primitives.hkdfExpand` does. -/
theorem Edhoc4.hkdfExpand_eq (P : Primitives UInt8) (t : List UInt8) (prk : Block UInt8 32)
    (okm : List UInt8) (okmLen : Nat) :
    Edhoc4.hkdfExpand P t prk info okm okmLen =
      (P.hkdfExpand prk info okmLen).toList ++ okm.drop okmLen := by
  rw [hkdfExpand_toList]
  exact (Expand.loop_spec _ info okmLen t okm).2

theorem Edhoc03.e3HkdfExpand_eq (P : Primitives UInt8) (t : List UInt8) (prk : Block UInt8 32)
    (okm : List UInt8) (okmLen : Nat) :
    Edhoc03.e3HkdfExpand P t prk info okm okmLen =
      (P.hkdfExpand prk info okmLen).toList ++ okm.drop okmLen := by
  rw [hkdfExpand_toList]
  exact (Expand.loop_spec _ info okmLen t okm).2

/-- The loop on the buffer computes what `C.hkdfExpand` does. -/
theorem Bootstrap.C.hkdfExpandInto_eq (hmac : Bootstrap.Hmac) (t prk okm : List UInt8)
    (okmLen : Nat) :
    Bootstrap.C.hkdfExpandInto hmac t prk info okm okmLen =
      Bootstrap.C.hkdfExpand hmac prk info okmLen ++ okm.drop okmLen := by
  rw [Bootstrap.C.hkdfExpand_eq]
  exact (Expand.loop_spec _ info okmLen t okm).2

/-- What HKDF-Expand is to do with a buffer: the loop ends and leaves `out`, whose first `okmLen`
octets are those of `T(1) | T(2) | ...`, and the rest of the buffer is as it was. -/
structure Expands (hmac : List UInt8 → Block UInt8 32) (info t okm : List UInt8) (okmLen : Nat)
    (out : List UInt8) : Prop where
  ends : ∃ s, Expand.Ends hmac info okmLen ⟨t, 0, 0, 1, okm⟩ s ∧ s.okm = out
  written : out.take okmLen = (hkdfBlocks hmac info).take okmLen
  size : (out.take okmLen).length = okmLen
  kept : out.drop okmLen = okm.drop okmLen

/-- Up to 8160 octets, the loop is HKDF-Expand. -/
theorem loop_expands (hmac : List UInt8 → Block UInt8 32) (info t okm : List UInt8) {okmLen : Nat}
    (limit : okmLen ≤ 8160) :
    Expands hmac info t okm okmLen (Expand.loop hmac info okmLen t okm).okm := by
  obtain ⟨ends, out⟩ := Expand.loop_spec hmac info okmLen t okm
  have size : ((hkdfBlocks hmac info).take okmLen).length = okmLen :=
    List.length_take_of_le (by rw [length_hkdfBlocks]; exact limit)
  rw [take_expand_hkdfBlocks limit] at out
  refine ⟨⟨_, ends, rfl⟩, ?_, ?_, ?_⟩
  · rw [out]
    exact List.take_left' size
  · rw [out, List.take_left' size, size]
  · rw [out]
    exact List.drop_left' size

/-- A shorter output is the front of a longer one, whatever the buffers held. -/
theorem Expands.front {hmac : List UInt8 → Block UInt8 32}
    {info t t' okm okm' out out' : List UInt8} {n m : Nat} (short : Expands hmac info t okm n out)
    (long : Expands hmac info t' okm' m out') (le : n ≤ m) : out.take n = out'.take n := by
  have cut := congrArg (List.take n) long.written
  rw [List.take_take, List.take_take, Nat.min_eq_left le] at cut
  rw [short.written, cut]

/-- The three loops are the HKDF-Expand of RFC 5869, up to the 8160 octets it allows for. -/
theorem hkdf_expand_rfc5869 (P : Primitives UInt8) (hmac : Bootstrap.Hmac) (prk : Block UInt8 32)
    (key info t okm : List UInt8) (okmLen : Nat) (limit : okmLen ≤ 8160) :
    Expands (P.hmac prk) info t okm okmLen (Edhoc4.hkdfExpand P t prk info okm okmLen) ∧
    Expands (P.hmac prk) info t okm okmLen (Edhoc03.e3HkdfExpand P t prk info okm okmLen) ∧
    Expands (hmac key) info t okm okmLen (Bootstrap.C.hkdfExpandInto hmac t key info okm okmLen) ∧
    ∀ shorter ≤ okmLen, ∀ t' okm' : List UInt8,
      (Edhoc4.hkdfExpand P t' prk info okm' shorter).take shorter =
        (Edhoc4.hkdfExpand P t prk info okm okmLen).take shorter ∧
      (Edhoc03.e3HkdfExpand P t' prk info okm' shorter).take shorter =
        (Edhoc03.e3HkdfExpand P t prk info okm okmLen).take shorter ∧
      (Bootstrap.C.hkdfExpandInto hmac t' key info okm' shorter).take shorter =
        (Bootstrap.C.hkdfExpandInto hmac t key info okm okmLen).take shorter := by
  have handlers := loop_expands (P.hmac prk) info t okm limit
  have bootstrap := loop_expands (hmac key) info t okm limit
  refine ⟨handlers, handlers, bootstrap, ?_⟩
  intro shorter le t' okm'
  have handlers' := loop_expands (P.hmac prk) info t' okm' (le.trans limit)
  have bootstrap' := loop_expands (hmac key) info t' okm' (le.trans limit)
  exact ⟨handlers'.front handlers le, handlers'.front handlers le, bootstrap'.front bootstrap le⟩

/-- The 44 octets of AEAD key and nonce, with SHA-256 itself. -/
theorem hkdf_expand_rfc5869_key_and_nonce :
    44 ≤ 8160 ∧
      ((Edhoc4.hkdfExpand { Transparent.primitives with hmac := fun k => Sha256.hmac k.toList } []
          (Block.fill 32 7) [1, 2] (List.replicate 64 0) 44).take 44).length = 44 ∧
      (Bootstrap.C.hkdfExpandInto Sha256.hmac [] [7] [1, 2] (List.replicate 64 0) 44).drop 44 =
        List.replicate 20 0 :=
  have all := hkdf_expand_rfc5869
    { Transparent.primitives with hmac := fun k => Sha256.hmac k.toList } Sha256.hmac
    (Block.fill 32 7) [7] [1, 2] [] (List.replicate 64 0) 44 (by decide)
  ⟨by decide, all.1.size, all.2.2.1.kept⟩

end Outputs

end EdhocAuth
