/-
The two honest parties over symbolic octets: their long-term credentials for both
cores and the randomness their calls draw.

Every string a party draws has an origin of its own. Long-term keys are numbered;
the strings of one call are told apart by the step of the run at which the call is
made and a slot.
-/

import EdhocAuth.Crypto.Symbolic
import EdhocAuth.Edhoc03.Honest
import EdhocAuth.Edhoc4.Core

namespace EdhocAuth.Symbolic

def fresh (n : Nat) (o : Origin) : Block Sym n := out n (.rnd o)

def idBlock (id : Block UInt8 3) : Block Sym 3 := ⟨id.toList.map .lit, by simp⟩

/-- The identifiers the two parties send as `ID_CRED`. -/
abbrev Ids : Type := Party → Block UInt8 3

def selftestIds : Ids
  | .initiator => ⟨[0, 0, 1], rfl⟩
  | .responder => ⟨[0, 0, 2], rfl⟩

/-- What was drawn at different times differs. -/
theorem session_inj {n a b slot : Nat} (pos : 0 < n)
    (h : fresh n (.session a slot) = fresh n (.session b slot)) : a = b :=
  (Origin.session.inj (Sym.rnd.inj (out_inj pos h)).1).1

/-! ### Methods 0 to 3 -/

noncomputable def creds03 (ids : Ids) (party : Party) : Edhoc03.Creds Sym :=
  Edhoc03.genCreds primitives (fresh 32 (.longTerm party 0)) (fresh 32 (.longTerm party 1))
    (some (idBlock (ids party)))

/-- The credentials of a party are valid. -/
theorem creds03_valid (ids : Ids) (party : Party) : (creds03 ids party).Valid primitives :=
  ⟨⟨_, rfl⟩, rfl⟩

/-! ### Method 4 -/

noncomputable def xwingPk (coins : Edhoc4.KeyCoins Sym) : Block Sym Edhoc4.xwingPk :=
  Block.cat (out 1184 (.kemPk coins.mlkem.toList)) (primitives.scalarmultBase coins.x)

noncomputable def xwingSk (coins : Edhoc4.KeyCoins Sym) : Block Sym Edhoc4.xwingSk :=
  Block.cat (out 2400 (.kemSk coins.mlkem.toList)) coins.x

theorem xwingKeypair_primitives (coins : Edhoc4.KeyCoins Sym) :
    Edhoc4.xwingKeypair primitives coins = some (xwingPk coins, xwingSk coins) := rfl

/-- A public X-Wing key belongs to one pair of coins. -/
theorem xwingPk_inj {k k' : Edhoc4.KeyCoins Sym} (h : xwingPk k = xwingPk k') : k.x = k'.x := by
  have parts := (Block.cat_inj h).2
  exact List.Vector.eq _ _ (Multiset.singleton_inj.mp (point_inj parts).2)

def staticCoins (party : Party) : Edhoc4.KeyCoins Sym :=
  ⟨fresh 64 (.longTerm party 2), fresh 32 (.longTerm party 3)⟩

def mldsaSeed (party : Party) : List Sym := (fresh 32 (.longTerm party 4)).toList

noncomputable def creds4 (ids : Ids) (party : Party) : Edhoc4.Creds Sym where
  kemSk := xwingSk (staticCoins party)
  kemPk := xwingPk (staticCoins party)
  sigSk := out 2560 (.sigSk .mldsa (mldsaSeed party))
  sigVk := out 1312 (.sigVk .mldsa (mldsaSeed party))
  idCred := idBlock (ids party)

/-- The credentials of a party are those that `edhoc4_gen_creds` makes. -/
theorem genCreds_eq_creds4 (ids : Ids) (party : Party) :
    Edhoc4.genCreds primitives (staticCoins party) (fresh 32 (.longTerm party 4))
      (some (idBlock (ids party))) = .ok (creds4 ids party) := rfl

/-! ### Randomness of one call -/

/-- The randomness `edhoc4_i_make_msg1` draws at step `t`. -/
def msg1Coins (t : Nat) : Edhoc4.Msg1Coins Sym where
  eph := ⟨fresh 64 (.session t 0), fresh 32 (.session t 1)⟩
  encB := ⟨fresh 32 (.session t 2), fresh 32 (.session t 3)⟩

def msg2Coins (t : Nat) : Edhoc4.Msg2Coins Sym where
  encE := ⟨fresh 32 (.session t 0), fresh 32 (.session t 1)⟩
  encA := ⟨fresh 32 (.session t 2), fresh 32 (.session t 3)⟩
  sig := fresh 32 (.session t 4)

def msg3Coins (t : Nat) : Edhoc4.Msg3Coins Sym where
  new := ⟨fresh 64 (.session t 0), fresh 32 (.session t 1)⟩
  sig := fresh 32 (.session t 4)

def msg4Coins (t : Nat) : Edhoc4.KeyCoins Sym :=
  ⟨fresh 64 (.session t 0), fresh 32 (.session t 1)⟩

end EdhocAuth.Symbolic
