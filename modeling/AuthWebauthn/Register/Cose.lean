import AuthWebauthn.Data.Slots
import AuthWebauthn.Verify.Acceptance

namespace AuthWebauthn

open Cbor

/-! `ngx_auth_webauthn_cose.c`.  The byte strings point into the decoded item; an item of
indefinite length has no such bytes.
-/

def coseInt : Option Item → Option Int64
  | some (.uint value) => some value.toInt64
  -- libcbor stores `n` for the integer `-1 - n`
  | some (.negint value) => some (-1 - value.toInt64)
  | _ => none

def coseBytes (item : Option Item) : Option Bytes := item.bind Item.bytes?

/-- The values that the loop of `cose_to_pkey` collects. -/
structure CoseSlots where
  kty : Option Item
  alg : Option Item
  /-- Label -1: the curve, or the RSA modulus. -/
  m1 : Option Item
  /-- Label -2: x, or the RSA exponent. -/
  m2 : Option Item
  /-- Label -3: y. -/
  m3 : Option Item

def CoseSlots.empty : CoseSlots := ⟨none, none, none, none, none⟩

def CoseSlots.collect (slots : CoseSlots) (pair : Item × Item) : CoseSlots :=
  let key := coseInt (some pair.1)
  if key = some 1 then { slots with kty := some pair.2 }
  else if key = some 3 then { slots with alg := some pair.2 }
  else if key = some (-1) then { slots with m1 := some pair.2 }
  else if key = some (-2) then { slots with m2 := some pair.2 }
  else if key = some (-3) then { slots with m3 := some pair.2 }
  else slots

variable (ext : AdminExternals)

def coseEc2Pkey (crv xItem yItem : Option Item) : Except Rc ext.Pkey :=
  if coseInt crv ≠ some 1 then .error .declined
  else
    match coseBytes xItem, coseBytes yItem with
    | some x, some y =>
        if x.length ≠ 32 ∨ y.length ≠ 32 then .error .declined
        else
          match ext.ecPkey (0x04 :: x ++ y) with
          | none => .error .error
          | some pkey => .ok pkey
    | _, _ => .error .declined

def coseOkpPkey (crv xItem : Option Item) : Except Rc ext.Pkey :=
  if coseInt crv ≠ some 6 then .error .declined
  else
    match coseBytes xItem with
    | none => .error .declined
    | some x =>
        if x.length ≠ 32 then .error .declined
        else
          match ext.ed25519Pkey x with
          | none => .error .error
          | some pkey => .ok pkey

def coseRsaPkey (nItem eItem : Option Item) : Except Rc ext.Pkey :=
  match coseBytes nItem, coseBytes eItem with
  | some n, some e =>
      match ext.rsaPkey n e with
      | none => .error .error
      | some pkey => .ok pkey
  | _, _ => .error .declined

/-- The switch on the key type. -/
def coseSlotsPkey (slots : CoseSlots) (kty algId : Int64) : Except Rc ext.Pkey :=
  if kty = 2 then
    if algId ≠ -7 then .error .declined else coseEc2Pkey ext slots.m1 slots.m2 slots.m3
  else if kty = 1 then
    if algId ≠ -8 then .error .declined else coseOkpPkey ext slots.m1 slots.m2
  else if kty = 3 then
    if algId ≠ -257 then .error .declined else coseRsaPkey ext slots.m1 slots.m2
  else .error .declined

/-- The key and its algorithm.  Bytes after the first item are ignored. -/
def coseToPkey (cose : Bytes) : Except Rc (ext.Pkey × Int32) :=
  match ext.cborLoad cose with
  | some (.map pairs, _) =>
      let slots := pairs.foldl CoseSlots.collect CoseSlots.empty
      match coseInt slots.kty, coseInt slots.alg with
      | some kty, some algId =>
          match coseSlotsPkey ext slots kty algId with
          | .error rc => .error rc
          | .ok pkey => .ok (pkey, algId.toInt32)
      | _, _ => .error .declined
  | _ => .error .error

/-- The key in the form in which Redis holds it. -/
def coseToDer (cose : Bytes) : Except Rc (Bytes × Int32) :=
  match coseToPkey ext cose with
  | .error rc => .error rc
  | .ok (pkey, alg) =>
      match ext.i2dPubkey pkey with
      | none => .error .error
      | some [] => .error .error
      | some der => .ok (der, alg)

variable {ext}

theorem coseEc2Pkey_read {crv xItem yItem : Option Item}
    (undeclined : coseEc2Pkey ext crv xItem yItem ≠ .error .declined) : coseInt crv = some 1 ∧
      ∃ x y, coseBytes xItem = some x ∧ coseBytes yItem = some y ∧ x.length = 32 ∧ y.length = 32 := by
  unfold coseEc2Pkey at undeclined
  split_ifs at undeclined with curve
  · exact absurd rfl undeclined
  · split at undeclined
    · rename_i x y first second
      split_ifs at undeclined with sizes
      · exact absurd rfl undeclined
      · obtain ⟨width, height⟩ := not_or.mp sizes
        exact ⟨not_not.mp curve, x, y, first, second, not_not.mp width, not_not.mp height⟩
    · exact absurd rfl undeclined

theorem coseOkpPkey_read {crv xItem : Option Item}
    (undeclined : coseOkpPkey ext crv xItem ≠ .error .declined) : coseInt crv = some 6 ∧
      ∃ x, coseBytes xItem = some x ∧ x.length = 32 := by
  unfold coseOkpPkey at undeclined
  split_ifs at undeclined with curve
  · exact absurd rfl undeclined
  · split at undeclined
    · exact absurd rfl undeclined
    · rename_i x key
      split_ifs at undeclined with size
      · exact absurd rfl undeclined
      · exact ⟨not_not.mp curve, x, key, not_not.mp size⟩

theorem coseRsaPkey_read {nItem eItem : Option Item}
    (undeclined : coseRsaPkey ext nItem eItem ≠ .error .declined) :
    ∃ n e, coseBytes nItem = some n ∧ coseBytes eItem = some e := by
  unfold coseRsaPkey at undeclined
  split at undeclined
  · rename_i n e modulus exponent
    exact ⟨n, e, modulus, exponent⟩
  · exact absurd rfl undeclined

/-- Each key type goes with one algorithm. -/
theorem coseSlotsPkey_read {slots : CoseSlots} {kty algId : Int64}
    (undeclined : coseSlotsPkey ext slots kty algId ≠ .error .declined) :
    (kty = 2 ∧ algId = -7 ∧ coseEc2Pkey ext slots.m1 slots.m2 slots.m3 ≠ .error .declined) ∨
      (kty = 1 ∧ algId = -8 ∧ coseOkpPkey ext slots.m1 slots.m2 ≠ .error .declined) ∨
      (kty = 3 ∧ algId = -257 ∧ coseRsaPkey ext slots.m1 slots.m2 ≠ .error .declined) := by
  unfold coseSlotsPkey at undeclined
  split_ifs at undeclined with ec2 other okp other rsa other
  · exact absurd rfl undeclined
  · exact .inl ⟨ec2, not_not.mp other, undeclined⟩
  · exact absurd rfl undeclined
  · exact .inr (.inl ⟨okp, not_not.mp other, undeclined⟩)
  · exact absurd rfl undeclined
  · exact .inr (.inr ⟨rsa, not_not.mp other, undeclined⟩)
  · exact absurd rfl undeclined

theorem honest_ec2 (crv xItem yItem : Option Item) : Honest (coseEc2Pkey ext crv xItem yItem) := by
  refine honest_ite honest_declined ?_
  split
  · refine honest_ite honest_declined ?_
    split
    · exact honest_error
    · exact honest_ok _
  · exact honest_declined

theorem honest_okp (crv xItem : Option Item) : Honest (coseOkpPkey ext crv xItem) := by
  refine honest_ite honest_declined ?_
  split
  · exact honest_declined
  · refine honest_ite honest_declined ?_
    split
    · exact honest_error
    · exact honest_ok _

theorem honest_rsa (nItem eItem : Option Item) : Honest (coseRsaPkey ext nItem eItem) := by
  unfold coseRsaPkey
  split
  · split
    · exact honest_error
    · exact honest_ok _
  · exact honest_declined

theorem honest_cose (cose : Bytes) : Honest (coseToPkey ext cose) := by
  have built (slots : CoseSlots) (kty algId : Int64) : Honest (coseSlotsPkey ext slots kty algId) := by
    refine honest_ite (honest_ite honest_declined (honest_ec2 _ _ _)) ?_
    refine honest_ite (honest_ite honest_declined (honest_okp _ _)) ?_
    exact honest_ite (honest_ite honest_declined (honest_rsa _ _)) honest_declined
  unfold coseToPkey
  split
  · dsimp only
    split
    · split
      · rename_i failed
        intro rejected
        cases rejected
        exact built _ _ _ failed
      · exact honest_ok _
    · exact honest_declined
  · exact honest_error

end AuthWebauthn
