import AuthWebauthn.Challenge

namespace AuthWebauthn

open Process Redis

/-! `challenge_issue` and `redis_set_ex` once more, with the integer types of the
platform and the arguments that go over the wire.  A conversion keeps the value modulo
two to the width it converts to.
-/

inductive Width where
  | w32
  | w64
deriving DecidableEq

def Width.bits : Width → Nat
  | .w32 => 32
  | .w64 => 64

structure Abi where
  /-- `time_t`, which is signed. -/
  time : Width
  /-- `ngx_uint_t`. -/
  uint : Width
  /-- `unsigned long`. -/
  long : Width
deriving DecidableEq

/-- The ABI of the other modules. -/
def Abi.lp64 : Abi := ⟨.w64, .w64, .w64⟩

/-- A program that names the arguments of its commands. -/
abbrev ArgvProg := Prog (List Bytes) (Option Reply)

def uint32Max : BitVec 32 := 4294967295

/-- `NGX_AUTH_WEBAUTHN_REDIS_NUMBUF`. -/
abbrev redisNumbuf : Nat := 32

variable (abi : Abi)

def redisSetExOn (key value : Bytes) (seconds : BitVec abi.uint.bits) : ArgvProg Rc := do
  let number := Decimal.digits (seconds.setWidth abi.long.bits).toNat
  if number.length ≥ redisNumbuf then return .error
  return rcOfReply (← Prog.issue [ascii "SET", key, value, ascii "EX", number])

/-- The guard on the TTL; `UINT32_MAX` is converted to `time_t` before it is
compared. -/
def ttlRefused (ttl : BitVec abi.time.bits) : Bool :=
  ttl.sle 0#_ || (uint32Max.setWidth abi.time.bits).slt ttl

def challengeIssueOn (keyPrefix : Bytes) (ttl : BitVec abi.time.bits)
    (random : Option (Vector UInt8 challengeLength)) :
    ArgvProg (Option (Vector UInt8 challengeLength)) := do
  if ttlRefused abi ttl then return none
  match random with
  | none => return none
  | some challenge =>
      if (← redisSetExOn abi (challengeKey keyPrefix challenge.toList) (ascii "1")
          (ttl.signExtend abi.uint.bits)) ≠ .ok then return none
      return some challenge

variable {abi} {ttl : BitVec abi.time.bits}

theorem ttlRefused_iff :
    ttlRefused abi ttl = true ↔ ttl.toInt ≤ 0 ∨ (uint32Max.setWidth abi.time.bits).toInt < ttl.toInt := by
  rw [ttlRefused, Bool.or_eq_true, BitVec.sle_iff_toInt_le, BitVec.slt_iff_toInt_lt, BitVec.toInt_zero]

theorem ttlRefused_wide (wide : abi.time = .w64) :
    ttlRefused abi ttl = false ↔ 1 ≤ ttl.toInt ∧ ttl.toInt ≤ 4294967295 := by
  have limit : (uint32Max.setWidth abi.time.bits).toInt = 4294967295 := by
    rw [wide]
    decide
  rw [← Bool.not_eq_true, ttlRefused_iff, limit]
  omega

theorem ttlRefused_narrow (narrow : abi.time = .w32) : ttlRefused abi ttl = true := by
  have limit : (uint32Max.setWidth abi.time.bits).toInt = -1 := by
    rw [narrow]
    decide
  rw [ttlRefused_iff, limit]
  omega

theorem Width.two_pow_le (width : Width) : 4294967296 ≤ 2 ^ width.bits := by
  cases width <;> decide

/-- A TTL that fits 32 bits goes through both conversions unchanged. -/
theorem seconds_sent (lower : 1 ≤ ttl.toInt) (upper : ttl.toInt ≤ 4294967295) :
    ((ttl.signExtend abi.uint.bits).setWidth abi.long.bits).toNat = ttl.toInt.toNat := by
  have uint := abi.uint.two_pow_le
  have long := abi.long.two_pow_le
  have kept : (ttl.signExtend abi.uint.bits).toNat = ttl.toInt.toNat := by
    rw [BitVec.signExtend, BitVec.toNat_ofInt]
    rw [Int.emod_eq_of_lt (by omega) (by omega)]
  rw [BitVec.toNat_setWidth, kept]
  exact Nat.mod_eq_of_lt (by omega)

theorem challengeIssueOn_eq (passed : ttlRefused abi ttl = false) (lower : 1 ≤ ttl.toInt)
    (upper : ttl.toInt ≤ 4294967295) (keyPrefix : Bytes) (challenge : Vector UInt8 challengeLength) :
    challengeIssueOn abi keyPrefix ttl (some challenge) =
      .call [ascii "SET", challengeKey keyPrefix challenge.toList, ascii "1", ascii "EX",
          Decimal.digits ttl.toInt.toNat]
        fun stored => if rcOfReply stored ≠ .ok then .done none else .done (some challenge) := by
  have short : ¬ (Decimal.digits ttl.toInt.toNat).length ≥ redisNumbuf := by
    have digits : (Decimal.digits ttl.toInt.toNat).length ≤ 10 :=
      Decimal.digits_length_le (by decide) (by omega)
    exact Nat.not_le.mpr (Nat.lt_of_le_of_lt digits (by decide))
  simp only [challengeIssueOn, redisSetExOn, passed, seconds_sent lower upper, if_neg short,
    Bool.false_eq_true, if_false, Prog.issue_bind, Prog.call_bind, Prog.done_bind, Prog.pure_eq]

theorem digits_toNat {value : Int} (nonnegative : 0 ≤ value) :
    Decimal.digits value.toNat = Decimal.ofInt value := by
  have same : value.natAbs = value.toNat := by omega
  rw [Decimal.ofInt, if_neg (by omega), same]

/-- The guard lets through exactly the TTLs from 1 to `UINT32_MAX`, and such a TTL is
the number that Redis gets. -/
structure TtlGuardRight (abi : Abi) (ttl : BitVec abi.time.bits) : Prop where
  guard : ttlRefused abi ttl = false ↔ 1 ≤ ttl.toInt ∧ ttl.toInt ≤ 4294967295
  sent : ttlRefused abi ttl = false → ∀ keyPrefix challenge, ∃ next,
    challengeIssueOn abi keyPrefix ttl (some challenge) =
      .call [ascii "SET", challengeKey keyPrefix challenge.toList, ascii "1", ascii "EX",
        Decimal.ofInt ttl.toInt] next

/-- On a platform with a 32-bit `time_t` no challenge can be issued. -/
theorem ttl_guard_right_iff (abi : Abi) (ttl : BitVec abi.time.bits) :
    TtlGuardRight abi ttl ↔ abi.time = .w64 ∨ ttl.toInt ≤ 0 := by
  have widths : abi.time = .w32 ∨ abi.time = .w64 := by
    cases abi.time
    · exact .inl rfl
    · exact .inr rfl
  rcases widths with width | width
  · have refused : ttlRefused abi ttl = true := ttlRefused_narrow width
    have half : (2 : Int) ^ (abi.time.bits - 1) = 2147483648 := by
      rw [width]
      rfl
    have bound : ttl.toInt < 2147483648 := half ▸ ttl.toInt_lt
    constructor
    · intro right
      have outside := right.guard
      rw [refused] at outside
      simp only [Bool.true_eq_false, false_iff] at outside
      omega
    · intro condition
      have nonpositive : ttl.toInt ≤ 0 := by
        rcases condition with wide | nonpositive
        · cases width.symm.trans wide
        · exact nonpositive
      refine ⟨?_, ?_⟩
      · rw [refused]
        simp only [Bool.true_eq_false, false_iff]
        omega
      · intro passed
        cases refused.symm.trans passed
  · refine ⟨fun _ => .inl width, fun _ => ⟨ttlRefused_wide width, ?_⟩⟩
    intro passed keyPrefix challenge
    obtain ⟨lower, upper⟩ := (ttlRefused_wide width).mp passed
    rw [challengeIssueOn_eq passed lower upper, digits_toNat (by omega)]
    exact ⟨_, rfl⟩

/-- A TTL of a minute is refused where `time_t` has 32 bits. -/
theorem minute_refused_on_ilp32 :
    ttlRefused ⟨.w32, .w32, .w32⟩ 60 = true ∧ ¬ TtlGuardRight ⟨.w32, .w32, .w32⟩ 60 := by
  refine ⟨by decide, ?_⟩
  intro right
  exact absurd (right.guard.mpr (by decide)) (by decide)

end AuthWebauthn
