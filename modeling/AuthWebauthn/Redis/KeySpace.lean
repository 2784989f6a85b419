import AuthWebauthn.Data.Buffer
import AuthWebauthn.Redis.Keys
import Mathlib.Logic.Function.Basic

namespace AuthWebauthn.Redis

open Memory

/-! Each builder with the block that it allocates and the copies it makes.  The outer
`none` is a copy past the end of the block, the inner one an allocation that failed.
-/

/-- Copies to offsets from the start of the block. -/
def middleKey (mid : Bytes) (pool : Allocator UInt8) (keyPrefix arg : Bytes) : Option (Option Bytes) :=
  match pool.pnalloc (keyPrefix.length + mid.length + arg.length) with
  | none => some none
  | some p => do
      let p ← store p 0 keyPrefix
      let p ← store p keyPrefix.length mid
      let p ← store p (keyPrefix.length + mid.length) arg
      return some p

/-- Copies with a pointer that is moved by hand. -/
def enclosedKey (mid suffix : Bytes) (pool : Allocator UInt8) (keyPrefix uid : Bytes) :
    Option (Option Bytes) :=
  match pool.pnalloc (keyPrefix.length + mid.length + uid.length + suffix.length) with
  | none => some none
  | some block => do
      let p := 0
      let block ← store block p keyPrefix
      let p := p + keyPrefix.length
      let block ← store block p mid
      let p := p + mid.length
      let block ← store block p uid
      let p := p + uid.length
      let block ← store block p suffix
      return some block

def credentialRecordKeyBuilt : Allocator UInt8 → Bytes → Bytes → Option (Option Bytes) :=
  middleKey (ascii "cred:")

def challengeKeyBuilt : Allocator UInt8 → Bytes → Bytes → Option (Option Bytes) :=
  middleKey (ascii "chal:")

def credentialIndexKeyBuilt : Allocator UInt8 → Bytes → Bytes → Option (Option Bytes) :=
  enclosedKey (ascii "user:") (ascii ":creds")

def adminIndexKeyBuilt : Allocator UInt8 → Bytes → Bytes → Option (Option Bytes) :=
  enclosedKey (ascii "user:") (ascii ":creds")

/-- `rate_limit` of the challenge handler, with `ngx_cpymem` returning the next position. -/
def rateLimitKeyBuilt (pool : Allocator UInt8) (keyPrefix ip : Bytes) : Option (Option Bytes) :=
  match pool.pnalloc (keyPrefix.length + (ascii "ratelimit:challenge:").length + ip.length) with
  | none => some none
  | some data => do
      let (data, p) ← storeNext data 0 keyPrefix
      let (data, p) ← storeNext data p (ascii "ratelimit:challenge:")
      let data ← store data p ip
      return some data

/-- The index key that `challenge_content` builds for itself. -/
def challengeContentIndexKeyBuilt (pool : Allocator UInt8) (keyPrefix uid : Bytes) :
    Option (Option Bytes) :=
  match pool.pnalloc (keyPrefix.length + (ascii "user:").length + uid.length + (ascii ":creds").length) with
  | none => some none
  | some data => do
      let (data, p) ← storeNext data 0 keyPrefix
      let (data, p) ← storeNext data p (ascii "user:")
      let (data, p) ← storeNext data p uid
      let data ← store data p (ascii ":creds")
      return some data

inductive KeyFamily where
  | record
  | index
  | challenge
  | rateLimit
deriving DecidableEq

def KeyFamily.key : KeyFamily → Bytes → Bytes → Bytes
  | .record => credentialRecordKey
  | .index => credentialIndexKey
  | .challenge => challengeKey
  | .rateLimit => rateLimitKey

/-- The places of the source that build a key. -/
inductive KeyBuilder where
  | credentialRecord
  | credentialIndex
  | challengeContentIndex
  | adminIndex
  | challenge
  | rateLimit
deriving DecidableEq

namespace KeyBuilder

def family : KeyBuilder → KeyFamily
  | .credentialRecord => .record
  | .credentialIndex => .index
  | .challengeContentIndex => .index
  | .adminIndex => .index
  | .challenge => .challenge
  | .rateLimit => .rateLimit

def build : KeyBuilder → Allocator UInt8 → Bytes → Bytes → Option (Option Bytes)
  | .credentialRecord => credentialRecordKeyBuilt
  | .credentialIndex => credentialIndexKeyBuilt
  | .challengeContentIndex => challengeContentIndexKeyBuilt
  | .adminIndex => adminIndexKeyBuilt
  | .challenge => challengeKeyBuilt
  | .rateLimit => rateLimitKeyBuilt

end KeyBuilder

variable {p : Bytes}

/-- A family and its argument can be told from the key, under one prefix. -/
theorem KeyFamily.key_inj {family other : KeyFamily} {arg arg' : Bytes} :
    family.key p arg = other.key p arg' ↔ family = other ∧ arg = arg' := by
  cases family <;> cases other <;>
    simp [KeyFamily.key, credentialRecordKey_inj, credentialIndexKey_inj, challengeKey_inj, rateLimitKey_inj,
      challengeKey_ne_index, record_ne_rateLimitKey, index_ne_rateLimitKey, challengeKey_ne_rateLimitKey]

section Built

variable (pool : Allocator UInt8) (keyPrefix arg : Bytes)

/-- The common shape: a block of the exact size and the parts one behind the other. -/
def partsBuilt (parts : List Bytes) : Option (Option Bytes) :=
  match pool.pnalloc parts.flatten.length with
  | none => some none
  | some block => (stores block 0 parts).bind fun filled => some (some filled)

theorem partsBuilt_eq (parts : List Bytes) :
    partsBuilt pool parts = some ((pool.pnalloc parts.flatten.length).map fun _ => parts.flatten) := by
  cases allocated : pool.pnalloc parts.flatten.length with
  | none => simp only [partsBuilt, allocated, Option.map_none]
  | some block =>
      simp only [partsBuilt, allocated, pool.stores_filled allocated, Option.bind_some, Option.map_some]

theorem length_three (mid : Bytes) :
    [keyPrefix, mid, arg].flatten.length = keyPrefix.length + mid.length + arg.length := by
  simp [Nat.add_assoc]

theorem length_four (mid suffix : Bytes) :
    [keyPrefix, mid, arg, suffix].flatten.length =
      keyPrefix.length + mid.length + arg.length + suffix.length := by
  simp [Nat.add_assoc]

theorem middleKey_parts (mid : Bytes) :
    middleKey mid pool keyPrefix arg = partsBuilt pool [keyPrefix, mid, arg] := by
  rw [middleKey, partsBuilt, length_three]
  cases pool.pnalloc (keyPrefix.length + mid.length + arg.length) with
  | none => rfl
  | some block => simp [stores, Option.bind_assoc]

theorem enclosedKey_parts (mid suffix : Bytes) :
    enclosedKey mid suffix pool keyPrefix arg = partsBuilt pool [keyPrefix, mid, arg, suffix] := by
  rw [enclosedKey, partsBuilt, length_four]
  cases pool.pnalloc (keyPrefix.length + mid.length + arg.length + suffix.length) with
  | none => rfl
  | some block => simp [stores, Option.bind_assoc]

theorem rateLimitKeyBuilt_parts :
    rateLimitKeyBuilt pool keyPrefix arg =
      partsBuilt pool [keyPrefix, ascii "ratelimit:challenge:", arg] := by
  rw [rateLimitKeyBuilt, partsBuilt, length_three]
  cases pool.pnalloc (keyPrefix.length + (ascii "ratelimit:challenge:").length + arg.length) with
  | none => rfl
  | some block => simp [stores, storeNext_bind, Option.bind_assoc]

theorem challengeContentIndexKeyBuilt_parts :
    challengeContentIndexKeyBuilt pool keyPrefix arg =
      partsBuilt pool [keyPrefix, ascii "user:", arg, ascii ":creds"] := by
  rw [challengeContentIndexKeyBuilt, partsBuilt, length_four]
  cases pool.pnalloc (keyPrefix.length + (ascii "user:").length + arg.length + (ascii ":creds").length) with
  | none => rfl
  | some block => simp [stores, storeNext_bind, Option.bind_assoc]

/-- The parts that a builder copies. -/
def KeyFamily.parts : KeyFamily → List Bytes
  | .record => [keyPrefix, ascii "cred:", arg]
  | .index => [keyPrefix, ascii "user:", arg, ascii ":creds"]
  | .challenge => [keyPrefix, ascii "chal:", arg]
  | .rateLimit => [keyPrefix, ascii "ratelimit:challenge:", arg]

theorem KeyFamily.parts_flatten (family : KeyFamily) :
    (family.parts keyPrefix arg).flatten = family.key keyPrefix arg := by
  cases family <;>
    simp [KeyFamily.parts, KeyFamily.key, credentialRecordKey, credentialIndexKey, challengeKey, rateLimitKey]

theorem KeyBuilder.build_parts (builder : KeyBuilder) :
    builder.build pool keyPrefix arg = partsBuilt pool (builder.family.parts keyPrefix arg) := by
  cases builder with
  | credentialRecord => exact middleKey_parts pool keyPrefix arg _
  | credentialIndex => exact enclosedKey_parts pool keyPrefix arg _ _
  | challengeContentIndex => exact challengeContentIndexKeyBuilt_parts pool keyPrefix arg
  | adminIndex => exact enclosedKey_parts pool keyPrefix arg _ _
  | challenge => exact middleKey_parts pool keyPrefix arg _
  | rateLimit => exact rateLimitKeyBuilt_parts pool keyPrefix arg

/-- A builder writes the key of its family into a block of just that size, whatever the
block held before. -/
theorem KeyBuilder.build_eq (builder : KeyBuilder) :
    builder.build pool keyPrefix arg =
      some ((pool.pnalloc (builder.family.key keyPrefix arg).length).map fun _ =>
        builder.family.key keyPrefix arg) := by
  rw [KeyBuilder.build_parts, partsBuilt_eq, KeyFamily.parts_flatten]

end Built

theorem KeyBuilder.key_of_built {builder : KeyBuilder} {pool : Allocator UInt8} {arg key : Bytes}
    (built : builder.build pool p arg = some (some key)) : key = builder.family.key p arg := by
  rw [KeyBuilder.build_eq, Option.some.injEq, Option.map_eq_some_iff] at built
  obtain ⟨block, allocated, same⟩ := built
  exact same.symm

/-- Under one prefix, no builder writes outside of its block and a key is written if
there is a block; two written keys are the same exactly if they are of one family and
for the same bytes, whichever builders and whichever memory they come from; and the
three constructions of the index key agree. -/
theorem keySpace_separated (keyPrefix : Bytes) :
    (∀ (builder : KeyBuilder) (pool : Allocator UInt8) (arg : Bytes),
      builder.build pool keyPrefix arg =
        some ((pool.pnalloc (builder.family.key keyPrefix arg).length).map fun _ =>
          builder.family.key keyPrefix arg)) ∧
    (∀ (builder other : KeyBuilder) (pool pool' : Allocator UInt8) (arg arg' key key' : Bytes),
      builder.build pool keyPrefix arg = some (some key) →
      other.build pool' keyPrefix arg' = some (some key') →
      (key = key' ↔ builder.family = other.family ∧ arg = arg')) ∧
    (∀ (pool : Allocator UInt8) (userId : Bytes),
      challengeContentIndexKeyBuilt pool keyPrefix userId = credentialIndexKeyBuilt pool keyPrefix userId ∧
      adminIndexKeyBuilt pool keyPrefix userId = credentialIndexKeyBuilt pool keyPrefix userId) := by
  refine ⟨fun builder pool arg => builder.build_eq pool keyPrefix arg, ?_, ?_⟩
  · intro builder other pool pool' arg arg' key key' built built'
    rw [KeyBuilder.key_of_built built, KeyBuilder.key_of_built built']
    exact KeyFamily.key_inj
  · intro pool userId
    have content := KeyBuilder.challengeContentIndex.build_eq pool keyPrefix userId
    have admin := KeyBuilder.adminIndex.build_eq pool keyPrefix userId
    have credential := KeyBuilder.credentialIndex.build_eq pool keyPrefix userId
    exact ⟨content.trans credential.symm, admin.trans credential.symm⟩

def zeroedPool : Allocator UInt8 where
  pnalloc size := some (List.replicate size 0)
  sized := by
    intro size block allocated
    cases allocated
    exact List.length_replicate

/-- Separators and zero bytes in the arguments do not bring two keys together. -/
theorem keySpace_separated_sample :
    ∃ record index,
      KeyBuilder.credentialRecord.build zeroedPool (ascii "webauthn:") [97, 58, 0] = some (some record) ∧
      KeyBuilder.adminIndex.build zeroedPool (ascii "webauthn:") [97, 58, 0] = some (some index) ∧
      record ≠ index := by
  obtain ⟨written, separated, _⟩ := keySpace_separated (ascii "webauthn:")
  have record := written .credentialRecord zeroedPool [97, 58, 0]
  have index := written .adminIndex zeroedPool [97, 58, 0]
  refine ⟨_, _, record, index, ?_⟩
  intro same
  have families := ((separated _ _ _ _ _ _ _ _ record index).mp same).1
  cases families

end AuthWebauthn.Redis
