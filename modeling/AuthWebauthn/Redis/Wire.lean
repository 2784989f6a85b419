import AuthWebauthn.Data.Buffer
import AuthWebauthn.Redis.Script
import Mathlib.Algebra.Group.Nat.Defs

namespace AuthWebauthn.Redis

open Memory

/-! `ngx_auth_webauthn_redis.c` hands each command to hiredis as an array of byte strings with
their lengths, and hiredis sends them as they are.  The server reads such an array by the
name in front.
-/

/-- The script that `incr_expire` sends. -/
def incrExpireText : Bytes :=
  ascii ("local c = redis.call('INCR', KEYS[1])\n" ++
    "if c == 1 or redis.call('TTL', KEYS[1]) < 0 then\n" ++
    "  redis.call('EXPIRE', KEYS[1], ARGV[1])\n" ++
    "end\n" ++
    "return c")

def numbufSize : Nat := 32

/-- `snprintf` of `%lu` into a buffer of this size; a text that does not fit is an error. -/
def numbuf (value : Nat) : Option Bytes :=
  if numbufSize ≤ (Decimal.digits value).length then none else some (Decimal.digits value)

/-- `2 + (int) (npairs * 2)` -/
def hsetArgc (npairs : UInt64) : Int32 := 2 + (npairs * 2).toUInt32.toInt32

/-- The loop of `hset`: name and value at `i` and behind it. -/
def fillPairs (argv : List Bytes) (i : Nat) : List (Bytes × Bytes) → Option (List Bytes)
  | [] => some argv
  | pair :: rest => do
      let argv ← store argv i [pair.1]
      let argv ← store argv (i + 1) [pair.2]
      fillPairs argv (i + 2) rest

/-- What is sent for a command.  The outer `none` is a write past the end of the array, the
inner one a function that returns without sending. -/
def commandBuilt (pool : Allocator Bytes) : Cmd → Option (Option (List Bytes))
  | .connect => some none
  | .hset key pairs =>
      if pairs = [] then some none
      else
        match pool.pnalloc (hsetArgc (UInt64.ofNat pairs.length)).toInt.toNat with
        | none => some none
        | some argv => do
            let argv ← store argv 0 [ascii "HSET"]
            let argv ← store argv 1 [key]
            let argv ← fillPairs argv 2 pairs
            return some argv
  | .hgetall key => some (some [ascii "HGETALL", key])
  | .del key => some (some [ascii "DEL", key])
  | .sadd key member => some (some [ascii "SADD", key, member])
  | .srem key member => some (some [ascii "SREM", key, member])
  | .smembers key => some (some [ascii "SMEMBERS", key])
  | .incrExpire key seconds =>
      some ((numbuf seconds).map fun n => [ascii "EVAL", incrExpireText, ascii "1", key, n])
  | .setEx key value seconds => some ((numbuf seconds).map fun n => [ascii "SET", key, value, ascii "EX", n])
  | .getdel key => some (some [ascii "GETDEL", key])

/-- What a connection can ask for. -/
inductive Request where
  | auth (password : Bytes)
  | select (index : Int)
  | data (command : Cmd)
deriving DecidableEq

def upperByte (byte : UInt8) : UInt8 := if 97 ≤ byte ∧ byte ≤ 122 then byte - 32 else byte

def fieldPairs : List Bytes → Option (List (Bytes × Bytes))
  | [] => some []
  | name :: value :: rest => (fieldPairs rest).map ((name, value) :: ·)
  | [_] => none

/-- The rest of a command after its name; a count that is no 64-bit integer is an error. -/
def parseArgs (name : Bytes) : List Bytes → Option Request
  | [] => none
  | first :: rest =>
      if name = ascii "AUTH" then if rest = [] then some (.auth first) else none
      else if name = ascii "SELECT" then if rest = [] then (string2ll first).map .select else none
      else if name = ascii "HGETALL" then if rest = [] then some (.data (.hgetall first)) else none
      else if name = ascii "DEL" then if rest = [] then some (.data (.del first)) else none
      else if name = ascii "SMEMBERS" then if rest = [] then some (.data (.smembers first)) else none
      else if name = ascii "GETDEL" then if rest = [] then some (.data (.getdel first)) else none
      else if name = ascii "HSET" then
        if rest = [] then none else (fieldPairs rest).map fun pairs => .data (.hset first pairs)
      else
        match rest with
        | [second] =>
            if name = ascii "SADD" then some (.data (.sadd first second))
            else if name = ascii "SREM" then some (.data (.srem first second))
            else none
        | [second, third, fourth] =>
            if name = ascii "SET" ∧ third.map upperByte = ascii "EX" then
              (string2ll fourth).map fun seconds => .data (.setEx first second seconds.toNat)
            else if name = ascii "EVAL" ∧ first = scriptText incrExpireLines ∧ second = ascii "1" then
              (string2ll fourth).map fun seconds => .data (.incrExpire third seconds.toNat)
            else none
        | _ => none

/-- Names are not case sensitive.  `none` is a request the server answers with an error. -/
def parseRequest : List Bytes → Option Request
  | [] => none
  | name :: args => parseArgs (name.map upperByte) args

/-- The commands that the arguments of the client's functions can express. -/
def Cmd.Sendable : Cmd → Prop
  | .connect => False
  | .hset _ pairs => pairs ≠ [] ∧ pairs.length < 2 ^ 30 - 1
  | .incrExpire _ seconds | .setEx _ _ seconds => seconds < 2 ^ 63
  | _ => True

theorem incrExpireText_eq : incrExpireText = scriptText incrExpireLines := by decide

theorem numbuf_eq {value : Nat} (small : value < 2 ^ 64) : numbuf value = some (Decimal.digits value) := by
  have short : (Decimal.digits value).length ≤ 20 := Decimal.digits_length_le (by decide) (by omega)
  have fits : ¬ numbufSize ≤ (Decimal.digits value).length := by
    unfold numbufSize
    omega
  exact if_neg fits

theorem hsetArgc_eq {npairs : Nat} (small : npairs < 2 ^ 30 - 1) :
    (hsetArgc (UInt64.ofNat npairs)).toInt.toNat = 2 + 2 * npairs := by
  have doubled : (UInt64.ofNat npairs * 2).toUInt32.toNat = 2 * npairs := by
    simp
    omega
  have narrow : (UInt64.ofNat npairs * 2).toUInt32.toInt32.toInt = 2 * npairs := by
    change (UInt64.ofNat npairs * 2).toUInt32.toBitVec.toInt = _
    rw [BitVec.toInt_eq_toNat_of_lt]
    · change ((UInt64.ofNat npairs * 2).toUInt32.toNat : Int) = _
      rw [doubled]
      rfl
    · change 2 * (UInt64.ofNat npairs * 2).toUInt32.toNat < _
      omega
  have sum : (hsetArgc (UInt64.ofNat npairs)).toInt = 2 + 2 * npairs := by
    rw [hsetArgc, Int32.toInt_add, narrow]
    change Int.bmod (2 + 2 * (npairs : Int)) (2 ^ 32) = _
    rw [Int.bmod_eq_of_le]
    · omega
    · omega
  omega

/-- The strings of an HSET, each in an array of its own. -/
def hsetParts (key : Bytes) (pairs : List (Bytes × Bytes)) : List (List Bytes) :=
  [ascii "HSET"] :: [key] :: pairs.flatMap fun pair => [[pair.1], [pair.2]]

theorem hsetParts_flatten (key : Bytes) (pairs : List (Bytes × Bytes)) :
    (hsetParts key pairs).flatten = ascii "HSET" :: key :: pairs.flatMap fun pair => [pair.1, pair.2] := by
  induction pairs with
  | nil => rfl
  | cons pair rest ih => simpa [hsetParts] using ih

theorem hsetParts_length (key : Bytes) (pairs : List (Bytes × Bytes)) :
    (hsetParts key pairs).flatten.length = 2 + 2 * pairs.length := by
  rw [hsetParts_flatten]
  induction pairs with
  | nil => rfl
  | cons pair rest ih =>
      simp only [List.flatMap_cons, List.length_cons, List.length_append, List.length_nil] at ih ⊢
      omega

theorem fillPairs_eq_stores (argv : List Bytes) (i : Nat) (pairs : List (Bytes × Bytes)) :
    fillPairs argv i pairs = stores argv i (pairs.flatMap fun pair => [[pair.1], [pair.2]]) := by
  induction pairs generalizing argv i with
  | nil => rfl
  | cons pair rest ih =>
      rw [fillPairs, List.flatMap_cons]
      change (store argv i [pair.1]).bind _ = (store argv i [pair.1]).bind _
      congr 1
      funext first
      change (store first (i + 1) [pair.2]).bind _ = (store first (i + 1) [pair.2]).bind _
      congr 1
      funext second
      exact ih second (i + 2)

theorem fieldPairs_flatMap (pairs : List (Bytes × Bytes)) :
    fieldPairs (pairs.flatMap fun pair => [pair.1, pair.2]) = some pairs := by
  induction pairs with
  | nil => rfl
  | cons pair rest ih => simp [fieldPairs, ih]

/-- The array of an HSET is as long as what is written to it. -/
theorem commandBuilt_hset {pool : Allocator Bytes} {key : Bytes} {pairs : List (Bytes × Bytes)}
    (nonempty : pairs ≠ []) (small : pairs.length < 2 ^ 30 - 1) :
    commandBuilt pool (.hset key pairs) = some ((pool.pnalloc (2 + 2 * pairs.length)).map fun _ =>
      ascii "HSET" :: key :: pairs.flatMap fun pair => [pair.1, pair.2]) := by
  rw [commandBuilt, if_neg nonempty, hsetArgc_eq small, ← hsetParts_length key]
  cases allocated : pool.pnalloc (hsetParts key pairs).flatten.length with
  | none => rfl
  | some argv =>
      have filled := pool.stores_filled allocated
      rw [hsetParts_flatten] at filled
      simp only [fillPairs_eq_stores]
      have returned := congrArg (fun built => built.bind fun argv => some (some argv)) filled
      simpa [hsetParts, stores, Option.bind_assoc] using returned

/-- The array that an HSET needs could not be allocated. -/
def Refused (pool : Allocator Bytes) (command : Cmd) : Prop :=
  ∃ key pairs, command = .hset key pairs ∧ pool.pnalloc (2 + 2 * pairs.length) = none

/-- The one way not to send a command is an array that could not be allocated. -/
theorem command_read (pool : Allocator Bytes) {command : Cmd} (sendable : command.Sendable) :
    (commandBuilt pool command = some none ∧ Refused pool command) ∨
      ∃ argv, commandBuilt pool command = some (some argv) ∧ parseRequest argv = some (.data command) := by
  cases command with
  | connect => cases sendable
  | hset key pairs =>
      obtain ⟨nonempty, small⟩ := sendable
      have built := @commandBuilt_hset pool key pairs nonempty small
      cases allocated : pool.pnalloc (2 + 2 * pairs.length) with
      | none =>
          rw [allocated] at built
          exact .inl ⟨built, key, pairs, rfl, allocated⟩
      | some block =>
        rw [allocated] at built
        refine .inr ⟨_, built, ?_⟩
        have some_field : (pairs.flatMap fun pair => [pair.1, pair.2]) ≠ [] := by
          cases pairs with
          | nil => exact absurd rfl nonempty
          | cons pair rest => simp
        simp +decide [parseRequest, parseArgs, some_field, fieldPairs_flatMap]
  | incrExpire key seconds =>
      change seconds < 2 ^ 63 at sendable
      refine .inr ⟨_, by rw [commandBuilt, numbuf_eq (by omega)]; rfl, ?_⟩
      rw [incrExpireText_eq]
      simp +decide [parseRequest, parseArgs, string2ll_digits sendable]
  | setEx key value seconds =>
      change seconds < 2 ^ 63 at sendable
      refine .inr ⟨_, by rw [commandBuilt, numbuf_eq (by omega)]; rfl, ?_⟩
      simp +decide [parseRequest, parseArgs, string2ll_digits sendable]
  | hgetall key => exact .inr ⟨_, rfl, by simp +decide [parseRequest, parseArgs]⟩
  | del key => exact .inr ⟨_, rfl, by simp +decide [parseRequest, parseArgs]⟩
  | sadd key member => exact .inr ⟨_, rfl, by simp +decide [parseRequest, parseArgs]⟩
  | srem key member => exact .inr ⟨_, rfl, by simp +decide [parseRequest, parseArgs]⟩
  | smembers key => exact .inr ⟨_, rfl, by simp +decide [parseRequest, parseArgs]⟩
  | getdel key => exact .inr ⟨_, rfl, by simp +decide [parseRequest, parseArgs]⟩

/-- The lines of the script that goes with a counter do what the command stands for; Lua rounds the
count that they answer. -/
def ScriptRuns (command : Cmd) (argv : List Bytes) : Prop :=
  ∀ key seconds, command = .incrExpire key seconds →
    argv = [ascii "EVAL", scriptText incrExpireLines, ascii "1", key, Decimal.digits seconds] ∧
    ∀ (server : Server) (round : Int → Int) (db : Db) (c : Int), (∀ value, round value = 1 ↔ value = 1) →
      runScript round key (Decimal.digits seconds) incrExpireLines db c =
        ((exec server db command).1, (exec server db command).2.rounded round)

theorem scriptRuns_sent {pool : Allocator Bytes} {command : Cmd} (sendable : command.Sendable)
    {argv : List Bytes} (built : commandBuilt pool command = some (some argv)) : ScriptRuns command argv := by
  intro key seconds same
  subst same
  change seconds < 2 ^ 63 at sendable
  rw [commandBuilt, numbuf_eq (by omega), incrExpireText_eq] at built
  cases built
  exact ⟨rfl, fun server round db c one => runScript_incrExpire one sendable c⟩

/-- Whatever bytes keys, members, fields and values hold: unless the pool has no room for the array
of an HSET, the command is sent, without writing past any array; it is read as the command that
was meant, a script that it carries does what the command stands for, and no other command is ever
sent as the same strings. -/
theorem commandBuilt_faithful (pool : Allocator Bytes) {command : Cmd} (sendable : command.Sendable) :
    (commandBuilt pool command = some none ∧ Refused pool command) ∨
      ∃ argv, commandBuilt pool command = some (some argv) ∧ parseRequest argv = some (.data command) ∧
        ScriptRuns command argv ∧
        ∀ other : Cmd, other.Sendable → commandBuilt pool other = some (some argv) → other = command := by
  rcases command_read pool sendable with refused | ⟨argv, built, read⟩
  · exact .inl refused
  · refine .inr ⟨argv, built, read, scriptRuns_sent sendable built, ?_⟩
    intro other possible same
    rcases command_read pool possible with ⟨failed, _⟩ | ⟨spelled, sent, understood⟩
    · rw [failed] at same
      cases same
    · rw [sent] at same
      cases same
      rw [read] at understood
      cases understood
      rfl

def plentiful : Allocator Bytes where
  pnalloc size := some (List.replicate size [])
  sized := by
    intro size block allocated
    cases allocated
    simp

/-- A field value that looks like another command. -/
theorem commandBuilt_faithful_injection :
    let command := Cmd.hset (ascii "k") [(ascii "f", ascii "v\r\nDEL k\r\n")]
    commandBuilt plentiful command =
        some (some [ascii "HSET", ascii "k", ascii "f", ascii "v\r\nDEL k\r\n"]) ∧
      parseRequest [ascii "HSET", ascii "k", ascii "f", ascii "v\r\nDEL k\r\n"] = some (.data command) := by
  intro command
  have sent : commandBuilt plentiful command =
      some (some [ascii "HSET", ascii "k", ascii "f", ascii "v\r\nDEL k\r\n"]) := rfl
  rcases @commandBuilt_faithful plentiful command ⟨by simp, by simp⟩ with ⟨failed, _⟩ | ⟨argv, built, read, _⟩
  · rw [sent] at failed
    cases failed
  · rw [sent] at built
    cases built
    exact ⟨sent, read⟩

end AuthWebauthn.Redis
