import AuthWebauthn.Ngx
import AuthWebauthn.Data.Decimal
import AuthWebauthn.Process.Pool
import Mathlib.Data.List.AList

namespace AuthWebauthn.Redis

/-! A Redis server, with the commands that the module and the admin tool send.  Each
is atomic.  An entry whose expiry time has come counts as absent.
-/

abbrev Hash := AList fun _ : Bytes => Bytes

inductive Value where
  | str (bytes : Bytes)
  | hash (fields : Hash)
  | set (members : List Bytes)

structure Entry where
  value : Value
  /-- In milliseconds of the server's clock; `none` is a key without a TTL. -/
  expiresAt : Option Nat

structure Db where
  now : Nat
  entries : Bytes → Option Entry

inductive Cmd where
  | connect
  | hset (key : Bytes) (pairs : List (Bytes × Bytes))
  | hgetall (key : Bytes)
  | del (key : Bytes)
  | sadd (key member : Bytes)
  | srem (key member : Bytes)
  | smembers (key : Bytes)
  | incrExpire (key : Bytes) (seconds : Nat)
  | setEx (key value : Bytes) (seconds : Nat)
  | getdel (key : Bytes)
deriving DecidableEq

inductive Reply where
  | status
  | error
  | integer (value : Int)
  | str (bytes : Bytes)
  | nil
  | array (elements : List Reply)

/-- The server lists the fields of a hash and the members of a set in an
order of its own. -/
structure Server where
  fieldOrder : List (Bytes × Bytes) → List (Bytes × Bytes)
  fieldOrder_perm : ∀ fields, (fieldOrder fields).Perm fields
  memberOrder : List Bytes → List Bytes
  memberOrder_perm : ∀ members, (memberOrder members).Perm members

def Server.inOrder : Server := ⟨id, fun _ => .refl _, id, fun _ => .refl _⟩

def Entry.live (now : Nat) (entry : Entry) : Bool :=
  match entry.expiresAt with
  | none => true
  | some deadline => now < deadline

namespace Db

def empty : Db := ⟨0, fun _ => none⟩

def get (db : Db) (key : Bytes) : Option Entry := (db.entries key).filter (Entry.live db.now)

def put (db : Db) (key : Bytes) (entry : Entry) : Db :=
  { db with entries := Function.update db.entries key (some entry) }

def remove (db : Db) (key : Bytes) : Db :=
  { db with entries := Function.update db.entries key none }

end Db

def Hash.setFields (fields : Hash) (pairs : List (Bytes × Bytes)) : Hash :=
  pairs.foldl (fun fields pair => fields.insert pair.1 pair.2) fields

def Hash.pairs (fields : Hash) : List (Bytes × Bytes) :=
  fields.entries.map fun field => (field.1, field.2)

def flattenPairs : List (Bytes × Bytes) → List Reply
  | [] => []
  | pair :: rest => .str pair.1 :: .str pair.2 :: flattenPairs rest

/-- The integer a string value stands for: only the canonical decimal of a
64-bit integer counts. -/
def string2ll (bytes : Bytes) : Option Int :=
  let value : Int := if bytes.head? = some 45 then -Decimal.valueFrom 0 bytes.tail
    else Decimal.valueFrom 0 bytes
  if Decimal.ofInt value = bytes ∧ -2 ^ 63 ≤ value ∧ value < 2 ^ 63 then some value else none

/-- What INCR starts from: a counter and its deadline, zero when absent. -/
def counterOf : Option Entry → Option (Int × Option Nat)
  | none => some (0, none)
  | some ⟨.str bytes, expiresAt⟩ => (string2ll bytes).map (·, expiresAt)
  | some _ => none

/-- The script of `incr_expire`: INCR, then EXPIRE on the first hit of a
counter and on a counter found without a TTL. -/
def incrExpireScript (db : Db) (key : Bytes) (seconds : Nat) : Db × Reply :=
  match counterOf (db.get key) with
  | none => (db, .error)
  | some (value, expiresAt) =>
      if value = 2 ^ 63 - 1 then (db, .error)
      else if value + 1 = 1 ∨ expiresAt = none then
        if seconds = 0 then (db.remove key, .integer (value + 1))
        else (db.put key ⟨.str (Decimal.ofInt (value + 1)), some (db.now + seconds * 1000)⟩,
          .integer (value + 1))
      else (db.put key ⟨.str (Decimal.ofInt (value + 1)), expiresAt⟩, .integer (value + 1))

def exec (server : Server) (db : Db) : Cmd → Db × Reply
  | .connect => (db, .status)
  | .hset key pairs =>
      match db.get key with
      | none => (db.put key ⟨.hash (Hash.setFields ∅ pairs), none⟩, .integer pairs.length)
      | some ⟨.hash fields, expiresAt⟩ =>
          let updated := Hash.setFields fields pairs
          (db.put key ⟨.hash updated, expiresAt⟩,
            .integer (updated.entries.length - fields.entries.length))
      | some _ => (db, .error)
  | .hgetall key =>
      match db.get key with
      | none => (db, .array [])
      | some ⟨.hash fields, _⟩ =>
          (db, .array (flattenPairs (server.fieldOrder (Hash.pairs fields))))
      | some _ => (db, .error)
  | .del key => (db.remove key, .integer (if (db.get key).isSome then 1 else 0))
  | .sadd key member =>
      match db.get key with
      | none => (db.put key ⟨.set [member], none⟩, .integer 1)
      | some ⟨.set members, expiresAt⟩ =>
          (db.put key ⟨.set (members.insert member), expiresAt⟩,
            .integer (if member ∈ members then 0 else 1))
      | some _ => (db, .error)
  | .srem key member =>
      match db.get key with
      | none => (db, .integer 0)
      | some ⟨.set members, expiresAt⟩ =>
          let rest := members.filter (· ≠ member)
          let removed := Reply.integer (if member ∈ members then 1 else 0)
          -- Redis drops a set with its last member
          if rest = [] then (db.remove key, removed)
          else (db.put key ⟨.set rest, expiresAt⟩, removed)
      | some _ => (db, .error)
  | .smembers key =>
      match db.get key with
      | none => (db, .array [])
      | some ⟨.set members, _⟩ => (db, .array ((server.memberOrder members).map .str))
      | some _ => (db, .error)
  | .incrExpire key seconds => incrExpireScript db key seconds
  | .setEx key value seconds =>
      if seconds = 0 then (db, .error)
      else (db.put key ⟨.str value, some (db.now + seconds * 1000)⟩, .status)
  | .getdel key =>
      match db.get key with
      | none => (db, .nil)
      | some ⟨.str bytes, _⟩ => (db.remove key, .str bytes)
      | some _ => (db, .error)

/-- How one command goes: served; answered with an error without running;
lost on the way; or run with its reply lost. -/
inductive Delivery where
  | served
  | refused
  | dropped
  | replyLost
deriving DecidableEq

/-- Whether the server ran the command. -/
def Delivery.runs : Delivery → Bool
  | .served | .replyLost => true
  | .refused | .dropped => false

/-- `none` is the NULL reply of a failed connection.  The environment only lets
time pass. -/
def machine (server : Server) : Process.Machine Db Cmd (Option Reply) Delivery Nat where
  serve
    | .served, db, command => ((exec server db command).1, some (exec server db command).2)
    | .refused, db, _ => (db, some .error)
    | .dropped, db, _ => (db, none)
    | .replyLost, db, command => ((exec server db command).1, none)
  evolve milliseconds db := { db with now := db.now + milliseconds }

def Cmd.key : Cmd → Option Bytes
  | .connect => none
  | .hset key _ | .hgetall key | .del key | .sadd key _ | .srem key _ | .smembers key
  | .incrExpire key _ | .setEx key _ _ | .getdel key => some key

end AuthWebauthn.Redis
