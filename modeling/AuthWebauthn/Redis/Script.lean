import AuthWebauthn.Redis.Effects

namespace AuthWebauthn.Redis

/-! The few lines of Lua that `incr_expire` sends, as a syntax tree with the text that they are written as
and with what they do.  Lua's numbers are doubles, so the counter is rounded when the script reads it.
-/

/-- `c == 1`, `redis.call('TTL', KEYS[1]) < 0`, or one of two. -/
inductive ScriptTest where
  | isOne
  | withoutTtl
  | either (first second : ScriptTest)

inductive ScriptLine where
  /-- `local c = redis.call('INCR', KEYS[1])` -/
  | incr
  /-- `redis.call('EXPIRE', KEYS[1], ARGV[1])`, under a test. -/
  | expireIf (test : ScriptTest)
  /-- `return c` -/
  | giveCount

def ScriptTest.text : ScriptTest → Bytes
  | isOne => ascii "c == 1"
  | withoutTtl => ascii "redis.call('TTL', KEYS[1]) < 0"
  | either first second => first.text ++ ascii " or " ++ second.text

def ScriptLine.text : ScriptLine → Bytes
  | incr => ascii "local c = redis.call('INCR', KEYS[1])\n"
  | expireIf test => ascii "if " ++ test.text ++
      ascii " then\n  redis.call('EXPIRE', KEYS[1], ARGV[1])\nend\n"
  | giveCount => ascii "return c"

def scriptText (lines : List ScriptLine) : Bytes := lines.flatMap ScriptLine.text

def incrExpireLines : List ScriptLine := [.incr, .expireIf (.either .isOne .withoutTtl), .giveCount]

/-- What TTL answers: seconds left, or a negative number for no key and for no expiry. -/
def callTtl (db : Db) (key : Bytes) : Int :=
  match db.get key with
  | none => -2
  | some ⟨_, none⟩ => -1
  | some ⟨_, some deadline⟩ => ((deadline - db.now + 500) / 1000 : Nat)

/-- `none` is an error, which ends the script. -/
def callIncr (db : Db) (key : Bytes) : Option (Db × Int) :=
  match counterOf (db.get key) with
  | none => none
  | some (value, expiresAt) =>
      if value = 2 ^ 63 - 1 then none
      else some (db.put key ⟨.str (Decimal.ofInt (value + 1)), expiresAt⟩, value + 1)

def callExpire (db : Db) (key argument : Bytes) : Option Db :=
  match string2ll argument with
  | none => none
  | some seconds =>
      match db.get key with
      | none => some db
      | some entry =>
          if seconds ≤ 0 then some (db.remove key)
          else some (db.put key ⟨entry.value, some (db.now + seconds.toNat * 1000)⟩)

def ScriptTest.holds (db : Db) (key : Bytes) (c : Int) : ScriptTest → Bool
  | isOne => c = 1
  | withoutTtl => callTtl db key < 0
  | either first second => first.holds db key c || second.holds db key c

/-- The lines one after the other on `KEYS[1]` and `ARGV[1]`; `c` holds the rounded counter. -/
def runScript (round : Int → Int) (key argument : Bytes) : List ScriptLine → Db → Int → Db × Reply
  | [], db, _ => (db, .nil)
  | .incr :: rest, db, _ =>
      match callIncr db key with
      | none => (db, .error)
      | some (db, count) => runScript round key argument rest db (round count)
  | .expireIf test :: rest, db, c =>
      if test.holds db key c then
        match callExpire db key argument with
        | none => (db, .error)
        | some db => runScript round key argument rest db c
      else runScript round key argument rest db c
  | .giveCount :: _, db, c => (db, .integer c)

section Run

variable {round : Int → Int} {db : Db} {key : Bytes}

theorem string2ll_digits {value : Nat} (small : value < 2 ^ 63) :
    string2ll (Decimal.digits value) = some (value : Int) := by
  have read := string2ll_ofInt small
  have positive : ¬ (value : Int) < 0 := by omega
  rwa [Decimal.ofInt, if_neg positive, Int.natAbs_natCast] at read

def Reply.rounded (round : Int → Int) : Reply → Reply
  | .integer value => .integer (round value)
  | reply => reply

theorem Db.put_put (first second : Entry) : (db.put key first).put key second = db.put key second := by
  simp [Db.put]

theorem Db.put_remove (entry : Entry) : (db.put key entry).remove key = db.remove key := by
  simp [Db.put, Db.remove]

/-- A counter keeps its deadline, which has not come yet. -/
theorem get_counter {value : Int} {expiresAt : Option Nat} {text : Bytes}
    (counter : counterOf (db.get key) = some (value, expiresAt)) :
    (db.put key ⟨.str text, expiresAt⟩).get key = some ⟨.str text, expiresAt⟩ := by
  cases found : db.get key with
  | none =>
      rw [found] at counter
      cases counter
      simp [Db.get, Db.put, Entry.live]
  | some entry =>
      have live := (Db.get_eq_some found).2
      obtain ⟨stored, expiry⟩ := entry
      rw [found] at counter
      cases stored with
      | str bytes =>
          obtain ⟨_, _, same⟩ := Option.map_eq_some_iff.mp counter
          cases same
          simpa [Db.get, Db.put, Entry.live] using live
      | hash fields => cases counter
      | set members => cases counter

theorem callIncr_counter {value : Int} {expiresAt : Option Nat}
    (counter : counterOf (db.get key) = some (value, expiresAt)) (room : value ≠ 2 ^ 63 - 1) :
    callIncr db key = some (db.put key ⟨.str (Decimal.ofInt (value + 1)), expiresAt⟩, value + 1) := by
  simp only [callIncr, counter, if_neg room]

theorem callTtl_negative_iff {value : Value} {expiresAt : Option Nat}
    (found : db.get key = some ⟨value, expiresAt⟩) : callTtl db key < 0 ↔ expiresAt = none := by
  rw [callTtl, found]
  cases expiresAt with
  | none => simp
  | some deadline =>
      simp only [reduceCtorEq, iff_false, Int.not_lt]
      exact Int.natCast_nonneg _

/-- No time at all removes the key. -/
theorem callExpire_digits {entry : Entry} {seconds : Nat} (small : seconds < 2 ^ 63)
    (found : db.get key = some entry) : callExpire db key (Decimal.digits seconds) =
      some (if seconds = 0 then db.remove key
        else db.put key ⟨entry.value, some (db.now + seconds * 1000)⟩) := by
  simp only [callExpire, string2ll_digits small, found]
  by_cases none : seconds = 0
  · simp [none]
  · simp [none]

/-- The lines do to the store what the command does, and answer with the counter as Lua holds it. -/
theorem runScript_incrExpire (one : ∀ value, round value = 1 ↔ value = 1) {seconds : Nat}
    (small : seconds < 2 ^ 63) (c : Int) :
    runScript round key (Decimal.digits seconds) incrExpireLines db c =
      ((incrExpireScript db key seconds).1, (incrExpireScript db key seconds).2.rounded round) := by
  cases counter : counterOf (db.get key) with
  | none => simp [incrExpireLines, runScript, callIncr, incrExpireScript, counter, Reply.rounded]
  | some held =>
      obtain ⟨value, expiresAt⟩ := held
      by_cases full : value = 2 ^ 63 - 1
      · simp [incrExpireLines, runScript, callIncr, incrExpireScript, counter, full, Reply.rounded]
      · have found := @get_counter _ _ _ _ (Decimal.ofInt (value + 1)) counter
        have timeless := callTtl_negative_iff found
        have expires := callExpire_digits small found
        rw [Db.put_put, Db.put_remove] at expires
        simp only [incrExpireLines, runScript, callIncr_counter counter full, ScriptTest.holds, expires,
          incrExpireScript, counter, if_neg full]
        by_cases due : value + 1 = 1 ∨ expiresAt = none
        · have tested : (decide (round (value + 1) = 1) || decide (callTtl (db.put key
              ⟨.str (Decimal.ofInt (value + 1)), expiresAt⟩) key < 0)) = true := by
            simpa [one, timeless] using due
          rw [if_pos tested, if_pos due]
          split_ifs <;> rfl
        · have tested : ¬ (decide (round (value + 1) = 1) || decide (callTtl (db.put key
              ⟨.str (Decimal.ofInt (value + 1)), expiresAt⟩) key < 0)) = true := by
            simpa [one, timeless] using due
          rw [if_neg tested, if_neg due]
          rfl

end Run

end AuthWebauthn.Redis
