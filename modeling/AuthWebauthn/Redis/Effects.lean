import AuthWebauthn.Redis.Client
import AuthWebauthn.Process.History

namespace AuthWebauthn.Redis

open Process

variable {server : Server} {db : Db} {key : Bytes}

theorem Db.get_of_absent (absent : db.entries key = none) : db.get key = none := by
  simp [Db.get, absent]

theorem Db.get_of_persistent {value : Value} (found : db.entries key = some ⟨value, none⟩) :
    db.get key = some ⟨value, none⟩ := by
  simp [Db.get, found, Entry.live]

theorem Db.get_eq_some {entry : Entry} (found : db.get key = some entry) :
    db.entries key = some entry ∧ entry.live db.now = true := by
  simpa [Db.get, Option.filter_eq_some_iff] using found

theorem incrExpireScript_other {other : Bytes} {seconds : Nat} (different : key ≠ other) :
    (incrExpireScript db key seconds).1.entries other = db.entries other := by
  unfold incrExpireScript
  split
  · rfl
  · split_ifs <;> simp [Db.put, Db.remove, Function.update_of_ne (Ne.symm different)]

/-- A command changes at most the entry under its own key. -/
theorem exec_other {command : Cmd} {other : Bytes} (different : command.key ≠ some other) :
    (exec server db command).1.entries other = db.entries other := by
  have update {key : Bytes} {entry : Option Entry} (apart : some key ≠ some other) :
      Function.update db.entries key entry other = db.entries other :=
    Function.update_of_ne (fun same => apart (congrArg some same.symm)) _ _
  cases command with
  | connect => rfl
  | incrExpire key seconds =>
      exact incrExpireScript_other fun same => different (congrArg some same)
  | setEx key value seconds =>
      simp only [exec]
      split_ifs
      · rfl
      · exact update different
  | del key => exact update different
  | srem key member =>
      simp only [exec]
      split
      · rfl
      · split_ifs <;> exact update different
      · rfl
  | _ key =>
      simp only [exec]
      split <;> first | rfl | exact update different

theorem serve_other {delivery : Delivery} {command : Cmd} {other : Bytes}
    (different : command.key ≠ some other) :
    ((machine server).serve delivery db command).1.entries other = db.entries other := by
  cases delivery <;> first | rfl | exact exec_other different

theorem serve_not_run {delivery : Delivery} {command : Cmd} (lost : delivery.runs = false) :
    ((machine server).serve delivery db command).1 = db := by
  cases delivery <;> first | rfl | cases lost

theorem serve_run {delivery : Delivery} {command : Cmd} (runs : delivery.runs = true) :
    ((machine server).serve delivery db command).1 = (exec server db command).1 := by
  cases delivery <;> first | rfl | cases runs

/-- What a command keeps when it runs is kept however it is delivered. -/
theorem serve_keeps (property : Db → Prop) {delivery : Delivery} {command : Cmd} (holds : property db)
    (ran : delivery.runs = true → property (exec server db command).1) :
    property ((machine server).serve delivery db command).1 := by
  cases runs : delivery.runs with
  | false => rwa [serve_not_run runs]
  | true =>
      rw [serve_run runs]
      exact ran runs

/-- Only a served command brings a reply that is not an error. -/
theorem serve_reply {delivery : Delivery} {command : Cmd} {reply : Reply}
    (answered : ((machine server).serve delivery db command).2 = some reply)
    (proper : reply ≠ .error) :
    delivery = .served ∧ (exec server db command).2 = reply := by
  cases delivery with
  | served => exact ⟨rfl, by simpa [machine] using answered⟩
  | refused => exact (proper (by simpa [machine] using answered.symm)).elim
  | dropped => simp [machine] at answered
  | replyLost => simp [machine] at answered

/-- A property of one stored entry does not depend on the clock. -/
theorem stable_entry (property : Option Entry → Prop) :
    Pool.Stable (machine server) fun db => property (db.entries key) :=
  fun _ _ holds => holds

theorem exec_del : (exec server db (.del key)).1.entries key = none := by
  simp [exec, Db.remove]

theorem exec_hgetall : (exec server db (.hgetall key)).1 = db := by
  simp only [exec]
  split <;> rfl

/-- An absent or expired key stays so as time passes. -/
theorem stable_get_none : Pool.Stable (machine server) fun db => db.get key = none := by
  intro milliseconds db absent
  change ((db.entries key).filter (Entry.live (db.now + milliseconds))) = none
  cases found : db.entries key with
  | none => rfl
  | some entry =>
      simp only [Db.get, found, Option.filter_eq_none_iff, Option.some.injEq, forall_eq'] at absent ⊢
      cases expiry : entry.expiresAt with
      | none => simp [Entry.live, expiry] at absent
      | some deadline =>
          simp only [Entry.live, expiry, decide_eq_true_eq] at absent ⊢
          omega

theorem exec_now (command : Cmd) : (exec server db command).1.now = db.now := by
  cases command with
  | incrExpire key seconds =>
      simp only [exec, incrExpireScript]
      split
      · rfl
      · split_ifs <;> rfl
  | srem key member =>
      simp only [exec]
      split
      · rfl
      · split_ifs <;> rfl
      · rfl
  | setEx key value seconds =>
      simp only [exec]
      split_ifs <;> rfl
  | _ =>
      simp only [exec]
      first | done | rfl | (split <;> rfl)

theorem serve_now {delivery : Delivery} {command : Cmd} :
    ((machine server).serve delivery db command).1.now = db.now := by
  cases delivery <;> first | rfl | exact exec_now command

theorem exec_other_get {command : Cmd} {other : Bytes} (different : command.key ≠ some other) :
    (exec server db command).1.get other = db.get other := by
  simp only [Db.get, exec_other different, exec_now]

theorem serve_other_get {delivery : Delivery} {command : Cmd} {other : Bytes}
    (different : command.key ≠ some other) :
    ((machine server).serve delivery db command).1.get other = db.get other := by
  simp only [Db.get, serve_other different, serve_now]

theorem exec_setEx {value : Bytes} {seconds : Nat} (positive : 0 < seconds) :
    (exec server db (.setEx key value seconds)).1.entries key =
      some ⟨.str value, some (db.now + seconds * 1000)⟩ := by
  have nonzero : seconds ≠ 0 := by omega
  simp [exec, nonzero, Db.put]

theorem exec_getdel (plain : db.get key = none ∨ ∃ value expiresAt, db.entries key =
    some ⟨.str value, expiresAt⟩) : (exec server db (.getdel key)).1.get key = none := by
  cases found : db.get key with
  | none => simp only [exec, found]
  | some entry =>
      rcases plain with absent | ⟨value, expiresAt, stored⟩
      · rw [absent] at found
        cases found
      · rw [(Db.get_eq_some found).1, Option.some.injEq] at stored
        subst stored
        simp only [exec, found]
        exact Db.get_of_absent (Function.update_self ..)

/-- GETDEL answers with a string only for a live key. -/
theorem exec_getdel_found {value : Bytes} (answered : (exec server db (.getdel key)).2 = .str value) :
    ∃ expiresAt, db.get key = some ⟨.str value, expiresAt⟩ := by
  cases found : db.get key with
  | none => simp [exec, found] at answered
  | some entry =>
      obtain ⟨stored, expiresAt⟩ := entry
      cases stored with
      | str bytes =>
          simp only [exec, found, Reply.str.injEq] at answered
          exact ⟨expiresAt, by rw [answered]⟩
      | hash fields => simp [exec, found] at answered
      | set members => simp [exec, found] at answered

theorem string2ll_ofInt {count : Nat} (small : count < 2 ^ 63) :
    string2ll (Decimal.ofInt count) = some (count : Int) := by
  have text : Decimal.ofInt count = Decimal.digits count := by
    have positive : ¬ (count : Int) < 0 := by omega
    simp [Decimal.ofInt, positive]
  have unsigned : (Decimal.digits count).head? ≠ some 45 := by
    cases spelled : Decimal.digits count with
    | nil => simp
    | cons byte rest =>
        have isDigit := Decimal.digits_isDigit count byte (by simp [spelled])
        simp only [List.head?_cons, ne_eq, Option.some.injEq]
        intro same
        subst same
        exact absurd isDigit.1 (by decide)
  simp only [string2ll, text, unsigned, if_false, Decimal.valueFrom_digits, true_and]
  exact if_pos (by omega)

theorem Db.put_get {value : Value} {deadline : Nat} (ahead : db.now < deadline) :
    (db.put key ⟨value, some deadline⟩).get key = some ⟨value, some deadline⟩ := by
  simp [Db.get, Db.put, Entry.live, ahead]

theorem exec_incrExpire_absent {seconds : Nat} (absent : db.get key = none) (positive : 0 < seconds) :
    exec server db (.incrExpire key seconds) =
      (db.put key ⟨.str (Decimal.ofInt 1), some (db.now + seconds * 1000)⟩, .integer 1) := by
  have nonzero : seconds ≠ 0 := by omega
  simp [exec, incrExpireScript, absent, counterOf, nonzero]

theorem exec_incrExpire_counter {seconds count deadline : Nat} (used : 1 ≤ count) (small : count < 2 ^ 63)
    (found : db.get key = some ⟨.str (Decimal.ofInt count), some deadline⟩)
    (answered : (exec server db (.incrExpire key seconds)).2 ≠ .error) :
    count + 1 < 2 ^ 63 ∧ exec server db (.incrExpire key seconds) =
      (db.put key ⟨.str (Decimal.ofInt (count + 1 : Nat)), some deadline⟩, .integer (count + 1 : Nat)) := by
  have counter : counterOf (db.get key) = some ((count : Int), some deadline) := by
    rw [found, counterOf, string2ll_ofInt small]
    rfl
  by_cases full : (count : Int) = 2 ^ 63 - 1
  · simp [exec, incrExpireScript, counter, full] at answered
  · have first : ¬ ((count : Int) + 1 = 1 ∨ some deadline = none) := by simp; omega
    refine ⟨by omega, ?_⟩
    simp only [exec, incrExpireScript, counter, if_neg full, if_neg first]
    simp

def fieldsOf : Option Entry → Hash
  | some ⟨.hash fields, _⟩ => fields
  | _ => ∅

def membersOf : Option Entry → List Bytes
  | some ⟨.set members, _⟩ => members
  | _ => []

def hashEntry (fields : Hash) : Option Entry := some ⟨.hash fields, none⟩

def setEntry (members : List Bytes) : Option Entry :=
  if members = [] then none else some ⟨.set members, none⟩

@[simp] theorem fieldsOf_none : fieldsOf none = ∅ := rfl

@[simp] theorem fieldsOf_hashEntry (fields : Hash) : fieldsOf (hashEntry fields) = fields := rfl

@[simp] theorem membersOf_setEntry (members : List Bytes) : membersOf (setEntry members) = members := by
  by_cases empty : members = []
  · simp only [setEntry, empty, if_true, membersOf]
  · simp only [setEntry, empty, if_false, membersOf]

def fieldsAt (db : Db) (key : Bytes) : Hash := fieldsOf (db.entries key)

def membersAt (db : Db) (key : Bytes) : List Bytes := membersOf (db.entries key)

def IsHash (db : Db) (key : Bytes) : Prop :=
  db.entries key = none ∨ db.entries key = hashEntry (fieldsAt db key)

def IsSet (db : Db) (key : Bytes) : Prop := db.entries key = setEntry (membersAt db key)

def Db.write (db : Db) (key : Bytes) (entry : Option Entry) : Db :=
  { db with entries := Function.update db.entries key entry }

@[simp] theorem Db.write_same (db : Db) (key : Bytes) (entry : Option Entry) : (db.write key entry).entries key = entry :=
  Function.update_self ..

@[simp] theorem Db.write_other (db : Db) {other : Bytes} (entry : Option Entry) (different : other ≠ key) :
    (db.write key entry).entries other = db.entries other :=
  Function.update_of_ne different ..

@[simp] theorem Db.write_write (db : Db) (key : Bytes) (first second : Option Entry) :
    (db.write key first).write key second = db.write key second := by
  simp [Db.write]

theorem Db.write_comm (db : Db) {key other : Bytes} (different : key ≠ other)
    (first second : Option Entry) :
    (db.write key first).write other second = (db.write other second).write key first := by
  simp only [Db.write, Function.update_comm different.symm]

theorem fieldsAt_congr {left right : Db} (same : left.entries key = right.entries key) :
    fieldsAt left key = fieldsAt right key := by
  simp only [fieldsAt, same]

theorem membersAt_congr {left right : Db} (same : left.entries key = right.entries key) :
    membersAt left key = membersAt right key := by
  simp only [membersAt, same]

theorem IsHash.congr {left right : Db} (same : left.entries key = right.entries key)
    (typed : IsHash right key) : IsHash left key := by
  rw [IsHash, fieldsAt_congr same, same]
  exact typed

theorem IsSet.congr {left right : Db} (same : left.entries key = right.entries key)
    (typed : IsSet right key) : IsSet left key := by
  rw [IsSet, membersAt_congr same, same]
  exact typed

theorem isHash_of_entry {fields : Hash} (found : db.entries key = hashEntry fields) :
    IsHash db key := .inr (by rw [fieldsAt, found, fieldsOf_hashEntry])

theorem isSet_of_entry {members : List Bytes} (found : db.entries key = setEntry members) :
    IsSet db key := by rw [IsSet, membersAt, found, membersOf_setEntry]

theorem exec_hset (server : Server) (typed : IsHash db key) (pairs : List (Bytes × Bytes)) :
    (exec server db (.hset key pairs)).1 =
        db.write key (hashEntry (Hash.setFields (fieldsAt db key) pairs)) ∧
      (exec server db (.hset key pairs)).2 ≠ .error := by
  rcases typed with absent | found
  · have none : fieldsAt db key = ∅ := by simp only [fieldsAt, absent, fieldsOf_none]
    rw [none]
    simp [exec, Db.get_of_absent absent, Db.put, Db.write, hashEntry]
  · simp [exec, Db.get_of_persistent found, Db.put, Db.write, hashEntry]

theorem exec_sadd (server : Server) (typed : IsSet db key) (member : Bytes) :
    (exec server db (.sadd key member)).1 =
        db.write key (setEntry ((membersAt db key).insert member)) ∧
      (exec server db (.sadd key member)).2 ≠ .error := by
  have filled : (membersAt db key).insert member ≠ [] :=
    List.ne_nil_of_mem List.mem_insert_self
  by_cases empty : membersAt db key = []
  · have absent : db.entries key = none := by rw [typed, setEntry, if_pos empty]
    simp [exec, Db.get_of_absent absent, Db.put, Db.write, setEntry, empty]
  · have found : db.entries key = some ⟨.set (membersAt db key), none⟩ := by
      rw [typed.trans (if_neg empty)]
    simp [exec, Db.get_of_persistent found, Db.put, Db.write, setEntry, filled]

theorem exec_srem (server : Server) (typed : IsSet db key) (member : Bytes) :
    (exec server db (.srem key member)).1 =
        db.write key (setEntry ((membersAt db key).filter (· ≠ member))) ∧
      (exec server db (.srem key member)).2 ≠ .error := by
  by_cases empty : membersAt db key = []
  · have absent : db.entries key = none := by rw [typed, setEntry, if_pos empty]
    have unchanged : Function.update db.entries key none = db.entries := by
      rw [← absent, Function.update_eq_self]
    simp [exec, Db.get_of_absent absent, Db.write, setEntry, empty, unchanged]
  · have found : db.entries key = some ⟨.set (membersAt db key), none⟩ := by
      rw [typed.trans (if_neg empty)]
    by_cases last : (membersAt db key).filter (· ≠ member) = []
    · simp only [exec, Db.get_of_persistent found, setEntry, if_pos last]
      exact ⟨rfl, by simp⟩
    · simp only [exec, Db.get_of_persistent found, setEntry, if_neg last]
      exact ⟨rfl, by simp⟩

theorem exec_smembers (server : Server) (db : Db) (key : Bytes) :
    (exec server db (.smembers key)).1 = db := by
  simp only [exec]
  split <;> rfl

theorem exec_del_eq (server : Server) (db : Db) (key : Bytes) : (exec server db (.del key)).1 = db.write key none ∧
    (exec server db (.del key)).2 ≠ .error := ⟨rfl, by simp [exec]⟩

/-- Redis answers HGETALL on a hash key with all its fields. -/
theorem exec_hgetall_reply (server : Server) (typed : IsHash db key) :
    hgetallReply (some (exec server db (.hgetall key)).2) =
      some (server.fieldOrder (Hash.pairs (fieldsAt db key))) := by
  rcases typed with absent | found
  · have none : fieldsAt db key = ∅ := by simp only [fieldsAt, absent, fieldsOf_none]
    have empty : server.fieldOrder (Hash.pairs ∅) = [] := (server.fieldOrder_perm _).eq_nil
    simp [exec, Db.get_of_absent absent, hgetallReply, pairsOfElements, none, empty]
  · simp [exec, Db.get_of_persistent found, hgetallReply, pairsOfElements_flattenPairs]

theorem exec_hset_live {fields : Hash} {expiresAt : Option Nat} (pairs : List (Bytes × Bytes))
    (found : db.get key = some ⟨.hash fields, expiresAt⟩) :
    (exec server db (.hset key pairs)).1.get key = some ⟨.hash (Hash.setFields fields pairs), expiresAt⟩ := by
  have live := (Db.get_eq_some found).2
  simp only [exec, found]
  simpa [Db.get, Db.put, Entry.live] using live

/-- An HSET that succeeds merges its fields into those that the key holds. -/
theorem exec_hset_get {pairs : List (Bytes × Bytes)}
    (answered : (exec server db (.hset key pairs)).2 ≠ .error) :
    ∃ expiresAt, (exec server db (.hset key pairs)).1.get key =
      some ⟨.hash (Hash.setFields (fieldsOf (db.get key)) pairs), expiresAt⟩ := by
  cases found : db.get key with
  | none =>
      refine ⟨none, ?_⟩
      simp only [exec, found, fieldsOf_none]
      exact Db.get_of_persistent (Function.update_self ..)
  | some entry =>
      obtain ⟨value, expiresAt⟩ := entry
      cases value with
      | hash fields => exact ⟨expiresAt, exec_hset_live pairs found⟩
      | str bytes => simp [exec, found] at answered
      | set members => simp [exec, found] at answered

theorem exec_hgetall_live {fields : Hash} {expiresAt : Option Nat}
    (found : db.get key = some ⟨.hash fields, expiresAt⟩) :
    hgetallReply (some (exec server db (.hgetall key)).2) =
      some (server.fieldOrder (Hash.pairs fields)) := by
  simp only [exec, found, hgetallReply, pairsOfElements_flattenPairs]

theorem Hash.mem_pairs {fields : Hash} {name value : Bytes} :
    (name, value) ∈ Hash.pairs fields ↔ fields.lookup name = some value := by
  rw [← Option.mem_def, AList.mem_lookup_iff]
  simp only [Hash.pairs, List.mem_map, Prod.mk.injEq]
  constructor
  · intro listed
    obtain ⟨field, member, rfl, rfl⟩ := listed
    exact member
  · intro member
    exact ⟨_, member, rfl, rfl⟩

theorem Hash.lookup_setFields_absent {pairs : List (Bytes × Bytes)} {name : Bytes} {fields : Hash}
    (absent : name ∉ pairs.map Prod.fst) :
    (Hash.setFields fields pairs).lookup name = fields.lookup name := by
  induction pairs generalizing fields with
  | nil => rfl
  | cons pair rest ih =>
      simp only [List.map_cons, List.mem_cons, not_or] at absent
      exact (ih absent.2).trans (AList.lookup_insert_ne absent.1)

theorem Hash.lookup_setFields_of_mem {pairs : List (Bytes × Bytes)} {name value : Bytes}
    {fields : Hash} (nodup : (pairs.map Prod.fst).Nodup) (member : (name, value) ∈ pairs) :
    (Hash.setFields fields pairs).lookup name = some value := by
  induction pairs generalizing fields with
  | nil => cases member
  | cons pair rest ih =>
      simp only [List.map_cons, List.nodup_cons] at nodup
      rcases List.mem_cons.mp member with rfl | later
      · exact (Hash.lookup_setFields_absent nodup.1).trans (AList.lookup_insert _)
      · exact ih nodup.2 later

theorem Hash.mem_iff_lookup_setFields {pairs : List (Bytes × Bytes)} {name value : Bytes}
    (nodup : (pairs.map Prod.fst).Nodup) :
    (name, value) ∈ pairs ↔ (Hash.setFields ∅ pairs).lookup name = some value := by
  refine ⟨lookup_setFields_of_mem nodup, fun found => ?_⟩
  by_cases listed : name ∈ pairs.map Prod.fst
  · obtain ⟨⟨_, stored⟩, member, rfl⟩ := List.mem_map.mp listed
    rw [lookup_setFields_of_mem nodup member, Option.some.injEq] at found
    exact found ▸ member
  · rw [lookup_setFields_absent listed, AList.lookup_empty] at found
    cases found

private theorem kerase_eq_filter {name : Bytes} {fields : List (Sigma fun _ : Bytes => Bytes)}
    (nodup : fields.NodupKeys) :
    fields.kerase name = fields.filter fun field => field.1 ≠ name := by
  induction fields with
  | nil => rfl
  | cons field rest ih =>
      obtain ⟨fresh, nodupRest⟩ := List.nodupKeys_cons.mp nodup
      by_cases same : name = field.1
      · subst same
        have untouched : rest.filter (fun later => later.1 ≠ field.1) = rest := by
          refine List.filter_eq_self.mpr fun later member => ?_
          have other : later.1 ≠ field.1 := fun same => fresh (same ▸ List.mem_keys_of_mem member)
          simp [other]
        rw [List.kerase_cons_eq rfl, List.filter_cons_of_neg (by simp), untouched]
      · rw [List.kerase_cons_ne same, ih nodupRest,
          List.filter_cons_of_pos (by simpa using Ne.symm same)]

/-- Setting fields puts them in front of the fields they do not replace. -/
theorem Hash.setFields_entries {pairs : List (Bytes × Bytes)} (nodup : (pairs.map Prod.fst).Nodup)
    (fields : Hash) :
    (Hash.setFields fields pairs).entries =
      (pairs.reverse.map fun pair => ⟨pair.1, pair.2⟩) ++
        fields.entries.filter fun field => field.1 ∉ pairs.map Prod.fst := by
  induction pairs generalizing fields with
  | nil => simp [setFields]
  | cons pair rest ih =>
      simp only [List.map_cons, List.nodup_cons] at nodup
      have front : (AList.insert pair.1 pair.2 fields).entries =
          ⟨pair.1, pair.2⟩ :: fields.entries.filter fun field => field.1 ≠ pair.1 := by
        rw [AList.entries_insert, kerase_eq_filter fields.nodupKeys]
      have later := ih nodup.2 (AList.insert pair.1 pair.2 fields)
      rw [front, List.filter_cons_of_pos (by simpa using nodup.1), List.filter_filter] at later
      have others : (fields.entries.filter fun field => field.1 ∉ (pair :: rest).map Prod.fst) =
          fields.entries.filter fun field =>
            decide (field.1 ∉ rest.map Prod.fst) && decide (field.1 ≠ pair.1) := by
        refine List.filter_congr fun field _ => ?_
        rw [Bool.eq_iff_iff]
        simp only [List.map_cons, List.mem_cons, not_or, Bool.and_eq_true, decide_eq_true_eq, ne_eq,
          and_comm]
      rw [others]
      simpa [setFields] using later

/-- Setting the same fields again changes nothing. -/
theorem Hash.setFields_idem {pairs : List (Bytes × Bytes)} (nodup : (pairs.map Prod.fst).Nodup)
    (fields : Hash) : Hash.setFields (Hash.setFields fields pairs) pairs = Hash.setFields fields pairs := by
  have replaced : (pairs.reverse.map fun pair => (⟨pair.1, pair.2⟩ : Sigma fun _ : Bytes => Bytes)).filter
      (fun field => field.1 ∉ pairs.map Prod.fst) = [] := by
    rw [List.filter_eq_nil_iff]
    intro field member
    obtain ⟨pair, listed, rfl⟩ := List.mem_map.mp member
    simpa using ⟨pair.2, List.mem_reverse.mp listed⟩
  apply AList.ext
  rw [setFields_entries nodup, setFields_entries nodup fields, List.filter_append, replaced,
    List.nil_append, List.filter_filter]
  simp

end AuthWebauthn.Redis
