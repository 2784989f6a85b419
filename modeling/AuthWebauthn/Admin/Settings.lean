import AuthWebauthn.Admin.Options
import AuthWebauthn.Conf.Directives

namespace AuthWebauthn

open Strtol

/-! `auth_webauthn_redis` splits its argument at the first colon and takes a port of digits only;
`--redis` splits at the last one and reads the port with `strtol`.
-/

/-- `ngx_atoi`: decimal digits and nothing else, without overflow. -/
def AtoiConforms (core : ConfCore) : Prop :=
  ∀ text value, core.atoi text = some value ↔
    text ≠ [] ∧ (∀ byte ∈ text, isDigit byte = true) ∧ (Decimal.valueFrom 0 text : Int) = value.toInt

theorem splitFirst_eq_some {separator : UInt8} {text front back : Bytes} :
    splitFirst separator text = some (front, back) ↔ text = front ++ separator :: back ∧ separator ∉ front := by
  unfold splitFirst
  constructor
  · intro found
    cases rest : text.dropWhile (· ≠ separator) with
    | nil => simp only [rest, reduceCtorEq] at found
    | cons byte later =>
        simp only [rest, Option.some.injEq, Prod.mk.injEq] at found
        obtain ⟨rfl, rfl⟩ := found
        have stops := List.head?_dropWhile_not (· ≠ separator) text
        rw [rest] at stops
        obtain rfl : byte = separator := by simpa using stops
        refine ⟨?_, fun inside => by simpa using List.mem_takeWhile_imp inside⟩
        rw [← rest]
        exact (List.takeWhile_append_dropWhile ..).symm
  · intro split
    obtain ⟨rfl, absent⟩ := split
    have passes : ∀ byte ∈ front, decide (byte ≠ separator) = true := by
      intro byte member
      simpa using fun same : byte = separator => absent (same ▸ member)
    rw [List.takeWhile_append_of_pos passes, List.dropWhile_append_of_pos passes]
    simp

theorem splitLast_eq_some {separator : UInt8} {text front back : Bytes} :
    splitLast separator text = some (front, back) ↔ text = front ++ separator :: back ∧ separator ∉ back := by
  have mirrored : splitLast separator text = (splitFirst separator text.reverse).map fun parts =>
      (parts.2.reverse, parts.1.reverse) := by
    unfold splitLast splitFirst
    cases text.reverse.dropWhile (· ≠ separator) <;> rfl
  have swapped : splitLast separator text = some (front, back) ↔
      splitFirst separator text.reverse = some (back.reverse, front.reverse) := by
    rw [mirrored, Option.map_eq_some_iff]
    constructor
    · intro found
      obtain ⟨parts, split, same⟩ := found
      obtain ⟨rfl, rfl⟩ := Prod.mk.inj same
      simpa using split
    · intro split
      exact ⟨_, split, by simp⟩
  rw [swapped, splitFirst_eq_some, List.mem_reverse, List.reverse_eq_iff]
  simp

theorem confSetRedis_fresh_iff (core : ConfCore) (value host : Bytes) (port : Int64) :
    (∃ conf, confSetRedis core value createLocConf = .ok conf ∧ conf.redisHost = some host ∧
      conf.redisPort = some port) ↔
    ∃ text, value = host ++ 58 :: text ∧ 58 ∉ host ∧ host ≠ [] ∧ text ≠ [] ∧ core.atoi text = some port ∧
      0 < port ∧ port ≤ 65535 := by
  have unset : ¬ (createLocConf.redisHost.getD []).length ≠ 0 := by simp [createLocConf]
  unfold confSetRedis
  rw [if_neg unset]
  constructor
  · intro accepted
    obtain ⟨conf, set, named, numbered⟩ := accepted
    cases split : splitFirst 58 value with
    | none => simp [split] at set
    | some parts =>
        obtain ⟨front, text⟩ := parts
        simp only [split] at set
        split_ifs at set with missing
        cases read : core.atoi text with
        | none => simp [read] at set
        | some number =>
            simp only [read] at set
            split_ifs at set with invalid
            obtain rfl := Except.ok.inj set
            cases named
            cases numbered
            obtain ⟨rfl, absent⟩ := splitFirst_eq_some.mp split
            obtain ⟨hosted, ported⟩ := not_or.mp missing
            obtain ⟨positive, small⟩ := not_or.mp invalid
            exact ⟨text, rfl, absent, hosted, ported, read, Int64.not_le.mp positive, Int64.not_lt.mp small⟩
  · intro written
    obtain ⟨text, rfl, absent, hosted, ported, read, positive, small⟩ := written
    have valid : ¬ (port ≤ 0 ∨ port > 65535) :=
      not_or.mpr ⟨Int64.not_le.mpr positive, Int64.not_lt.mpr small⟩
    refine ⟨{ createLocConf with redisUrl := some (host ++ 58 :: text), redisHost := some host, redisPort := some port },
      ?_, rfl, rfl⟩
    rw [splitFirst_eq_some.mpr ⟨rfl, absent⟩]
    simp only [hosted, ported, or_self, if_false, read, if_neg valid]

theorem adminParseRedis_ok_iff (value host : Bytes) (port : Int32) :
    adminParseRedis value = .ok (host, port) ↔
    ∃ text, value = host ++ 58 :: text ∧ 58 ∉ text ∧ host ≠ [] ∧ text ≠ [] ∧ (strtol text).2 = [] ∧
      0 < (strtol text).1 ∧ (strtol text).1 ≤ 65535 ∧ port = Int32.ofInt (strtol text).1 := by
  unfold adminParseRedis
  constructor
  · intro accepted
    cases split : splitLast 58 value with
    | none => simp [split] at accepted
    | some parts =>
        obtain ⟨front, text⟩ := parts
        simp only [split] at accepted
        split_ifs at accepted with missing invalid
        cases accepted
        obtain ⟨rfl, absent⟩ := splitLast_eq_some.mp split
        obtain ⟨hosted, ported⟩ := not_or.mp missing
        obtain ⟨whole, invalid⟩ := not_or.mp invalid
        obtain ⟨positive, small⟩ := not_or.mp invalid
        exact ⟨text, rfl, absent, hosted, ported, not_not.mp whole, not_le.mp positive, not_lt.mp small, rfl⟩
  · intro written
    obtain ⟨text, rfl, absent, hosted, ported, whole, positive, small, rfl⟩ := written
    have valid : ¬ ((strtol text).2 ≠ [] ∨ (strtol text).1 ≤ 0 ∨ (strtol text).1 > 65535) :=
      not_or.mpr ⟨not_not.mpr whole, not_or.mpr ⟨not_le.mpr positive, not_lt.mpr small⟩⟩
    rw [splitLast_eq_some.mpr ⟨rfl, absent⟩]
    simp only [hosted, ported, or_self, if_false, if_neg valid]

theorem toInt_ofInt_port {value : Int} (positive : 0 < value) (small : value ≤ 65535) :
    (Int32.ofInt value).toInt = value := by
  rw [Int32.toInt_ofInt]
  change value.bmod 4294967296 = value
  exact Int.bmod_eq_of_le (by omega) (by omega)

/-- The module takes an address exactly when the admin tool reads the same server from it, the host
has no colon and the port is written in digits. -/
theorem address_read_alike (core : ConfCore) (conforms : AtoiConforms core) (value host : Bytes) (port : Int64) :
    (∃ conf, confSetRedis core value createLocConf = .ok conf ∧ conf.redisHost = some host ∧
      conf.redisPort = some port) ↔
    58 ∉ host ∧ (∃ text, value = host ++ 58 :: text ∧ ∀ byte ∈ text, isDigit byte = true) ∧
      ∃ own, adminParseRedis value = .ok (host, own) ∧ own.toInt = port.toInt := by
  rw [confSetRedis_fresh_iff]
  constructor
  · intro written
    obtain ⟨text, rfl, absent, hosted, ported, read, positive, small⟩ := written
    obtain ⟨_, digits, number⟩ := (conforms text port).mp read
    have lower : 0 < port.toInt := Int64.lt_iff_toInt_lt.mp positive
    have upper : port.toInt ≤ 65535 := Int64.le_iff_toInt_le.mp small
    have reads : strtol text = (port.toInt, []) := by
      rw [strtol_run ported digits, number, clampLong_of_fits (by omega) (by omega)]
    have single : 58 ∉ text := fun inside => absurd (digits 58 inside) (by decide)
    refine ⟨absent, ⟨text, rfl, digits⟩, Int32.ofInt port.toInt, ?_, toInt_ofInt_port lower upper⟩
    exact (adminParseRedis_ok_iff _ _ _).mpr
      ⟨text, rfl, single, hosted, ported, by rw [reads], by rwa [reads], by rwa [reads], by rw [reads]⟩
  · intro written
    obtain ⟨absent, ⟨text, rfl, digits⟩, own, accepted, same⟩ := written
    obtain ⟨other, split, single, hosted, ported, whole, positive, small, rfl⟩ :=
      (adminParseRedis_ok_iff _ _ _).mp accepted
    obtain rfl : text = other := by simpa using split
    have number : (strtol text).1 = Decimal.valueFrom 0 text := by
      rw [strtol_run ported digits] at small positive ⊢
      unfold clampLong at small ⊢
      simp only at small ⊢
      omega
    rw [toInt_ofInt_port positive small] at same
    refine ⟨text, rfl, absent, hosted, ported, (conforms text port).mpr ⟨ported, digits, ?_⟩, ?_, ?_⟩
    · rw [← number, same]
    · exact Int64.lt_iff_toInt_lt.mpr (same ▸ positive)
    · exact Int64.le_iff_toInt_le.mpr (same ▸ small)

theorem sample_atoi_conforms : AtoiConforms Sample.slotCore.toConfCore := by
  intro text value
  change Sample.atoi text = some value ↔ _
  unfold Sample.atoi
  rw [Option.ite_none_right_eq_some, List.all_eq_true]
  constructor
  · intro read
    obtain ⟨⟨nonempty, digits, fits⟩, same⟩ := read
    obtain rfl := Option.some.inj same
    refine ⟨nonempty, digits, ?_⟩
    rw [Int64.toInt_ofNat_of_lt (by omega)]
  · intro written
    obtain ⟨nonempty, digits, same⟩ := written
    have upper : value.toInt ≤ 9223372036854775807 := Int64.toInt_le value
    refine ⟨⟨nonempty, digits, by omega⟩, congrArg some (Int64.toInt_inj.mp ?_)⟩
    rw [Int64.toInt_ofNat_of_lt (by omega), same]

theorem local_address_read_alike :
    ∃ own, adminParseRedis (ascii "127.0.0.1:6379") = .ok (ascii "127.0.0.1", own) ∧ own.toInt = 6379 :=
  ((address_read_alike Sample.slotCore.toConfCore sample_atoi_conforms (ascii "127.0.0.1:6379") (ascii "127.0.0.1")
    6379).mp ⟨_, rfl, rfl, rfl⟩).2.2

/-- The admin tool takes more: a host with colons, and a sign in front of the port. -/
example : adminParseRedis (ascii "::1:+6379") = .ok (ascii "::1", 6379) ∧
    confSetRedis Sample.slotCore.toConfCore (ascii "::1:+6379") createLocConf =
      .error (ascii "expects <host>:<port>") := by
  decide +kernel

end AuthWebauthn
