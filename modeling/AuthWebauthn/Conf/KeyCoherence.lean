import AuthWebauthn.Conf.Paths
import Mathlib.Tactic.Tauto

namespace AuthWebauthn

open Inheritance

/-! The loaded key is inherited like any other setting, and a block that has one
does not load again.  So a block has the key that the outermost active block on
its path loaded, with that block's file and algorithm.
-/

variable {env : ConfEnv} {http block : Block} {path below : List Block} {conf : LocConf}

def authOf : List Block → Bool := nearest (fun block => block.conf.auth) false

def verifyHandlerOf : List Block → Bool := nearest (fun block => block.conf.verifyHandler) false

def jwtSecretFileOf : List Block → Bytes := nearest (fun block => block.conf.jwtSecretFile) []

def jwtAlgOf : List Block → JwtAlg := nearest (fun block => block.conf.jwtAlg) .hs256

/-- The block mints or checks session tokens and has a key file. -/
def usesKey (path : List Block) : Bool :=
  (authOf path || verifyHandlerOf path) && 0 < (jwtSecretFileOf path).length

/-- What a file and an algorithm give. -/
structure JwtKey where
  secret : Bytes
  pubPem : Bytes
deriving DecidableEq

def keyFrom (env : ConfEnv) (file : Bytes) (alg : JwtAlg) : Option JwtKey := do
  let contents ← env.readFile file
  match alg.family with
  | .hmac => if (chomp contents).length < 32 then none else some ⟨chomp contents, []⟩
  | .asym => (env.derivePubPem contents).map fun pem => ⟨contents, pem⟩

/-- The key that the directives in force at the end of the path give. -/
def ownKey (env : ConfEnv) (path : List Block) : Option JwtKey :=
  keyFrom env (jwtSecretFileOf path) (jwtAlgOf path)

/-- The configuration holds the key of its own file and algorithm. -/
structure KeyCoherent (env : ConfEnv) (path : List Block) (conf : LocConf) : Prop where
  hmac : (jwtAlgOf path).family = .hmac → ∃ contents,
    env.readFile (jwtSecretFileOf path) = some contents ∧ conf.jwtSecret = chomp contents ∧
    32 ≤ conf.jwtSecret.length
  asym : (jwtAlgOf path).family = .asym → ∃ contents,
    env.readFile (jwtSecretFileOf path) = some contents ∧ conf.jwtSecret = contents ∧
    env.derivePubPem contents = some conf.jwtPubPem

/-- The outermost block below `http` that uses a key. -/
def loader (path : List Block) : Option (List Block) := outermost usesKey (path.take 1) path.tail

/-- The directives in force at the loader give the key that the block's own
directives give. -/
def SameKeyAsLoader (env : ConfEnv) (path : List Block) : Prop :=
  ∃ outer loaded own, loader path = some outer ∧ ownKey env outer = some loaded ∧
    ownKey env path = some own ∧ loaded.secret = own.secret ∧
    ((jwtAlgOf path).family = .asym → loaded.pubPem = own.pubPem)

/-- The inherited key, by the block that loaded it. -/
def KeyLoaded (env : ConfEnv) (secret pubPem : Bytes) : Option (List Block) → Prop
  | none => secret = [] ∧ pubPem = []
  | some outer => ∃ key, ownKey env outer = some key ∧ key.secret ≠ [] ∧ secret = key.secret ∧
      pubPem = key.pubPem

/-- What descending to the last block of the path has left. -/
structure Reached (env : ConfEnv) (path : List Block) (last : RawConf) : Prop where
  auth : last.auth.getD false = authOf path
  verifyHandler : last.verifyHandler.getD false = verifyHandlerOf path
  file : last.jwtSecretFile.getD [] = jwtSecretFileOf path
  alg : last.jwtAlg.getD .hs256 = jwtAlgOf path
  key : KeyLoaded env (last.jwtSecret.getD []) (last.jwtPubPem.getD []) (loader path)

theorem plain_auth : PlainField RawConf.auth LocConf.auth false :=
  ⟨fun _ _ => rfl, fun _ => rfl, fun _ _ _ => rfl⟩

theorem plain_verifyHandler : PlainField RawConf.verifyHandler LocConf.verifyHandler false :=
  ⟨fun _ _ => rfl, fun _ => rfl, fun _ _ _ => rfl⟩

theorem plain_jwtSecretFile : PlainField RawConf.jwtSecretFile LocConf.jwtSecretFile [] :=
  ⟨fun _ _ => rfl, fun _ => rfl, fun _ _ _ => rfl⟩

theorem plain_jwtAlg : PlainField RawConf.jwtAlg LocConf.jwtAlg .hs256 :=
  ⟨fun _ _ => rfl, fun _ => rfl, fun _ _ _ => rfl⟩

theorem reached_http (env : ConfEnv) (http : Block) : Reached env [http] http.conf where
  auth := nearest_singleton ..
  verifyHandler := nearest_singleton ..
  file := nearest_singleton ..
  alg := nearest_singleton ..
  key := by
    rw [http.unloaded.1, http.unloaded.2]
    exact ⟨rfl, rfl⟩

/-- A key that is loaded is not empty. -/
theorem loadJwtKey_some (noKey : env.derivePubPem [] = none) {loaded : LocConf}
    (unloaded : conf.jwtPubPem = []) (succeeded : loadJwtKey env conf = some loaded) :
    ∃ key, keyFrom env conf.jwtSecretFile conf.jwtAlg = some key ∧ key.secret ≠ [] ∧
      loaded = { conf with jwtSecret := key.secret, jwtPubPem := key.pubPem } := by
  simp only [loadJwtKey, Option.bind_eq_bind, Option.bind_eq_some_iff] at succeeded
  obtain ⟨contents, read, succeeded⟩ := succeeded
  simp only [keyFrom, Option.bind_eq_bind, read, Option.bind_some]
  cases family : conf.jwtAlg.family with
  | hmac =>
      simp only [family] at succeeded ⊢
      split_ifs at succeeded ⊢ with short
      cases succeeded
      refine ⟨_, rfl, ?_, by rw [← unloaded]⟩
      intro empty
      change chomp contents = [] at empty
      simp [empty] at short
  | asym =>
      simp only [family] at succeeded ⊢
      obtain ⟨pem, derived, same⟩ := Option.bind_eq_some_iff.mp succeeded
      cases same
      refine ⟨⟨contents, pem⟩, by rw [derived]; rfl, ?_, rfl⟩
      intro empty
      subst empty
      rw [noKey] at derived
      cases derived

theorem Reached.step (noKey : env.derivePubPem [] = none) {last : RawConf}
    (reached : Reached env (http :: below) last)
    (merged : mergeLocConf env last block.conf = some conf) :
    Reached env (http :: below ++ [block]) conf.raw := by
  have auth : (mergeFields last block.conf).auth = authOf (http :: below ++ [block]) :=
    plain_auth.nearest_merged reached.auth block
  have verifyHandler : (mergeFields last block.conf).verifyHandler =
      verifyHandlerOf (http :: below ++ [block]) :=
    plain_verifyHandler.nearest_merged reached.verifyHandler block
  have file : (mergeFields last block.conf).jwtSecretFile = jwtSecretFileOf (http :: below ++ [block]) :=
    plain_jwtSecretFile.nearest_merged reached.file block
  have alg : (mergeFields last block.conf).jwtAlg = jwtAlgOf (http :: below ++ [block]) :=
    plain_jwtAlg.nearest_merged reached.alg block
  have secret : (mergeFields last block.conf).jwtSecret = last.jwtSecret.getD [] := by
    simp [mergeFields, mergeValue, block.unloaded.1]
  have pubPem : (mergeFields last block.conf).jwtPubPem = last.jwtPubPem.getD [] := by
    simp [mergeFields, mergeValue, block.unloaded.2]
  have loads : loader (http :: below ++ [block]) = (loader (http :: below)).or
      (if usesKey (http :: below ++ [block]) then some (http :: below ++ [block]) else none) :=
    outermost_concat usesKey [http] below block
  have condition : ((mergeFields last block.conf).auth || (mergeFields last block.conf).verifyHandler) &&
      (mergeFields last block.conf).jwtSecret.length = 0 &&
      0 < (mergeFields last block.conf).jwtSecretFile.length ↔
        usesKey (http :: below ++ [block]) = true ∧ last.jwtSecret.getD [] = [] := by
    rw [auth, verifyHandler, file, secret, usesKey]
    simp only [Bool.and_eq_true, decide_eq_true_eq, List.length_eq_zero_iff]
    tauto
  have inherited := reached.key
  rw [mergeLocConf] at merged
  simp only [condition] at merged
  cases loaded : loader (http :: below) with
  | some outer =>
      rw [loaded] at loads inherited
      obtain ⟨key, own, nonempty, sameSecret, samePem⟩ := inherited
      rw [if_neg fun loads => nonempty (sameSecret.symm.trans loads.2)] at merged
      cases merged
      refine ⟨auth, verifyHandler, file, alg, ?_⟩
      rw [loads]
      exact ⟨key, own, nonempty, secret.trans sameSecret, pubPem.trans samePem⟩
  | none =>
      rw [loaded] at loads inherited
      by_cases uses : usesKey (http :: below ++ [block]) = true
      · rw [if_pos ⟨uses, inherited.1⟩] at merged
        obtain ⟨key, own, nonempty, rfl⟩ := loadJwtKey_some noKey (pubPem.trans inherited.2) merged
        refine ⟨auth, verifyHandler, file, alg, ?_⟩
        rw [loads, if_pos uses]
        refine ⟨key, ?_, nonempty, rfl, rfl⟩
        rw [ownKey, ← file, ← alg]
        exact own
      · rw [if_neg fun loads => uses loads.1] at merged
        cases merged
        refine ⟨auth, verifyHandler, file, alg, ?_⟩
        rw [loads, if_neg uses]
        exact ⟨secret.trans inherited.1, pubPem.trans inherited.2⟩

theorem reached_descend (noKey : env.derivePubPem [] = none) {last : RawConf}
    (descended : descend env http.conf below = some last) : Reached env (http :: below) last := by
  induction below using List.reverseRecOn generalizing last with
  | nil =>
      cases descended
      exact reached_http env http
  | append_singleton below block ih =>
      rw [descend_concat, Option.bind_eq_some_iff] at descended
      obtain ⟨before, earlier, mapped⟩ := descended
      obtain ⟨conf, merged, rfl⟩ := Option.map_eq_some_iff.mp mapped
      exact (ih earlier).step noKey merged

theorem keyCoherent_iff : KeyCoherent env path conf ↔ ∃ own, ownKey env path = some own ∧
    conf.jwtSecret = own.secret ∧
    ((jwtAlgOf path).family = .asym → conf.jwtPubPem = own.pubPem) := by
  constructor
  · intro coherent
    obtain ⟨hmac, asym⟩ := coherent
    cases family : (jwtAlgOf path).family with
    | hmac =>
        obtain ⟨contents, read, same, long⟩ := hmac family
        rw [same] at long
        refine ⟨⟨chomp contents, []⟩, ?_, same, fun other => by cases other⟩
        simp [ownKey, keyFrom, read, family, Nat.not_lt.mpr long]
    | asym =>
        obtain ⟨contents, read, same, derived⟩ := asym family
        refine ⟨⟨contents, conf.jwtPubPem⟩, ?_, same, fun _ => rfl⟩
        simp [ownKey, keyFrom, read, family, derived]
  · intro keyed
    obtain ⟨own, found, secret, pubPem⟩ := keyed
    simp only [ownKey, keyFrom, Option.bind_eq_bind, Option.bind_eq_some_iff] at found
    obtain ⟨contents, read, found⟩ := found
    refine ⟨fun family => ⟨contents, read, ?_⟩, fun family => ⟨contents, read, ?_⟩⟩
    · simp only [family] at found
      split_ifs at found with short
      cases found
      exact ⟨secret, by rw [secret]; exact Nat.not_lt.mp short⟩
    · simp only [family] at found
      obtain ⟨pem, derived, rfl⟩ := Option.map_eq_some_iff.mp found
      exact ⟨secret, by rw [derived, pubPem family]⟩

/-- A block that uses a key has the one of its own file and algorithm exactly if
the outermost such block on its path gives the same. -/
theorem jwt_key_coherent_iff_same_as_loader (env : ConfEnv) (noKey : env.derivePubPem [] = none)
    (http : Block) (servers : List Tree) (merged : List (List Block × LocConf))
    (succeeded : mergeServers env http servers = some merged) (path : List Block) (conf : LocConf)
    (member : (path, conf) ∈ merged) (uses : usesKey path = true) :
    KeyCoherent env path conf ↔ SameKeyAsLoader env path := by
  obtain ⟨below, block, last, rfl, descended, mergedHere⟩ := mergeTrees_mem succeeded member
  have inherited := ((reached_descend noKey descended).step noKey mergedHere).key
  obtain ⟨outer, found⟩ : ∃ outer, loader (http :: below ++ [block]) = some outer := by
    change ∃ outer, outermost usesKey [http] (below ++ [block]) = some outer
    rw [outermost_concat, if_pos uses]
    cases outermost usesKey [http] below with
    | none => exact ⟨_, rfl⟩
    | some outer => exact ⟨outer, rfl⟩
  rw [found] at inherited
  obtain ⟨key, loaded, _, sameSecret, samePem⟩ := inherited
  change conf.jwtSecret = key.secret at sameSecret
  change conf.jwtPubPem = key.pubPem at samePem
  rw [keyCoherent_iff, sameSecret, samePem]
  constructor
  · intro keyed
    obtain ⟨own, ownFound, secret, pubPem⟩ := keyed
    exact ⟨outer, key, own, found, loaded, ownFound, secret, pubPem⟩
  · intro keyed
    obtain ⟨again, loadedAgain, own, foundAgain, sameLoaded, ownFound, secret, pubPem⟩ := keyed
    obtain rfl : outer = again := Option.some.inj (found.symm.trans foundAgain)
    obtain rfl : key = loadedAgain := Option.some.inj (loaded.symm.trans sameLoaded)
    exact ⟨own, ownFound, secret, pubPem⟩

namespace Sample

/-- Two key files of 32 letters and a newline. -/
def keyFiles : ConfEnv where
  readFile path :=
    if path = ascii "a.key" then some (List.replicate 32 97 ++ [10])
    else if path = ascii "b.key" then some (List.replicate 32 98 ++ [10])
    else none
  derivePubPem _ := none

def emptyBlock : Block := ⟨createLocConf, rfl, rfl⟩

def protectedBlock : Block :=
  ⟨{ createLocConf with auth := some true, jwtSecretFile := some (ascii "a.key") }, rfl, rfl⟩

def overridingBlock : Block :=
  ⟨{ createLocConf with jwtSecretFile := some (ascii "b.key") }, rfl, rfl⟩

def protectedConf : LocConf :=
  { mergeFields createLocConf protectedBlock.conf with jwtSecret := List.replicate 32 97 }

def nestedConf (inner : Block) : LocConf := mergeFields protectedConf.raw inner.conf

/-- A server that uses a key, with one location in it. -/
theorem merge_nested (inner : Block) (inherits : (nestedConf inner).jwtSecret.length ≠ 0) :
    mergeServers keyFiles emptyBlock [.node protectedBlock [.node inner []]] =
      some [([emptyBlock, protectedBlock], protectedConf),
        ([emptyBlock, protectedBlock, inner], nestedConf inner)] := by
  have outer : mergeLocConf keyFiles createLocConf protectedBlock.conf = some protectedConf := by decide
  have nested : mergeLocConf keyFiles protectedConf.raw inner.conf = some (nestedConf inner) := by
    rw [mergeLocConf, if_neg]
    · rfl
    · rw [← nestedConf]
      simp [inherits]
  simp [mergeServers, mergeTrees, mergeTree, emptyBlock, outer, nested]

end Sample

theorem inherited_key_coherent :
    usesKey [Sample.emptyBlock, Sample.protectedBlock, Sample.emptyBlock] = true ∧
      KeyCoherent Sample.keyFiles [Sample.emptyBlock, Sample.protectedBlock, Sample.emptyBlock]
        (Sample.nestedConf Sample.emptyBlock) := by
  refine ⟨by decide, (jwt_key_coherent_iff_same_as_loader Sample.keyFiles rfl Sample.emptyBlock _ _
    (Sample.merge_nested Sample.emptyBlock (by decide)) _ _ (by simp) (by decide)).mpr ?_⟩
  exact ⟨[Sample.emptyBlock, Sample.protectedBlock], ⟨List.replicate 32 97, []⟩,
    ⟨List.replicate 32 97, []⟩, rfl, by decide, by decide, rfl, fun _ => rfl⟩

/-- A location that names a key file of its own keeps the key of the server. -/
theorem overridden_key_file_ignored :
    mergeServers Sample.keyFiles Sample.emptyBlock
        [.node Sample.protectedBlock [.node Sample.overridingBlock []]] =
      some [([Sample.emptyBlock, Sample.protectedBlock], Sample.protectedConf),
        ([Sample.emptyBlock, Sample.protectedBlock, Sample.overridingBlock],
          Sample.nestedConf Sample.overridingBlock)] ∧
      usesKey [Sample.emptyBlock, Sample.protectedBlock, Sample.overridingBlock] = true ∧
      ¬ KeyCoherent Sample.keyFiles [Sample.emptyBlock, Sample.protectedBlock, Sample.overridingBlock]
        (Sample.nestedConf Sample.overridingBlock) := by
  refine ⟨Sample.merge_nested Sample.overridingBlock (by decide), by decide, fun coherent => ?_⟩
  obtain ⟨contents, read, same, _⟩ := coherent.hmac (by decide)
  have other : Sample.keyFiles.readFile (jwtSecretFileOf
      [Sample.emptyBlock, Sample.protectedBlock, Sample.overridingBlock]) =
        some (List.replicate 32 98 ++ [10]) := by decide
  rw [other, Option.some.injEq] at read
  subst read
  exact absurd same (by decide)

end AuthWebauthn
