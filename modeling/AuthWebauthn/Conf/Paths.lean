import AuthWebauthn.Conf.Merge
import AuthWebauthn.Data.Inheritance
import Mathlib.Data.List.Induction

namespace AuthWebauthn

open Inheritance

variable {env : ConfEnv} {http block : Block} {path below : List Block} {conf : LocConf}

/-- The configuration that the blocks inside the last block of the path are merged
with. -/
def descend (env : ConfEnv) (prev : RawConf) : List Block → Option RawConf
  | [] => some prev
  | block :: below => (mergeLocConf env prev block.conf).bind fun conf => descend env conf.raw below

theorem descend_concat (env : ConfEnv) (prev : RawConf) (below : List Block) (block : Block) :
    descend env prev (below ++ [block]) =
      (descend env prev below).bind fun last => (mergeLocConf env last block.conf).map LocConf.raw := by
  induction below generalizing prev with
  | nil => cases merged : mergeLocConf env prev block.conf <;> simp [descend, merged]
  | cons first below ih =>
      cases merged : mergeLocConf env prev first.conf <;> simp [descend, merged, ih]

mutual

theorem mergeTree_mem {prev : RawConf} {tree : Tree} {front : List Block} {merged : List (List Block × LocConf)}
    (succeeded : mergeTree env prev front tree = some merged) (member : (path, conf) ∈ merged) :
    ∃ below block last, path = front ++ below ++ [block] ∧ descend env prev below = some last ∧
      mergeLocConf env last block.conf = some conf := by
  cases tree with
  | node block inner =>
      rw [mergeTree, Option.bind_eq_some_iff] at succeeded
      obtain ⟨own, ownMerged, succeeded⟩ := succeeded
      obtain ⟨later, laterMerged, rfl⟩ := Option.map_eq_some_iff.mp succeeded
      rcases List.mem_cons.mp member with same | deeper
      · cases same
        exact ⟨[], block, prev, by simp, rfl, ownMerged⟩
      · obtain ⟨below, last, reached, rfl, descended, merged⟩ := mergeTrees_mem laterMerged deeper
        exact ⟨block :: below, last, reached, by simp, by simp [descend, ownMerged, descended], merged⟩

theorem mergeTrees_mem {prev : RawConf} {trees : List Tree} {front : List Block}
    {merged : List (List Block × LocConf)}
    (succeeded : mergeTrees env prev front trees = some merged) (member : (path, conf) ∈ merged) :
    ∃ below block last, path = front ++ below ++ [block] ∧ descend env prev below = some last ∧
      mergeLocConf env last block.conf = some conf := by
  cases trees with
  | nil =>
      cases succeeded
      cases member
  | cons tree rest =>
      rw [mergeTrees, Option.bind_eq_some_iff] at succeeded
      obtain ⟨first, firstMerged, succeeded⟩ := succeeded
      obtain ⟨later, laterMerged, rfl⟩ := Option.map_eq_some_iff.mp succeeded
      rcases List.mem_append.mp member with here | further
      · exact mergeTree_mem firstMerged here
      · exact mergeTrees_mem laterMerged further

end

theorem mergeValue_eq {α : Type} (own inherited : Option α) (fallback : α) :
    mergeValue own inherited fallback = own.getD (inherited.getD fallback) := by
  cases own <;> rfl

theorem loadJwtKey_keeps {loaded : LocConf} (succeeded : loadJwtKey env conf = some loaded) :
    ∃ secret pubPem, loaded = { conf with jwtSecret := secret, jwtPubPem := pubPem } := by
  simp only [loadJwtKey, Option.bind_eq_bind, Option.bind_eq_some_iff] at succeeded
  obtain ⟨contents, _, succeeded⟩ := succeeded
  cases family : conf.jwtAlg.family with
  | hmac =>
      simp only [family] at succeeded
      split_ifs at succeeded
      cases succeeded
      exact ⟨_, _, rfl⟩
  | asym =>
      simp only [family] at succeeded
      obtain ⟨pem, _, same⟩ := Option.bind_eq_some_iff.mp succeeded
      cases same
      exact ⟨_, _, rfl⟩

/-- A setting that a block takes from its own directive or inherits, and that loading a
key leaves alone. -/
structure PlainField {α : Type} (read : RawConf → Option α) (effective : LocConf → α) (fallback : α) :
    Prop where
  merged : ∀ prev conf, effective (mergeFields prev conf) = mergeValue (read conf) (read prev) fallback
  passed : ∀ conf, read conf.raw = some (effective conf)
  unloaded : ∀ conf secret pubPem,
    effective { conf with jwtSecret := secret, jwtPubPem := pubPem } = effective conf

namespace PlainField

variable {α : Type} {read : RawConf → Option α} {effective : LocConf → α} {fallback : α}

theorem nearest_merged (plain : PlainField read effective fallback) {last : RawConf}
    (reached : (read last).getD fallback = nearest (fun block => read block.conf) fallback path)
    (block : Block) :
    effective (mergeFields last block.conf) = nearest (fun block => read block.conf) fallback (path ++ [block]) := by
  rw [nearest_concat, ← reached, plain.merged]
  exact mergeValue_eq ..

theorem mergeLocConf_eq (plain : PlainField read effective fallback) {prev own : RawConf}
    (succeeded : mergeLocConf env prev own = some conf) : effective conf = effective (mergeFields prev own) := by
  simp only [mergeLocConf] at succeeded
  split_ifs at succeeded
  · obtain ⟨secret, pubPem, rfl⟩ := loadJwtKey_keeps succeeded
    exact plain.unloaded ..
  · cases succeeded
    rfl

theorem nearest_descended (plain : PlainField read effective fallback) {last : RawConf}
    (descended : descend env http.conf below = some last) :
    (read last).getD fallback = nearest (fun block => read block.conf) fallback (http :: below) := by
  induction below using List.reverseRecOn generalizing last with
  | nil =>
      cases descended
      exact nearest_singleton ..
  | append_singleton below block ih =>
      rw [descend_concat, Option.bind_eq_some_iff] at descended
      obtain ⟨before, earlier, mapped⟩ := descended
      obtain ⟨conf, merged, rfl⟩ := Option.map_eq_some_iff.mp mapped
      rw [plain.passed, Option.getD_some, plain.mergeLocConf_eq merged]
      exact plain.nearest_merged (ih earlier) block

/-- Every block has the setting of the nearest block on its path that has one. -/
theorem effective_eq (plain : PlainField read effective fallback) {servers : List Tree}
    {merged : List (List Block × LocConf)} (succeeded : mergeServers env http servers = some merged)
    (member : (path, conf) ∈ merged) :
    effective conf = nearest (fun block => read block.conf) fallback path := by
  obtain ⟨below, block, last, rfl, descended, mergedHere⟩ := mergeTrees_mem succeeded member
  rw [plain.mergeLocConf_eq mergedHere]
  exact plain.nearest_merged (plain.nearest_descended descended) block

end PlainField

end AuthWebauthn
