import WorkspaceLint.Proofs.Rule.Settled
import WorkspaceLint.Proofs.Run.Dependencies

/-!
# Flagged blocks

The rule for consistent dependencies flags a block of a manifest exactly when a name has different
versions in it and in that of the workspace root (`findings_consistent`).
-/

namespace WorkspaceLint

/-! ## Versions that differ -/

/-- A name in a block of a manifest has another version in that block of the other manifest. -/
def Inconsistent (m r : Manifest) (kind : DependencyKind) : Prop :=
  ∃ block shared, m.block? kind = some block ∧ r.block? kind = some shared ∧
    ∃ name v w, Members.get? name block = some v ∧ Members.get? name shared = some w ∧ v ≠ w

/-- A manifest agrees with itself. -/
theorem not_inconsistent_self (m : Manifest) (kind : DependencyKind) : ¬ Inconsistent m m kind := by
  rintro ⟨block, shared, hb, hs, name, v, w, hv, hw, different⟩
  obtain rfl := Option.some.inj (hb.symm.trans hs)
  exact different (Option.some.inj (hv.symm.trans hw))

namespace ConsistentDependencies

variable {block shared : Members}

/-- A block stays as it is when no name has another version in the root. -/
theorem expected_eq_self_iff (nodup : (Members.keys block).Nodup) :
    expected block shared = block ↔
      ∀ name v w, Members.get? name block = some v → Members.get? name shared = some w → v = w := by
  constructor
  · intro same name v w hv hw
    have value : Members.get? name (expected block shared) =
        (Members.get? name block).map fun v => (Members.get? name shared).getD v :=
      Members.get?_mapValues name (fun d => (Members.get? d.1 shared).getD d.2) block
    rw [same, hv, hw] at value
    exact Option.some.inj value
  · intro agree
    refine (List.map_congr_left fun d member => ?_).trans (List.map_id block)
    have own := Members.get?_of_mem nodup member
    rcases hw : Members.get? d.1 shared with _ | w
    · rfl
    · rw [Option.getD_some, ← agree d.1 d.2 w own hw]
      rfl

theorem eq_finding_of_blockFinding? {path : Path} {m r : Manifest} {kind : DependencyKind}
    {f : Finding} (some : blockFinding? path m r kind = some f) :
    f = finding path kind
      (expected ((m.block? kind).getD []) ((r.block? kind).getD [])) ((m.block? kind).getD []) := by
  unfold blockFinding? at some
  obtain ⟨block, hb, some⟩ := Option.bind_eq_some_iff.1 some
  obtain ⟨shared, hs, some⟩ := Option.bind_eq_some_iff.1 some
  rw [hb, hs, Option.getD_some, Option.getD_some]
  simp only at some
  split at some
  · cases some
  · exact (Option.some.inj some).symm

/-- Versions differ when a block is not as it is expected to be. -/
theorem inconsistent_iff {m r : Manifest} {kind : DependencyKind} (plain : m.Plain) :
    Inconsistent m r kind ↔ ∃ block, m.block? kind = some block ∧
      expected block ((r.block? kind).getD []) ≠ block := by
  constructor
  · rintro ⟨block, shared, hb, hs, name, v, w, hv, hw, different⟩
    refine ⟨block, hb, fun same => different ?_⟩
    rw [hs, Option.getD_some, expected_eq_self_iff (plain.block hb).nodup_keys] at same
    exact same name v w hv hw
  · rintro ⟨block, hb, changed⟩
    rcases hs : r.block? kind with _ | shared
    · rw [hs] at changed
      exact absurd (DependencyRule.expected_nil block) changed
    · rw [hs, Option.getD_some, Ne, expected_eq_self_iff (plain.block hb).nodup_keys] at changed
      simp only [not_forall] at changed
      obtain ⟨name, v, w, hv, hw, different⟩ := changed
      exact ⟨block, shared, hb, hs, name, v, w, hv, hw, different⟩

/-- A block is flagged when a version differs from that of the root. -/
theorem isSome_blockFinding?_iff {path : Path} {m r : Manifest} {kind : DependencyKind}
    (plain : m.Plain) (plainRoot : r.Plain) (compared : kind ∈ blocks) :
    (blockFinding? path m r kind).isSome = true ↔ Inconsistent m r kind := by
  have flag := DependencyRule.consistent.isSome_blockFinding?_iff path plain plainRoot kind
  simp only [DependencyRule.blockFinding?, if_pos compared, DependencyRule.wanted,
    DependencyRule.sharedBy] at flag
  rw [flag, inconsistent_iff plain]

/-- What is found in a list, by the places where something is. -/
theorem filterMap_eq_map_filter {α β : Type} {f : α → Option β} {g : α → β}
    (found : ∀ a b, f a = some b → b = g a) (l : List α) :
    l.filterMap f = (l.filter fun a => (f a).isSome).map g := by
  induction l with
  | nil => rfl
  | cons a l ih =>
    rcases h : f a with _ | b
    · rw [List.filterMap_cons_none h, List.filter_cons_of_neg (by simp [h]), ih]
    · rw [List.filterMap_cons_some h, List.filter_cons_of_pos (by simp [h]), List.map_cons, ih,
        found a b h]

/-- The check reports one error for each compared block in which a version differs from that of the
root, in the order of the blocks, and nothing else; on the root itself it reports nothing. -/
theorem findings_consistent {σ : Type} [FileSystem σ] {fs : σ} {c : Context} {root : Path}
    {m r : Manifest} (coherent : c.Coherent fs) (inside : c.workspaceDir = .ok root)
    (rootLoaded : Package.load fs root = .ok r) (loaded : Package.load fs c.dir = .ok m)
    (rootFree : r.toJson.floatFree = true) (free : m.toJson.floatFree = true) :
    (check.run fs c).1 = .ok () ∧
    ∃ kinds : List DependencyKind, kinds.Sublist blocks ∧
      (∀ kind, kind ∈ kinds ↔ kind ∈ blocks ∧ Inconsistent m r kind) ∧
      (check.run fs c).2.findings = c.findings ++ kinds.map (fun kind =>
        ⟨.error, finding c.dir.manifest kind
          (expected ((m.block? kind).getD []) ((r.block? kind).getD []))
          ((m.block? kind).getD [])⟩) ∧
      (c.dir = root → kinds = []) := by
  have plain := Package.plain_of_load loaded free
  have plainRoot := Package.plain_of_load rootLoaded rootFree
  have judged : DependencyRule.consistent.verdict fs root c.opened.dir =
      .ok (DependencyRule.consistent.findings c.dir.manifest m r DependencyKind.all) := by
    rw [Context.dir_opened]
    simp only [DependencyRule.verdict, rootLoaded, loaded]
    rfl
  obtain ⟨result, found⟩ :=
    DependencyRule.consistent.judges_check (c.workspaceDir_opened.trans inside) c coherent rfl
  rw [judged] at result found
  let find := blockFinding? c.dir.manifest m r
  have flagged (kind : DependencyKind) :
      kind ∈ blocks.filter (fun kind => (find kind).isSome) ↔
        kind ∈ blocks ∧ Inconsistent m r kind := by
    rw [List.mem_filter]
    exact and_congr_right fun compared => isSome_blockFinding?_iff plain plainRoot compared
  have reported : DependencyRule.consistent.findings c.dir.manifest m r DependencyKind.all =
      (blocks.filterMap find).map (Reported.mk .error) := rfl
  refine ⟨result, _, List.filter_sublist, flagged, ?_, fun itself => ?_⟩
  · refine found.trans ?_
    rw [Except.toOption, Option.getD_some, reported,
      filterMap_eq_map_filter (fun kind f some => eq_finding_of_blockFinding? some), List.map_map]
    rfl
  · obtain rfl : m = r := Except.ok.inj (loaded.symm.trans (itself ▸ rootLoaded))
    refine List.eq_nil_iff_forall_not_mem.2 fun kind member => ?_
    exact not_inconsistent_self m kind ((flagged kind).1 member).2

/-- The manifest of a workspace root. -/
def sharedManifest : Manifest := ⟨[
  ("dependencies", .object [("x", .string "2"),
    ("y", .object [("url", .string "u"), ("dev", .bool true)])]),
  ("devDependencies", .object [("z", .string "2")]),
  ("peerDependencies", .object [("p", .string "2")]),
  ("workspaces", .array [.string "a"])]⟩

/-- The manifest of a member with other versions: one differs in the order of its keys only. -/
def driftedManifest : Manifest := ⟨[
  ("name", .string "a"),
  ("dependencies", .object [("x", .string "2"),
    ("y", .object [("dev", .bool true), ("url", .string "u")])]),
  ("peerDependencies", .object [("p", .string "1")]),
  ("devDependencies", .object [("z", .string "1"), ("w", .string "1")])]⟩

theorem plain_sharedManifest : sharedManifest.Plain :=
  ⟨by simp [sharedManifest, Manifest.toJson, Json.Legible, Json.LegibleItems, Json.LegibleMembers,
    Members.keys, Json.Reader.nestingLimit], rfl⟩

theorem plain_driftedManifest : driftedManifest.Plain :=
  ⟨by simp [driftedManifest, Manifest.toJson, Json.Legible, Json.LegibleMembers, Members.keys,
    Json.Reader.nestingLimit], rfl⟩

/-- The workspace of that root and member. -/
def drifted : Tree where
  files := [Run.jsonFile "/w/a/package.json" driftedManifest.toJson,
    Run.jsonFile "/w/package.json" sharedManifest.toJson]
  dirs := []

/-- The member of that workspace. -/
def driftedMember : Context := .member (.fresh ⟨"/w/a"⟩) (.fresh ⟨"/w"⟩)

theorem load_drifted : Package.load drifted ⟨"/w/a"⟩ = .ok driftedManifest :=
  Tree.load_eq_ok_iff.2 (Tree.readJson_eq_ok_iff.2
    ⟨_, by decide +kernel, plain_driftedManifest.parse_canonical⟩)

theorem load_drifted_root : Package.load drifted ⟨"/w"⟩ = .ok sharedManifest :=
  Tree.load_eq_ok_iff.2 (Tree.readJson_eq_ok_iff.2
    ⟨_, by decide +kernel, plain_sharedManifest.parse_canonical⟩)

theorem findings_consistent_drifted :
    Package.load drifted ⟨"/w"⟩ = .ok sharedManifest ∧
      Package.load drifted ⟨"/w/a"⟩ = .ok driftedManifest ∧
      sharedManifest.toJson.floatFree = true ∧ driftedManifest.toJson.floatFree = true ∧
      driftedMember.Coherent drifted ∧ driftedMember.workspaceDir = .ok ⟨"/w"⟩ ∧
    (check.run drifted driftedMember).1 = .ok () ∧
    ∃ kinds : List DependencyKind, kinds.Sublist blocks ∧
      .dependencies ∈ kinds ∧ .devDependencies ∈ kinds ∧
      (check.run drifted driftedMember).2.findings = kinds.map fun kind =>
        ⟨.error, finding ⟨"/w/a/package.json"⟩ kind
          (expected ((driftedManifest.block? kind).getD []) ((sharedManifest.block? kind).getD []))
          ((driftedManifest.block? kind).getD [])⟩ := by
  have coherent : driftedMember.Coherent drifted := driftedMember.coherent_renewed drifted
  obtain ⟨ran, kinds, sub, flagged, found, -⟩ := findings_consistent coherent rfl
    load_drifted_root load_drifted plain_sharedManifest.free plain_driftedManifest.free
  refine ⟨load_drifted_root, load_drifted, plain_sharedManifest.free, plain_driftedManifest.free,
    coherent, rfl, ran, kinds, sub, (flagged _).2 ⟨by decide, ?_⟩, (flagged _).2 ⟨by decide, ?_⟩,
    found⟩
  · exact ⟨_, _, rfl, rfl, "y", _, _, rfl, rfl, by simp⟩
  · exact ⟨_, _, rfl, rfl, "z", _, _, rfl, rfl, by simp⟩

end ConsistentDependencies

end WorkspaceLint
