import Mathlib.Data.List.Perm.Basic
import WorkspaceLint.Proofs.Rule.Flagged
import WorkspaceLint.Proofs.Run.Dependencies

/-!
# Fixed blocks

The fixers of the rules about dependencies change the blocks that were flagged and nothing else,
also when the manifest was changed elsewhere since it was checked
(`DependencyRule.contents_fixed`).  What a flagged block becomes is said by its entries: those that
are not banned (`BannedDependencies.Cleared`), or its names with the versions of the root where the
root has them too (`ConsistentDependencies.Aligned`).  That leaves one manifest for the fixers to
write (`DependencyRule.Fixed.unique`).
-/

namespace WorkspaceLint

/-! ## What blocks become -/

/-- One of the patterns matches a name. -/
def PatternSet.Matches (names : PatternSet) (name : String) : Prop :=
  ∃ glob ∈ names.globs, glob.accepts name = true

theorem PatternSet.accepts_eq_true_iff {names : PatternSet} {name : String} :
    names.accepts name = true ↔ names.Matches name := List.any_eq_true

namespace BannedDependencies

variable {names : PatternSet} {block cleared cleared' : Members}

/-- A block without the entries whose names are banned: all others, in their order. -/
structure Cleared (names : PatternSet) (block cleared : Members) : Prop where
  sublist : cleared.Sublist block
  mem_iff : ∀ entry, entry ∈ cleared ↔ entry ∈ block ∧ ¬ names.Matches entry.1

theorem cleared_retained (block : Members) (names : PatternSet) :
    Cleared names block (retained block names) where
  sublist := List.filter_sublist
  mem_iff entry := by
    rw [retained, List.mem_filter, ← PatternSet.accepts_eq_true_iff, Bool.not_eq_true,
      Bool.not_eq_true']

theorem Cleared.unique (nodup : block.Nodup) (h : Cleared names block cleared)
    (h' : Cleared names block cleared') : cleared = cleared' := by
  refine (nodup.perm_iff_eq_of_sublist h.sublist h'.sublist).1 ?_
  refine (List.perm_ext_iff_of_nodup (h.sublist.nodup nodup) (h'.sublist.nodup nodup)).2 ?_
  exact fun entry => (h.mem_iff entry).trans (h'.mem_iff entry).symm

/-- Nothing is cleared where no name is banned. -/
theorem retained_eq_self_iff :
    retained block names = block ↔ ∀ name ∈ Members.keys block, ¬ names.Matches name := by
  rw [retained, List.filter_eq_self, Members.keys, List.forall_mem_map]
  simp only [Bool.not_eq_true', ← PatternSet.accepts_eq_true_iff, Bool.not_eq_true]

end BannedDependencies

namespace ConsistentDependencies

variable {shared block aligned aligned' : Members}

/-- A block with the versions of another one under the names that this one has too, and with its own
versions under all others: the names stay in their order. -/
structure Aligned (shared block aligned : Members) : Prop where
  keys : Members.keys aligned = Members.keys block
  common : ∀ name ∈ Members.keys block, ∀ version, Members.get? name shared = some version →
    Members.get? name aligned = some version
  own : ∀ name, Members.get? name shared = none →
    Members.get? name aligned = Members.get? name block

theorem aligned_expected (block shared : Members) :
    Aligned shared block (expected block shared) := by
  have value (name : String) : Members.get? name (expected block shared) =
      (Members.get? name block).map fun v => (Members.get? name shared).getD v :=
    Members.get?_mapValues name (fun d => (Members.get? d.1 shared).getD d.2) block
  refine ⟨Members.keys_mapValues _ block, fun name known version found => ?_, fun name none => ?_⟩
  · rcases own : Members.get? name block with _ | v
    · exact absurd known (Members.get?_eq_none_iff.1 own)
    · rw [value, own, found]
      rfl
  · rw [value, none]
    exact Option.map_id'

theorem Aligned.unique (nodup : (Members.keys block).Nodup) (h : Aligned shared block aligned)
    (h' : Aligned shared block aligned') : aligned = aligned' := by
  refine Members.eq_of_get? (h.keys ▸ nodup) (h.keys.trans h'.keys.symm) fun name => ?_
  rcases found : Members.get? name shared with _ | version
  · rw [h.own name found, h'.own name found]
  · by_cases known : name ∈ Members.keys block
    · rw [h.common name known version found, h'.common name known version found]
    · rw [Members.get?_eq_none_iff.2 (h.keys ▸ known),
        Members.get?_eq_none_iff.2 (h'.keys ▸ known)]

theorem mem_blocks_iff {kind : DependencyKind} : kind ∈ blocks ↔ kind ≠ .peerDependencies := by
  cases kind <;> decide

end ConsistentDependencies

namespace DependencyRule

open Manifest (PlainBlock)

/-- The blocks of a manifest that a rule is to flag: those that have a banned name, and those of
`dependencies` and `devDependencies` in which a version differs from that of the root. -/
def Flags (rule : DependencyRule) (t : Tree) (root : Path) (m : Manifest)
    (kind : DependencyKind) : Prop :=
  match rule with
  | consistent => kind ≠ .peerDependencies ∧
    ∃ r, Package.load t root = .ok r ∧ Inconsistent m r kind
  | banned names => ∃ block, m.block? kind = some block ∧
    ∃ name ∈ Members.keys block, names.Matches name

/-- What a rule is to make of a block that it flags. -/
def Fixes (rule : DependencyRule) (t : Tree) (root : Path) (kind : DependencyKind)
    (block fixed : Members) : Prop :=
  match rule with
  | consistent => ∃ r shared, Package.load t root = .ok r ∧ r.block? kind = some shared ∧
    ConsistentDependencies.Aligned shared block fixed
  | banned names => BannedDependencies.Cleared names block fixed

/-- A manifest with some blocks as a rule is to make them: everything else is as it was, and all
keys are in their order. -/
structure Fixed (rule : DependencyRule) (t : Tree) (root : Path) (kinds : List DependencyKind)
    (m fixed : Manifest) : Prop where
  keys : Members.keys fixed.members = Members.keys m.members
  others : ∀ key, (∀ kind ∈ kinds, kind.key ≠ key) →
    Members.get? key fixed.members = Members.get? key m.members
  blocks : ∀ kind ∈ kinds, ∃ block fixedBlock, m.block? kind = some block ∧
    fixed.block? kind = some fixedBlock ∧ rule.Fixes t root kind block fixedBlock

section

variable {rule : DependencyRule} {t : Tree} {root : Path} {m fixed fixed' : Manifest}
  {kind : DependencyKind} {kinds : List DependencyKind} {block made made' : Members}

theorem Fixes.unique (plain : PlainBlock block) (h : rule.Fixes t root kind block made)
    (h' : rule.Fixes t root kind block made') : made = made' := by
  have nodup : (Members.keys block).Nodup := Json.Plain.nodup_keys plain
  cases rule with
  | banned names => exact BannedDependencies.Cleared.unique (List.Nodup.of_map _ nodup) h h'
  | consistent =>
    obtain ⟨r, shared, rootLoaded, hs, aligned⟩ := h
    obtain ⟨r', shared', rootLoaded', hs', aligned'⟩ := h'
    obtain rfl := Except.ok.inj (rootLoaded.symm.trans rootLoaded')
    obtain rfl := Option.some.inj (hs.symm.trans hs')
    exact aligned.unique nodup aligned'

/-- There is one way to fix a manifest. -/
theorem Fixed.unique (plain : m.Plain) (h : rule.Fixed t root kinds m fixed)
    (h' : rule.Fixed t root kinds m fixed') : fixed = fixed' := by
  have same : fixed.members = fixed'.members := by
    refine Members.eq_of_get? (h.keys ▸ plain.nodup) (h.keys.trans h'.keys.symm) fun key => ?_
    by_cases blocks : ∃ kind ∈ kinds, kind.key = key
    · obtain ⟨kind, among, rfl⟩ := blocks
      obtain ⟨block, made, there, now, fixes⟩ := h.blocks kind among
      obtain ⟨block', made', there', now', fixes'⟩ := h'.blocks kind among
      obtain rfl := Option.some.inj (there.symm.trans there')
      obtain rfl := fixes.unique (plain.block there) fixes'
      rw [Manifest.get?_of_block? now, Manifest.get?_of_block? now']
    · have other : ∀ kind ∈ kinds, kind.key ≠ key := fun kind among here =>
        blocks ⟨kind, among, here⟩
      rw [h.others key other, h'.others key other]
  exact congrArg Manifest.mk same

/-- Changing blocks fixes a manifest when it fixes them. -/
theorem fixed_mapBlocks {f : DependencyKind → Members → Members}
    (fixes : ∀ kind ∈ kinds, ∃ block, m.block? kind = some block ∧
      rule.Fixes t root kind block (f kind block)) :
    rule.Fixed t root kinds m (m.mapBlocks (Manifest.only kinds f)) where
  keys := Members.keys_mapValues _ m.members
  others key other := by
    have same (v : Json) : Manifest.changedValue (Manifest.only kinds f) (key, v) = v := by
      unfold Manifest.changedValue
      rcases hk : DependencyKind.ofKey? key with _ | kind
      · rfl
      · have apart : kind ∉ kinds := fun among =>
          other kind among (DependencyKind.key_of_ofKey? hk)
        cases v with
        | object block => simp only [Manifest.only, if_neg apart]
        | null | bool _ | number _ | string _ | array _ => rfl
    rw [Manifest.get?_mapBlocks]
    simp only [same, Option.map_id']
  blocks kind among := by
    obtain ⟨block, there, made⟩ := fixes kind among
    refine ⟨block, f kind block, there, ?_, made⟩
    rw [Manifest.block?_mapBlocks, there, Option.map_some, Manifest.only, if_pos among]

/-- A rule is to flag the blocks that are not as it wants them. -/
theorem flags_iff (plain : m.Plain) : rule.Flags t root m kind ↔
    ∃ block, m.block? kind = some block ∧ rule.wanted (sharedIn t root) kind block ≠ block := by
  cases rule with
  | banned names =>
    refine exists_congr fun block => and_congr_right fun there => ?_
    rw [wanted, Ne, BannedDependencies.retained_eq_self_iff]
    simp only [not_forall, not_not, exists_prop]
  | consistent =>
    simp only [Flags, wanted, ← ConsistentDependencies.mem_blocks_iff]
    rcases rootLoaded : Package.load t root with e | r
    · rw [sharedIn, rootLoaded]
      constructor
      · rintro ⟨-, r, impossible, -⟩
        cases impossible
      · rintro ⟨block, -, changed⟩
        exact absurd (expected_nil block) changed
    · rw [sharedIn_of_load rootLoaded]
      simp only [Except.ok.injEq, exists_eq_left', ConsistentDependencies.inconsistent_iff plain]
      by_cases compared : kind ∈ ConsistentDependencies.blocks
      · simp only [sharedBy, compared, if_true, true_and]
      · simp only [sharedBy, compared, if_false, false_and, expected_nil, ne_eq,
          not_true_eq_false, and_false, exists_false]

/-- What a rule wants in place of a block that it flags is what it is to make of it. -/
theorem fixes_wanted (flags : rule.Flags t root m kind) (block : Members) :
    rule.Fixes t root kind block (rule.wanted (sharedIn t root) kind block) := by
  cases rule with
  | banned names => exact BannedDependencies.cleared_retained block names
  | consistent =>
    obtain ⟨other, r, rootLoaded, -, shared, -, hs, -⟩ := flags
    have common : sharedIn t root kind = shared := by
      rw [sharedIn_of_load rootLoaded, sharedBy,
        if_pos (ConsistentDependencies.mem_blocks_iff.2 other), hs, Option.getD_some]
    refine ⟨r, shared, rootLoaded, hs, ?_⟩
    rw [wanted, common]
    exact ConsistentDependencies.aligned_expected block shared

end

end DependencyRule

/-! ## What fixers change -/

/-- The block of a manifest that a change sets. -/
def FixOp.block? : FixOp → Option DependencyKind
  | setJsonKey _ key _ => DependencyKind.ofKey? key
  | _ => none

/-- The blocks that the fixers of findings set. -/
def flagged (found : List Reported) : List DependencyKind :=
  (dueOps found).filterMap FixOp.block?

namespace DependencyRule

variable {rule : DependencyRule} {m r w : Manifest} {path : Path} {kinds : List DependencyKind}

theorem flagged_findings (rule : DependencyRule) (path : Path) (plain : m.Plain)
    (plainRoot : r.Plain) (kinds : List DependencyKind) :
    flagged (rule.findings path m r kinds) =
      kinds.filter fun kind => (rule.blockFinding? path m r kind).isSome := by
  induction kinds with
  | nil => rfl
  | cons kind kinds ih =>
    rcases rule.blockFinding?_cases path plain plainRoot kind with
      ⟨none, -⟩ | ⟨f, block, some, -, -, fixer⟩
    · rw [List.filter_cons_of_neg (by simp [none]), ← ih, findings,
        List.filterMap_cons_none none]
      rfl
    · have sets : FixOp.block? (.setJsonKey path kind.key
          (.object (rule.wanted (sharedBy r) kind block))) = Option.some kind :=
        DependencyKind.ofKey?_key kind
      rw [List.filter_cons_of_pos (by simp [some]), ← ih, findings,
        List.filterMap_cons_some some, List.map_cons, flagged, dueOps, List.flatMap_cons,
        due_of_fixer fixer, List.singleton_append, List.filterMap_cons_some sets]
      rfl

/-- A block is flagged when it is not as the rule wants it. -/
theorem mem_flagged_iff (plain : m.Plain) (plainRoot : r.Plain) (kind : DependencyKind) :
    kind ∈ flagged (rule.findings path m r DependencyKind.all) ↔
      ∃ block, m.block? kind = some block ∧ rule.wanted (sharedBy r) kind block ≠ block := by
  rw [rule.flagged_findings path plain plainRoot, List.mem_filter,
    and_iff_right (DependencyKind.mem_all kind), rule.isSome_blockFinding?_iff path plain plainRoot]

/-- The findings on a manifest are those on another one that has the same flagged blocks. -/
theorem findings_eq_of_kept (plain : m.Plain) (plainRoot : r.Plain)
    (kept : ∀ kind ∈ flagged (rule.findings path m r kinds), w.block? kind = m.block? kind) :
    rule.findings path m r kinds =
      rule.findings path w r (flagged (rule.findings path m r kinds)) := by
  rw [rule.flagged_findings path plain plainRoot kinds] at kept ⊢
  have others : kinds.filterMap (rule.blockFinding? path m r) =
      (kinds.filter fun kind => (rule.blockFinding? path m r kind).isSome).filterMap
        (rule.blockFinding? path m r) := by
    rw [List.filterMap_filter]
    refine List.filterMap_congr fun kind _ => ?_
    cases rule.blockFinding? path m r kind <;> rfl
  rw [findings, others, findings]
  congr 1
  exact List.filterMap_congr fun kind member => (blockFinding?_congr (kept kind member) rfl).symm

/-- The fixers of flagged blocks put these blocks as they are wanted into the manifest as it is when
they are applied. -/
theorem contents_of_applied {t t' : Tree} {dir : Path} (plain : w.Plain) (plainRoot : r.Plain)
    (loaded : Package.load t dir = .ok w) (nodup : kinds.Nodup)
    (some : rule.findings dir.manifest w r kinds ≠ [])
    (applied : FixOp.Applied t (dueOps (rule.findings dir.manifest w r kinds)) t') :
    t' = t.withFile dir.manifest (rule.revisedIn r kinds w).toJson.canonical := by
  have apart := created_eq_false_of_applied plain plainRoot loaded some applied
  obtain ⟨t'', rewritten, made⟩ :=
    rule.applied_findings_of plainRoot nodup plain (Tree.load_eq_ok_iff.1 loaded) apart
  obtain rfl := made.unique applied
  cases rewritten with
  | written changed => rfl
  | kept same =>
    obtain ⟨reported, member⟩ := List.exists_mem_of_ne_nil _ some
    obtain ⟨f, found, rfl⟩ := List.mem_map.1 member
    obtain ⟨kind, among, here⟩ := List.mem_filterMap.1 found
    rcases rule.blockFinding?_cases dir.manifest plain plainRoot kind with
      ⟨none, -⟩ | ⟨-, block, -, there, changed, -⟩
    · rw [none] at here
      cases here
    · exact absurd same (revisedIn_ne_self plain among there changed)

section

variable {t t₁ t₂ : Tree} {c : Context} {root : Path} {found : List Reported}
  (coherent : c.Coherent t) (inside : c.workspaceDir = .ok root)
  (checked : (rule.check.run t c).2.findings = c.findings ++ found)
  (loaded : Package.load t c.dir = .ok m) (free : m.toJson.floatFree = true)
  (rootFree : ∀ r, Package.load t root = .ok r → r.toJson.floatFree = true)

include coherent inside checked loaded free rootFree

/-- What a check finds are the blocks of the manifest that are not as wanted.  When it finds nothing
for want of a root manifest, every block is as wanted. -/
theorem found_of_check :
    (∃ r : Manifest, r.Plain ∧ rule.wanted (sharedBy r) = rule.wanted (sharedIn t root) ∧
      found = rule.findings c.dir.manifest m r DependencyKind.all) ∨
    found = [] ∧ ∀ kind block, rule.wanted (sharedIn t root) kind block = block := by
  have reported := (rule.judges_check (c.workspaceDir_opened.trans inside) c coherent rfl).2
  rw [checked, Context.dir_opened] at reported
  rw [List.append_cancel_left reported]
  exact rule.found_cases loaded (Package.plain_of_load loaded free) fun r rootLoaded =>
    Package.plain_of_load rootLoaded (rootFree r rootLoaded)

/-- A check flags the blocks that the rule is to flag. -/
theorem mem_flagged_of_check (kind : DependencyKind) :
    kind ∈ flagged found ↔ rule.Flags t root m kind := by
  have plain := Package.plain_of_load loaded free
  rw [flags_iff plain]
  rcases found_of_check coherent inside checked loaded free rootFree with
    ⟨r, plainRoot, same, rfl⟩ | ⟨rfl, same⟩
  · rw [mem_flagged_iff plain plainRoot, same]
  · refine ⟨fun member => absurd member List.not_mem_nil, ?_⟩
    rintro ⟨block, -, changed⟩
    exact absurd (same kind block) changed

variable (kept : ∀ kind ∈ flagged found,
  Members.get? kind.key w.members = Members.get? kind.key m.members)

include kept

/-- What was found is found on the manifest as it is later, among the flagged blocks. -/
theorem found_of_kept : found = [] ∨ ∃ r : Manifest, r.Plain ∧
    rule.wanted (sharedBy r) = rule.wanted (sharedIn t root) ∧ (flagged found).Nodup ∧
    found = rule.findings c.dir.manifest w r (flagged found) := by
  have plain := Package.plain_of_load loaded free
  rcases found_of_check coherent inside checked loaded free rootFree with
    ⟨r, plainRoot, same, rfl⟩ | ⟨none, -⟩
  · refine .inr ⟨r, plainRoot, same, ?_, ?_⟩
    · rw [rule.flagged_findings _ plain plainRoot]
      exact List.filter_sublist.nodup (by decide)
    · refine findings_eq_of_kept plain plainRoot fun kind member => ?_
      rw [Manifest.block?, kept kind member, Manifest.block?]
  · exact .inl none

variable (loaded' : Package.load t₁ c.dir = .ok w) (free' : w.toJson.floatFree = true)

include loaded' free'

/-- The fixers that follow a check succeed unless a directory is in the way. -/
theorem exists_applied (apart : t₁.created c.dir.manifest = false) :
    ∃ t₂, FixOp.Applied t₁ (dueOps found) t₂ := by
  rcases found_of_kept coherent inside checked loaded free rootFree kept with
    rfl | ⟨r, plainRoot, -, nodup, later⟩
  · exact ⟨t₁, .nil t₁⟩
  · obtain ⟨t₂, -, applied⟩ := rule.applied_findings_of plainRoot nodup
      (Package.plain_of_load loaded' free') (Tree.load_eq_ok_iff.1 loaded') apart
    exact ⟨t₂, later ▸ applied⟩

/-- The fixers that follow a check fix the flagged blocks in the manifest, as it is when they are
applied, and change nothing else.  Where nothing is flagged they change nothing. -/
theorem contents_fixed (applied : FixOp.Applied t₁ (dueOps found) t₂) :
    (∀ kind, kind ∈ flagged found ↔ rule.Flags t root m kind) ∧
    (found = [] → t₂ = t₁) ∧
    (found ≠ [] → t₂.dirs = t₁.dirs ∧ ∃ fixed, rule.Fixed t root (flagged found) w fixed ∧
      ∀ p, t₂.contents? p =
        if c.dir.manifest.same p then some fixed.toJson.canonical else t₁.contents? p) := by
  have flags := mem_flagged_of_check coherent inside checked loaded free rootFree
  refine ⟨flags, ?_, fun nonempty => ?_⟩
  · rintro rfl
    cases applied
    rfl
  · obtain ⟨r, plainRoot, same, nodup, later⟩ :=
      (found_of_kept coherent inside checked loaded free rootFree kept).resolve_left nonempty
    have written := contents_of_applied (Package.plain_of_load loaded' free') plainRoot loaded'
      nodup (later ▸ nonempty) (later ▸ applied)
    have fixes : ∀ kind ∈ flagged found, ∃ block, w.block? kind = some block ∧
        rule.Fixes t root kind block (rule.wanted (sharedIn t root) kind block) := by
      intro kind member
      have flag := (flags kind).1 member
      obtain ⟨block, there, -⟩ := (flags_iff (Package.plain_of_load loaded free)).1 flag
      refine ⟨block, ?_, fixes_wanted flag block⟩
      rw [← there, Manifest.block?, kept kind member, Manifest.block?]
    rw [written, revisedIn, same]
    exact ⟨rfl, _, fixed_mapBlocks fixes, fun p => Tree.contents?_withFile t₁ _ p _⟩

end

open ConsistentDependencies (drifted driftedMember driftedManifest load_drifted load_drifted_root
  plain_driftedManifest plain_sharedManifest sharedManifest)

/-- A manifest that somebody else wrote for the member, with these blocks. -/
def manifestWith (devDependencies dependencies : Members) : Manifest := ⟨[
  ("license", .string "MIT"),
  ("devDependencies", .object devDependencies),
  ("name", .string "b"),
  ("dependencies", .object dependencies)]⟩

/-- That manifest with the blocks as they were checked. -/
def rewrittenManifest : Manifest :=
  manifestWith [("z", .string "1"), ("w", .string "1")]
    [("x", .string "2"), ("y", .object [("dev", .bool true), ("url", .string "u")])]

theorem plain_rewrittenManifest : rewrittenManifest.Plain :=
  ⟨by simp [rewrittenManifest, manifestWith, Manifest.toJson, Json.Legible, Json.LegibleMembers,
    Members.keys, Json.Reader.nestingLimit], rfl⟩

/-- The workspace after that. -/
def rewritten : Tree :=
  drifted.withFile driftedMember.dir.manifest rewrittenManifest.toJson.canonical

/-- Names that are banned from the member. -/
def bannedNames : PatternSet := (PatternSet.ofList ["w", "y*"]).toOption.getD .empty

theorem accepts_bannedNames : bannedNames.accepts "w" = true ∧ bannedNames.accepts "x" = false ∧
    bannedNames.accepts "y" = true ∧ bannedNames.accepts "z" = false ∧
    bannedNames.accepts "p" = false := by decide +kernel

theorem flags_consistent_drifted (kind : DependencyKind) :
    consistent.Flags drifted ⟨"/w"⟩ driftedManifest kind ↔ kind ≠ .peerDependencies := by
  refine ⟨And.left, fun other => ⟨other, sharedManifest, load_drifted_root, ?_⟩⟩
  cases kind with
  | dependencies => exact ⟨_, _, rfl, rfl, "y", _, _, rfl, rfl, by simp⟩
  | devDependencies => exact ⟨_, _, rfl, rfl, "z", _, _, rfl, rfl, by simp⟩
  | peerDependencies => exact absurd rfl other

theorem flags_banned_drifted (kind : DependencyKind) :
    (banned bannedNames).Flags drifted ⟨"/w"⟩ driftedManifest kind ↔ kind ≠ .peerDependencies := by
  obtain ⟨w, -, y, -, p⟩ := accepts_bannedNames
  simp only [Flags, ← PatternSet.accepts_eq_true_iff]
  cases kind with
  | dependencies => exact iff_of_true ⟨_, rfl, "y", by decide, y⟩ nofun
  | devDependencies => exact iff_of_true ⟨_, rfl, "w", by decide, w⟩ nofun
  | peerDependencies =>
    refine iff_of_false ?_ (absurd rfl)
    rintro ⟨block, there, name, member, accepted⟩
    obtain rfl : [("p", Json.string "1")] = block := Option.some.inj there
    obtain rfl := List.mem_singleton.1 member
    exact Bool.false_ne_true (p.symm.trans accepted)

/-- Both blocks of the manifest are fixed when each of them is. -/
theorem fixed_manifestWith {rule : DependencyRule} {kinds : List DependencyKind}
    {dev dev' own own' : Members} (both : ∀ kind, kind ∈ kinds ↔ kind ≠ .peerDependencies)
    (fixesDev : rule.Fixes drifted ⟨"/w"⟩ .devDependencies dev dev')
    (fixes : rule.Fixes drifted ⟨"/w"⟩ .dependencies own own') :
    rule.Fixed drifted ⟨"/w"⟩ kinds (manifestWith dev own) (manifestWith dev' own') where
  keys := rfl
  others key other := by
    have notDev : "devDependencies" ≠ key := other .devDependencies ((both _).2 nofun)
    have notOwn : "dependencies" ≠ key := other .dependencies ((both _).2 nofun)
    by_cases kept : key = "license" ∨ key = "name"
    · obtain rfl | rfl := kept <;> rfl
    · obtain ⟨notLicense, notName⟩ := not_or.1 kept
      have absent (dev own : Members) : Members.get? key (manifestWith dev own).members = none :=
        Members.get?_eq_none_iff.2 (by
          simp [manifestWith, Members.keys, notLicense, notName, notDev.symm, notOwn.symm])
      rw [absent, absent]
  blocks kind among := by
    cases kind with
    | dependencies => exact ⟨own, own', rfl, rfl, fixes⟩
    | devDependencies => exact ⟨dev, dev', rfl, rfl, fixesDev⟩
    | peerDependencies => exact absurd rfl ((both _).1 among)

theorem fixes_consistent_drifted {kind : DependencyKind} {block shared made : Members}
    (there : sharedManifest.block? kind = some shared)
    (expected : ConsistentDependencies.expected block shared = made) :
    consistent.Fixes drifted ⟨"/w"⟩ kind block made :=
  ⟨sharedManifest, shared, load_drifted_root, there,
    expected ▸ ConsistentDependencies.aligned_expected block shared⟩

theorem fixes_banned_drifted {kind : DependencyKind} {block made : Members}
    (retained : BannedDependencies.retained block bannedNames = made) :
    (banned bannedNames).Fixes drifted ⟨"/w"⟩ kind block made :=
  retained ▸ BannedDependencies.cleared_retained block bannedNames

/-- The fixers of what a rule finds in the member put a manifest in the place of the one that
somebody else wrote, and change nothing else. -/
def FixedTo (rule : DependencyRule) (fixed : Manifest) : Prop :=
  ∃ t₂, FixOp.Applied rewritten (dueOps (rule.check.run drifted driftedMember).2.findings) t₂ ∧
    t₂.dirs = rewritten.dirs ∧ ∀ p, t₂.contents? p =
      if driftedMember.dir.manifest.same p then some fixed.toJson.canonical
      else rewritten.contents? p

/-- Both rules fix two blocks in the manifest that somebody else wrote. -/
theorem contents_fixed_rewritten :
    Package.load drifted ⟨"/w/a"⟩ = .ok driftedManifest ∧
      Package.load rewritten ⟨"/w/a"⟩ = .ok rewrittenManifest ∧
      FixedTo consistent (manifestWith [("z", .string "2"), ("w", .string "1")]
        [("x", .string "2"), ("y", .object [("url", .string "u"), ("dev", .bool true)])]) ∧
      FixedTo (.banned bannedNames) (manifestWith [("z", .string "1")] [("x", .string "2")]) := by
  have coherent : driftedMember.Coherent drifted := driftedMember.coherent_renewed drifted
  have inside : driftedMember.workspaceDir = .ok ⟨"/w"⟩ := rfl
  have rootFree : ∀ r, Package.load drifted ⟨"/w"⟩ = .ok r → r.toJson.floatFree = true := by
    intro r loaded
    obtain rfl := Except.ok.inj (load_drifted_root.symm.trans loaded)
    exact plain_sharedManifest.free
  have loaded' : Package.load rewritten ⟨"/w/a"⟩ = .ok rewrittenManifest :=
    Tree.load_eq_ok_iff.2 (Tree.readJson_withFile rfl plain_rewrittenManifest)
  have fixedTo (rule : DependencyRule) (made : Manifest)
      (flags : ∀ kind, rule.Flags drifted ⟨"/w"⟩ driftedManifest kind ↔ kind ≠ .peerDependencies)
      (fixed : ∀ kinds, (∀ kind, kind ∈ kinds ↔ kind ≠ .peerDependencies) →
        rule.Fixed drifted ⟨"/w"⟩ kinds rewrittenManifest made) : FixedTo rule made := by
    have checked := (List.nil_append (rule.check.run drifted driftedMember).2.findings).symm
    have both kind := (mem_flagged_of_check coherent inside checked load_drifted
      plain_driftedManifest.free rootFree kind).trans (flags kind)
    have kept : ∀ kind ∈ flagged (rule.check.run drifted driftedMember).2.findings,
        Members.get? kind.key rewrittenManifest.members =
          Members.get? kind.key driftedManifest.members := by
      intro kind member
      cases kind with
      | dependencies => rfl
      | devDependencies => rfl
      | peerDependencies => exact absurd rfl ((both _).1 member)
    obtain ⟨t₂, applied⟩ := exists_applied coherent inside checked load_drifted
      plain_driftedManifest.free rootFree kept loaded' plain_rewrittenManifest.free rfl
    obtain ⟨-, -, changed⟩ := contents_fixed coherent inside checked load_drifted
      plain_driftedManifest.free rootFree kept loaded' plain_rewrittenManifest.free applied
    have some : (rule.check.run drifted driftedMember).2.findings ≠ [] := by
      intro none
      have member := (both .dependencies).2 nofun
      rw [none] at member
      cases member
    obtain ⟨dirs, written, fixes, contents⟩ := changed some
    obtain rfl := fixes.unique plain_rewrittenManifest (fixed _ both)
    exact ⟨t₂, applied, dirs, contents⟩
  refine ⟨load_drifted, loaded', fixedTo _ _ flags_consistent_drifted fun kinds both => ?_,
    fixedTo _ _ flags_banned_drifted fun kinds both => ?_⟩
  · exact fixed_manifestWith both (fixes_consistent_drifted rfl rfl)
      (fixes_consistent_drifted rfl rfl)
  · exact fixed_manifestWith both
      (fixes_banned_drifted (by simp [BannedDependencies.retained, accepts_bannedNames]))
      (fixes_banned_drifted (by simp [BannedDependencies.retained, accepts_bannedNames]))

end DependencyRule

end WorkspaceLint
