import Mathlib.Data.List.Induction
import Mathlib.Order.Nat
import WorkspaceLint.Proofs.FileSystem.Directories
import WorkspaceLint.Proofs.FileSystem.Mirror
import WorkspaceLint.Proofs.Glob.Below
import WorkspaceLint.Proofs.Json.Plain
import WorkspaceLint.Proofs.Workspace.Order

/-!
# The members that a workspace declares

A directory is a member when it has a manifest and a declaration adds it that no later one takes
away (`AddedAt`).  Members stand in the order of the first declaration that does, and those of one
declaration in the order of their paths (`memberDirs_declared`).
-/

namespace WorkspaceLint

open WorkspaceLint.Path (AreNames down)

/-- A plain directory with a manifest is among the directories of a tree. -/
theorem Tree.mem_allDirs_of_manifest {t : Tree} {dir : Path} (under : t.PlainUnder dir)
    (plain : dir.Plain) (manifest : FileSystem.contains t dir.manifest = true) :
    dir ∈ t.allDirs := by
  obtain ⟨names, hn, rfl⟩ := plain
  have below {q : Path} (h : (down names).manifest.components <+: q.components) :
      (down names).components <+: q.components ∧ q.components ≠ (down names).components := by
    rw [Path.components_manifest] at h
    refine ⟨(List.prefix_append _ _).trans h, fun same => ?_⟩
    have length := h.length_le
    rw [same, List.length_append, List.length_singleton] at length
    omega
  rw [Tree.mem_allDirs_iff hn under]
  rw [Tree.contains_eq, Bool.or_eq_true, Tree.contents?_isSome_iff_paths, Tree.dirExists_iff]
    at manifest
  rcases manifest with stored | none | ⟨d, member, above⟩ | ⟨q, member, above, -⟩
  · obtain ⟨q, member, same⟩ := List.mem_map.1 stored
    exact .inr ⟨q, member, below (same ▸ List.prefix_rfl)⟩
  · rw [Path.components_manifest, Path.components_down hn] at none
    simp at none
  · exact .inl ⟨d, member, (below above).1⟩
  · exact .inr ⟨q, member, below above⟩

namespace Workspace

/-- The pattern of a declaration, without the exclamation mark in front of it. -/
def patternOf (declared : String) : String := (negated? declared).getD declared

/-- The declaration at a place adds a directory, and none after it takes the directory away. -/
def AddedAt (root : Path) (globs : List String) (i : Nat) (dir : Path) : Prop :=
  (∃ glob, globs[i]? = some glob ∧ negated? glob = none ∧ DirGlob.Covers root glob dir) ∧
    ∀ j glob pattern, i < j → globs[j]? = some glob → negated? glob = some pattern →
      ¬ DirGlob.Covers root pattern dir

/-- The first declaration that adds a directory for good comes before that of another one, or is the
same and the path comes before. -/
def Precedes (root : Path) (globs : List String) (p q : Path) : Prop :=
  ∀ i j, IsLeast {k | AddedAt root globs k p} i → IsLeast {k | AddedAt root globs k q} j →
    i < j ∨ i = j ∧ p.before q = true

/-! ## One more declaration -/

section

variable {root dir p q : Path} {globs : List String} {glob pattern : String} {i : Nat}

theorem getElem?_concat_eq_some_iff {α : Type} {l : List α} {a b : α} :
    (l ++ [a])[i]? = some b ↔ l[i]? = some b ∨ i = l.length ∧ b = a := by
  rcases Nat.lt_trichotomy i l.length with less | rfl | more
  · rw [List.getElem?_append_left less, or_iff_left]
    rintro ⟨same, -⟩
    omega
  · simp [eq_comm]
  · rw [List.getElem?_append_right more.le, List.getElem?_eq_none more.le,
      List.getElem?_eq_none (by rw [List.length_singleton]; omega)]
    simp [more.ne']

theorem AddedAt.lt (h : AddedAt root globs i dir) : i < globs.length := by
  obtain ⟨⟨glob, here, -⟩, -⟩ := h
  exact (List.getElem?_eq_some_iff.1 here).1

theorem addedAt_concat_iff : AddedAt root (globs ++ [glob]) i dir ↔
    (AddedAt root globs i dir ∧
      ∀ pattern, negated? glob = some pattern → ¬ DirGlob.Covers root pattern dir) ∨
    i = globs.length ∧ negated? glob = none ∧ DirGlob.Covers root glob dir := by
  unfold AddedAt
  simp only [getElem?_concat_eq_some_iff]
  constructor
  · rintro ⟨⟨g, here | ⟨rfl, rfl⟩, positive, covered⟩, later⟩
    · have less : i < globs.length := (List.getElem?_eq_some_iff.1 here).1
      refine .inl ⟨⟨⟨g, here, positive, covered⟩, fun j g' p after at' => ?_⟩, fun p => ?_⟩
      · exact later j g' p after (.inl at')
      · exact later _ _ p less (.inr ⟨rfl, rfl⟩)
    · exact .inr ⟨rfl, positive, covered⟩
  · rintro (⟨⟨⟨g, here, positive, covered⟩, later⟩, last⟩ | ⟨rfl, positive, covered⟩)
    · refine ⟨⟨g, .inl here, positive, covered⟩, ?_⟩
      rintro j g' p after (at' | ⟨rfl, rfl⟩)
      · exact later j g' p after at'
      · exact last p
    · refine ⟨⟨glob, .inr ⟨rfl, rfl⟩, positive, covered⟩, ?_⟩
      rintro j g' p after (at' | ⟨rfl, rfl⟩)
      · exact absurd (List.getElem?_eq_some_iff.1 at').1 (by omega)
      · exact absurd after (lt_irrefl _)

/-- A declaration that takes directories away leaves the others where they were added. -/
theorem addedAt_concat_negated (negated : negated? glob = some pattern) :
    AddedAt root (globs ++ [glob]) i dir ↔
      AddedAt root globs i dir ∧ ¬ DirGlob.Covers root pattern dir := by
  simp [addedAt_concat_iff, negated]

theorem addedAt_concat_positive (positive : negated? glob = none) :
    AddedAt root (globs ++ [glob]) i dir ↔
      AddedAt root globs i dir ∨ i = globs.length ∧ DirGlob.Covers root glob dir := by
  simp [addedAt_concat_iff, positive]

/-- One more pattern does not change where a directory is added first. -/
theorem isLeast_concat_iff (positive : negated? glob = none)
    (added : ∃ k, AddedAt root globs k dir) :
    IsLeast {k | AddedAt root (globs ++ [glob]) k dir} i ↔
      IsLeast {k | AddedAt root globs k dir} i := by
  obtain ⟨k, old⟩ := added
  have less := old.lt
  constructor
  · rintro ⟨member, lower⟩
    have before : i ≤ k := lower ((addedAt_concat_positive positive).2 (.inl old))
    rcases (addedAt_concat_positive positive).1 member with here | ⟨rfl, -⟩
    · exact ⟨here, fun k h => lower ((addedAt_concat_positive positive).2 (.inl h))⟩
    · omega
  · rintro ⟨member, lower⟩
    refine ⟨(addedAt_concat_positive positive).2 (.inl member), fun k h => ?_⟩
    rcases (addedAt_concat_positive positive).1 h with here | ⟨rfl, -⟩
    · exact lower here
    · exact (AddedAt.lt member).le

/-- A directory that was not added before is added by the last declaration. -/
theorem eq_of_isLeast_concat (positive : negated? glob = none)
    (new : ¬ ∃ k, AddedAt root globs k dir)
    (least : IsLeast {k | AddedAt root (globs ++ [glob]) k dir} i) : i = globs.length :=
  ((addedAt_concat_positive positive).1 least.1).elim (fun old => absurd ⟨i, old⟩ new) And.left

end

/-! ## What is found so far -/

section

variable {σ : Type} [FileSystem σ] {fs : σ}

theorem isIn_of_mem {p : Path} {ps : List Path} (h : p ∈ ps) : p.isIn ps = true :=
  List.any_eq_true.2 ⟨p, h, p.same_self⟩

/-- New members come behind those found before, in the order in which they are found. -/
theorem exists_addFound (fs : σ) (found dirs : List Path) :
    ∃ added, addFound fs found dirs = found ++ added ∧ added.Sublist dirs ∧
      ∀ p ∈ added, p ∉ found := by
  induction dirs generalizing found with
  | nil => exact ⟨[], (List.append_nil found).symm, .slnil, nofun⟩
  | cons dir dirs ih =>
    rw [addFound]
    split
    · obtain ⟨added, whole, sub, new⟩ := ih found
      exact ⟨added, whole, sub.cons dir, new⟩
    · rename_i usable
      obtain ⟨added, whole, sub, new⟩ := ih (found ++ [dir])
      refine ⟨dir :: added, by rw [whole, List.append_assoc, List.singleton_append],
        sub.cons_cons dir, List.forall_mem_cons.2 ⟨fun old => usable ?_, fun p member old => ?_⟩⟩
      · rw [isIn_of_mem old, Bool.true_or]
      · exact new p member (List.mem_append_left _ old)

end

section

variable {t : Tree} {root : Path} {globs : List String} {found : List Path}
  {glob pattern : String} {g : DirGlob}

/-- Declarations find directories of the tree. -/
theorem mem_allDirs_of_declareAll {dirs : List Path} (known : ∀ d ∈ found, d ∈ t.allDirs)
    (declared : declareAll t root found globs = .ok dirs) : ∀ d ∈ dirs, d ∈ t.allDirs := by
  induction globs generalizing found with
  | nil =>
    rw [← Except.ok.inj declared]
    exact known
  | cons glob globs ih =>
    simp only [declareAll, bind_eq_ok_iff] at declared
    obtain ⟨next, one, rest⟩ := declared
    refine ih (fun d member => ?_) rest
    unfold declare at one
    split at one
    · split at one
      · cases one
      · rw [← Except.ok.inj one] at member
        exact known d (List.mem_filter.1 member).1
    · obtain ⟨matched, listed, rfl⟩ := map_eq_ok_iff.1 one
      obtain ⟨added, whole, sub, -⟩ := exists_addFound t found matched
      rw [whole] at member
      rcases List.mem_append.1 member with old | new
      · exact known d old
      · exact mem_allDirs_of_globDirs listed d (sub.subset new)

/-- Where all paths are plain, those of members are. -/
theorem plain_of_mem_memberDirs {dirs : List Path} (plain : t.Plain)
    (members : memberDirs t root = .ok dirs) : ∀ d ∈ dirs, d.Plain := by
  simp only [memberDirs, bind_eq_ok_iff] at members
  obtain ⟨v, -, declared⟩ := members
  have listed := mem_allDirs_of_declareAll (List.forall_mem_nil _) declared
  exact fun d member => Tree.plain_of_mem_allDirs (plain.under d) (listed d member)

/-- The directories found after some declarations. -/
structure Enumerates (t : Tree) (root : Path) (globs : List String) (found : List Path) : Prop where
  mem : ∀ dir, dir ∈ found ↔ dir ∈ t.allDirs ∧ FileSystem.contains t dir.manifest = true ∧
    ∃ i, AddedAt root globs i dir
  sorted : found.Pairwise (Precedes root globs)

theorem enumerates_nil (t : Tree) (root : Path) : Enumerates t root [] [] where
  mem dir := by simp [AddedAt]
  sorted := .nil

theorem Enumerates.removeMatched (h : Enumerates t root globs found)
    (negated : negated? glob = some pattern)
    (read : DirGlob.parse (DirGlob.rooted root.text pattern) = .ok g) :
    Enumerates t root (globs ++ [glob]) (removeMatched g found) := by
  have kept {dir : Path} : dir ∈ Workspace.removeMatched g found ↔
      dir ∈ found ∧ ¬ DirGlob.Covers root pattern dir := by
    rw [← DirGlob.accepts_rooted_iff read]
    simp [Workspace.removeMatched, List.mem_filter]
  have addedAt {dir : Path} {k : Nat} : AddedAt root (globs ++ [glob]) k dir ↔
      AddedAt root globs k dir ∧ ¬ DirGlob.Covers root pattern dir :=
    addedAt_concat_negated negated
  constructor
  · intro dir
    simp only [kept, h.mem, addedAt, exists_and_right, and_assoc]
  · refine (h.sorted.sublist List.filter_sublist).imp_of_mem ?_
    intro p q hp hq before i j least least'
    have same {dir : Path} (member : dir ∈ Workspace.removeMatched g found) (k : Nat) :
        AddedAt root (globs ++ [glob]) k dir ↔ AddedAt root globs k dir := by
      rw [addedAt, and_iff_left (kept.1 member).2]
    simp only [same hp] at least
    simp only [same hq] at least'
    exact before i j least least'

theorem Enumerates.addFound (h : Enumerates t root globs found) (positive : negated? glob = none)
    (read : DirGlob.parse (DirGlob.rooted root.text glob) = .ok g) :
    Enumerates t root (globs ++ [glob])
      (addFound t found (t.allDirs.filter fun d => DirGlob.accepts g d.text.toList)) := by
  have matched {dir : Path} : dir ∈ t.allDirs.filter (fun d => DirGlob.accepts g d.text.toList) ↔
      dir ∈ t.allDirs ∧ DirGlob.Covers root glob dir := by
    rw [List.mem_filter, DirGlob.accepts_rooted_iff read]
  have member (dir : Path) : dir ∈ Workspace.addFound t found
        (t.allDirs.filter fun d => DirGlob.accepts g d.text.toList) ↔
      dir ∈ t.allDirs ∧ FileSystem.contains t dir.manifest = true ∧
        ∃ i, AddedAt root (globs ++ [glob]) i dir := by
    rw [mem_addFound_iff (fun p hp q hq => eq_of_mem_allDirs hp hq)
      (fun d old => ((h.mem d).1 old).1) (fun d new => (matched.1 new).1), h.mem, matched]
    simp only [addedAt_concat_positive positive, exists_or, exists_eq_left]
    rw [and_assoc, and_comm (a := DirGlob.Covers root glob dir), ← and_or_left, ← and_or_left]
  refine ⟨member, ?_⟩
  obtain ⟨added, whole, sub, new⟩ := exists_addFound t found
    (t.allDirs.filter fun d => DirGlob.accepts g d.text.toList)
  have last {dir : Path} (inAdded : dir ∈ added) {j : Nat}
      (least : IsLeast {k | AddedAt root (globs ++ [glob]) k dir} j) : j = globs.length := by
    have there := (member dir).1 (by rw [whole]; exact List.mem_append_right _ inAdded)
    refine eq_of_isLeast_concat positive (fun old => ?_) least
    exact new dir inAdded ((h.mem dir).2 ⟨there.1, there.2.1, old⟩)
  rw [whole]
  refine List.pairwise_append.2 ⟨?_, ?_, ?_⟩
  · refine h.sorted.imp_of_mem ?_
    intro p q hp hq before i j least least'
    rw [isLeast_concat_iff positive ((h.mem p).1 hp).2.2] at least
    rw [isLeast_concat_iff positive ((h.mem q).1 hq).2.2] at least'
    exact before i j least least'
  · have ascending : Path.Ascending added :=
      (t.ascending_allDirs.sublist List.filter_sublist).sublist sub
    refine ascending.imp_of_mem ?_
    intro p q hp hq before i j least least'
    exact .inr ⟨(last hp least).trans (last hq least').symm, before⟩
  · intro p hp q hq i j least least'
    rw [isLeast_concat_iff positive ((h.mem p).1 hp).2.2] at least
    rw [last hq least']
    exact .inl (AddedAt.lt least.1)

/-- A declaration that can be read keeps what is found in order. -/
theorem Enumerates.declare (h : Enumerates t root globs found)
    (valid : DirGlob.Valid (patternOf glob)) :
    ∃ dirs, declare t root found glob = .ok dirs ∧ Enumerates t root (globs ++ [glob]) dirs := by
  obtain ⟨g, read⟩ := (DirGlob.valid_iff_rooted root).1 valid
  unfold patternOf at read
  unfold Workspace.declare
  rcases sign : negated? glob with _ | pattern
  · rw [sign, Option.getD_none] at read
    exact ⟨_, by rw [Tree.globDirs_of_parse read]; rfl, h.addFound sign read⟩
  · rw [sign, Option.getD_some] at read
    simp only [read]
    exact ⟨_, rfl, h.removeMatched sign read⟩

theorem declareAll_concat (globs : List String) (glob : String) :
    declareAll t root found (globs ++ [glob]) =
      declareAll t root found globs >>= fun found => declare t root found glob := by
  induction globs generalizing found with
  | nil =>
    show (declare t root found glob >>= Except.ok) = declare t root found glob
    exact bind_pure _
  | cons first globs ih =>
    simp only [List.cons_append, declareAll, ih, bind_assoc]

/-- Declarations that can be read enumerate the directories that they add. -/
theorem exists_enumerates (t : Tree) (root : Path) (globs : List String)
    (valid : ∀ glob ∈ globs, DirGlob.Valid (patternOf glob)) :
    ∃ dirs, declareAll t root [] globs = .ok dirs ∧ Enumerates t root globs dirs := by
  induction globs using List.reverseRecOn with
  | nil => exact ⟨[], rfl, enumerates_nil t root⟩
  | append_singleton globs glob ih =>
    obtain ⟨earlier, last⟩ := List.forall_mem_append.1 valid
    obtain ⟨found, declared, enumerated⟩ := ih earlier
    obtain ⟨dirs, next, enumerated'⟩ :=
      enumerated.declare (last glob (List.mem_singleton_self glob))
    refine ⟨dirs, ?_, enumerated'⟩
    rw [declareAll_concat, declared]
    exact next

end

/-! ## Members -/

/-- The members of a workspace are the directories with a manifest that a declared pattern covers
and no later one takes away, each once, in the order of the first such pattern and then of their
paths. -/
theorem memberDirs_declared {t : Tree} {root : Path} {v : Json} (plain : t.Plain)
    (read : FileSystem.readJson t root.manifest = .ok v)
    (valid : ∀ glob ∈ Manifest.workspaceGlobs v, DirGlob.Valid (patternOf glob)) :
    ∃ dirs, memberDirs t root = .ok dirs ∧
      (∀ dir, dir ∈ dirs ↔ dir.Plain ∧ FileSystem.contains t dir.manifest = true ∧
        ∃ i, AddedAt root (Manifest.workspaceGlobs v) i dir) ∧
      (dirs.map Path.components).Nodup ∧
      dirs.Pairwise (Precedes root (Manifest.workspaceGlobs v)) := by
  obtain ⟨dirs, declared, enumerated⟩ := exists_enumerates t root _ valid
  classical
  refine ⟨dirs, ?_, fun dir => ?_, ?_, enumerated.sorted⟩
  · rw [memberDirs, read]
    exact declared
  · rw [enumerated.mem]
    refine and_congr_left fun has => ⟨Tree.plain_of_mem_allDirs (plain.under dir), fun h => ?_⟩
    exact Tree.mem_allDirs_of_manifest (plain.under dir) h has.1
  · refine List.pairwise_map.2 (enumerated.sorted.imp_of_mem ?_)
    intro p q hp hq before same
    obtain ⟨listed, -, added⟩ := (enumerated.mem p).1 hp
    obtain rfl := eq_of_mem_allDirs listed ((enumerated.mem q).1 hq).1 same
    have least := Nat.isLeast_find added
    rcases before _ _ least least with less | ⟨-, less⟩
    · exact lt_irrefl _ less
    · exact Path.not_before_of_same rfl less

/-- The manifest of a workspace root that declares patterns for its members. -/
def declaring (globs : List String) : Json :=
  .object [("workspaces", .array (globs.map .string))]

theorem plain_declaring (globs : List String) :
    (declaring globs).Plain Json.Reader.nestingLimit := by
  have patterns : (Json.array (globs.map Json.string)).Plain (Json.Reader.nestingLimit - 1) :=
    Json.plain_array (by decide) (List.forall_mem_map.2 fun glob _ => Json.plain_string _ glob)
  have keys : ["workspaces"].Nodup := by decide
  exact Json.plain_object_iff.2 ⟨by decide, keys, List.forall_mem_singleton.2 patterns⟩

/-- A workspace that takes one of its members away and adds it again. -/
def readdedFiles : List (List String × String) := [
  (["w", "p", "a", "package.json"], "\x7b\x7d"),
  (["w", "p", "b", "package.json"], "\x7b\x7d"),
  (["w", "p", "c", "README"], ""),
  (["w", "package.json"], (declaring ["p/*", "!p/a", "q/", "p/?"]).canonical),
  (["w", "q", "package.json"], "\x7b\x7d")]

theorem memberDirs_readdedFiles :
    memberDirs (Tree.ofFiles readdedFiles) ⟨"/w"⟩ =
      .ok [⟨"/w/p/b"⟩, ⟨"/w/q"⟩, ⟨"/w/p/a"⟩] ∧
    (∀ dir, dir ∈ [Path.mk "/w/p/b", ⟨"/w/q"⟩, ⟨"/w/p/a"⟩] ↔ dir.Plain ∧
      FileSystem.contains (Tree.ofFiles readdedFiles) dir.manifest = true ∧
      ∃ i, AddedAt ⟨"/w"⟩ ["p/*", "!p/a", "q/", "p/?"] i dir) ∧
    List.Pairwise (Precedes ⟨"/w"⟩ ["p/*", "!p/a", "q/", "p/?"])
      [⟨"/w/p/b"⟩, ⟨"/w/q"⟩, ⟨"/w/p/a"⟩] := by
  have plain : (Tree.ofFiles readdedFiles).Plain := Tree.plain_ofFiles (by decide +kernel)
  have read : FileSystem.readJson (Tree.ofFiles readdedFiles) (Path.mk "/w").manifest =
      .ok (declaring ["p/*", "!p/a", "q/", "p/?"]) :=
    Tree.readJson_eq_ok_iff.2 ⟨_, by decide +kernel, (plain_declaring _).parse_canonical⟩
  have members : memberDirs (Tree.ofFiles readdedFiles) ⟨"/w"⟩ =
      .ok [⟨"/w/p/b"⟩, ⟨"/w/q"⟩, ⟨"/w/p/a"⟩] := eq_ok_of_toOption_eq (by decide +kernel)
  obtain ⟨dirs, same, mem, -, sorted⟩ := memberDirs_declared plain read (by decide +kernel)
  obtain rfl := Except.ok.inj (members.symm.trans same)
  exact ⟨members, mem, sorted⟩

end Workspace

end WorkspaceLint
