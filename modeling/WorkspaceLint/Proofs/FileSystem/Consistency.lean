import WorkspaceLint.Proofs.FileSystem.Tree

/-!
# Files and directories apart

A tree is *consistent* when no path is at once a stored file and a directory.  Operations on a tree
keep it so, apart from two that are let through: writing a file where a directory is that was not
created but only follows from what is below it, and creating a directory with those above it below a
stored file (`Operation.Intrudes`).  `consistent_after_iff` says so of one operation, and
`consistent_iff_not_intruded` of all that are made from the empty tree on.
-/

namespace WorkspaceLint

/-- Whether a path is properly above another one. -/
def Path.Above (p q : Path) : Prop :=
  p.components <+: q.components ∧ q.components ≠ p.components

namespace Tree

/-! ## Directories -/

/-- The directories of a tree: the top, what was created, and all that is above a stored file or a
created directory. -/
inductive IsDir (t : Tree) (p : Path) : Prop where
  | top (none : p.parent? = none)
  | created (member : t.created p = true)
  | aboveDir {d : Path} (member : d ∈ t.dirs) (above : p.Above d)
  | aboveFile {q : Path} (member : q ∈ t.paths) (above : p.Above q)

/-- The test for directories finds the directories. -/
theorem dirExists_iff_isDir {t : Tree} {p : Path} : t.dirExists p = true ↔ t.IsDir p := by
  rw [dirExists_iff, ← Path.parent?_eq_none_iff]
  constructor
  · rintro (none | ⟨d, member, below⟩ | ⟨q, member, above⟩)
    · exact .top none
    · by_cases same : d.components = p.components
      · exact .created (created_iff.2 ⟨d, member, same⟩)
      · exact .aboveDir member ⟨below, same⟩
    · exact .aboveFile member above
  · intro h
    cases h with
    | top none => exact .inl none
    | created member =>
      obtain ⟨d, member, same⟩ := created_iff.1 member
      exact .inr (.inl ⟨d, member, same ▸ List.prefix_rfl⟩)
    | aboveDir member above => exact .inr (.inl ⟨_, member, above.1⟩)
    | aboveFile member above => exact .inr (.inr ⟨_, member, above⟩)

/-- No path is at once a stored file and a directory. -/
def Consistent (t : Tree) : Prop := ∀ p, ¬ ((t.contents? p).isSome = true ∧ t.IsDir p)

theorem consistent_iff {t : Tree} :
    t.Consistent ↔ ∀ p, (t.contents? p).isSome = true → t.dirExists p = false := by
  simp only [Consistent, ← dirExists_iff_isDir, not_and, Bool.not_eq_true]

theorem not_consistent_of_dirExists {t : Tree} {p : Path} (stored : (t.contents? p).isSome = true)
    (dir : t.dirExists p = true) : ¬ t.Consistent :=
  fun h => h p ⟨stored, dirExists_iff_isDir.1 dir⟩

theorem consistent_empty : empty.Consistent := by
  rintro p ⟨stored, -⟩
  cases stored

/-! ## Operations -/

/-- What can be done to a tree. -/
inductive Operation where
  | write (path : Path) (contents : String)
  | writeJson (path : Path) (value : Json)
  | makeDir (path : Path) (deep : Bool)
  | remove (path : Path)

namespace Operation

/-- The result of an operation. -/
def apply (t : Tree) : Operation → Except Trouble Tree
  | write path contents => FileSystem.write t path contents
  | writeJson path value => FileSystem.writeJson t path value
  | makeDir path deep => FileSystem.makeDir t path deep
  | remove path => FileSystem.remove t path

/-- The tree after an operation, which is the old one if it was refused. -/
def after (t : Tree) (op : Operation) : Tree :=
  match op.apply t with
  | .ok t => t
  | .error _ => t

/-- The file that an operation writes. -/
def written? : Operation → Option Path
  | write path _ | writeJson path _ => some path
  | makeDir _ _ | remove _ => none

/-- An operation that is let through and puts a file and a directory at one path: a file is written
where a directory is that was not created itself, or a directory is created below a stored file,
together with those between them. -/
inductive Intrudes (t : Tree) : Operation → Prop where
  | write {op : Operation} {path : Path} (aim : op.written? = some path)
      (parent : t.parentExists path = true) (dir : t.IsDir path)
      (implied : t.created path = false) : Intrudes t op
  | makeDir {path file : Path} (stored : (t.contents? file).isSome = true)
      (above : file.Above path) (vacant : t.contents? path = none) : Intrudes t (makeDir path true)

/-- A JSON document is written as a text. -/
theorem exists_apply_eq_write {op : Operation} {p : Path} (aim : op.written? = some p) (t : Tree) :
    ∃ contents, op.apply t = FileSystem.write t p contents := by
  cases op with
  | write q contents =>
    obtain rfl := Option.some.inj aim
    exact ⟨contents, rfl⟩
  | writeJson q value =>
    obtain rfl := Option.some.inj aim
    exact ⟨value.canonical, rfl⟩
  | makeDir q deep => cases aim
  | remove q => cases aim

end Operation

variable {t : Tree}

/-! ## One operation -/

/-- Writing a file keeps a tree consistent unless the file is put where a directory is. -/
theorem consistent_withFile_iff (h : t.Consistent) {p : Path} (parent : t.parentExists p = true)
    (contents : String) : (t.withFile p contents).Consistent ↔ t.dirExists p = false := by
  rw [consistent_iff] at h ⊢
  simp only [dirExists_withFile parent, contents?_withFile]
  constructor
  · intro kept
    exact kept p (by rw [if_pos p.same_self]; rfl)
  · intro apart q stored
    split at stored
    · rename_i same
      rwa [dirExists_congr (Path.same_iff.1 same).symm]
    · exact h q stored

/-- Creating a directory keeps a tree consistent unless it is put below a stored file. -/
theorem consistent_withDir_iff (h : t.Consistent) {p : Path} (vacant : t.contents? p = none) :
    (t.withDir p).Consistent ↔ ∀ q, (t.contents? q).isSome = true → ¬ q.Above p := by
  have contents (q : Path) : (t.withDir p).contents? q = t.contents? q := rfl
  rw [consistent_iff] at h ⊢
  simp only [contents, ← Bool.not_eq_true, dirExists_withDir, not_or]
  constructor
  · intro kept q stored above
    exact (kept q stored).2 above.1
  · intro apart q stored
    refine ⟨by rw [Bool.not_eq_true]; exact h q stored, fun below => apart q stored ⟨below, ?_⟩⟩
    intro same
    rw [← contents?_congr same, vacant] at stored
    cases stored

theorem consistent_after_write_iff (h : t.Consistent) {op : Operation} {p : Path}
    (aim : op.written? = some p) : (op.after t).Consistent ↔ ¬ op.Intrudes t := by
  obtain ⟨contents, made⟩ := op.exists_apply_eq_write aim t
  have intrudes : op.Intrudes t ↔
      t.parentExists p = true ∧ t.created p = false ∧ t.dirExists p = true := by
    rw [dirExists_iff_isDir]
    refine ⟨fun intrusion => ?_, fun ⟨parent, implied, dir⟩ => .write aim parent dir implied⟩
    cases intrusion with
    | write aim' parent dir implied =>
      rw [aim] at aim'
      obtain rfl := Option.some.inj aim'
      exact ⟨parent, implied, dir⟩
    | makeDir => cases aim
  rw [Operation.after, made, write_eq, intrudes]
  rcases hp : t.parentExists p <;> rcases hc : t.created p
  · simp [h]
  · simp [h]
  · simp [consistent_withFile_iff h hp]
  · simp [h]

theorem consistent_after_makeDir_iff (h : t.Consistent) (p : Path) (deep : Bool) :
    ((Operation.makeDir p deep).after t).Consistent ↔ ¬ (Operation.makeDir p deep).Intrudes t := by
  have made : (Operation.makeDir p deep).apply t = t.makeDir p deep := rfl
  have intrudes : (Operation.makeDir p deep).Intrudes t ↔ deep = true ∧ t.contents? p = none ∧
      ∃ q, (t.contents? q).isSome = true ∧ q.Above p := by
    constructor
    · intro intrusion
      cases intrusion with
      | write aim => cases aim
      | makeDir stored above vacant => exact ⟨rfl, vacant, _, stored, above⟩
    · rintro ⟨rfl, vacant, q, stored, above⟩
      exact .makeDir stored above vacant
  rw [Operation.after, made, Tree.makeDir, intrudes]
  rcases hs : t.contents? p with _ | contents
  · cases deep with
    | true => simp [consistent_withDir_iff h hs]
    | false =>
      rcases hp : t.parentExists p <;> rcases hd : t.dirExists p
      · simp [h]
      · simp [h]
      · -- What is above a directory that exists is a directory too, so there is no file.
        have apart : ∀ q, (t.contents? q).isSome = true → ¬ q.Above p := fun q stored above =>
          h q ⟨stored, dirExists_iff_isDir.1 (dirExists_of_parentExists hp above.1 above.2.symm)⟩
        simpa [consistent_withDir_iff h hs] using apart
      · simp [h]
  · simp [h]

/-- Without a file no directory is new. -/
theorem consistent_after_remove (h : t.Consistent) (p : Path) :
    ((Operation.remove p).after t).Consistent := by
  have made : (Operation.remove p).apply t = t.remove p := rfl
  rw [Operation.after, made, Tree.remove]
  rcases t.contents? p with _ | contents
  · exact h
  · have fewer : (t.files.filter fun f => !f.1.same p).map Prod.fst ⊆ t.paths :=
      List.map_subset _ List.filter_sublist.subset
    rintro q ⟨stored, dir⟩
    refine h q ⟨?_, ?_⟩
    · rw [contents?_isSome_iff_paths] at stored ⊢
      exact List.map_subset _ fewer stored
    · cases dir with
      | top none => exact .top none
      | created member => exact .created member
      | aboveDir member above => exact .aboveDir member above
      | aboveFile member above => exact .aboveFile (fewer member) above

/-- An operation on a consistent tree leaves it consistent exactly when it does not intrude. -/
theorem consistent_after_iff (h : t.Consistent) (op : Operation) :
    (op.after t).Consistent ↔ ¬ op.Intrudes t := by
  cases op with
  | write p contents => exact consistent_after_write_iff h rfl
  | writeJson p value => exact consistent_after_write_iff h rfl
  | makeDir p deep => exact consistent_after_makeDir_iff h p deep
  | remove p =>
    refine iff_of_true (consistent_after_remove h p) fun intrusion => ?_
    cases intrusion with
    | write aim => cases aim

/-! ## Many operations -/

/-- The tree after operations, whatever became of each of them. -/
def afterAll (t : Tree) (ops : List Operation) : Tree := ops.foldl Operation.after t

/-- Whether some operation intrudes when its turn comes. -/
def Intruded (t : Tree) (ops : List Operation) : Prop :=
  ∃ before op later, ops = before ++ op :: later ∧ op.Intrudes (t.afterAll before)

theorem intruded_cons_iff {op : Operation} {ops : List Operation} :
    t.Intruded (op :: ops) ↔ op.Intrudes t ∨ (op.after t).Intruded ops := by
  constructor
  · rintro ⟨before, op', later, parts, intrudes⟩
    obtain ⟨rfl, same⟩ | ⟨before, rfl, same⟩ := List.cons_eq_append_iff.1 parts
    · obtain ⟨rfl, -⟩ := List.cons.inj same
      exact .inl intrudes
    · exact .inr ⟨before, op', later, same, intrudes⟩
  · rintro (intrudes | ⟨before, op', later, rfl, intrudes⟩)
    · exact ⟨[], op, ops, rfl, intrudes⟩
    · exact ⟨op :: before, op', later, rfl, intrudes⟩

/-- A consistent tree stays consistent all along until an operation intrudes. -/
theorem consistent_afterAll_iff (h : t.Consistent) (ops : List Operation) :
    (∀ made, made <+: ops → (t.afterAll made).Consistent) ↔ ¬ t.Intruded ops := by
  induction ops generalizing t with
  | nil =>
    refine iff_of_true (fun made none => ?_) ?_
    · rw [List.prefix_nil.1 none]
      exact h
    · rintro ⟨before, op, later, parts, -⟩
      simp at parts
  | cons op ops ih =>
    rw [intruded_cons_iff, not_or, ← consistent_after_iff h op]
    constructor
    · intro kept
      have first := kept [op] (List.prefix_append [op] ops)
      refine ⟨first, (ih first).1 fun made more => ?_⟩
      exact kept (op :: made) (List.cons_prefix_cons.2 ⟨rfl, more⟩)
    · rintro ⟨first, later⟩ made more
      obtain rfl | ⟨rest, rfl, fewer⟩ := List.prefix_cons_iff.1 more
      · exact h
      · exact (ih first).2 later rest fewer

/-- From the empty tree on, files and directories stay apart as long as nothing intrudes: no file is
written where a directory is that was not created itself, and no directory is created together with
those above it below a stored file. -/
theorem consistent_iff_not_intruded (ops : List Operation) :
    (∀ made, made <+: ops → (empty.afterAll made).Consistent) ↔ ¬ empty.Intruded ops :=
  consistent_afterAll_iff consistent_empty ops

/-- Each of the two intrusions comes about, and so does a file at the top. -/
theorem not_consistent_intrusions :
    ¬ (empty.afterAll [.makeDir ⟨"/a/b"⟩ true, .write ⟨"/a"⟩ "x"]).Consistent ∧
    ¬ (empty.afterAll [.write ⟨"/a"⟩ "x", .makeDir ⟨"/a/b"⟩ true]).Consistent ∧
    ¬ (empty.afterAll [.write ⟨"/"⟩ "x"]).Consistent := by
  refine ⟨?_, ?_, ?_⟩
  · exact not_consistent_of_dirExists (p := ⟨"/a"⟩) (by decide) (by decide)
  · exact not_consistent_of_dirExists (p := ⟨"/a"⟩) (by decide) (by decide)
  · exact not_consistent_of_dirExists (p := ⟨"/"⟩) (by decide) (by decide)

end Tree

end WorkspaceLint
