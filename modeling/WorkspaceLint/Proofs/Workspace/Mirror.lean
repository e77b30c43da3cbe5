import Mathlib.Data.List.Basic
import WorkspaceLint.Proofs.FileSystem.Directories
import WorkspaceLint.Proofs.FileSystem.Expand
import WorkspaceLint.Proofs.FileSystem.Mirror
import WorkspaceLint.Proofs.Workspace.Order

/-!
# Members of a tree and of its disk

A tree matches patterns with the texts of its directories, a disk walks through them.  For patterns
that fit the root both find the same directories (`OnDisk.globDirs`), so they have the same members
in the same order (`OnDisk.memberDirs`).
-/

namespace WorkspaceLint

open WorkspaceLint.Path (AreNames down)

/-! ## Directories of a tree -/

namespace Tree

namespace OnDisk

variable {t : Tree} {d : Disk} (h : t.OnDisk d)

include h

theorem plain : t.Plain := ⟨h.paths, h.dirs⟩

theorem exists_of_mem_allDirs {p : Path} (member : p ∈ t.allDirs) :
    ∃ names, AreNames names ∧ p = down names ∧ d.isDir names = true := by
  have under := h.plain.under p
  obtain ⟨names, hn, rfl⟩ := plain_of_mem_allDirs under member
  refine ⟨names, hn, rfl, ?_⟩
  by_cases some : names = []
  · rw [some]
    exact Disk.isDir_nil d
  · rw [← h.isDir names hn]
    exact (mem_allDirs_iff_dirExists hn some under).1 member

theorem mem_allDirs {names : List String} (some : names ≠ []) (dir : d.isDir names = true) :
    down names ∈ t.allDirs := by
  have hn := h.sound.areNames_of_isDir dir
  rw [← h.isDir names hn] at dir
  exact (mem_allDirs_iff_dirExists hn some (h.plain.under _)).2 dir

/-! ## Patterns -/

/-- The directories of a tree that a pattern below a root accepts are those of the disk whose names
its segments match. -/
theorem mem_filter_allDirs_iff {root : List String} (hr : AreNames root) {pattern : String}
    {gs : List DirGlob} (each : DirGlob.ReadEach (DirGlob.parts pattern) gs)
    (notTop : DirGlob.accepts (.literal '/' :: DirGlob.glue (DirGlob.below root gs)) ['/'] = false)
    {p : Path} :
    p ∈ t.allDirs.filter (fun p =>
        DirGlob.accepts (.literal '/' :: DirGlob.glue (DirGlob.below root gs)) p.text.toList) ↔
      ∃ names, DirGlob.Matches (DirGlob.below root gs) names ∧ d.isDir names = true ∧
        p = down names := by
  rw [List.mem_filter]
  constructor
  · rintro ⟨member, accepted⟩
    obtain ⟨names, hn, rfl, dir⟩ := h.exists_of_mem_allDirs member
    have some : names ≠ [] := by
      rintro rfl
      rw [show (down []).text.toList = ['/'] from rfl, notTop] at accepted
      cases accepted
    exact ⟨names, (DirGlob.accepts_below_iff hr each hn some).1 accepted, dir, rfl⟩
  · rintro ⟨names, matched, dir, rfl⟩
    have some : names ≠ [] := by
      rintro rfl
      have length := (DirGlob.readEach_below hr each).length_eq
      rw [DirGlob.matches_nil_right matched, List.length_nil, List.length_append] at length
      exact DirGlob.parts_ne_nil pattern (List.length_eq_zero_iff.1 (by omega))
    have hn := h.sound.areNames_of_isDir dir
    exact ⟨h.mem_allDirs some dir, (DirGlob.accepts_below_iff hr each hn some).2 matched⟩

/-- A pattern that fits the root cannot be read by either, or finds the same directories in both. -/
theorem globDirs {root : List String} (hr : AreNames root) {pattern : String}
    (fits : DirGlob.Fits (down root) pattern) :
    (∃ e e', FileSystem.globDirs t (down root) pattern = .error e ∧
      FileSystem.globDirs d (down root) pattern = .error e') ∨
    ∃ ps qs, FileSystem.globDirs t (down root) pattern = .ok ps ∧
      FileSystem.globDirs d (down root) pattern = .ok qs ∧
      Path.Ascending ps ∧ qs.Pairwise (fun p q => ¬ q.before p = true) ∧
      (∀ p, p ∈ qs ↔ p ∈ ps) ∧ ∀ p ∈ ps, p.Plain := by
  have disk : FileSystem.globDirs d (down root) pattern = d.globDirs (down root) pattern := rfl
  rcases read : DirGlob.parse (DirGlob.rooted (down root).text pattern) with fault | g
  · refine .inl ⟨.badPattern (DirGlob.rooted (down root).text pattern) fault,
      .badDiskPattern (DirGlob.rooted (down root).text pattern) fault, ?_, ?_⟩
    · rw [globDirs_eq, read]
    · rw [disk, Disk.globDirs]
      simp only [read]
      rfl
  · obtain ⟨⟨gs, each, dotless⟩, notTop⟩ := fits g read
    obtain ⟨qs, found, sorted, mem⟩ := h.sound.globDirs_down hr each dotless
    have whole := read
    rw [DirGlob.parse_rooted hr each] at whole
    obtain rfl := Except.ok.inj whole
    refine .inr ⟨_, qs, globDirs_of_parse read t, disk.trans found,
      t.ascending_allDirs.sublist List.filter_sublist, sorted, fun p => ?_, fun p member => ?_⟩
    · rw [mem, h.mem_filter_allDirs_iff hr each notTop]
    · obtain ⟨names, hn, rfl, -⟩ := h.exists_of_mem_allDirs (List.mem_filter.1 member).1
      exact ⟨names, hn, rfl⟩

end OnDisk

end Tree

/-! ## Members -/

theorem Path.Plain.eq_of_components {p q : Path} (hp : p.Plain) (hq : q.Plain)
    (same : p.components = q.components) : p = q := by
  obtain ⟨names, hn, rfl⟩ := hp
  obtain ⟨more, hm, rfl⟩ := hq
  rw [(Path.components_down_inj hn hm).1 same]

/-- The manifest of a plain directory has a plain path. -/
theorem Path.manifest_down {names : List String} (h : AreNames names) :
    (down names).manifest = down (names ++ [manifestFile]) :=
  Path.entry_down h isName_manifestFile

theorem Path.areNames_manifest {names : List String} (h : AreNames names) :
    AreNames (names ++ [manifestFile]) :=
  Path.areNames_append.2 ⟨h, List.forall_mem_singleton.2 isName_manifestFile⟩

namespace Workspace

section

variable {σ : Type} [FileSystem σ] {fs : σ}

theorem addFound_twice (found : List Path) (p : Path) (ps : List Path) :
    addFound fs found (p :: p :: ps) = addFound fs found (p :: ps) := by
  have again : p.isIn (found ++ [p]) = true :=
    List.any_eq_true.2 ⟨p, by simp, p.same_self⟩
  by_cases skipped : (p.isIn found || !FileSystem.contains fs p.manifest) = true
  · rw [addFound, if_pos skipped]
  · simp only [addFound, if_neg skipped, again, Bool.true_or, if_true]

/-- Directories that are found more than once, but in order, are added like those found once. -/
theorem addFound_of_sorted {ps qs : List Path} (ascending : Path.Ascending ps)
    (sorted : qs.Pairwise fun p q => ¬ q.before p = true) (same : ∀ p, p ∈ qs ↔ p ∈ ps)
    (plain : ∀ p ∈ ps, p.Plain) (found : List Path) :
    addFound fs found qs = addFound fs found ps := by
  induction qs generalizing ps found with
  | nil =>
    have none : ps = [] := List.eq_nil_iff_forall_not_mem.2 fun p member =>
      List.not_mem_nil ((same p).2 member)
    rw [none]
  | cons x qs ih =>
    obtain ⟨first, later⟩ := List.pairwise_cons.1 sorted
    obtain ⟨y, ps, rfl⟩ := List.exists_cons_of_ne_nil
      (List.ne_nil_of_mem ((same x).1 List.mem_cons_self))
    obtain ⟨least, rest⟩ := List.pairwise_cons.1 ascending
    have head : x = y := by
      rcases List.mem_cons.1 ((same x).1 List.mem_cons_self) with here | there
      · exact here
      rcases List.mem_cons.1 ((same y).2 List.mem_cons_self) with here | below
      · exact here.symm
      · exact absurd (least x there) (first y below)
    subst head
    by_cases twice : x ∈ qs
    · obtain ⟨z, qs, rfl⟩ := List.exists_cons_of_ne_nil (List.ne_nil_of_mem twice)
      have next : z = x := by
        rcases List.mem_cons.1 twice with here | there
        · exact here.symm
        have order := (List.pairwise_cons.1 later).1 x there
        have known := (same z).1 (List.mem_cons_of_mem _ List.mem_cons_self)
        exact (plain z known).eq_of_components (plain x List.mem_cons_self)
          (Path.components_eq_of_not_before (first z List.mem_cons_self) order)
      subst next
      rw [addFound_twice]
      refine ih ascending later (fun p => ?_) plain found
      rw [← same p, List.mem_cons, List.mem_cons, List.mem_cons, ← or_assoc, or_self]
    · have same' : ∀ p, p ∈ qs ↔ p ∈ ps := by
        intro p
        constructor
        · intro member
          rcases List.mem_cons.1 ((same p).1 (List.mem_cons_of_mem _ member)) with rfl | there
          · exact absurd member twice
          · exact there
        · intro member
          rcases List.mem_cons.1 ((same p).2 (List.mem_cons_of_mem _ member)) with rfl | there
          · exact absurd (least p member) (Path.not_before_of_same rfl)
          · exact there
      have rest' := fun found =>
        ih rest later same' (fun p member => plain p (List.mem_cons_of_mem _ member)) found
      simp only [addFound, rest']

theorem mem_of_mem_addFound {found ps : List Path} {p : Path} (h : p ∈ addFound fs found ps) :
    p ∈ found ∨ p ∈ ps := by
  induction ps generalizing found with
  | nil => exact .inl h
  | cons q ps ih =>
    rw [addFound] at h
    split at h
    · exact (ih h).imp_right (List.mem_cons_of_mem _)
    · rcases ih h with old | later
      · rcases List.mem_append.1 old with before | new
        · exact .inl before
        · exact .inr (List.mem_cons.2 (.inl (List.mem_singleton.1 new)))
      · exact .inr (List.mem_cons_of_mem _ later)

end

/-- The patterns that the manifest of a workspace declares for its members fit its root. -/
def Fitting {σ : Type} [FileSystem σ] (fs : σ) (root : Path) : Prop :=
  ∀ v, FileSystem.readJson fs root.manifest = .ok v → ∀ declared ∈ Manifest.workspaceGlobs v,
    negated? declared = none → DirGlob.Fits root declared

end Workspace

/-- Results with the same values are errors or the same value. -/
theorem cases_of_toOption_eq {ε ε' α : Type} {r : Except ε α} {r' : Except ε' α}
    (h : r.toOption = r'.toOption) :
    (∃ e e', r = .error e ∧ r' = .error e') ∨ ∃ a, r = .ok a ∧ r' = .ok a := by
  rcases r with e | a <;> rcases r' with e' | a'
  · exact .inl ⟨e, e', rfl, rfl⟩
  · cases h
  · cases h
  · exact .inr ⟨a, rfl, congrArg Except.ok (Option.some.inj h).symm⟩

theorem toOption_bind_congr {ε ε' α β : Type} {r : Except ε α} {r' : Except ε' α}
    {f : α → Except ε β} {f' : α → Except ε' β} (h : r.toOption = r'.toOption)
    (h' : ∀ a, r' = .ok a → (f a).toOption = (f' a).toOption) :
    (r >>= f).toOption = (r' >>= f').toOption := by
  rcases cases_of_toOption_eq h with ⟨e, e', rfl, rfl⟩ | ⟨a, rfl, rfl⟩
  · rfl
  · exact h' a rfl

@[simp] theorem toOption_mapError {ε ε' α : Type} (f : ε → ε') (r : Except ε α) :
    (r.mapError f).toOption = r.toOption := by cases r <;> rfl

namespace Tree.OnDisk

variable {t : Tree} {d : Disk} (h : t.OnDisk d)

include h

theorem contains_manifest {dir : Path} (plain : dir.Plain) :
    FileSystem.contains d dir.manifest = FileSystem.contains t dir.manifest := by
  obtain ⟨names, hn, rfl⟩ := plain
  rw [Path.manifest_down hn]
  exact h.contains (Path.areNames_manifest hn)

theorem readJson_manifest {dir : Path} (plain : dir.Plain) :
    (FileSystem.readJson d dir.manifest).toOption =
      (FileSystem.readJson t dir.manifest).toOption := by
  obtain ⟨names, hn, rfl⟩ := plain
  rw [Path.manifest_down hn]
  exact h.readJson (Path.areNames_manifest hn)

theorem addFound {ps : List Path} (plain : ∀ p ∈ ps, p.Plain) (found : List Path) :
    Workspace.addFound d found ps = Workspace.addFound t found ps := by
  induction ps generalizing found with
  | nil => rfl
  | cons p ps ih =>
    obtain ⟨first, later⟩ := List.forall_mem_cons.1 plain
    simp only [Workspace.addFound, h.contains_manifest first, ih later]

theorem declare {root : List String} (hr : AreNames root) {found : List Path}
    (plain : ∀ p ∈ found, p.Plain) {declared : String}
    (fits : Workspace.negated? declared = none → DirGlob.Fits (down root) declared) :
    (Workspace.declare d (down root) found declared).toOption =
        (Workspace.declare t (down root) found declared).toOption ∧
      ∀ ps, Workspace.declare t (down root) found declared = .ok ps → ∀ p ∈ ps, p.Plain := by
  unfold Workspace.declare
  rcases negated : Workspace.negated? declared with _ | pattern
  · rcases h.globDirs hr (fits negated) with
      ⟨e, e', tree, disk⟩ | ⟨ps, qs, tree, disk, ascending, sorted, same, plain'⟩
    · simp only [tree, disk]
      exact ⟨rfl, fun _ none => nomatch none⟩
    · simp only [tree, disk]
      refine ⟨?_, fun all added p member => ?_⟩
      · show some (Workspace.addFound d found qs) = some (Workspace.addFound t found ps)
        rw [h.addFound fun p member => plain' p ((same p).1 member),
          Workspace.addFound_of_sorted ascending sorted same plain']
      · rw [← Except.ok.inj added] at member
        exact (Workspace.mem_of_mem_addFound member).elim (plain p) (plain' p)
  · rcases read : DirGlob.parse (DirGlob.rooted (down root).text pattern) with fault | g
    · simp only [read]
      exact ⟨trivial, fun _ none => nomatch none⟩
    · simp only [read]
      refine ⟨trivial, fun all kept p member => plain p ?_⟩
      rw [← Except.ok.inj kept] at member
      exact (List.mem_filter.1 member).1

theorem declareAll {root : List String} (hr : AreNames root) {globs : List String}
    (fits : ∀ declared ∈ globs,
      Workspace.negated? declared = none → DirGlob.Fits (down root) declared)
    {found : List Path} (plain : ∀ p ∈ found, p.Plain) :
    (Workspace.declareAll d (down root) found globs).toOption =
        (Workspace.declareAll t (down root) found globs).toOption ∧
      ∀ ps, Workspace.declareAll t (down root) found globs = .ok ps → ∀ p ∈ ps, p.Plain := by
  induction globs generalizing found with
  | nil =>
    refine ⟨rfl, fun ps same => ?_⟩
    rwa [← Except.ok.inj same]
  | cons glob globs ih =>
    obtain ⟨first, later⟩ := List.forall_mem_cons.1 fits
    obtain ⟨one, plain'⟩ := h.declare hr plain first
    simp only [Workspace.declareAll]
    refine ⟨toOption_bind_congr one fun all step => (ih later (plain' all step)).1, ?_⟩
    intro ps whole
    obtain ⟨all, step, rest⟩ := bind_eq_ok_iff.1 whole
    exact (ih later (plain' all step)).2 ps rest

/-- A workspace whose patterns fit has the same members in the same order, or none can be
enumerated. -/
theorem memberDirs {root : Path} (plain : root.Plain) (fits : Workspace.Fitting t root) :
    (Workspace.memberDirs d root).toOption = (Workspace.memberDirs t root).toOption ∧
      ∀ ps, Workspace.memberDirs t root = .ok ps → ∀ p ∈ ps, p.Plain := by
  have same := h.readJson_manifest plain
  obtain ⟨names, hr, rfl⟩ := plain
  have none : ∀ p ∈ ([] : List Path), p.Plain := nofun
  have known {v : Json} (read : FileSystem.readJson t (down names).manifest = .ok v) :=
    h.declareAll hr (fits v read) none
  unfold Workspace.memberDirs
  constructor
  · refine toOption_bind_congr (by simpa using same) fun v read => ?_
    exact (known (mapError_eq_ok_iff.1 read)).1
  · intro ps whole
    obtain ⟨v, read, rest⟩ := bind_eq_ok_iff.1 whole
    exact (known (mapError_eq_ok_iff.1 read)).2 ps rest

theorem nameAt? {dir : Path} (plain : dir.Plain) :
    Workspace.nameAt? d dir = Workspace.nameAt? t dir := by
  unfold Workspace.nameAt?
  rcases cases_of_toOption_eq (h.readJson_manifest plain) with ⟨e, e', disk, tree⟩ | ⟨v, disk, tree⟩
  · rw [disk, tree]
  · rw [disk, tree]

theorem memberNames {dirs : List Path} (plain : ∀ dir ∈ dirs, dir.Plain) :
    Workspace.memberNames d dirs = Workspace.memberNames t dirs := by
  have each (names : List (String × Path)) :
      Workspace.addNames d names dirs = Workspace.addNames t names dirs := by
    induction dirs generalizing names with
    | nil => rfl
    | cons dir dirs ih =>
      obtain ⟨first, later⟩ := List.forall_mem_cons.1 plain
      simp only [Workspace.addNames, h.nameAt? first, ih later]
  exact each []

end Tree.OnDisk

end WorkspaceLint
