import Mathlib.Data.List.Sort
import WorkspaceLint.Proofs.Glob.Below
import WorkspaceLint.Proofs.Workspace.Discovery
import WorkspaceLint.Proofs.Workspace.Mirror

/-!
# Workspaces that are moved

A workspace that is moved to another directory has the same members below its new root, in the same
order (`Tree.Moved.samePlaces_memberDirs`).  Its root can have any name: the characters of a root
that mean something in a pattern stand for themselves.
-/

namespace WorkspaceLint

open WorkspaceLint.Path (AreNames down)

namespace Path

/-- Names that lead from a directory to something below it. -/
structure Inner (more : List String) : Prop where
  names : AreNames more
  further : more ≠ []

theorem Inner.append {names more : List String} (hn : AreNames names) (h : Inner more) :
    Inner (names ++ more) :=
  ⟨areNames_append.2 ⟨hn, h.names⟩, by simp [h.further]⟩

/-- What is below a directory keeps its order when the directory is moved. -/
theorem before_down_append {names more more' : List String} (hn : AreNames names)
    (hm : AreNames more) (hm' : AreNames more') :
    (down (names ++ more)).before (down (names ++ more')) = (down more).before (down more') := by
  rw [Bool.eq_iff_iff, before_iff, before_iff, components_down (areNames_append.2 ⟨hn, hm⟩),
    components_down (areNames_append.2 ⟨hn, hm'⟩), components_down hm, components_down hm',
    List.map_append, List.map_append]
  have skip {c : Component} {cs ds : List Component} :
      List.Lex (fun a b => a.before b = true) (c :: cs) (c :: ds) ↔
        List.Lex (fun a b => a.before b = true) cs ds := by
    simp [List.cons_lex_cons_iff, Component.not_before_self]
  rw [skip, skip]
  induction names with
  | nil => rfl
  | cons s names ih =>
    rw [List.map_cons, List.cons_append, List.cons_append, skip]
    exact ih (List.forall_mem_cons.1 hn).2

theorem Ascending.eq_of_mem_iff {ps qs : List Path} (h : Ascending ps) (h' : Ascending qs)
    (same : ∀ p, p ∈ ps ↔ p ∈ qs) : ps = qs := by
  have irrefl : Std.Irrefl fun p q : Path => p.before q = true :=
    ⟨fun _ => not_before_of_same rfl⟩
  have antisymm : Std.Antisymm fun p q : Path => p.before q = true :=
    ⟨fun _ _ before after => absurd after (before_asymm before)⟩
  exact List.Pairwise.eq_of_mem_iff h h' same

/-- The paths that lead from a directory to what is below it. -/
def placed (root : List String) (mores : List (List String)) : List Path :=
  mores.map fun more => down (root ++ more)

section

variable {root more : List String} {mores : List (List String)}

theorem exists_placed {ps : List Path}
    (h : ∀ p ∈ ps, ∃ more, Inner more ∧ p = down (root ++ more)) :
    ∃ mores, (∀ more ∈ mores, Inner more) ∧ ps = placed root mores := by
  induction ps with
  | nil => exact ⟨[], nofun, rfl⟩
  | cons p ps ih =>
    obtain ⟨⟨more, inner, rfl⟩, later⟩ := List.forall_mem_cons.1 h
    obtain ⟨mores, inners, rfl⟩ := ih later
    exact ⟨more :: mores, List.forall_mem_cons.2 ⟨inner, inners⟩, rfl⟩

theorem ascending_placed_iff (hr : AreNames root) (inner : ∀ more ∈ mores, Inner more) :
    Ascending (placed root mores) ↔ Ascending (mores.map down) := by
  rw [Ascending, Ascending, placed, List.pairwise_map, List.pairwise_map]
  refine List.Pairwise.iff_of_mem fun {m m'} hm hm' => ?_
  rw [before_down_append hr (inner m hm).names (inner m' hm').names]

theorem mem_placed_iff (hr : AreNames root) (inner : ∀ more ∈ mores, Inner more)
    (hm : AreNames more) : down (root ++ more) ∈ placed root mores ↔ more ∈ mores := by
  rw [placed, List.mem_map]
  constructor
  · rintro ⟨more', member, same⟩
    have names : AreNames (root ++ more') := areNames_append.2 ⟨hr, (inner more' member).names⟩
    have alike := (components_down_inj names (areNames_append.2 ⟨hr, hm⟩)).1
      (congrArg components same)
    rwa [← List.append_cancel_left alike]
  · exact fun member => ⟨more, member, rfl⟩

theorem isIn_placed_iff (hr : AreNames root) (inner : ∀ more ∈ mores, Inner more)
    (hm : AreNames more) :
    (down (root ++ more)).isIn (placed root mores) = true ↔ more ∈ mores := by
  rw [isIn, List.any_eq_true, ← mem_placed_iff hr inner hm]
  constructor
  · rintro ⟨p, member, same⟩
    obtain ⟨more', member', rfl⟩ := List.mem_map.1 member
    rw [same_down (areNames_append.2 ⟨hr, (inner more' member').names⟩)
      (areNames_append.2 ⟨hr, hm⟩)] at same
    rwa [← same]
  · exact fun member => ⟨_, member, same_self _⟩

end

end Path

open WorkspaceLint.Path (Inner placed)

/-! ## Patterns below a root -/

namespace DirGlob

variable {root more : List String} {pattern : String} {dir : Path}

theorem lead_down (hr : Inner root) : lead (down root) = (down root).text.toList ++ ['/'] :=
  if_neg (Path.getLast?_text_down hr.names hr.further)

/-- Which directories below a root a pattern stands for does not depend on the root. -/
theorem covers_down_append_iff (hr : Inner root) (hm : Inner more) :
    Covers (down root) pattern (down (root ++ more)) ↔
      ∃ g, parse (String.ofList (trimSlashes pattern.toList)) = .ok g ∧
        Accepts g (joined more) := by
  have text : (down (root ++ more)).text.toList = lead (down root) ++ joined more := by
    rw [lead_down hr, text_down, text_down, joined_append hr.further hm.further]
    simp
  unfold Covers
  simp only [text, List.append_cancel_left_eq]
  constructor
  · rintro ⟨g, rest, read, rfl, accepted⟩
    exact ⟨g, read, accepted⟩
  · rintro ⟨g, read, accepted⟩
    exact ⟨g, _, read, rfl, accepted⟩

/-- A pattern stands only for directories whose components start with those of the root. -/
theorem Covers.within (hr : Inner root) (h : Covers (down root) pattern dir) :
    (down root).components <+: dir.components ∧ dir ≠ down root := by
  obtain ⟨g, rest, -, text, -⟩ := h
  rw [lead_down hr] at text
  have spelled : dir = Path.mk ((down root).text ++ ("/" ++ String.ofList rest)) := by
    rcases dir with ⟨s⟩
    refine congrArg Path.mk (String.toList_inj.1 ?_)
    rw [text]
    simp
  have some : (down root).text ≠ "" := by
    intro none
    have chars := text_down root
    rw [none] at chars
    cases chars
  constructor
  · rw [spelled, Path.components_append_slash some]
    exact List.prefix_append _ _
  · rintro rfl
    have length := congrArg List.length text
    simp at length

/-- A pattern cannot be read below either root, or can be read below both. -/
theorem cases_of_roots (root root' : Path) (pattern : String) :
    (∃ e e', parse (rooted root.text pattern) = .error e ∧
      parse (rooted root'.text pattern) = .error e') ∨
    ∃ g g', parse (rooted root.text pattern) = .ok g ∧
      parse (rooted root'.text pattern) = .ok g' := by
  by_cases valid : Valid pattern
  · obtain ⟨g, read⟩ := (valid_iff_rooted root).1 valid
    obtain ⟨g', read'⟩ := (valid_iff_rooted root').1 valid
    exact .inr ⟨g, g', read, read'⟩
  · have unread (root : Path) : ∃ e, parse (rooted root.text pattern) = .error e := by
      rcases read : parse (rooted root.text pattern) with e | g
      · exact ⟨e, rfl⟩
      · exact absurd ((valid_iff_rooted root).2 ⟨g, read⟩) valid
    obtain ⟨e, read⟩ := unread root
    obtain ⟨e', read'⟩ := unread root'
    exact .inl ⟨e, e', read, read'⟩

end DirGlob

/-! ## The same files below another root -/

namespace Tree

/-- What two trees have below their roots is the same, and is spelled plainly. -/
structure Moved (t t' : Tree) (root root' : List String) : Prop where
  inner : Inner root
  inner' : Inner root'
  plain : t.PlainUnder (down root)
  plain' : t'.PlainUnder (down root')
  contents : ∀ more, Inner more →
    t'.contents? (down (root' ++ more)) = t.contents? (down (root ++ more))
  created : ∀ more, Inner more →
    t'.created (down (root' ++ more)) = t.created (down (root ++ more))

/-- Directories below two roots: both cannot be found, or they are the same in the same order. -/
def SamePlaces {ε ε' : Type} (root root' : List String) (r : Except ε (List Path))
    (r' : Except ε' (List Path)) : Prop :=
  (∃ e e', r = .error e ∧ r' = .error e') ∨
    ∃ mores, (∀ more ∈ mores, Inner more) ∧ r = .ok (placed root mores) ∧
      r' = .ok (placed root' mores)

namespace Moved

variable {t t' : Tree} {root root' more : List String} {mores found : List (List String)}

theorem plainUnder_append (h : t.Moved t' root root') (hm : Inner more) :
    t.PlainUnder (down (root ++ more)) :=
  h.plain.of_prefix ((Path.prefix_components_down h.inner.names
    (hm.append h.inner.names).names).2 (List.prefix_append _ _))

theorem symm (h : t.Moved t' root root') : t'.Moved t root' root :=
  ⟨h.inner', h.inner, h.plain', h.plain, fun more hm => (h.contents more hm).symm,
    fun more hm => (h.created more hm).symm⟩

theorem mem_allDirs (h : t.Moved t' root root') (hm : Inner more) :
    down (root' ++ more) ∈ t'.allDirs ↔ down (root ++ more) ∈ t.allDirs := by
  have inner {rest : List String} (hr : AreNames rest) : Inner (more ++ rest) :=
    ⟨Path.areNames_append.2 ⟨hm.names, hr⟩, by simp [hm.further]⟩
  rw [mem_allDirs_iff_exists (hm.append h.inner.names).names (h.plainUnder_append hm),
    mem_allDirs_iff_exists (hm.append h.inner'.names).names (h.symm.plainUnder_append hm)]
  simp only [List.append_assoc]
  refine or_congr ?_ ?_
  · exact exists_congr fun rest => and_congr_right fun hr => by rw [h.created _ (inner hr)]
  · exact exists_congr fun rest => and_congr_right fun hr => by rw [h.contents _ (inner hr)]

theorem contains (h : t.Moved t' root root') (hm : Inner more) :
    FileSystem.contains t' (down (root' ++ more)) =
      FileSystem.contains t (down (root ++ more)) := by
  have dir : t'.dirExists (down (root' ++ more)) = t.dirExists (down (root ++ more)) := by
    have inner := hm.append h.inner.names
    have inner' := hm.append h.inner'.names
    rw [Bool.eq_iff_iff,
      ← mem_allDirs_iff_dirExists inner.names inner.further (h.plainUnder_append hm),
      ← mem_allDirs_iff_dirExists inner'.names inner'.further (h.symm.plainUnder_append hm),
      h.mem_allDirs hm]
  rw [contains_eq, contains_eq, h.contents more hm, dir]

theorem inner_manifest (hm : AreNames more) : Inner (more ++ [manifestFile]) :=
  ⟨Path.areNames_manifest hm, by simp⟩

theorem contains_manifest (h : t.Moved t' root root') (hm : Inner more) :
    FileSystem.contains t' (down (root' ++ more)).manifest =
      FileSystem.contains t (down (root ++ more)).manifest := by
  rw [Path.manifest_down (hm.append h.inner.names).names,
    Path.manifest_down (hm.append h.inner'.names).names, List.append_assoc, List.append_assoc]
  exact h.contains (inner_manifest hm.names)

/-- The manifest of the root reads the same in its new place. -/
theorem readJson_manifest (h : t.Moved t' root root') :
    (FileSystem.readJson t' (down root').manifest).toOption =
      (FileSystem.readJson t (down root).manifest).toOption := by
  rw [Path.manifest_down h.inner.names, Path.manifest_down h.inner'.names,
    toOption_readJson, toOption_readJson,
    h.contents [manifestFile] (inner_manifest Path.areNames_nil)]

theorem accepts (h : t.Moved t' root root') {pattern : String} {g g' : DirGlob}
    (read : DirGlob.parse (DirGlob.rooted (down root).text pattern) = .ok g)
    (read' : DirGlob.parse (DirGlob.rooted (down root').text pattern) = .ok g') (hm : Inner more) :
    DirGlob.accepts g' (down (root' ++ more)).text.toList =
      DirGlob.accepts g (down (root ++ more)).text.toList := by
  rw [Bool.eq_iff_iff, DirGlob.accepts_rooted_iff read, DirGlob.accepts_rooted_iff read',
    DirGlob.covers_down_append_iff h.inner hm, DirGlob.covers_down_append_iff h.inner' hm]

/-- What a pattern matches below a root is listed below it. -/
theorem exists_of_accepts (h : t.Moved t' root root') {pattern : String} {g : DirGlob}
    (read : DirGlob.parse (DirGlob.rooted (down root).text pattern) = .ok g) {dir : Path}
    (listed : dir ∈ t.allDirs) (accepted : DirGlob.accepts g dir.text.toList = true) :
    ∃ more, Inner more ∧ dir = down (root ++ more) := by
  obtain ⟨within, other⟩ := ((DirGlob.accepts_rooted_iff read).1 accepted).within h.inner
  obtain ⟨names, hn, rfl⟩ := plain_of_mem_allDirs (h.plain.of_prefix within) listed
  obtain ⟨more, rfl⟩ := (Path.prefix_components_down h.inner.names hn).1 within
  refine ⟨more, ⟨(Path.areNames_append.1 hn).2, ?_⟩, rfl⟩
  rintro rfl
  exact other (by rw [List.append_nil])

theorem globDirs (h : t.Moved t' root root') (pattern : String) :
    SamePlaces root root' (FileSystem.globDirs t (down root) pattern)
      (FileSystem.globDirs t' (down root') pattern) := by
  rw [globDirs_eq, globDirs_eq]
  rcases DirGlob.cases_of_roots (down root) (down root') pattern with
    ⟨e, e', read, read'⟩ | ⟨g, g', read, read'⟩
  · simp only [read, read']
    exact .inl ⟨_, _, rfl, rfl⟩
  simp only [read, read']
  have within : ∀ p ∈ t.allDirs.filter (fun d => DirGlob.accepts g d.text.toList),
      ∃ more, Inner more ∧ p = down (root ++ more) := fun p member =>
    (List.mem_filter.1 member).elim (h.exists_of_accepts read)
  obtain ⟨mores, inner, listed⟩ := Path.exists_placed within
  refine .inr ⟨mores, inner, by rw [listed], congrArg Except.ok ?_⟩
  have ascending : Path.Ascending (placed root mores) :=
    listed ▸ t.ascending_allDirs.sublist List.filter_sublist
  refine Path.Ascending.eq_of_mem_iff (t'.ascending_allDirs.sublist List.filter_sublist)
    ((Path.ascending_placed_iff h.inner'.names inner).2
      ((Path.ascending_placed_iff h.inner.names inner).1 ascending)) fun p => ?_
  have there {more : List String} (hm : Inner more) :
      down (root' ++ more) ∈ t'.allDirs.filter (fun d => DirGlob.accepts g' d.text.toList) ↔
        more ∈ mores := by
    rw [← Path.mem_placed_iff h.inner.names inner hm.names, ← listed, List.mem_filter,
      List.mem_filter, h.mem_allDirs hm, h.accepts read read' hm]
  constructor
  · intro member
    obtain ⟨more, hm, rfl⟩ := (List.mem_filter.1 member).elim (h.symm.exists_of_accepts read')
    exact List.mem_map_of_mem ((there hm).1 member)
  · intro member
    obtain ⟨more, known, rfl⟩ := List.mem_map.1 member
    exact (there (inner more known)).2 known

theorem addFound (h : t.Moved t' root root') (old : ∀ more ∈ found, Inner more)
    (new : ∀ more ∈ mores, Inner more) :
    ∃ all, (∀ more ∈ all, Inner more) ∧
      Workspace.addFound t (placed root found) (placed root mores) = placed root all ∧
      Workspace.addFound t' (placed root' found) (placed root' mores) = placed root' all := by
  induction mores generalizing found with
  | nil => exact ⟨found, old, rfl, rfl⟩
  | cons more mores ih =>
    obtain ⟨first, later⟩ := List.forall_mem_cons.1 new
    have known : (down (root' ++ more)).isIn (placed root' found) =
        (down (root ++ more)).isIn (placed root found) := by
      rw [Bool.eq_iff_iff, Path.isIn_placed_iff h.inner.names old first.names,
        Path.isIn_placed_iff h.inner'.names old first.names]
    have first' (root : List String) : placed root (more :: mores) =
        down (root ++ more) :: placed root mores := List.map_cons
    rw [first', first', Workspace.addFound, Workspace.addFound, known, h.contains_manifest first]
    split
    · exact ih old later
    · have grown (root : List String) : placed root found ++ [down (root ++ more)] =
          placed root (found ++ [more]) := by simp [placed]
      rw [grown, grown]
      exact ih (List.forall_mem_append.2 ⟨old, List.forall_mem_singleton.2 first⟩) later

theorem removeMatched (h : t.Moved t' root root') {pattern : String} {g g' : DirGlob}
    (read : DirGlob.parse (DirGlob.rooted (down root).text pattern) = .ok g)
    (read' : DirGlob.parse (DirGlob.rooted (down root').text pattern) = .ok g')
    (old : ∀ more ∈ found, Inner more) :
    ∃ all, (∀ more ∈ all, Inner more) ∧
      Workspace.removeMatched g (placed root found) = placed root all ∧
      Workspace.removeMatched g' (placed root' found) = placed root' all := by
  refine ⟨found.filter fun more => !DirGlob.accepts g (down (root ++ more)).text.toList,
    fun more member => old more (List.mem_filter.1 member).1, List.filter_map, ?_⟩
  rw [Workspace.removeMatched, placed, List.filter_map]
  refine congrArg (placed root') (List.filter_congr fun more member => ?_)
  rw [Function.comp_apply, h.accepts read read' (old more member)]

theorem declare (h : t.Moved t' root root') (old : ∀ more ∈ found, Inner more)
    (declared : String) :
    SamePlaces root root' (Workspace.declare t (down root) (placed root found) declared)
      (Workspace.declare t' (down root') (placed root' found) declared) := by
  unfold Workspace.declare
  rcases Workspace.negated? declared with _ | pattern
  · rcases h.globDirs declared with ⟨e, e', none, none'⟩ | ⟨mores, inner, listed, listed'⟩
    · rw [none, none']
      exact .inl ⟨e, e', rfl, rfl⟩
    · obtain ⟨all, inner', added, added'⟩ := h.addFound old inner
      refine .inr ⟨all, inner', ?_, ?_⟩
      · rw [listed, ← added]
        rfl
      · rw [listed', ← added']
        rfl
  · rcases DirGlob.cases_of_roots (down root) (down root') pattern with
      ⟨e, e', read, read'⟩ | ⟨g, g', read, read'⟩
    · simp only [read, read']
      exact .inl ⟨_, _, rfl, rfl⟩
    · obtain ⟨all, inner, left, left'⟩ := h.removeMatched read read' old
      simp only [read, read', left, left']
      exact .inr ⟨all, inner, rfl, rfl⟩

theorem declareAll (h : t.Moved t' root root') (old : ∀ more ∈ found, Inner more)
    (globs : List String) :
    SamePlaces root root' (Workspace.declareAll t (down root) (placed root found) globs)
      (Workspace.declareAll t' (down root') (placed root' found) globs) := by
  induction globs generalizing found with
  | nil => exact .inr ⟨found, old, rfl, rfl⟩
  | cons glob globs ih =>
    rw [Workspace.declareAll, Workspace.declareAll]
    rcases h.declare old glob with ⟨e, e', none, none'⟩ | ⟨mores, inner, found, found'⟩
    · rw [none, none']
      exact .inl ⟨e, e', rfl, rfl⟩
    · rw [found, found']
      exact ih inner

/-- A workspace that is moved has the same members in its new place, in the same order and all below
its root, or they cannot be enumerated in either. -/
theorem samePlaces_memberDirs (h : t.Moved t' root root') :
    SamePlaces root root' (Workspace.memberDirs t (down root))
      (Workspace.memberDirs t' (down root')) := by
  unfold Workspace.memberDirs
  rcases cases_of_toOption_eq h.readJson_manifest with ⟨e, e', read', read⟩ | ⟨v, read', read⟩
  · rw [read, read']
    exact .inl ⟨_, _, rfl, rfl⟩
  · rw [read, read']
    have none : ∀ more ∈ ([] : List (List String)), Inner more := nofun
    exact h.declareAll none _

end Moved

/-! ### Two places for the same files -/

/-- Files in another place. -/
def filesAt (root : List String) (files : List (List String × String)) :
    List (List String × String) :=
  files.map fun f => (root ++ f.1, f.2)

section

variable {root root' more : List String} {files others others' : List (List String × String)}

theorem lookup_filesAt (root more : List String) (files : List (List String × String)) :
    (filesAt root files).lookup (root ++ more) = files.lookup more := by
  induction files with
  | nil => rfl
  | cons f files ih =>
    have same : (root ++ more == root ++ f.1) = (more == f.1) := by
      rw [Bool.eq_iff_iff, beq_iff_eq, beq_iff_eq, List.append_cancel_left_eq]
    rw [filesAt, List.map_cons, List.lookup_cons, List.lookup_cons, same]
    cases more == f.1
    · exact ih
    · rfl

theorem areNames_filesAt (hr : AreNames root) (names : ∀ f ∈ files, AreNames f.1)
    (elsewhere : ∀ f ∈ others, AreNames f.1 ∧ ¬ root <+: f.1) :
    ∀ f ∈ others ++ filesAt root files, AreNames f.1 :=
  List.forall_mem_append.2 ⟨fun f member => (elsewhere f member).1,
    List.forall_mem_map.2 fun f member => Path.areNames_append.2 ⟨hr, names f member⟩⟩

/-- Among files that are elsewhere, those below a root are found by their names below it. -/
theorem contents?_filesAt (hr : AreNames root) (names : ∀ f ∈ files, AreNames f.1)
    (elsewhere : ∀ f ∈ others, AreNames f.1 ∧ ¬ root <+: f.1) (hm : AreNames more) :
    (ofFiles (others ++ filesAt root files)).contents? (down (root ++ more)) =
      files.lookup more := by
  have none : others.lookup (root ++ more) = none := by
    refine List.lookup_eq_none_iff.2 fun f member => bne_iff_ne.2 ?_
    rintro same
    exact (elsewhere f member).2 (same ▸ List.prefix_append root more)
  rw [contents?_ofFiles (areNames_filesAt hr names elsewhere) (Path.areNames_append.2 ⟨hr, hm⟩),
    List.lookup_append, none, Option.none_or, lookup_filesAt]

/-- Files that are put below two roots are moved from the one to the other, whatever is
elsewhere. -/
theorem moved_filesAt (inner : Inner root) (inner' : Inner root')
    (names : ∀ f ∈ files, AreNames f.1)
    (elsewhere : ∀ f ∈ others, AreNames f.1 ∧ ¬ root <+: f.1)
    (elsewhere' : ∀ f ∈ others', AreNames f.1 ∧ ¬ root' <+: f.1) :
    (ofFiles (others ++ filesAt root files)).Moved (ofFiles (others' ++ filesAt root' files))
      root root' where
  inner := inner
  inner' := inner'
  plain := (plain_ofFiles (areNames_filesAt inner.names names elsewhere)).under _
  plain' := (plain_ofFiles (areNames_filesAt inner'.names names elsewhere')).under _
  contents more hm := by
    rw [contents?_filesAt inner.names names elsewhere hm.names,
      contents?_filesAt inner'.names names elsewhere' hm.names]
  created more hm := rfl

end

/-- A workspace with a member, a directory that is taken away and one without a manifest. -/
def sparseFiles : List (List String × String) := [
  (["package.json"], (Workspace.declaring ["p/*", "!p/old"]).canonical),
  (["p", "a", "package.json"], "\x7b\x7d"),
  (["p", "b", "README"], ""),
  (["p", "old", "package.json"], "\x7b\x7d")]

/-- Files of another workspace whose root would match the characters of a root `[wx]*`. -/
def decoyFiles : List (List String × String) := [(["w", "p", "c", "package.json"], "\x7b\x7d")]

theorem samePlaces_sparseFiles :
    Workspace.memberDirs (ofFiles (decoyFiles ++ filesAt ["[wx]*"] sparseFiles)) (down ["[wx]*"]) =
      .ok [⟨"/[wx]*/p/a"⟩] ∧
    SamePlaces ["[wx]*"] ["home", "!me"]
      (Workspace.memberDirs (ofFiles (decoyFiles ++ filesAt ["[wx]*"] sparseFiles))
        (down ["[wx]*"]))
      (Workspace.memberDirs (ofFiles ([] ++ filesAt ["home", "!me"] sparseFiles))
        (down ["home", "!me"])) := by
  have moved : (ofFiles (decoyFiles ++ filesAt ["[wx]*"] sparseFiles)).Moved
      (ofFiles ([] ++ filesAt ["home", "!me"] sparseFiles)) ["[wx]*"] ["home", "!me"] :=
    moved_filesAt ⟨by decide +kernel, by decide⟩ ⟨by decide +kernel, by decide⟩ (by decide +kernel)
      (by decide +kernel) nofun
  exact ⟨eq_ok_of_toOption_eq (by decide +kernel), moved.samePlaces_memberDirs⟩

end Tree

end WorkspaceLint
