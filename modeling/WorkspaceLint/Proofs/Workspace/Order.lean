import Mathlib.Data.List.Nodup
import Mathlib.Data.List.Perm.Basic
import WorkspaceLint.Proofs.Workspace.Members

/-!
# Members in any order

When all patterns add members, a permutation of the patterns permutes the members
(`declareAll_perm`).  The directory of a name does not depend on the order of the members when no two
of them have the same name (`lookup_memberNames_perm`).
-/

namespace WorkspaceLint

namespace Workspace

/-! ## Patterns -/

section

variable {σ : Type} [FileSystem σ] {fs : σ} {all found dirs : List Path}

/-- Among paths that differ in their components, the members that are added are those that have a
manifest. -/
theorem mem_addFound_iff (distinct : ∀ p ∈ all, ∀ q ∈ all, p.components = q.components → p = q)
    (known : ∀ d ∈ found, d ∈ all) (among : ∀ d ∈ dirs, d ∈ all) {d : Path} :
    d ∈ addFound fs found dirs ↔
      d ∈ found ∨ d ∈ dirs ∧ FileSystem.contains fs d.manifest = true := by
  induction dirs generalizing found with
  | nil => simp [addFound]
  | cons dir dirs ih =>
    obtain ⟨first, later⟩ := List.forall_mem_cons.1 among
    rw [addFound, List.mem_cons, or_and_right]
    rcases there : FileSystem.contains fs dir.manifest with _ | _
    · rw [Bool.not_false, Bool.or_true, if_pos rfl, ih known later]
      have unusable : ¬ (d = dir ∧ FileSystem.contains fs d.manifest = true) := by
        rintro ⟨rfl, usable⟩
        rw [there] at usable
        cases usable
      rw [or_iff_right unusable]
    rw [Bool.not_true, Bool.or_false]
    by_cases old : dir.isIn found = true
    · have same : dir ∈ found := by
        obtain ⟨q, member, alike⟩ := List.any_eq_true.1 old
        have same := distinct q (known q member) dir first (Path.same_iff.1 alike)
        exact same ▸ member
      rw [if_pos old, ih known later, ← or_assoc]
      refine or_congr_left (or_iff_left_of_imp ?_).symm
      rintro ⟨rfl, -⟩
      exact same
    · have known' : ∀ d ∈ found ++ [dir], d ∈ all :=
        List.forall_mem_append.2 ⟨known, List.forall_mem_singleton.2 first⟩
      rw [if_neg old, ih known' later, List.mem_append, List.mem_singleton, or_assoc]
      refine or_congr_right (or_congr_left (and_iff_left_of_imp ?_).symm)
      rintro rfl
      exact there

theorem nodup_addFound (h : found.Nodup) : (addFound fs found dirs).Nodup := by
  induction dirs generalizing found with
  | nil => exact h
  | cons dir dirs ih =>
    rw [addFound]
    split
    · exact ih h
    · rename_i added
      refine ih (List.nodup_append.2 ⟨h, List.pairwise_singleton _ _, ?_⟩)
      rintro d member q single rfl
      rw [List.mem_singleton.1 single] at member
      have isIn : dir.isIn found = true := List.any_eq_true.2 ⟨dir, member, dir.same_self⟩
      exact added (by rw [isIn, Bool.true_or])

end

section

variable {t : Tree} {root : Path} {found ds ds' : List Path} {globs globs' : List String}

theorem eq_of_mem_allDirs {p q : Path} (hp : p ∈ t.allDirs) (hq : q ∈ t.allDirs)
    (same : p.components = q.components) : p = q :=
  t.ascending_allDirs.eq_of_components_eq hp hq same

theorem mem_allDirs_of_globDirs {pattern : String}
    (matched : FileSystem.globDirs t root pattern = .ok ds) : ∀ d ∈ ds, d ∈ t.allDirs := by
  rw [Tree.globDirs_eq] at matched
  split at matched
  · cases matched
  · rw [← Except.ok.inj matched]
    exact fun d member => (List.mem_filter.1 member).1

/-- Patterns that add members come to the members that one of them matches. -/
theorem mem_declareAll_iff (positive : ∀ glob ∈ globs, negated? glob = none)
    (known : ∀ d ∈ found, d ∈ t.allDirs) (declared : declareAll t root found globs = .ok ds)
    {d : Path} :
    d ∈ ds ↔ d ∈ found ∨ FileSystem.contains t d.manifest = true ∧
      ∃ glob ∈ globs, ∃ matched, FileSystem.globDirs t root glob = .ok matched ∧ d ∈ matched := by
  induction globs generalizing found with
  | nil =>
    rw [← Except.ok.inj declared]
    simp
  | cons glob globs ih =>
    obtain ⟨first, later⟩ := List.forall_mem_cons.1 positive
    simp only [declareAll, bind_eq_ok_iff, declare, first, map_eq_ok_iff] at declared
    obtain ⟨-, ⟨matched, one, rfl⟩, rest⟩ := declared
    have among := mem_allDirs_of_globDirs one
    have added (d : Path) : d ∈ addFound t found matched ↔
        d ∈ found ∨ d ∈ matched ∧ FileSystem.contains t d.manifest = true :=
      mem_addFound_iff (fun p hp q hq => eq_of_mem_allDirs hp hq) known among
    have known' : ∀ d ∈ addFound t found matched, d ∈ t.allDirs :=
      fun d member => ((added d).1 member).elim (known d) fun new => among d new.1
    rw [ih later known' rest, added, or_assoc]
    refine or_congr_right ?_
    simp only [List.mem_cons, exists_eq_or_imp, one, Except.ok.injEq, exists_eq_left']
    exact ⟨fun h => h.elim (fun new => ⟨new.2, .inl new.1⟩) fun new => ⟨new.1, .inr new.2⟩,
      fun h => h.2.elim (fun new => .inl ⟨new, h.1⟩) fun new => .inr ⟨h.1, new⟩⟩

theorem nodup_declareAll (positive : ∀ glob ∈ globs, negated? glob = none) (nodup : found.Nodup)
    (declared : declareAll t root found globs = .ok ds) : ds.Nodup := by
  induction globs generalizing found with
  | nil =>
    rw [← Except.ok.inj declared]
    exact nodup
  | cons glob globs ih =>
    obtain ⟨first, later⟩ := List.forall_mem_cons.1 positive
    simp only [declareAll, bind_eq_ok_iff, declare, first, map_eq_ok_iff] at declared
    obtain ⟨-, ⟨matched, -, rfl⟩, rest⟩ := declared
    exact ih later (nodup_addFound nodup) rest

/-- Patterns that add members can be matched when each of them can. -/
theorem isOk_declareAll_iff (positive : ∀ glob ∈ globs, negated? glob = none) :
    (declareAll t root found globs).isOk = true ↔
      ∀ glob ∈ globs, (FileSystem.globDirs t root glob).isOk = true := by
  induction globs generalizing found with
  | nil => exact ⟨fun _ => List.forall_mem_nil _, fun _ => rfl⟩
  | cons glob globs ih =>
    obtain ⟨first, later⟩ := List.forall_mem_cons.1 positive
    rw [List.forall_mem_cons, declareAll, declare, first]
    simp only
    rcases FileSystem.globDirs t root glob with trouble | matched
    · exact ⟨fun h => absurd h Bool.false_ne_true, fun h => h.1⟩
    · exact (ih later).trans (and_iff_right rfl).symm

/-- The order of patterns that add members is at most the order of the members. -/
theorem declareAll_perm (positive : ∀ glob ∈ globs, negated? glob = none)
    (order : globs.Perm globs') :
    (declareAll t root [] globs').isOk = (declareAll t root [] globs).isOk ∧
      ∀ ds ds', declareAll t root [] globs = .ok ds → declareAll t root [] globs' = .ok ds' →
        ds.Perm ds' := by
  have positive' : ∀ glob ∈ globs', negated? glob = none := fun glob member =>
    positive glob (order.mem_iff.2 member)
  constructor
  · rw [Bool.eq_iff_iff, isOk_declareAll_iff positive, isOk_declareAll_iff positive']
    simp only [order.mem_iff]
  · intro ds ds' declared declared'
    refine (List.perm_ext_iff_of_nodup (nodup_declareAll positive .nil declared)
      (nodup_declareAll positive' .nil declared')).2 fun d => ?_
    rw [mem_declareAll_iff positive (List.forall_mem_nil _) declared,
      mem_declareAll_iff positive' (List.forall_mem_nil _) declared']
    simp only [order.mem_iff]

end

/-! ## Names -/

section

variable {σ : Type} [FileSystem σ] {fs fs' : σ} {dirs dirs' : List Path}

/-- The directory of a name is the first that has it. -/
theorem lookup_addNames (names : List (String × Path)) (dirs : List Path) (name : String) :
    (addNames fs names dirs).lookup name =
      (names.lookup name).or (dirs.find? fun dir => nameAt? fs dir = some name) := by
  induction dirs generalizing names with
  | nil => simp [addNames]
  | cons dir dirs ih =>
    rw [addNames, List.find?_cons]
    rcases has : nameAt? fs dir with _ | own <;> simp only
    · simp [ih]
    by_cases known : (names.lookup own).isSome = true
    · simp only [known, if_true, ih]
      by_cases here : own = name
      · obtain ⟨d, found⟩ := Option.isSome_iff_exists.1 known
        rw [← here, found]
        rfl
      · simp [here]
    · rw [if_neg known, ih, List.lookup_append, Option.or_assoc]
      rw [Option.not_isSome_iff_eq_none] at known
      by_cases here : own = name
      · subst here
        simp [known]
      · have other : (name == own) = false := beq_eq_false_iff_ne.2 (Ne.symm here)
        simp [here, List.lookup_cons, other]

theorem lookup_memberNames (dirs : List Path) (name : String) :
    (memberNames fs dirs).lookup name = dirs.find? fun dir => nameAt? fs dir = some name := by
  rw [memberNames, lookup_addNames]
  rfl

/-- Members of which no two have the same name. -/
def DistinctNames (fs : σ) (dirs : List Path) : Prop := (dirs.filterMap (nameAt? fs)).Nodup

theorem DistinctNames.eq_of_nameAt? (distinct : DistinctNames fs dirs) {p q : Path} {name : String}
    (hp : p ∈ dirs) (hq : q ∈ dirs) (named : nameAt? fs p = some name)
    (named' : nameAt? fs q = some name) : p = q := by
  unfold DistinctNames at distinct
  induction dirs with
  | nil => cases hp
  | cons dir dirs ih =>
    rcases has : nameAt? fs dir with _ | own
    · rw [List.filterMap_cons_none has] at distinct
      have other {d : Path} (h : d ∈ dir :: dirs) (named : nameAt? fs d = some name) :
          d ∈ dirs := by
        refine (List.mem_cons.1 h).resolve_left ?_
        rintro rfl
        rw [has] at named
        cases named
      exact ih distinct (other hp named) (other hq named')
    · rw [List.filterMap_cons_some has] at distinct
      obtain ⟨new, later⟩ := List.nodup_cons.1 distinct
      have first {d : Path} (h : d ∈ dirs) (named : nameAt? fs d = some name) : own ≠ name := by
        rintro rfl
        exact new (List.mem_filterMap.2 ⟨d, h, named⟩)
      rcases List.mem_cons.1 hp with here | hp' <;> rcases List.mem_cons.1 hq with here' | hq'
      · rw [here, here']
      · rw [here] at named
        exact absurd (Option.some.inj (has.symm.trans named)) (first hq' named')
      · rw [here'] at named'
        exact absurd (Option.some.inj (has.symm.trans named')) (first hp' named)
      · exact ih later hp' hq'

theorem DistinctNames.find?_eq_some_iff (distinct : DistinctNames fs dirs) {name : String}
    {d : Path} :
    dirs.find? (fun dir => nameAt? fs dir = some name) = some d ↔
      d ∈ dirs ∧ nameAt? fs d = some name := by
  constructor
  · intro found
    have named := List.find?_some found
    exact ⟨List.mem_of_find?_eq_some found, of_decide_eq_true named⟩
  · rintro ⟨member, named⟩
    rcases found : dirs.find? fun dir => nameAt? fs dir = some name with _ | q
    · exact absurd (decide_eq_true named) (List.find?_eq_none.1 found d member)
    · have named' := List.find?_some found
      rw [distinct.eq_of_nameAt? (List.mem_of_find?_eq_some found) member
        (of_decide_eq_true named') named]

/-- The directory of a name depends on which members there are and not on their order. -/
theorem lookup_memberNames_perm (distinct : DistinctNames fs dirs) (order : dirs.Perm dirs')
    (names : ∀ dir ∈ dirs, nameAt? fs' dir = nameAt? fs dir) (name : String) :
    (memberNames fs' dirs').lookup name = (memberNames fs dirs).lookup name := by
  have names' : ∀ dir ∈ dirs', nameAt? fs' dir = nameAt? fs dir := fun dir member =>
    names dir (order.mem_iff.2 member)
  have distinct' : DistinctNames fs' dirs' := by
    rw [DistinctNames, List.filterMap_congr names']
    exact (order.filterMap _).nodup_iff.1 distinct
  ext d
  rw [lookup_memberNames, lookup_memberNames, distinct.find?_eq_some_iff,
    distinct'.find?_eq_some_iff, order.mem_iff]
  exact and_congr_right fun member => by rw [names' d member]

/-- The directories of names, when the members can be enumerated. -/
def nameTable (fs : σ) (root : Path) : Option (String → Option Path) :=
  (memberDirs fs root).toOption.map fun dirs name => (memberNames fs dirs).lookup name

theorem SameMembers.nameTable (h : SameMembers fs fs') (root : Path) :
    Workspace.nameTable fs' root = Workspace.nameTable fs root := by
  rw [Workspace.nameTable, Workspace.nameTable, h.dirs, funext h.memberNames]

end

end Workspace

end WorkspaceLint
