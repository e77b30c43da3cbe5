import Mathlib.Data.List.Forall2
import Mathlib.Data.List.Nodup
import WorkspaceLint.Proofs.FileSystem.Disk
import WorkspaceLint.Proofs.Glob.Rooted

/-!
# Expanding patterns on a disk

Walking through the directories of a disk finds what the segments of a pattern match, and nothing
else: whatever is found has names that match (`exists_of_mem_expand`), and every directory with such
names is found, since the steps that a walk may take are enough for the deepest directory
(`mem_expand_of_matches`).
-/

namespace WorkspaceLint

open DirGlob (Accepts Matches Segment Dotless)
open WorkspaceLint.Path (AreNames IsName down)

namespace DirGlob

/-- A segment that names entries of a directory or stands for any directories. -/
structure Usual (g : DirGlob) : Prop where
  segment : Segment g
  dotless : Dotless g

theorem accepts_literals_iff {text cs : List Char} :
    Accepts (text.map .literal) cs ↔ cs = text := by
  induction text generalizing cs with
  | nil =>
    constructor
    · rintro ⟨⟩
      rfl
    · rintro rfl
      exact .nil
  | cons c text ih =>
    constructor
    · intro accepted
      cases accepted with
      | single takes rest =>
        rw [Token.takes, decide_eq_true_eq] at takes
        rw [takes, ih.1 rest]
    · rintro rfl
      exact .single (by simp [Token.takes]) (ih.2 rfl)

/-- Several `**` in a row are like one. -/
theorem matches_dirs_dirs_iff {gs : List DirGlob} {names : List String} :
    Matches ([.dirs] :: [.dirs] :: gs) names ↔ Matches ([.dirs] :: gs) names := by
  constructor
  · intro h
    obtain ⟨front, back, rfl, rest⟩ := matches_dirs_cons_iff.1 h
    exact matches_dirs_append front rest
  · exact .none

end DirGlob

namespace Disk

/-! ## Segments of patterns -/

theorem eq_of_plainText? {g : DirGlob} {text : List Char} (h : plainText? g = some text) :
    g = text.map .literal := by
  induction g generalizing text with
  | nil =>
    rw [← Option.some.inj h]
    rfl
  | cons t g ih =>
    cases t with
    | literal c =>
      obtain ⟨rest, plain, rfl⟩ := Option.map_eq_some_iff.1 h
      rw [List.map_cons, ← ih plain]
    | one | run | dirs | oneOf => cases h

theorem isDirs_iff {g : DirGlob} (h : Segment g) : isDirs g = true ↔ g = [.dirs] := by
  constructor
  · intro dirs
    refine h.resolve_right fun inner => ?_
    exact inner.2 .dirs (List.contains_iff_mem.1 dirs)
  · rintro rfl
    rfl

theorem inner_of_not_isDirs {g : DirGlob} (h : Segment g) (notDirs : ¬ isDirs g = true) :
    ∀ t ∈ g, t.Inner := by
  refine (h.resolve_left fun same => notDirs ?_).2
  rw [same]
  rfl

/-- A segment without wildcards is the name of an entry. -/
theorem isName_of_plainText? {g : DirGlob} (h : g.Usual) {text : List Char}
    (plain : plainText? g = some text) : IsName (String.ofList text) := by
  have same := eq_of_plainText? plain
  have notDirs : ¬ isDirs g = true := by
    intro dirs
    rw [(isDirs_iff h.segment).1 dirs] at plain
    cases plain
  have inner := inner_of_not_isDirs h.segment notDirs
  have accepted : DirGlob.accepts g text = true := by
    rw [DirGlob.accepts_iff, same]
    exact DirGlob.accepts_literals_iff.2 rfl
  have other {cs : List Char} (dots : cs = ['.'] ∨ cs = ['.', '.']) : text ≠ cs := by
    rintro rfl
    have first : g.head? = some (.literal '.') := by
      rw [same]
      rcases dots with rfl | rfl <;> rfl
    have refused := h.dotless first
    rcases dots with rfl | rfl
    · rw [refused.1] at accepted
      cases accepted
    · rw [refused.2] at accepted
      cases accepted
  refine ⟨fun empty => ?_, fun current => ?_, fun parent => ?_, ?_⟩
  · have nothing : g = [] := by
      rw [same, ← String.toList_ofList (l := text), empty]
      rfl
    rcases h.segment with dirs | ⟨some, -⟩
    · rw [nothing] at dirs
      cases dirs
    · exact some nothing
  · refine other (.inl rfl) ?_
    rw [← String.toList_ofList (l := text), current]
    rfl
  · refine other (.inr rfl) ?_
    rw [← String.toList_ofList (l := text), parent]
    rfl
  · rw [String.toList_ofList]
    intro slash
    exact inner (.literal '/') (by rw [same]; exact List.mem_map_of_mem slash) rfl

theorem mem_of_mem_dropDirs {g : DirGlob} {gs : List DirGlob} (h : g ∈ dropDirs gs) : g ∈ gs := by
  induction gs with
  | nil => exact h
  | cons g' gs ih =>
    rw [dropDirs] at h
    split at h
    · exact List.mem_cons_of_mem _ (ih h)
    · exact h

theorem not_isDirs_of_dropDirs {g : DirGlob} {gs rest : List DirGlob}
    (h : dropDirs gs = g :: rest) : ¬ isDirs g = true := by
  induction gs with
  | nil => cases h
  | cons g' gs ih =>
    rw [dropDirs] at h
    split at h
    · exact ih h
    · rename_i notDirs
      rwa [← (List.cons.inj h).1]

theorem matches_dropDirs_iff {gs : List DirGlob} (h : ∀ g ∈ gs, Segment g) {names : List String} :
    Matches ([.dirs] :: dropDirs gs) names ↔ Matches ([.dirs] :: gs) names := by
  induction gs with
  | nil => rfl
  | cons g gs ih =>
    obtain ⟨first, later⟩ := List.forall_mem_cons.1 h
    rw [dropDirs]
    split
    · rename_i dirs
      rw [ih later, (isDirs_iff first).1 dirs, DirGlob.matches_dirs_dirs_iff]
    · rfl

/-! ## Entries of directories -/

variable {d : Disk} {names : List String}

theorem mem_entries {name : String} :
    name ∈ d.entries names ↔
      names ++ [name] ∈ d.dirs ∨ names ++ [name] ∈ d.files.map Prod.fst := by
  have below {p : List String} :
      (if p.dropLast = names then p.getLast? else none) = some name ↔ p = names ++ [name] := by
    constructor
    · intro h
      split at h
      · rename_i front
        obtain ⟨ys, rfl⟩ := List.getLast?_eq_some_iff.1 h
        rw [List.dropLast_concat] at front
        rw [front]
      · cases h
    · rintro rfl
      rw [List.dropLast_concat, if_pos rfl, List.getLast?_concat]
  unfold entries
  simp only [List.mem_mergeSort, List.mem_append, List.mem_filterMap, below, exists_eq_right]

theorem Sound.isName_of_mem_entries (h : d.Sound) {name : String} (entry : name ∈ d.entries names) :
    IsName name := by
  have all : AreNames (names ++ [name]) := by
    rcases mem_entries.1 entry with dir | file
    · exact h.dirNames _ dir
    · obtain ⟨f, member, same⟩ := List.mem_map.1 file
      rw [← same]
      exact h.fileNames f member
  exact all name (by simp)

/-- The walk through an entry whose name is given. -/
theorem expand_plain (fuel : Nat) {g : DirGlob} {gs : List DirGlob} (usual : g.Usual)
    {text : List Char} (plain : plainText? g = some text) (hn : AreNames names) :
    expand d (fuel + 1) (down names) (g :: gs) =
      if !d.contains (down (names ++ [String.ofList text])) then []
      else if gs.isEmpty then [down (names ++ [String.ofList text])]
      else expand d fuel (down (names ++ [String.ofList text])) gs := by
  have name := isName_of_plainText? usual plain
  have solid : ¬ (String.ofList text = "." ∨ String.ofList text = "..") :=
    not_or.2 ⟨name.notCurrent, name.notParent⟩
  simp only [expand, plain, if_neg solid, Path.entry_down hn name]

/-- The walk from a directory through each of its entries. -/
theorem Sound.expand_wild (h : d.Sound) (fuel : Nat) {g : DirGlob} {gs : List DirGlob}
    (usual : g.Usual) (wild : plainText? g = none) (dir : d.isDir names = true) :
    expand d (fuel + 1) (down names) (g :: gs) =
      (d.entries names).flatMap fun name => visit d fuel ((down names).entry name) name g gs := by
  have dots {s : String} (name : s = "." ∨ s = "..") :
      (decide (g.head? = some (.literal '.')) && DirGlob.accepts g s.toList) = false := by
    rw [Bool.and_eq_false_iff, decide_eq_false_iff_not]
    by_cases first : g.head? = some (.literal '.')
    · obtain ⟨one, two⟩ := usual.dotless first
      rcases name with rfl | rfl
      · exact .inr one
      · exact .inr two
    · exact .inl first
  simp only [expand, wild, h.resolve_dir dir, dots (.inl rfl), dots (.inr rfl)]
  rfl

/-! ## Only what matches is found -/

/-- Within some steps only paths are found whose names match. -/
def FindsOnly (d : Disk) (fuel : Nat) : Prop :=
  ∀ {names : List String} {gs : List DirGlob} {p : Path}, AreNames names →
    (∀ g ∈ gs, g.Usual) → p ∈ expand d fuel (down names) gs →
    ∃ more, AreNames more ∧ Matches gs more ∧ p = down (names ++ more)

/-- Within some steps only paths at or below an entry are found whose names match. -/
def EntersOnly (d : Disk) (fuel : Nat) : Prop :=
  ∀ {names : List String} {name : String} {g : DirGlob} {gs : List DirGlob} {p : Path},
    AreNames names → IsName name → (∀ g' ∈ g :: gs, g'.Usual) →
    p ∈ visit d fuel (down (names ++ [name])) name g gs →
    ∃ more, AreNames more ∧ Matches (g :: gs) (name :: more) ∧ p = down (names ++ name :: more)

theorem findsOnly_succ (h : d.Sound) {fuel : Nat} (walk : FindsOnly d fuel)
    (enter : EntersOnly d fuel) : FindsOnly d (fuel + 1) := by
  intro names gs p hn usual found
  rcases gs with _ | ⟨g, gs⟩
  · simp [expand] at found
  obtain ⟨first, later⟩ := List.forall_mem_cons.1 usual
  rcases plain : plainText? g with _ | text
  · by_cases dir : d.isDir names = true
    · rw [h.expand_wild fuel first plain dir] at found
      obtain ⟨name, entry, there⟩ := List.mem_flatMap.1 found
      have isName := h.isName_of_mem_entries entry
      rw [Path.entry_down hn isName] at there
      obtain ⟨more, hm, matched, rfl⟩ := enter hn isName usual there
      exact ⟨name :: more, List.forall_mem_cons.2 ⟨isName, hm⟩, matched, rfl⟩
    · have leads := h.leads hn
      simp only [expand, plain] at found
      generalize d.resolve (down names) = target at leads found
      cases leads with
      | dir itself => exact absurd itself dir
      | file | vacant | blocked | missing => cases found
  · have isName := isName_of_plainText? first plain
    have accepted : Accepts g (String.ofList text).toList := by
      rw [String.toList_ofList, eq_of_plainText? plain]
      exact DirGlob.accepts_literals_iff.2 rfl
    have inner : ∀ t ∈ g, t.Inner := by
      refine inner_of_not_isDirs first.segment fun dirs => ?_
      rw [(isDirs_iff first.segment).1 dirs] at plain
      cases plain
    rw [expand_plain fuel first plain hn] at found
    split at found
    · cases found
    split at found
    · rename_i last
      rw [List.isEmpty_iff.1 last]
      exact ⟨[_], List.forall_mem_singleton.2 isName, .name inner accepted .nil,
        List.mem_singleton.1 found⟩
    · have hn' := Path.areNames_append.2 ⟨hn, List.forall_mem_singleton.2 isName⟩
      obtain ⟨more, hm, matched, rfl⟩ := walk hn' later found
      rw [List.append_assoc]
      exact ⟨_ :: more, List.forall_mem_cons.2 ⟨isName, hm⟩, .name inner accepted matched, rfl⟩

theorem entersOnly_succ {fuel : Nat} (walk : FindsOnly d fuel) (enter : EntersOnly d fuel) :
    EntersOnly d (fuel + 1) := by
  intro names name g gs p hn isName usual found
  obtain ⟨first, later⟩ := List.forall_mem_cons.1 usual
  have segments : ∀ g' ∈ gs, Segment g' := fun g' member => (later g' member).segment
  have hn' := Path.areNames_append.2 ⟨hn, List.forall_mem_singleton.2 isName⟩
  rw [visit] at found
  by_cases dirs : isDirs g = true
  · obtain rfl := (isDirs_iff first.segment).1 dirs
    have known : ∀ g' ∈ dropDirs gs, g'.Usual := fun g' member =>
      later g' (mem_of_mem_dropDirs member)
    -- `**` takes the entry, and is still there for the walk below it
    have deeper (there : p ∈ expand d fuel (down (names ++ [name])) ([.dirs] :: dropDirs gs)) :
        ∃ more, AreNames more ∧ Matches ([.dirs] :: gs) (name :: more) ∧
          p = down (names ++ name :: more) := by
      obtain ⟨more, hm, matched, rfl⟩ := walk hn' (List.forall_mem_cons.2 ⟨first, known⟩) there
      rw [List.append_assoc]
      exact ⟨more, hm, (matches_dropDirs_iff segments).1 (.more matched), rfl⟩
    rw [if_pos dirs] at found
    split at found
    · rename_i all
      rw [all] at deeper
      split at found
      · rcases List.mem_cons.1 found with rfl | there
        · refine ⟨[], nofun, (matches_dropDirs_iff segments).1 ?_, rfl⟩
          rw [all]
          exact .last
        · exact deeper there
      · cases found
    · rename_i next rest kept
      rw [kept] at deeper known
      rcases List.mem_append.1 found with here | there
      · obtain ⟨more, hm, matched, rfl⟩ := enter hn isName known here
        refine ⟨more, hm, (matches_dropDirs_iff segments).1 ?_, rfl⟩
        rw [kept]
        exact .none matched
      · split at there
        · exact deeper there
        · cases there
  · have inner := inner_of_not_isDirs first.segment dirs
    rw [if_neg dirs] at found
    split at found
    · rename_i taken
      have accepted := DirGlob.accepts_iff.1 taken
      split at found
      · rename_i last
        rw [List.isEmpty_iff.1 last]
        exact ⟨[], nofun, .name inner accepted .nil, List.mem_singleton.1 found⟩
      · obtain ⟨more, hm, matched, rfl⟩ := walk hn' later found
        rw [List.append_assoc]
        exact ⟨more, hm, .name inner accepted matched, rfl⟩
    · cases found

theorem findsOnly (h : d.Sound) (fuel : Nat) : FindsOnly d fuel ∧ EntersOnly d fuel := by
  induction fuel with
  | zero =>
    constructor
    · intro names gs p _ _ found
      simp [expand] at found
    · intro names name g gs p _ _ _ found
      simp [visit] at found
  | succ fuel ih => exact ⟨findsOnly_succ h ih.1 ih.2, entersOnly_succ ih.1 ih.2⟩

/-! ## Every directory that matches is found -/

/-- Within some steps every directory is found that is not too deep and whose names match. -/
def FindsAll (d : Disk) (fuel : Nat) : Prop :=
  ∀ {names more : List String} {gs : List DirGlob}, (∀ g ∈ gs, g.Usual) → gs ≠ [] →
    Matches gs more → d.isDir (names ++ more) = true → 3 * more.length < fuel →
    down (names ++ more) ∈ expand d fuel (down names) gs

/-- The same at or below an entry; a `**` costs one step more. -/
def EntersAll (d : Disk) (fuel : Nat) : Prop :=
  ∀ {names more : List String} {name : String} {g : DirGlob} {gs : List DirGlob},
    (∀ g' ∈ g :: gs, g'.Usual) → Matches (g :: gs) (name :: more) →
    d.isDir (names ++ name :: more) = true →
    3 * more.length + (if isDirs g then 3 else 2) ≤ fuel →
    down (names ++ name :: more) ∈ visit d fuel (down (names ++ [name])) name g gs

theorem findsAll_succ (h : d.Sound) {fuel : Nat} (walk : FindsAll d fuel)
    (enter : EntersAll d fuel) : FindsAll d (fuel + 1) := by
  intro names more gs usual some matched dir enough
  obtain ⟨g, gs, rfl⟩ := List.exists_cons_of_ne_nil some
  obtain ⟨first, later⟩ := List.forall_mem_cons.1 usual
  rcases more with _ | ⟨name, more⟩
  · exact absurd (DirGlob.matches_nil_right matched) (List.cons_ne_nil g gs)
  have hn := (Path.areNames_append.1 (h.areNames_of_isDir dir)).1
  have next : d.isDir (names ++ [name]) = true := by
    rw [List.append_cons] at dir
    exact h.isDir_of_prefix dir
  have isName : IsName name := h.areNames_of_isDir next name (by simp)
  rw [List.length_cons] at enough
  rcases plain : plainText? g with _ | text
  · rw [h.expand_wild fuel first plain (h.isDir_of_prefix dir), List.mem_flatMap]
    have known : names ++ [name] ∈ d.dirs := (isDir_iff.1 next).resolve_left (by simp)
    refine ⟨name, mem_entries.2 (.inl known), ?_⟩
    rw [Path.entry_down hn isName]
    refine enter usual matched dir ?_
    split <;> omega
  · have same := eq_of_plainText? plain
    have notDirs : g ≠ [.dirs] := by
      rintro rfl
      cases plain
    cases matched with
    | name inner accepted rest =>
      rw [same] at accepted
      have spelled : String.ofList text = name := by
        rw [← DirGlob.accepts_literals_iff.1 accepted, String.ofList_toList]
      rw [expand_plain fuel first plain hn, spelled,
        h.contains_down (h.areNames_of_isDir next), next]
      show _ ∈ if gs.isEmpty then [down (names ++ [name])] else expand d fuel _ gs
      split
      · rename_i last
        rw [List.isEmpty_iff.1 last] at rest
        cases rest
        exact List.mem_singleton_self _
      · rename_i further
        rw [List.append_cons names name more] at dir ⊢
        exact walk later (fun none => further (List.isEmpty_iff.2 none)) rest dir (by omega)
    | none | more | last => exact absurd rfl notDirs

theorem entersAll_succ (h : d.Sound) {fuel : Nat} (walk : FindsAll d fuel)
    (enter : EntersAll d fuel) : EntersAll d (fuel + 1) := by
  intro names more name g gs usual matched dir enough
  obtain ⟨first, later⟩ := List.forall_mem_cons.1 usual
  have dir' := dir
  rw [List.append_cons] at dir'
  have next := h.isDir_of_prefix dir'
  have isDirAt : d.isDirAt (down (names ++ [name])) = true := by
    rw [h.isDirAt_down (h.areNames_of_isDir next), next]
  rw [visit]
  by_cases dirs : isDirs g = true
  · rw [if_pos dirs] at enough ⊢
    obtain rfl := (isDirs_iff first.segment).1 dirs
    have known : ∀ g' ∈ dropDirs gs, g'.Usual := fun g' member =>
      later g' (mem_of_mem_dropDirs member)
    rw [← matches_dropDirs_iff fun g' member => (later g' member).segment] at matched
    split
    · rename_i all
      rw [if_pos isDirAt, List.mem_cons]
      rcases more with _ | ⟨s, rest⟩
      · exact .inl rfl
      · refine .inr ?_
        rw [List.append_cons names name (s :: rest)]
        exact walk (List.forall_mem_singleton.2 first) (List.cons_ne_nil _ _)
          (DirGlob.matches_lastDirs (List.cons_ne_nil s rest)) dir' (by omega)
    · rename_i next' rest kept
      have notDirs := not_isDirs_of_dropDirs kept
      rw [kept] at matched known
      rw [if_pos isDirAt, List.mem_append]
      cases matched with
      | none matched =>
        refine .inl (enter known matched dir ?_)
        rw [if_neg notDirs]
        omega
      | more matched =>
        refine .inr ?_
        rw [List.append_cons names name more]
        exact walk (List.forall_mem_cons.2 ⟨first, known⟩) (List.cons_ne_nil _ _) matched dir'
          (by omega)
      | name inner => exact absurd (inner .dirs (List.mem_singleton_self _)) id
  · rw [if_neg dirs] at enough ⊢
    cases matched with
    | name inner accepted rest =>
      rw [if_pos (DirGlob.accepts_iff.2 accepted)]
      split
      · rename_i last
        rw [List.isEmpty_iff.1 last] at rest
        cases rest
        exact List.mem_singleton_self _
      · rename_i further
        rw [List.append_cons names name more]
        exact walk later (fun none => further (List.isEmpty_iff.2 none)) rest dir' (by omega)
    | none | more | last => exact absurd rfl dirs

theorem findsAll (h : d.Sound) (fuel : Nat) : FindsAll d fuel ∧ EntersAll d fuel := by
  induction fuel with
  | zero =>
    constructor
    · intro names more gs _ _ _ _ enough
      omega
    · intro names more name g gs _ _ _ enough
      split at enough <;> omega
  | succ fuel ih => exact ⟨findsAll_succ h ih.1 ih.2, entersAll_succ h ih.1 ih.2⟩

/-! ## Directories that a pattern matches -/

/-- A directory is no deeper than there are directories. -/
theorem Sound.length_le_of_isDir (h : d.Sound) (dir : d.isDir names = true) :
    names.length ≤ d.dirs.length := by
  have length (i : Nat) (below : i < names.length) : (names.take (i + 1)).length = i + 1 := by
    rw [List.length_take]
    omega
  have distinct : ((List.range names.length).map fun i => names.take (i + 1)).Nodup := by
    refine List.Nodup.map_on (fun i hi j hj same => ?_) List.nodup_range
    have lengths := congrArg List.length same
    rw [length i (List.mem_range.1 hi), length j (List.mem_range.1 hj)] at lengths
    omega
  have known : ((List.range names.length).map fun i => names.take (i + 1)) ⊆ d.dirs := by
    intro above member
    obtain ⟨i, hi, rfl⟩ := List.mem_map.1 member
    have higher : d.isDir (names.take (i + 1)) = true := by
      rw [← List.take_append_drop (i + 1) names] at dir
      exact h.isDir_of_prefix dir
    refine (isDir_iff.1 higher).resolve_left fun none => ?_
    have positive := length i (List.mem_range.1 hi)
    rw [none] at positive
    cases positive
  have bound := distinct.length_le_of_subset known
  rwa [List.length_map, List.length_range] at bound

theorem componentGlobs_eq_ok {segs : List (List Char)} {gs : List DirGlob}
    (each : DirGlob.ReadEach segs gs) : componentGlobs segs = .ok gs := by
  induction each with
  | nil => rfl
  | cons first rest ih =>
    obtain ⟨-, -, read⟩ := first
    rw [componentGlobs, DirGlob.parse_eq_ok_iff.2 read, ih]
    rfl

theorem splitTerminated_intercalate {segs : List (List Char)} {gs : List DirGlob}
    (each : DirGlob.ReadEach segs gs) (nonempty : segs ≠ []) :
    splitTerminated (['/'].intercalate segs) = segs := by
  have known : ∀ seg ∈ segs, '/' ∉ seg ∧ seg ≠ [] := by
    clear nonempty
    induction each with
    | nil => exact nofun
    | cons first rest ih => exact List.forall_mem_cons.2 ⟨⟨first.1, first.2.1⟩, ih⟩
  have parts := Path.splitSlashes_intercalate nonempty fun seg member => (known seg member).1
  have last : ¬ segs.getLast? = some [] := fun empty =>
    (known [] (List.mem_of_getLast? empty)).2 rfl
  simp only [splitTerminated, parts, if_neg last]

theorem not_before_trans {p q r : Path} (h : (!q.before p) = true) (h' : (!r.before q) = true) :
    (!r.before p) = true := by
  rw [Bool.not_eq_true', ← Bool.not_eq_true] at h h' ⊢
  intro first
  by_cases between : p.before q = true
  · exact h' (Path.before_trans first between)
  · have same := Path.components_eq_of_not_before between h
    rw [Path.before_iff, same, ← Path.before_iff] at first
    exact h' first

theorem pairwise_mergeSort_before (ps : List Path) :
    (ps.mergeSort fun p q => !q.before p).Pairwise fun p q => ¬ q.before p = true := by
  have total (p q : Path) : (!q.before p || !p.before q) = true := by
    by_cases first : q.before p = true
    · simp [Path.before_asymm first]
    · simp [first]
  have sorted := @List.pairwise_mergeSort Path (fun p q => !q.before p)
    (fun _ _ _ => not_before_trans) total ps
  refine sorted.imp fun order => ?_
  rwa [Bool.not_eq_true', ← Bool.not_eq_true] at order

/-- The directories that a pattern matches below a plain root, in order. -/
theorem Sound.globDirs_down (h : d.Sound) {root : List String} (hr : AreNames root)
    {pattern : String} {gs : List DirGlob} (each : DirGlob.ReadEach (DirGlob.parts pattern) gs)
    (dotless : ∀ g ∈ gs, Dotless g) :
    ∃ found, d.globDirs (down root) pattern = .ok found ∧
      found.Pairwise (fun p q => ¬ q.before p = true) ∧
      ∀ p, p ∈ found ↔
        ∃ names, Matches (DirGlob.below root gs) names ∧ d.isDir names = true ∧ p = down names := by
  have whole := DirGlob.readEach_below hr each
  have text : (DirGlob.rooted (down root).text pattern).toList.tail =
      ['/'].intercalate ((root.map fun s => DirGlob.escape s.toList) ++ DirGlob.parts pattern) := by
    rw [DirGlob.rooted, String.toList_ofList, DirGlob.rootedChars_down hr, List.tail_cons]
  have segs : (root.map fun s => DirGlob.escape s.toList) ++ DirGlob.parts pattern ≠ [] := by
    simp [DirGlob.parts_ne_nil]
  have nonempty : DirGlob.below root gs ≠ [] := by
    intro none
    have length := whole.length_eq
    rw [none, List.length_nil, List.length_eq_zero_iff] at length
    exact segs length
  have usual : ∀ g ∈ DirGlob.below root gs, g.Usual := fun g member =>
    ⟨DirGlob.segments_of_readEach whole g member, DirGlob.dotless_below hr dotless g member⟩
  have read : d.globDirs (down root) pattern =
      .ok ((((expand d (4 * ((DirGlob.below root gs).length + d.dirs.length + d.files.length) + 8)
        (down []) (DirGlob.below root gs)).filter d.isDirAt)).mergeSort fun p q => !q.before p) := by
    simp only [globDirs, DirGlob.parse_rooted hr each, text,
      splitTerminated_intercalate whole segs, componentGlobs_eq_ok whole]
    rfl
  refine ⟨_, read, ?_, fun p => ?_⟩
  · exact pairwise_mergeSort_before _
  · rw [List.mem_mergeSort, List.mem_filter]
    constructor
    · rintro ⟨found, dir⟩
      obtain ⟨more, hm, matched, rfl⟩ := (findsOnly h _).1 Path.areNames_nil usual found
      rw [List.nil_append, h.isDirAt_down hm] at dir
      exact ⟨more, matched, dir, rfl⟩
    · rintro ⟨more, matched, dir, rfl⟩
      have depth := h.length_le_of_isDir dir
      exact ⟨(findsAll h _).1 usual nonempty matched dir (by omega),
        (h.isDirAt_down (h.areNames_of_isDir dir)).trans dir⟩

end Disk

end WorkspaceLint
