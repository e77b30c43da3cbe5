import Mathlib.Data.List.Induction
import WorkspaceLint.FileSystem.Disk
import WorkspaceLint.Proofs.Path.Names

/-!
# Plain paths on a disk

On a sound disk everything lies in a directory, and nothing is a file and a directory.  A plain path
then leads to the directory or file of its names, and what is done there is described by the names
alone.
-/

namespace WorkspaceLint

namespace Disk

open WorkspaceLint.Path (AreNames down)

/-- Directories and files have names, lie in a directory, and are apart. -/
structure Sound (d : Disk) : Prop where
  dirNames : ∀ names ∈ d.dirs, AreNames names
  fileNames : ∀ f ∈ d.files, AreNames f.1
  dirParent : ∀ names, d.isDir names = true → d.isDir names.dropLast = true
  fileParent : ∀ names, (d.file? names).isSome = true → d.isDir names.dropLast = true
  apart : ∀ names, (d.file? names).isSome = true → d.isDir names = false

variable {d : Disk} {names more : List String}

theorem isDir_iff : d.isDir names = true ↔ names = [] ∨ names ∈ d.dirs := by
  simp [isDir]

@[simp] theorem isDir_nil (d : Disk) : d.isDir [] = true := rfl

theorem mem_of_lookup {α β : Type} [BEq α] [LawfulBEq α] {a : α} {b : β} {l : List (α × β)}
    (h : l.lookup a = some b) : (a, b) ∈ l := by
  induction l with
  | nil => cases h
  | cons entry l ih =>
    obtain ⟨a', b'⟩ := entry
    rw [List.lookup_cons] at h
    split at h
    · rename_i same
      rw [beq_iff_eq.1 same, Option.some.inj h]
      exact List.mem_cons_self
    · exact List.mem_cons_of_mem _ (ih h)

namespace Sound

variable (h : d.Sound)

include h

theorem areNames_of_isDir (dir : d.isDir names = true) : AreNames names := by
  rcases isDir_iff.1 dir with rfl | member
  · exact nofun
  · exact h.dirNames names member

theorem areNames_of_file (file : (d.file? names).isSome = true) : AreNames names := by
  obtain ⟨contents, stored⟩ := Option.isSome_iff_exists.1 file
  exact h.fileNames _ (mem_of_lookup stored)

theorem isDir_of_prefix (dir : d.isDir (names ++ more) = true) : d.isDir names = true := by
  induction more using List.reverseRecOn with
  | nil => rwa [List.append_nil] at dir
  | append_singleton more s ih =>
    have above := h.dirParent _ dir
    rw [← List.append_assoc, List.dropLast_concat] at above
    exact ih above

/-- What a file lies below is a directory. -/
theorem isDir_above_file (file : (d.file? (names ++ more)).isSome = true) (below : more ≠ []) :
    d.isDir names = true := by
  obtain ⟨front, s, rfl⟩ := (List.eq_nil_or_concat more).resolve_left below
  have above := h.fileParent _ file
  rw [List.concat_eq_append, ← List.append_assoc, List.dropLast_concat] at above
  exact h.isDir_of_prefix above

/-! ## Where plain paths lead -/

omit h in
theorem follow_name {here rest : List String} {s : String} (name : Path.IsName s) :
    follow d here (s :: rest) =
      if d.isDir (here ++ [s]) then follow d (here ++ [s]) rest
      else if (d.file? (here ++ [s])).isSome then
        if rest.isEmpty then .file (here ++ [s]) else .blocked
      else if rest.all (· = "") then .vacant (here ++ [s]) (!rest.isEmpty)
      else .missing := by
  have solid : ¬ Path.isVoid s = true := by simp [Path.isVoid, name.nonempty, name.notCurrent]
  rw [follow, if_neg solid, if_neg name.notParent]

theorem follow_dirs (here : List String) {front back : List String} (hn : AreNames front)
    (dir : d.isDir (here ++ front) = true) :
    follow d here (front ++ back) = follow d (here ++ front) back := by
  induction front generalizing here with
  | nil => rw [List.nil_append, List.append_nil]
  | cons s front ih =>
    obtain ⟨first, later⟩ := List.forall_mem_cons.1 hn
    rw [List.append_cons] at dir
    rw [List.cons_append, follow_name first, if_pos (h.isDir_of_prefix dir), ih _ later dir,
      List.append_cons here s front]

omit h in
theorem resolve_down (hn : AreNames names) : d.resolve (down names) = follow d [] names := by
  have parts : follow d [] (down names).segments = follow d [] names := by
    by_cases some : names = []
    · subst some
      rfl
    · rw [Path.segments_down hn some]
      rfl
  rw [resolve, if_pos (Path.isAbsolute_down names), parts]

theorem resolve_dir (dir : d.isDir names = true) : d.resolve (down names) = .dir names := by
  have hn := h.areNames_of_isDir dir
  have walk : follow d [] (names ++ []) = follow d names [] := h.follow_dirs [] hn dir
  rw [List.append_nil] at walk
  rw [resolve_down hn, walk]
  rfl

/-- The last step of a path whose directory exists. -/
theorem resolve_entry {s : String} (name : Path.IsName s) (dir : d.isDir names = true) :
    d.resolve (down (names ++ [s])) =
      if d.isDir (names ++ [s]) then .dir (names ++ [s])
      else if (d.file? (names ++ [s])).isSome then .file (names ++ [s])
      else .vacant (names ++ [s]) false := by
  have hn := h.areNames_of_isDir dir
  have all : AreNames (names ++ [s]) :=
    Path.areNames_append.2 ⟨hn, List.forall_mem_singleton.2 name⟩
  rw [resolve_down all, h.follow_dirs [] hn dir, List.nil_append, follow_name name]
  rfl

theorem resolve_file (file : (d.file? names).isSome = true) :
    d.resolve (down names) = .file names := by
  have noDir := h.apart names file
  have hn := h.areNames_of_file file
  have some : names ≠ [] := by
    rintro rfl
    cases noDir
  obtain ⟨front, s, rfl⟩ := (List.eq_nil_or_concat names).resolve_left some
  rw [List.concat_eq_append] at *
  have dir := h.isDir_above_file file (List.cons_ne_nil s [])
  rw [h.resolve_entry (hn s (by simp)) dir, if_neg (by simp [noDir]), if_pos file]

theorem resolve_vacant (hn : AreNames names) (noDir : d.isDir names = false)
    (noFile : d.file? names = none) (dir : d.isDir names.dropLast = true) :
    d.resolve (down names) = .vacant names false := by
  have some : names ≠ [] := by
    rintro rfl
    cases noDir
  obtain ⟨front, s, rfl⟩ := (List.eq_nil_or_concat names).resolve_left some
  rw [List.concat_eq_append] at *
  rw [List.dropLast_concat] at dir
  rw [h.resolve_entry (hn s (by simp)) dir, if_neg (by simp [noDir]), if_neg (by simp [noFile])]

/-- Below a file every path is blocked. -/
theorem resolve_blocked (hn : AreNames (names ++ more)) (file : (d.file? names).isSome = true)
    (below : more ≠ []) : d.resolve (down (names ++ more)) = .blocked := by
  have noDir := h.apart names file
  have some : names ≠ [] := by
    rintro rfl
    cases noDir
  obtain ⟨front, s, rfl⟩ := (List.eq_nil_or_concat names).resolve_left some
  rw [List.concat_eq_append] at *
  have dir := h.isDir_above_file file (List.cons_ne_nil s [])
  rw [resolve_down hn, List.append_assoc, h.follow_dirs [] (h.areNames_of_isDir dir) dir,
    List.nil_append]
  show follow d front (s :: more) = _
  rw [follow_name (hn s (by simp)), if_neg (by simp [noDir]), if_pos file,
    if_neg (by simpa using below)]

/-- Where the directory of a path is missing and no file stands in the way, nothing is found. -/
theorem resolve_missing (hn : AreNames names) (noDir : d.isDir names.dropLast = false)
    (free : ∀ above, above <+: names → d.file? above = none) :
    d.resolve (down names) = .missing := by
  have walk : ∀ {front back : List String}, front ++ back = names → d.isDir front = true →
      follow d front back = .missing := by
    intro front back
    induction back generalizing front with
    | nil =>
      intro whole dir
      rw [List.append_nil] at whole
      rw [← whole, h.dirParent front dir] at noDir
      cases noDir
    | cons s back ih =>
      intro whole dir
      have name : Path.IsName s := hn s (by simp [← whole])
      have next : front ++ [s] ++ back = names := by rw [← whole, List.append_assoc]; rfl
      rw [follow_name name]
      by_cases further : d.isDir (front ++ [s]) = true
      · rw [if_pos further]
        exact ih next further
      · have none := free (front ++ [s]) ⟨back, next⟩
        have solid : ¬ back.all (· = "") = true := by
          rcases back with _ | ⟨s', back⟩
          · rw [← whole, List.dropLast_concat, dir] at noDir
            cases noDir
          · have name' : s' ≠ "" := (hn s' (by simp [← whole])).nonempty
            simp [name']
        rw [if_neg further, if_neg (by simp [none]), if_neg solid]
  rw [resolve_down hn]
  exact walk (List.nil_append names) rfl

/-- Where the path of names leads, and why. -/
inductive Leads (d : Disk) (names : List String) : Target → Prop where
  | dir (dir : d.isDir names = true) (noFile : d.file? names = none) : Leads d names (.dir names)
  | file {contents : String} (stored : d.file? names = some contents)
      (noDir : d.isDir names = false) (parent : d.isDir names.dropLast = true) :
      Leads d names (.file names)
  | vacant (noDir : d.isDir names = false) (noFile : d.file? names = none)
      (parent : d.isDir names.dropLast = true) : Leads d names (.vacant names false)
  | blocked {above : List String} (noDir : d.isDir names = false) (noFile : d.file? names = none)
      (noParent : d.isDir names.dropLast = false) (isPrefix : above <+: names)
      (file : (d.file? above).isSome = true) : Leads d names .blocked
  | missing (noDir : d.isDir names = false) (noFile : d.file? names = none)
      (noParent : d.isDir names.dropLast = false)
      (free : ∀ above, above <+: names → d.file? above = none) : Leads d names .missing

theorem leads (hn : AreNames names) : Leads d names (d.resolve (down names)) := by
  by_cases dir : d.isDir names = true
  · rw [h.resolve_dir dir]
    refine .dir dir (Option.eq_none_iff_forall_ne_some.2 fun contents stored => ?_)
    rw [h.apart names (by rw [stored]; rfl)] at dir
    cases dir
  rcases stored : d.file? names with _ | contents
  · rw [Bool.not_eq_true] at dir
    by_cases parent : d.isDir names.dropLast = true
    · rw [h.resolve_vacant hn dir stored parent]
      exact .vacant dir stored parent
    rw [Bool.not_eq_true] at parent
    by_cases free : ∀ above, above <+: names → d.file? above = none
    · rw [h.resolve_missing hn parent free]
      exact .missing dir stored parent free
    · push Not at free
      obtain ⟨above, ⟨more, rfl⟩, present⟩ := free
      have file := Option.isSome_iff_ne_none.2 present
      have below : more ≠ [] := by
        rintro rfl
        rw [List.append_nil] at stored
        exact present stored
      rw [h.resolve_blocked hn file below]
      exact .blocked dir stored parent (List.prefix_append above more) file
  · have file : (d.file? names).isSome = true := by rw [stored]; rfl
    rw [h.resolve_file file]
    exact .file stored (h.apart names file) (h.fileParent names file)

/-! ## What is done there -/

theorem contains_down (hn : AreNames names) :
    d.contains (down names) = (d.isDir names || (d.file? names).isSome) := by
  have leads := h.leads hn
  unfold contains
  generalize d.resolve (down names) = target at leads ⊢
  cases leads with
  | dir dir => simp [dir]
  | file stored => simp [stored]
  | vacant noDir noFile => simp [noDir, noFile]
  | blocked noDir noFile => simp [noDir, noFile]
  | missing noDir noFile => simp [noDir, noFile]

theorem isDirAt_down (hn : AreNames names) : d.isDirAt (down names) = d.isDir names := by
  have leads := h.leads hn
  unfold isDirAt
  generalize d.resolve (down names) = target at leads ⊢
  cases leads with
  | dir dir => exact dir.symm
  | file _ noDir => exact noDir.symm
  | vacant noDir => exact noDir.symm
  | blocked noDir => exact noDir.symm
  | missing noDir => exact noDir.symm

theorem toOption_read_down (hn : AreNames names) :
    (d.read (down names)).toOption = d.file? names := by
  have leads := h.leads hn
  unfold read
  generalize d.resolve (down names) = target at leads ⊢
  cases leads with
  | dir _ noFile => exact noFile.symm
  | file stored =>
    show some ((d.file? names).getD "") = d.file? names
    rw [stored]
    rfl
  | vacant _ noFile => exact noFile.symm
  | blocked _ noFile => exact noFile.symm
  | missing _ noFile => exact noFile.symm

/-- Where no directory is, a file can be written if its own directory exists. -/
theorem toOption_write_down (hn : AreNames names) (noDir : d.isDir names = false)
    (contents : String) :
    (d.write (down names) contents).toOption =
      if d.isDir names.dropLast then some (d.setFile names contents) else none := by
  have leads := h.leads hn
  unfold write
  generalize d.resolve (down names) = target at leads ⊢
  cases leads with
  | dir dir =>
    rw [dir] at noDir
    cases noDir
  | file _ _ parent => rw [if_pos parent]; rfl
  | vacant _ _ parent => rw [if_pos parent]; rfl
  | blocked _ _ noParent => rw [noParent]; rfl
  | missing _ _ noParent => rw [noParent]; rfl

end Sound

/-! ## Files -/

theorem lookup_map_set {fs : List (List String × String)} (contents : String) :
    (fs.map fun f => if f.1 = names then (names, contents) else f).lookup more =
      if names = more then (fs.lookup names).map fun _ => contents else fs.lookup more := by
  induction fs with
  | nil => simp
  | cons f fs ih =>
    obtain ⟨key, old⟩ := f
    rw [List.map_cons, List.lookup_cons, List.lookup_cons, ih]
    by_cases here : key = names
    · subst here
      by_cases there : key = more
      · subst there
        simp
      · have other : (more == key) = false := beq_false_of_ne (Ne.symm there)
        simp [there, other, List.lookup_cons]
    · by_cases there : names = more
      · subst there
        have other : (names == key) = false := beq_false_of_ne (Ne.symm here)
        simp [here, other]
      · simp [here, there, List.lookup_cons]

theorem file?_setFile (d : Disk) (names : List String) (contents : String) (more : List String) :
    (d.setFile names contents).file? more =
      if names = more then some contents else d.file? more := by
  unfold setFile
  by_cases stored : (d.file? names).isSome = true
  · rw [if_pos stored, file?, lookup_map_set]
    obtain ⟨old, same⟩ := Option.isSome_iff_exists.1 stored
    rw [show d.files.lookup names = some old from same]
    rfl
  · rw [if_neg stored]
    rw [Bool.not_eq_true, Option.isSome_eq_false_iff, Option.isNone_iff_eq_none] at stored
    show (d.files ++ [(names, contents)]).lookup more = _
    rw [List.lookup_append]
    by_cases same : names = more
    · subst same
      rw [show d.files.lookup names = none from stored, if_pos rfl]
      simp
    · have other : (more == names) = false := beq_false_of_ne (Ne.symm same)
      simp [same, other, file?, List.lookup_cons]

@[simp] theorem isDir_setFile (d : Disk) (names : List String) (contents : String)
    (more : List String) : (d.setFile names contents).isDir more = d.isDir more := by
  unfold setFile
  split <;> rfl

theorem mem_files_setFile {f : List String × String} {contents : String}
    (h : f ∈ (d.setFile names contents).files) : f.1 = names ∨ f ∈ d.files := by
  unfold setFile at h
  split at h
  · obtain ⟨old, member, rfl⟩ := List.mem_map.1 h
    split
    · exact .inl rfl
    · exact .inr member
  · rcases List.mem_append.1 h with member | new
    · exact .inr member
    · exact .inl (by rw [List.mem_singleton.1 new])

/-- A disk stays sound when a file is stored in a directory. -/
theorem Sound.setFile (h : d.Sound) (hn : AreNames names) (noDir : d.isDir names = false)
    (parent : d.isDir names.dropLast = true) (contents : String) :
    (d.setFile names contents).Sound where
  dirNames := by
    have same : (d.setFile names contents).dirs = d.dirs := by unfold Disk.setFile; split <;> rfl
    rw [same]
    exact h.dirNames
  fileNames := by
    intro f member
    rcases mem_files_setFile member with same | old
    · rwa [same]
    · exact h.fileNames f old
  dirParent := by
    intro more dir
    rw [isDir_setFile] at dir ⊢
    exact h.dirParent more dir
  fileParent := by
    intro more file
    rw [file?_setFile] at file
    rw [isDir_setFile]
    split at file
    · rename_i same
      rwa [← same]
    · exact h.fileParent more file
  apart := by
    intro more file
    rw [file?_setFile] at file
    rw [isDir_setFile]
    split at file
    · rename_i same
      rwa [← same]
    · exact h.apart more file

/-! ## Directories -/

/-- A disk to which a directory was added, with those above it. -/
structure Deepened (names : List String) (d d' : Disk) : Prop where
  files : d'.files = d.files
  dirs : ∀ more, d'.isDir more = true ↔ d.isDir more = true ∨ more <+: names

theorem Deepened.file? {d' : Disk} (h : Deepened names d d') (more : List String) :
    d'.file? more = d.file? more := by
  unfold Disk.file?
  rw [h.files]

theorem Deepened.sound {d' : Disk} (h : Deepened names d d') (sound : d.Sound) (hn : AreNames names)
    (free : ∀ above, above <+: names → d.file? above = none) : d'.Sound where
  dirNames := by
    intro more member
    rcases (h.dirs more).1 (isDir_iff.2 (.inr member)) with dir | above
    · exact sound.areNames_of_isDir dir
    · exact hn.of_prefix above
  fileNames := by
    rw [h.files]
    exact sound.fileNames
  dirParent := by
    intro more dir
    refine (h.dirs _).2 (((h.dirs more).1 dir).imp (sound.dirParent more) fun above => ?_)
    exact (List.dropLast_prefix more).trans above
  fileParent := by
    intro more file
    rw [h.file?] at file
    exact (h.dirs _).2 (.inl (sound.fileParent more file))
  apart := by
    intro more file
    rw [h.file?] at file
    rw [Bool.eq_false_iff]
    intro dir
    rcases (h.dirs more).1 dir with dir | above
    · rw [sound.apart more file] at dir
      cases dir
    · rw [free more above] at file
      cases file

/-- A directory can be created in another one. -/
theorem Sound.makeOneDir (h : d.Sound) (hn : AreNames names) (noDir : d.isDir names = false)
    (noFile : d.file? names = none) (parent : d.isDir names.dropLast = true) :
    ∃ d', d.makeOneDir (down names) = .ok d' ∧ Deepened names d d' := by
  refine ⟨{ d with dirs := d.dirs ++ [names] }, ?_, rfl, fun more => ?_⟩
  · rw [Disk.makeOneDir, h.resolve_vacant hn noDir noFile parent]
  have some : names ≠ [] := by
    rintro rfl
    cases noDir
  have added : (Disk.mk (d.dirs ++ [names]) d.files).isDir more = true ↔
      d.isDir more = true ∨ more = names := by
    rw [isDir_iff, isDir_iff, List.mem_append, List.mem_singleton, or_assoc]
  rw [added]
  constructor
  · exact Or.imp_right fun same => same ▸ List.prefix_rfl
  · rintro (dir | above)
    · exact .inl dir
    · rw [← List.dropLast_append_getLast some, List.prefix_concat_iff,
        List.dropLast_append_getLast] at above
      refine above.symm.imp_left fun higher => ?_
      obtain ⟨rest, whole⟩ := higher
      rw [← whole] at parent
      exact h.isDir_of_prefix parent

/-- Where no file stands in the way, a directory and those above it can be created. -/
theorem Sound.makeDirs (h : d.Sound) (hn : AreNames names) (noDir : d.isDir names = false)
    (free : ∀ above, above <+: names → d.file? above = none) {fuel : Nat}
    (enough : names.length < fuel) :
    ∃ d', makeDirs fuel d (down names) = .ok d' ∧ Deepened names d d' := by
  induction fuel generalizing names with
  | zero => omega
  | succ fuel ih =>
    have some : names ≠ [] := by
      rintro rfl
      cases noDir
    have noFile := free names List.prefix_rfl
    rw [Disk.makeDirs]
    by_cases parent : d.isDir names.dropLast = true
    · obtain ⟨d', made, deepened⟩ := h.makeOneDir hn noDir noFile parent
      exact ⟨d', by rw [made], deepened⟩
    rw [Bool.not_eq_true] at parent
    have missing : d.makeOneDir (down names) = .error .notFound := by
      rw [Disk.makeOneDir, h.resolve_missing hn parent free]
    have above := List.dropLast_prefix names
    have length : names.dropLast.length < fuel := by
      have nonempty := List.length_pos_iff.2 some
      rw [List.length_dropLast]
      omega
    obtain ⟨d₁, made, deepened⟩ := ih (hn.of_prefix above) parent
      (fun more higher => free more (higher.trans above)) length
    have sound := deepened.sound h (hn.of_prefix above) fun more higher =>
      free more (higher.trans above)
    have stillNoDir : d₁.isDir names = false := by
      rw [Bool.eq_false_iff]
      intro dir
      rcases (deepened.dirs names).1 dir with dir | higher
      · rw [noDir] at dir
        cases dir
      · have shorter := higher.length_le
        have nonempty := List.length_pos_iff.2 some
        rw [List.length_dropLast] at shorter
        omega
    obtain ⟨d₂, made', deepened'⟩ := sound.makeOneDir hn stillNoDir
      (by rw [deepened.file?, noFile]) ((deepened.dirs _).2 (.inr List.prefix_rfl))
    refine ⟨d₂, ?_, deepened'.files.trans deepened.files, fun more => ?_⟩
    · rw [missing]
      simp only [Path.parent?_down hn some, made, made']
    · rw [deepened'.dirs, deepened.dirs, or_assoc]
      exact or_congr_right (or_iff_right_of_imp fun higher => higher.trans above)

end Disk

end WorkspaceLint
