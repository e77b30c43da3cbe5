import Mathlib.Data.List.DropRight
import WorkspaceLint.Proofs.Workspace.Caches

/-!
# Logs

What contexts answered is logged with the files it was given on, and so is what they were told to
forget.  From a log one can tell on which files a manifest was first read since it was forgotten
(`firstRead`), and on which ones the members of a workspace and their names were first found
(`firstListing`, `firstNaming`).

A context *keeps* what a log says when what it keeps is what was read on those files.  Then its next
answer follows from the log (`Context.Keeps.answer_follows`), and it keeps what the log says with
that answer (`Context.Keeps.answer_snd`).
-/

namespace WorkspaceLint

/-! ## What is kept of a first reading -/

/-- The files on which something succeeded. -/
def succeededOn {σ ε α : Type} (files : σ) (r : Except ε α) : Option σ :=
  if r.isOk then some files else none

section

variable {σ ε ε' α : Type} {read : σ → Except ε α} {first : Option σ} {kept : Option α}

@[simp] theorem succeededOn_ok (files : σ) (a : α) :
    succeededOn files (.ok a : Except ε α) = some files := rfl

@[simp] theorem succeededOn_error (files : σ) (e : ε) :
    succeededOn files (.error e : Except ε α) = none := rfl

@[simp] theorem succeededOn_mapError (files : σ) (f : ε → ε') (r : Except ε α) :
    succeededOn files (r.mapError f) = succeededOn files r := by
  cases r <;> rfl

/-- What is kept, or else what is read now, is what is read on the first files. -/
theorem elim_of_rel (h : Option.Rel (fun fs a => read fs = .ok a) first kept) (fs : σ) :
    kept.elim (read fs) .ok = read (first.getD fs) := by
  cases h with
  | none => rfl
  | some same => exact same.symm

theorem rel_or_of_rel (h : Option.Rel (fun fs a => read fs = .ok a) first kept) (fs : σ) :
    Option.Rel (fun fs a => read fs = .ok a)
      (first.or (succeededOn fs (kept.elim (read fs) .ok))) (kept.or (read fs).toOption) := by
  cases h with
  | none =>
    simp only [Option.elim_none, Option.none_or]
    rcases now : read fs with e | a
    · exact .none
    · exact .some now
  | some same => exact .some same

end

variable {σ : Type} [FileSystem σ]

namespace Package

theorem readManifest_fst (fs : σ) (k : Package) :
    (k.readManifest fs).1 = k.manifest.elim (load fs k.dir) .ok := by
  unfold readManifest
  rcases k.manifest with _ | m
  · rcases load fs k.dir with e | m <;> rfl
  · rfl

theorem manifest_readManifest_snd (fs : σ) (k : Package) :
    (k.readManifest fs).2.manifest = k.manifest.or (load fs k.dir).toOption := by
  unfold readManifest
  rcases kept : k.manifest with _ | m
  · rcases load fs k.dir with e | m
    · exact kept
    · rfl
  · exact kept

/-- The manifest is kept as it was on the files it was first read on. -/
def Keeps (first : Option σ) (k : Package) : Prop :=
  Option.Rel (fun fs m => load fs k.dir = .ok m) first k.manifest

namespace Keeps

variable {first : Option σ} {k : Package}

theorem readManifest_fst (h : k.Keeps first) (fs : σ) :
    (k.readManifest fs).1 = load (first.getD fs) k.dir :=
  (k.readManifest_fst fs).trans (elim_of_rel h fs)

theorem readManifest_snd (h : k.Keeps first) (fs : σ) :
    (k.readManifest fs).2.Keeps (first.or (succeededOn fs (k.readManifest fs).1)) := by
  rw [Keeps, dir_readManifest_snd, manifest_readManifest_snd, Package.readManifest_fst]
  exact rel_or_of_rel h fs

theorem add (h : k.Keeps first) (severity : Severity) (finding : Finding) :
    (k.add severity finding).Keeps first := h

theorem withoutFindings (h : k.Keeps first) : k.withoutFindings.Keeps first := h

theorem forget (k : Package) : k.forget.Keeps (none : Option σ) := .none

theorem fresh (dir : Path) : (Package.fresh dir).Keeps (none : Option σ) := .none

end Keeps

end Package

namespace Workspace

theorem readDirs_fst (fs : σ) (w : Workspace) :
    (w.readDirs fs).1 = w.dirs.elim (memberDirs fs w.package.dir) .ok := by
  unfold readDirs
  rcases w.dirs with _ | ds
  · rcases memberDirs fs w.package.dir with trouble | ds <;> rfl
  · rfl

theorem dirs_readDirs_snd (fs : σ) (w : Workspace) :
    (w.readDirs fs).2.dirs = w.dirs.or (memberDirs fs w.package.dir).toOption := by
  unfold readDirs
  rcases kept : w.dirs with _ | ds
  · rcases memberDirs fs w.package.dir with trouble | ds
    · exact kept
    · rfl
  · exact kept

@[simp] theorem names_readDirs_snd (fs : σ) (w : Workspace) :
    (w.readDirs fs).2.names = w.names := by
  unfold readDirs
  rcases w.dirs with _ | ds
  · rcases memberDirs fs w.package.dir with trouble | ds <;> rfl
  · rfl

/-- The members are kept once they were found. -/
theorem dirs_eq_some_of_readDirs {fs : σ} {w w' : Workspace} {ds : List Path}
    (found : w.readDirs fs = (.ok ds, w')) : w'.dirs = some ds := by
  have dirs := dirs_readDirs_snd fs w
  have given := readDirs_fst fs w
  rw [found] at dirs given
  rcases kept : w.dirs with _ | ds' <;> rw [kept] at dirs given
  · rw [dirs, Option.none_or, ← show _ = memberDirs fs w.package.dir from given]
    rfl
  · rw [dirs, Option.some_or, Except.ok.inj given]

/-- The manifest, the members and their names are each kept as they were on the files they were
first read on; the names are those of the members that are kept. -/
structure Keeps (manifest listing naming : Option σ) (w : Workspace) : Prop where
  package : w.package.Keeps manifest
  dirs : Option.Rel (fun fs ds => memberDirs fs w.package.dir = .ok ds) listing w.dirs
  names : Option.Rel (fun fs ns => ∃ ds, w.dirs = some ds ∧ memberNames fs ds = ns) naming w.names

namespace Keeps

variable {manifest listing naming : Option σ} {w : Workspace}

theorem withPackage (h : w.Keeps manifest listing naming) {k : Package} {first : Option σ}
    (keeps : k.Keeps first) (dir : k.dir = w.package.dir) :
    Keeps first listing naming { w with package := k } where
  package := keeps
  dirs := by simpa only [dir] using h.dirs
  names := h.names

theorem readManifest (h : w.Keeps manifest listing naming) (fs : σ) :
    Keeps (manifest.or (succeededOn fs (w.package.readManifest fs).1)) listing naming
      { w with package := (w.package.readManifest fs).2 } :=
  h.withPackage (h.package.readManifest_snd fs) (Package.dir_readManifest_snd fs w.package)

theorem readDirs_fst (h : w.Keeps manifest listing naming) (fs : σ) :
    (w.readDirs fs).1 = memberDirs (listing.getD fs) w.package.dir :=
  (w.readDirs_fst fs).trans (elim_of_rel h.dirs fs)

theorem readDirs_snd (h : w.Keeps manifest listing naming) (fs : σ) :
    (w.readDirs fs).2.Keeps manifest (listing.or (succeededOn fs (w.readDirs fs).1)) naming where
  package := by
    rw [package_readDirs_snd]
    exact h.package
  dirs := by
    rw [package_readDirs_snd, dirs_readDirs_snd, Workspace.readDirs_fst]
    exact rel_or_of_rel h.dirs fs
  names := by
    rw [names_readDirs_snd, dirs_readDirs_snd]
    have names := h.names
    revert names
    generalize w.names = kept
    rintro (⟨ds, found, same⟩ | _)
    · exact .some ⟨ds, by rw [found, Option.some_or], same⟩
    · exact .none

theorem readNames_fst (h : w.Keeps manifest listing naming) (fs : σ) :
    (w.readNames fs).1 =
      (memberDirs (listing.getD fs) w.package.dir).map (memberNames (naming.getD fs)) := by
  have listed := h.readDirs_fst fs
  have names := h.names
  unfold readNames
  rcases kept : w.names with _ | ns <;> rw [kept] at names
  · cases names
    rcases found : w.readDirs fs with ⟨trouble | ds, w'⟩ <;> rw [found] at listed <;>
      rw [← listed] <;> rfl
  · obtain @⟨named, _, ds, found, rfl⟩ := names
    have dirs := h.dirs
    rw [found] at dirs
    obtain ⟨same⟩ := dirs
    exact (congrArg (Except.map (memberNames named)) same).symm

theorem readNames_snd (h : w.Keeps manifest listing naming) (fs : σ) :
    (w.readNames fs).2.Keeps manifest (listing.or (succeededOn fs (w.readNames fs).1))
      (naming.or (succeededOn fs (w.readNames fs).1)) := by
  have listed := h.readDirs_snd fs
  have names := h.names
  unfold readNames
  rcases kept : w.names with _ | ns <;> rw [kept] at names
  · cases names
    rcases found : w.readDirs fs with ⟨trouble | ds, w'⟩ <;> rw [found] at listed
    · simpa using listed
    · have dirs := dirs_eq_some_of_readDirs found
      exact ⟨listed.package, listed.dirs, .some ⟨ds, dirs, rfl⟩⟩
  · obtain @⟨named, _, ds, found, rfl⟩ := names
    have dirs := h.dirs
    rw [found] at dirs
    obtain ⟨-⟩ := dirs
    exact h

end Keeps

end Workspace

/-! ## Logs -/

/-- Where a context stands: at the root of a workspace, inside one, or alone. -/
inductive Place where
  | root (i : Nat)
  | member (i j : Nat)
  | alone (j : Nat)
  deriving DecidableEq

/-- The workspace a place belongs to. -/
def Place.workspace? : Place → Option Nat
  | root i => some i
  | member i _ => some i
  | alone _ => none

@[simp] theorem Place.workspace?_root (i : Nat) : (root i).workspace? = some i := rfl

@[simp] theorem Place.workspace?_member (i j : Nat) : (member i j).workspace? = some i := rfl

@[simp] theorem Place.workspace?_alone (j : Nat) : (alone j).workspace? = none := rfl

/-- What happened at a place: an answer was given on the files as they were, or the manifest was
forgotten. -/
inductive Entry (σ : Type) where
  | asked (p : Place) (files : σ) (q : Question) (answer : q.Answer)
  | forgot (p : Place)

namespace Entry

variable {σ : Type}

/-- The files on which the manifest at a place was given. -/
@[simp] def reads (p : Place) : Entry σ → Option σ
  | asked r files .manifest a => if r = p then succeededOn files a else none
  | asked r files .rootManifest a =>
    if some p = r.workspace?.map .root then succeededOn files a else none
  | _ => none

/-- The files on which the members of a workspace were given, be it under their names. -/
@[simp] def lists (i : Nat) : Entry σ → Option σ
  | asked r files .members a => if r.workspace? = some i then succeededOn files a else none
  | asked r files .memberNames a => if r.workspace? = some i then succeededOn files a else none
  | _ => none

/-- The files on which the names of the members of a workspace were given. -/
@[simp] def names (i : Nat) : Entry σ → Option σ
  | asked r files .memberNames a => if r.workspace? = some i then succeededOn files a else none
  | _ => none

/-- Whether the manifest at a place was forgotten. -/
@[simp] def forgets (p : Place) : Entry σ → Bool
  | forgot r => r = p
  | _ => false

end Entry

section

variable {σ : Type}

/-- The files on which the manifest at a place was first read since it was forgotten. -/
def firstRead (p : Place) (log : List (Entry σ)) : Option σ :=
  (log.rtakeWhile fun e => !e.forgets p).findSome? (Entry.reads p)

/-- The files on which the members of a workspace were first found. -/
def firstListing (i : Nat) (log : List (Entry σ)) : Option σ := log.findSome? (Entry.lists i)

/-- The files on which the names of the members of a workspace were first found. -/
def firstNaming (i : Nat) (log : List (Entry σ)) : Option σ := log.findSome? (Entry.names i)

variable (p : Place) (i : Nat) (log : List (Entry σ))

@[simp] theorem firstRead_concat (e : Entry σ) : firstRead p (log ++ [e]) =
    if e.forgets p then none else (firstRead p log).or (e.reads p) := by
  rw [firstRead, List.rtakeWhile_concat]
  cases e.forgets p with
  | true => rfl
  | false =>
    simp only [Bool.not_false, if_true, List.findSome?_append, Bool.false_eq_true, if_false]
    simp [firstRead]

@[simp] theorem firstListing_concat (e : Entry σ) :
    firstListing i (log ++ [e]) = (firstListing i log).or (e.lists i) := by
  simp [firstListing, List.findSome?_append]

@[simp] theorem firstNaming_concat (e : Entry σ) :
    firstNaming i (log ++ [e]) = (firstNaming i log).or (e.names i) := by
  simp [firstNaming, List.findSome?_append]

/-- What happens at a place concerns no other place than that and the root of its workspace. -/
structure Aside (p : Place) (log log' : List (Entry σ)) : Prop where
  reads : ∀ r, r ≠ p → some r ≠ p.workspace?.map .root → firstRead r log' = firstRead r log
  lists : ∀ i, p.workspace? ≠ some i → firstListing i log' = firstListing i log
  names : ∀ i, p.workspace? ≠ some i → firstNaming i log' = firstNaming i log

theorem Aside.refl : Aside p log log where
  reads _ _ _ := rfl
  lists _ _ := rfl
  names _ _ := rfl

theorem Aside.asked (files : σ) (q : Question) (a : q.Answer) :
    Aside p log (log ++ [.asked p files q a]) where
  reads r other apart := by
    rw [firstRead_concat]
    cases q <;> simp [Entry.forgets, Entry.reads, other.symm, apart]
  lists i apart := by
    rw [firstListing_concat]
    cases q <;> simp [Entry.lists, apart]
  names i apart := by
    rw [firstNaming_concat]
    cases q <;> simp [Entry.names, apart]

theorem Aside.forgot : Aside p log (log ++ [.forgot p]) where
  reads r other _ := by
    rw [firstRead_concat]
    simp [Entry.forgets, Entry.reads, other.symm]
  lists i _ := by simp
  names i _ := by simp

end

/-- What an answer says: the manifest at a place, or at the root of its workspace, as it was when it
was first read since it was forgotten, and the members and their names as they were first found. -/
def Entry.Follows (dirs : Place → Option Path) (past : List (Entry σ)) : Entry σ → Prop
  | asked p files .manifest a => ∃ dir, dirs p = some dir ∧
    a = Package.load ((firstRead p past).getD files) dir
  | asked p files .rootManifest a => ∀ i, p.workspace? = some i → ∃ dir, dirs (.root i) = some dir ∧
    a = (Package.load ((firstRead (.root i) past).getD files) dir).mapError .config
  | asked p files .members a => ∀ i, p.workspace? = some i → ∃ dir, dirs (.root i) = some dir ∧
    a = (Workspace.memberDirs ((firstListing i past).getD files) dir).mapError .runtime
  | asked p files .memberNames a => ∀ i, p.workspace? = some i → ∃ dir, dirs (.root i) = some dir ∧
    a = ((Workspace.memberDirs ((firstListing i past).getD files) dir).map
      (Workspace.memberNames ((firstNaming i past).getD files))).mapError .runtime
  | _ => True

theorem Entry.Follows.mono {dirs dirs' : Place → Option Path} {past : List (Entry σ)} {e : Entry σ}
    (h : e.Follows dirs past) (grows : ∀ p dir, dirs p = some dir → dirs' p = some dir) :
    e.Follows dirs' past := by
  cases e with
  | forgot p => exact trivial
  | asked p files q a =>
    cases q with
    | manifest =>
      obtain ⟨dir, at_p, same⟩ := h
      exact ⟨dir, grows p dir at_p, same⟩
    | rootManifest | members | memberNames =>
      intro i inside
      obtain ⟨dir, at_root, same⟩ := h i inside
      exact ⟨dir, grows _ dir at_root, same⟩
    | _ => exact trivial

/-! ## Contexts in a session -/

namespace Context

theorem workspaceDir_eq_ok_iff {c : Context} {dir : Path} :
    c.workspaceDir = .ok dir ↔ ∃ w, c.workspace? = some w ∧ w.package.dir = dir := by
  unfold workspaceDir
  rcases c.workspace? with _ | w <;> simp

theorem inWorkspace_fst_of_workspace? {α : Type} {c : Context} {w : Workspace}
    (inside : c.workspace? = some w) {f : Workspace → Except RuleError α × Workspace} :
    (c.inWorkspace f).1 = (f w).1 := by
  cases c with
  | root w => cases inside; rfl
  | member p w => cases inside; rfl
  | standalone p => cases inside

/-- What a context keeps at a place is what the log says of the place. -/
inductive Keeps (log : List (Entry σ)) : Place → Context → Prop
  | root {i : Nat} {w : Workspace}
      (workspace : w.Keeps (firstRead (.root i) log) (firstListing i log) (firstNaming i log)) :
      Keeps log (.root i) (root w)
  | member {i j : Nat} {k : Package} {w : Workspace}
      (package : k.Keeps (firstRead (.member i j) log))
      (workspace : w.Keeps (firstRead (.root i) log) (firstListing i log) (firstNaming i log)) :
      Keeps log (.member i j) (member k w)
  | standalone {j : Nat} {k : Package} (package : k.Keeps (firstRead (.alone j) log)) :
      Keeps log (.alone j) (standalone k)

namespace Keeps

variable {log : List (Entry σ)} {p : Place} {c : Context}

theorem package (h : Keeps log p c) : c.package.Keeps (firstRead p log) := by
  cases h with
  | root workspace => exact workspace.package
  | member package _ => exact package
  | standalone package => exact package

theorem workspace (h : Keeps log p c) {i : Nat} (inside : p.workspace? = some i) :
    ∃ w, c.workspace? = some w ∧
      w.Keeps (firstRead (.root i) log) (firstListing i log) (firstNaming i log) := by
  cases h with
  | root workspace => cases inside; exact ⟨_, rfl, workspace⟩
  | member _ workspace => cases inside; exact ⟨_, rfl, workspace⟩
  | standalone _ => cases inside

/-- Only what a log says of the places counts. -/
theorem of_eq {log' : List (Entry σ)} (h : Keeps log p c)
    (reads : ∀ r, firstRead r log' = firstRead r log)
    (lists : ∀ i, firstListing i log' = firstListing i log)
    (names : ∀ i, firstNaming i log' = firstNaming i log) : Keeps log' p c := by
  cases h with
  | root workspace => exact .root (by rwa [reads, lists, names])
  | member package workspace => exact .member (by rwa [reads]) (by rwa [reads, lists, names])
  | standalone package => exact .standalone (by rwa [reads])

/-- What a context keeps after its workspace was asked. -/
theorem inWorkspace {α : Type} {f : Workspace → Except RuleError α × Workspace}
    {log' : List (Entry σ)} (h : Keeps log p c)
    (own : (∀ i, p ≠ .root i) → firstRead p log' = firstRead p log)
    (above : ∀ i w, p.workspace? = some i → (c.inWorkspace f).1 = (f w).1 →
      w.Keeps (firstRead (.root i) log) (firstListing i log) (firstNaming i log) →
      (f w).2.Keeps (firstRead (.root i) log') (firstListing i log') (firstNaming i log')) :
    Keeps log' p (c.inWorkspace f).2 := by
  cases h with
  | root workspace => exact .root (above _ _ rfl rfl workspace)
  | member package workspace =>
    exact .member ((own (by simp)).symm ▸ package) (above _ _ rfl rfl workspace)
  | standalone package => exact .standalone ((own (by simp)).symm ▸ package)

/-- A change of the package that concerns neither its directory nor its manifest. -/
theorem mapPackage (h : Keeps log p c) {f : Package → Package} (dir : ∀ k, (f k).dir = k.dir)
    (manifest : ∀ (first : Option σ) (k : Package), k.Keeps first → (f k).Keeps first) :
    Keeps log p (c.mapPackage f) := by
  cases h with
  | root workspace =>
    exact .root (workspace.withPackage (manifest _ _ workspace.package) (dir _))
  | member package workspace => exact .member (manifest _ _ package) workspace
  | standalone package => exact .standalone (manifest _ _ package)

theorem add (h : Keeps log p c) (severity : Severity) (finding : Finding) :
    Keeps log p (c.add severity finding) :=
  h.mapPackage (fun _ => rfl) fun _ _ keeps => keeps.add severity finding

theorem withoutFindings (h : Keeps log p c) : Keeps log p c.withoutFindings :=
  h.mapPackage (fun _ => rfl) fun _ _ keeps => keeps.withoutFindings

/-- What a context keeps after its manifest was read. -/
theorem manifest (h : Keeps log p c) (fs : σ) :
    Keeps (log ++ [.asked p fs .manifest (c.readManifest fs).1]) p (c.readManifest fs).2 := by
  cases h with
  | root workspace =>
    exact .root (by simpa [readManifest, Context.package] using workspace.readManifest fs)
  | member package workspace =>
    refine .member ?_ (by simpa using workspace)
    simpa [readManifest, Context.package] using package.readManifest_snd fs
  | standalone package =>
    exact .standalone (by simpa [readManifest, Context.package] using package.readManifest_snd fs)

/-- What a context keeps after an answer is what the log says with the answer. -/
theorem answer_snd (h : Keeps log p c) (fs : σ) (q : Question) :
    Keeps (log ++ [.asked p fs q (c.answer fs q).1]) p (c.answer fs q).2 := by
  cases q with
  | manifest => exact h.manifest fs
  | rootManifest =>
    refine h.inWorkspace (fun apart => ?_) fun i w inside given workspace => ?_
    · cases p <;> simp_all
    · simpa [answer, readRootManifest, inside, given] using workspace.readManifest fs
  | members =>
    refine h.inWorkspace (fun _ => by simp) fun i w inside given workspace => ?_
    simpa [answer, inside, given, membersOf] using workspace.readDirs_snd fs
  | memberNames =>
    refine h.inWorkspace (fun _ => by simp) fun i w inside given workspace => ?_
    simpa [answer, inside, given, namesOf] using workspace.readNames_snd fs
  | report severity finding =>
    exact (h.add severity finding).of_eq (fun _ => by simp) (fun _ => by simp) fun _ => by simp
  | _ => exact h.of_eq (fun _ => by simp) (fun _ => by simp) fun _ => by simp

section

variable {dirs : Place → Option Path} (above : ∀ i w, p.workspace? = some i →
  c.workspace? = some w → dirs (.root i) = some w.package.dir)

include above

/-- An answer about the workspace is one about the place of its root. -/
theorem inWorkspace_fst {α : Type} {f : Workspace → Except RuleError α × Workspace}
    {value : Nat → Path → Except RuleError α} (h : Keeps log p c)
    (gives : ∀ (i : Nat) (w : Workspace),
      w.Keeps (firstRead (.root i) log) (firstListing i log) (firstNaming i log) →
      (f w).1 = value i w.package.dir) (i : Nat) (inside : p.workspace? = some i) :
    ∃ dir, dirs (.root i) = some dir ∧ (c.inWorkspace f).1 = value i dir := by
  obtain ⟨w, found, keeps⟩ := h.workspace inside
  refine ⟨w.package.dir, above i w inside found, ?_⟩
  rw [inWorkspace_fst_of_workspace? found]
  exact gives i w keeps

/-- An answer says what follows from the log. -/
theorem answer_follows (h : Keeps log p c) (fs : σ) (q : Question) (own : dirs p = some c.dir) :
    (Entry.asked p fs q (c.answer fs q).1).Follows dirs log := by
  cases q with
  | manifest => exact ⟨c.dir, own, h.package.readManifest_fst fs⟩
  | rootManifest =>
    exact h.inWorkspace_fst above fun i w keeps =>
      congrArg (Except.mapError RuleError.config) (keeps.package.readManifest_fst fs)
  | members =>
    exact h.inWorkspace_fst above fun i w keeps =>
      congrArg (Except.mapError RuleError.runtime) (keeps.readDirs_fst fs)
  | memberNames =>
    exact h.inWorkspace_fst above fun i w keeps =>
      congrArg (Except.mapError RuleError.runtime) (keeps.readNames_fst fs)
  | _ => exact trivial

end

theorem forget (h : Keeps log p c) : Keeps (log ++ [.forgot p]) p c.forget := by
  cases h with
  | @root i w workspace =>
    exact .root (by simpa using workspace.withPackage (.forget w.package) rfl)
  | @member i j k w _ workspace =>
    exact .member (by simpa using Package.Keeps.forget k) (by simpa using workspace)
  | @standalone j k _ => exact .standalone (by simpa using Package.Keeps.forget k)

end Keeps

end Context

end WorkspaceLint
