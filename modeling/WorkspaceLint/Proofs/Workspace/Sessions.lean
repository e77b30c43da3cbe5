import Mathlib.Data.Set.Function
import WorkspaceLint.FileSystem.Tree
import WorkspaceLint.Proofs.Workspace.Logs

/-!
# Sessions

In a session contexts are opened, asked, checked and told to forget, while the files change behind
their backs.  The members of a workspace share what its root keeps.

Every step leaves a session *coherent*: what it keeps is what its log says
(`Session.Coherent.step`).  So all answers of a session follow from the log before them
(`Session.faithful_run`): a manifest is as it was when it was first read since it was forgotten, and
the members of a workspace and their names are as they were when they were first found.
-/

namespace WorkspaceLint

/-! ## What is kept in a session -/

/-- A context of the kind that a place is for. -/
inductive Context.StandsAt : Place → Context → Prop
  | root (i : Nat) (w : Workspace) : StandsAt (.root i) (root w)
  | member (i j : Nat) (k : Package) (w : Workspace) : StandsAt (.member i j) (member k w)
  | standalone (j : Nat) (k : Package) : StandsAt (.alone j) (standalone k)

theorem Context.StandsAt.workspace {p : Place} {c : Context} (h : c.StandsAt p) {i : Nat}
    (inside : p.workspace? = some i) : ∃ w, c.workspace? = some w := by
  cases h with
  | root _ w => exact ⟨w, rfl⟩
  | member _ _ _ w => exact ⟨w, rfl⟩
  | standalone _ _ => cases inside

/-- A session: the files as they are, what is kept of the packages and of the workspaces, and what
happened so far. -/
structure Session (σ : Type) where
  files : σ
  packages : Place → Option Package
  dirs : Nat → Option (List Path)
  names : Nat → Option (List (String × Path))
  log : List (Entry σ)

namespace Session

section

variable {σ : Type}

/-- The session in which nothing happened yet. -/
def start (files : σ) : Session σ :=
  ⟨files, fun _ => none, fun _ => none, fun _ => none, []⟩

/-- The workspace of a number, if its root was opened. -/
def workspace? (s : Session σ) (i : Nat) : Option Workspace :=
  (s.packages (.root i)).map fun k => ⟨k, s.dirs i, s.names i⟩

/-- The context at a place, if one was opened there. -/
def context? (s : Session σ) : Place → Option Context
  | .root i => (s.workspace? i).map .root
  | .member i j => do
    let k ← s.packages (.member i j)
    let w ← s.workspace? i
    return .member k w
  | .alone j => (s.packages (.alone j)).map .standalone

/-- The directory of the package at a place. -/
def dir? (s : Session σ) (p : Place) : Option Path := (s.packages p).map (·.dir)

/-- Keep a package at a place. -/
def setPackage (p : Place) (k : Package) (s : Session σ) : Session σ :=
  { s with packages := Function.update s.packages p (some k) }

/-- Keep a workspace. -/
def setWorkspace (i : Nat) (w : Workspace) (s : Session σ) : Session σ :=
  { s.setPackage (.root i) w.package with
    dirs := Function.update s.dirs i w.dirs
    names := Function.update s.names i w.names }

/-- Keep the package of a context at its place, and what it keeps of its workspace at the root. -/
def put : Place → Context → Session σ → Session σ
  | .root i, .root w, s => s.setWorkspace i w
  | .member i j, .member k w, s => (s.setWorkspace i w).setPackage (.member i j) k
  | p, c, s => s.setPackage p c.package

/-- Log what happened. -/
def note (e : Entry σ) (s : Session σ) : Session σ := { s with log := s.log ++ [e] }

/-- Put a context at a place that was not used before, if it could be opened. -/
def enter (p : Place) (r : Except ConfigError Context) (s : Session σ) : Session σ :=
  match s.packages p, r with
  | none, .ok c => s.put p c
  | _, _ => s

/-- Have the manifest of the package at a place read again. -/
def forget (p : Place) (s : Session σ) : Session σ :=
  match s.context? p with
  | some c => (s.put p c.forget).note (.forgot p)
  | none => s

/-- Take the findings at a place. -/
def takeFindings (p : Place) (s : Session σ) : Session σ :=
  match s.context? p with
  | some c => s.put p c.withoutFindings
  | none => s

end

/-! ### Putting contexts back -/

section

variable {σ : Type} {s : Session σ} {p : Place} {c c' : Context}

@[simp] theorem log_put (p : Place) (c : Context) (s : Session σ) : (s.put p c).log = s.log := by
  unfold put
  split <;> rfl

@[simp] theorem files_put (p : Place) (c : Context) (s : Session σ) :
    (s.put p c).files = s.files := by
  unfold put
  split <;> rfl

theorem packages_put (h : c.StandsAt p) (s : Session σ) (r : Place) :
    (s.put p c).packages r = if r = p then some c.package
      else if some r = p.workspace?.map .root then c.workspace?.map (·.package)
      else s.packages r := by
  cases h with
  | root i w =>
    by_cases at_root : r = .root i <;>
      simp [put, setWorkspace, setPackage, Context.package, at_root]
  | member i j k w =>
    simp [put, setWorkspace, setPackage, Function.update_apply, Context.package, Context.workspace?]
  | standalone j k => simp [put, setPackage, Function.update_apply, Context.package]

theorem workspace?_put (h : c.StandsAt p) (s : Session σ) (i : Nat) :
    (s.put p c).workspace? i =
      if p.workspace? = some i then c.workspace? else s.workspace? i := by
  cases h with
  | root j w =>
    by_cases same : i = j <;>
      simp [workspace?, put, setWorkspace, setPackage, Context.workspace?, same, eq_comm]
  | member j _ k w =>
    by_cases same : i = j <;>
      simp [workspace?, put, setWorkspace, setPackage, Context.workspace?, same, eq_comm]
  | standalone j k => simp [workspace?, put, setPackage]

/-- What was put at a place is there. -/
theorem context?_put (h : c.StandsAt p) (s : Session σ) : (s.put p c).context? p = some c := by
  have own := packages_put h s p
  have above := workspace?_put h s
  rw [if_pos rfl] at own
  cases h with
  | root i w => simp [context?, above, Context.workspace?]
  | member i j k w => simp [context?, own, above, Context.package, Context.workspace?]
  | standalone j k => simp [context?, own, Context.package]

theorem workspace?_eq_some_iff {i : Nat} {w : Workspace} : s.workspace? i = some w ↔
    s.packages (.root i) = some w.package ∧ s.dirs i = w.dirs ∧ s.names i = w.names := by
  obtain ⟨k, dirs, names⟩ := w
  rcases at_root : s.packages (.root i) with _ | k' <;> simp [workspace?, at_root]

theorem map_package_workspace? (s : Session σ) (i : Nat) :
    (s.workspace? i).map (·.package) = s.packages (.root i) := by
  rw [workspace?, Option.map_map]
  exact Option.map_id'

/-- What the context at a place is made of. -/
inductive Has (s : Session σ) : Place → Context → Prop
  | root {i : Nat} {w : Workspace} (found : s.workspace? i = some w) : Has s (.root i) (.root w)
  | member {i j : Nat} {k : Package} {w : Workspace} (own : s.packages (.member i j) = some k)
      (found : s.workspace? i = some w) : Has s (.member i j) (.member k w)
  | standalone {j : Nat} {k : Package} (own : s.packages (.alone j) = some k) :
      Has s (.alone j) (.standalone k)

theorem has_of_context? (here : s.context? p = some c) : s.Has p c := by
  cases p with
  | root i =>
    obtain ⟨w, found, rfl⟩ := Option.map_eq_some_iff.1 here
    exact .root found
  | member i j =>
    obtain ⟨k, own, there⟩ := Option.bind_eq_some_iff.1 here
    obtain ⟨w, found, same⟩ := Option.bind_eq_some_iff.1 there
    obtain rfl := Option.some.inj same
    exact .member own found
  | alone j =>
    obtain ⟨k, own, rfl⟩ := Option.map_eq_some_iff.1 here
    exact .standalone own

theorem Has.package (h : s.Has p c) : s.packages p = some c.package := by
  cases h with
  | root found => exact (workspace?_eq_some_iff.1 found).1
  | member own _ => exact own
  | standalone own => exact own

theorem Has.workspace (h : s.Has p c) {i : Nat} (inside : p.workspace? = some i) :
    s.workspace? i = c.workspace? := by
  cases h with
  | root found => cases inside; exact found
  | member _ found => cases inside; exact found
  | standalone _ => cases inside

theorem Has.dir (h : s.Has p c) : s.dir? p = some c.dir := by
  rw [dir?, h.package]
  rfl

theorem Has.root_dir (h : s.Has p c) {i : Nat} {w : Workspace} (inside : p.workspace? = some i)
    (above : c.workspace? = some w) : s.dir? (.root i) = some w.package.dir := by
  rw [dir?, (workspace?_eq_some_iff.1 ((h.workspace inside).trans above)).1]
  rfl

/-- Putting back a context as it was opened leaves the directories as they are. -/
theorem dir?_put (here : s.Has p c) (stands : c'.StandsAt p)
    (opened : c'.opened = c.opened) : (s.put p c').dir? = s.dir? := by
  funext r
  rw [dir?, packages_put stands]
  split
  case isTrue same =>
    rw [same, here.dir, ← Context.dir_opened, ← opened, Context.dir_opened]
    rfl
  split
  case isTrue own above =>
    obtain ⟨i, inside, rfl⟩ := Option.map_eq_some_iff.1 above.symm
    obtain ⟨w', found'⟩ := stands.workspace inside
    have there : c.workspaceDir = .ok w'.package.dir := by
      rw [← Context.workspaceDir_opened, ← opened, Context.workspaceDir_opened,
        Context.workspaceDir, found']
    obtain ⟨w, found, same⟩ := Context.workspaceDir_eq_ok_iff.1 there
    rw [here.root_dir inside found, found', same]
    rfl
  case isFalse => rfl

theorem setWorkspace_of_kept {i : Nat} {w : Workspace} (dirs : w.dirs = s.dirs i)
    (names : w.names = s.names i) : s.setWorkspace i w = s.setPackage (.root i) w.package := by
  unfold setWorkspace
  rw [dirs, names, Function.update_eq_self, Function.update_eq_self]
  rfl

theorem setPackage_of_kept {k : Package} (kept : s.packages p = some k) : s.setPackage p k = s := by
  unfold setPackage
  rw [← kept, Function.update_eq_self]

/-- What changes in a context with its package changes at its place only. -/
theorem put_mapPackage (here : s.Has p c) (f : Package → Package) :
    s.put p (c.mapPackage f) = s.setPackage p (f c.package) := by
  cases here with
  | root found =>
    obtain ⟨-, dirs, names⟩ := workspace?_eq_some_iff.1 found
    exact setWorkspace_of_kept dirs.symm names.symm
  | @member i j k w _ found =>
    obtain ⟨above, dirs, names⟩ := workspace?_eq_some_iff.1 found
    show (s.setWorkspace i w).setPackage (.member i j) (f k) = s.setPackage (.member i j) (f k)
    rw [setWorkspace_of_kept dirs.symm names.symm, setPackage_of_kept above]
  | standalone _ => rfl

/-- Forgetting a manifest changes nothing that is kept elsewhere, and nothing that is kept of a
workspace. -/
theorem forget_elsewhere (s : Session σ) (p : Place) :
    Set.EqOn (s.forget p).packages s.packages {p}ᶜ ∧ (s.forget p).dirs = s.dirs ∧
      (s.forget p).names = s.names := by
  unfold forget
  rcases here : s.context? p with _ | c
  · exact ⟨fun _ _ => rfl, rfl, rfl⟩
  · have only : s.put p c.forget = s.setPackage p c.package.forget :=
      put_mapPackage (has_of_context? here) Package.forget
    simp only [only]
    exact ⟨fun r other => Function.update_of_ne other _ _, rfl, rfl⟩

end

end Session

/-! ## Steps -/

variable {σ : Type} [FileSystem σ]

theorem Context.Keeps.stands {log : List (Entry σ)} {p : Place} {c : Context}
    (h : c.Keeps log p) : c.StandsAt p := by
  cases h with
  | root _ => exact .root _ _
  | member _ _ => exact .member _ _ _ _
  | standalone _ => exact .standalone _ _

namespace Session

/-- Ask the context at a place. -/
def ask (p : Place) (q : Question) (s : Session σ) : Session σ :=
  match s.context? p with
  | some c =>
    let r := c.answer s.files q
    (s.put p r.2).note (.asked p s.files q r.1)
  | none => s

/-- Run a program that asks the context at a place. -/
def probe {α : Type} (p : Place) : Probe α → Session σ → Session σ
  | .done _, s => s
  | .ask q next, s =>
    match s.context? p with
    | some c => probe p (next (c.answer s.files q).1) (s.ask p q)
    | none => s

end Session

/-- What can happen in a session. -/
inductive Step (σ : Type) where
  /-- Open the root of a workspace. -/
  | openWorkspace (i : Nat) (dir : Path)
  /-- Open a package inside a workspace. -/
  | openMember (i j : Nat) (dir : Path)
  /-- Open a package without a workspace. -/
  | openPackage (j : Nat) (dir : Path)
  /-- Ask a context. -/
  | ask (p : Place) (q : Question)
  /-- Check a package. -/
  | check (p : Place) (check : Check Unit)
  /-- Forget the manifest of a package. -/
  | forget (p : Place)
  /-- Take the findings on a package. -/
  | takeFindings (p : Place)
  /-- Change the files. -/
  | files (files : σ)

namespace Session

/-- The session after a step. -/
def step (s : Session σ) : Step σ → Session σ
  | .openWorkspace i dir => s.enter (.root i) (Context.openWorkspace s.files dir)
  | .openMember i j dir =>
    match s.context? (.root i) with
    | some c => s.enter (.member i j) (c.createChild s.files dir)
    | none => s
  | .openPackage j dir => s.enter (.alone j) (Context.openPackage s.files dir)
  | .ask p q => s.ask p q
  | .check p check => s.probe p (ExceptT.run check)
  | .forget p => s.forget p
  | .takeFindings p => s.takeFindings p
  | .files files => { s with files }

/-- The session after some steps. -/
def run (s : Session σ) (steps : List (Step σ)) : Session σ := steps.foldl step s

/-- All answers say what follows from the log before them. -/
def Faithful (s : Session σ) : Prop :=
  ∀ past e future, s.log = past ++ e :: future → e.Follows s.dir? past

section

variable {s : Session σ} {p : Place} {c c' : Context} {log log' : List (Entry σ)}

/-- What a session keeps is what the log says; nothing is known of what was never opened. -/
structure Keeps (log : List (Entry σ)) (s : Session σ) : Prop where
  packages : ∀ p, (s.packages p).elim (firstRead p log = none) (·.Keeps (firstRead p log))
  workspaces : ∀ i, (s.workspace? i).elim (firstListing i log = none ∧ firstNaming i log = none)
    (·.Keeps (firstRead (.root i) log) (firstListing i log) (firstNaming i log))

namespace Keeps

theorem package (h : s.Keeps log) {k : Package} (here : s.packages p = some k) :
    k.Keeps (firstRead p log) := by
  have keeps := h.packages p
  rwa [here] at keeps

theorem workspace (h : s.Keeps log) {i : Nat} {w : Workspace} (here : s.workspace? i = some w) :
    w.Keeps (firstRead (.root i) log) (firstListing i log) (firstNaming i log) := by
  have keeps := h.workspaces i
  rwa [here] at keeps

/-- Nothing was read where no context was opened. -/
theorem fresh_package (h : s.Keeps log) (vacant : s.packages p = none) (dir : Path) :
    (Package.fresh dir).Keeps (firstRead p log) := by
  have unread := h.packages p
  rw [vacant] at unread
  rw [show firstRead p log = none from unread]
  exact .fresh dir

theorem fresh_workspace (h : s.Keeps log) {i : Nat} (vacant : s.packages (.root i) = none)
    (dir : Path) : (Workspace.fresh dir).Keeps (firstRead (.root i) log) (firstListing i log)
      (firstNaming i log) := by
  have unlisted := h.workspaces i
  rw [workspace?, vacant] at unlisted
  obtain ⟨listing, naming⟩ := unlisted
  rw [listing, naming]
  exact ⟨h.fresh_package vacant dir, .none, .none⟩

theorem context (h : s.Keeps log) (here : s.Has p c) : c.Keeps log p := by
  cases here with
  | root found => exact .root (h.workspace found)
  | member own found => exact .member (h.package own) (h.workspace found)
  | standalone own => exact .standalone (h.package own)

theorem note (h : s.Keeps log) (e : Entry σ) : (s.note e).Keeps log := ⟨h.packages, h.workspaces⟩

/-- A context that keeps what the log says is put back, and nothing else changed. -/
theorem put (h : s.Keeps log) (keeps : c.Keeps log' p) (aside : Aside p log log') :
    (s.put p c).Keeps log' where
  packages r := by
    rw [packages_put keeps.stands]
    split
    case isTrue same => exact same ▸ keeps.package
    split
    case isTrue own above =>
      obtain ⟨i, inside, rfl⟩ := Option.map_eq_some_iff.1 above.symm
      obtain ⟨w, found, kept⟩ := keeps.workspace inside
      rw [found]
      exact kept.package
    case isFalse other apart =>
      rw [aside.reads r other apart]
      exact h.packages r
  workspaces i := by
    rw [workspace?_put keeps.stands]
    split
    case isTrue inside =>
      obtain ⟨w, found, kept⟩ := keeps.workspace inside
      rw [found]
      exact kept
    case isFalse apart =>
      have other : Place.root i ≠ p := by
        rintro rfl
        exact apart rfl
      have above : some (Place.root i) ≠ p.workspace?.map .root := by
        intro above
        obtain ⟨j, inside, same⟩ := Option.map_eq_some_iff.1 above.symm
        cases same
        exact apart inside
      rw [aside.reads _ other above, aside.lists i apart, aside.names i apart]
      exact h.workspaces i

end Keeps

namespace Faithful

/-- A session in which nothing new happened is faithful as before, also when it has new places. -/
theorem grow {s s' : Session σ} (h : s.Faithful) (log : s'.log = s.log)
    (grows : ∀ p dir, s.dir? p = some dir → s'.dir? p = some dir) : s'.Faithful := by
  intro past e future whole
  exact (h past e future (log ▸ whole)).mono grows

theorem note (h : s.Faithful) {e : Entry σ} (follows : e.Follows s.dir? s.log) :
    (s.note e).Faithful := by
  intro past e' future whole
  rcases List.eq_nil_or_concat future with rfl | ⟨future, last, rfl⟩
  · obtain ⟨same, last⟩ := List.append_inj' whole rfl
    obtain rfl := List.singleton_inj.1 last
    exact same ▸ follows
  · rw [List.concat_eq_append, ← List.cons_append, ← List.append_assoc] at whole
    exact h past e' future (List.append_inj' whole rfl).1

end Faithful

/-- What a session keeps is what its log says, and so is what was answered. -/
structure Coherent (s : Session σ) : Prop where
  keeps : s.Keeps s.log
  faithful : s.Faithful

namespace Coherent

theorem start (files : σ) : (Session.start files).Coherent where
  keeps := ⟨fun _ => rfl, fun _ => ⟨rfl, rfl⟩⟩
  faithful past e future whole := by
    have impossible := congrArg List.length whole
    simp [Session.start] at impossible

/-- A context is put back as it was opened, keeping what its log says. -/
theorem put (h : s.Coherent) (here : s.Has p c) (keeps : c'.Keeps s.log p)
    (opened : c'.opened = c.opened) : (s.put p c').Coherent where
  keeps := by
    rw [log_put]
    exact h.keeps.put keeps (.refl p s.log)
  faithful := by
    refine h.faithful.grow (log_put p c' s) fun r dir found => ?_
    rwa [dir?_put here keeps.stands opened]

/-- The same when something happened that is logged. -/
theorem note_put (h : s.Coherent) (here : s.Has p c) {e : Entry σ}
    (keeps : c'.Keeps (s.log ++ [e]) p) (opened : c'.opened = c.opened)
    (aside : Aside p s.log (s.log ++ [e])) (follows : e.Follows s.dir? s.log) :
    ((s.put p c').note e).Coherent where
  keeps := by
    have log : ((s.put p c').note e).log = s.log ++ [e] := congrArg (· ++ [e]) (log_put p c' s)
    rw [log]
    exact (h.keeps.put keeps aside).note e
  faithful := by
    refine (h.faithful.note follows).grow (congrArg (· ++ [e]) (log_put p c' s)) ?_
    intro r dir found
    show (s.put p c').dir? r = some dir
    rwa [dir?_put here keeps.stands opened]

/-- A context is put where none was before. -/
theorem enter (h : s.Coherent) {r : Except ConfigError Context}
    (keeps : ∀ c, s.packages p = none → r = .ok c → c.Keeps s.log p)
    (shared : ∀ c i, r = .ok c → p.workspace? = some i → p ≠ .root i →
      c.workspace? = s.workspace? i) : (s.enter p r).Coherent := by
  unfold Session.enter
  split
  case h_2 => exact h
  case h_1 c vacant =>
    have context := keeps c vacant rfl
    refine ⟨?_, h.faithful.grow (log_put p c s) ?_⟩
    · rw [log_put]
      exact h.keeps.put context (.refl p s.log)
    · intro r dir found
      rw [dir?, packages_put context.stands]
      split
      case isTrue same => rw [same, dir?, vacant] at found; cases found
      split
      case isTrue own above =>
        obtain ⟨i, inside, rfl⟩ := Option.map_eq_some_iff.1 above.symm
        rw [shared c i rfl inside (Ne.symm own), map_package_workspace?]
        exact found
      case isFalse => exact found

theorem ask (h : s.Coherent) (p : Place) (q : Question) : (s.ask p q).Coherent := by
  unfold Session.ask
  rcases here : s.context? p with _ | c
  · exact h
  · have here := has_of_context? here
    have context := h.keeps.context here
    exact h.note_put here (context.answer_snd s.files q) (c.opened_answer_snd s.files q)
      (.asked p s.log s.files q _)
      (context.answer_follows (fun i w inside => here.root_dir inside) s.files q here.dir)

theorem probe {α : Type} (h : s.Coherent) (p : Place) (program : Probe α) :
    (s.probe p program).Coherent := by
  induction program generalizing s with
  | done a => exact h
  | ask q next ih =>
    unfold Session.probe
    rcases s.context? p with _ | c
    · exact h
    · exact ih _ (h.ask p q)

/-- A program leaves the context at a place as it does outside of a session. -/
theorem context?_probe {α : Type} (h : s.Coherent) (p : Place) (program : Probe α) :
    (s.probe p program).context? p = (s.context? p).map fun c => (program.run s.files c).2 := by
  induction program generalizing s with
  | done a => exact Option.map_id'.symm
  | ask q next ih =>
    rcases here : s.context? p with _ | c
    · simp only [Session.probe, here]
      rfl
    · have asked : s.ask p q = (s.put p (c.answer s.files q).2).note
          (.asked p s.files q (c.answer s.files q).1) := by simp only [Session.ask, here]
      have stands := ((h.keeps.context (has_of_context? here)).answer_snd s.files q).stands
      have files : (s.ask p q).files = s.files := by
        rw [asked]
        exact files_put p _ s
      have left : (s.ask p q).context? p = some (c.answer s.files q).2 := by
        rw [asked]
        exact context?_put stands s
      have rest := ih (c.answer s.files q).1 (h.ask p q)
      rw [left, files] at rest
      simp only [Session.probe, here]
      exact rest

theorem forget (h : s.Coherent) (p : Place) : (s.forget p).Coherent := by
  unfold Session.forget
  rcases here : s.context? p with _ | c
  · exact h
  · have here := has_of_context? here
    exact h.note_put here (h.keeps.context here).forget c.opened_forget (.forgot p s.log) trivial

theorem takeFindings (h : s.Coherent) (p : Place) : (s.takeFindings p).Coherent := by
  unfold Session.takeFindings
  rcases here : s.context? p with _ | c
  · exact h
  · have here := has_of_context? here
    exact h.put here (h.keeps.context here).withoutFindings c.opened_withoutFindings

/-- What a session keeps stays what its log says, whatever happens next. -/
theorem step (h : s.Coherent) (next : Step σ) : (s.step next).Coherent := by
  cases next with
  | openWorkspace i dir =>
    refine h.enter (fun c vacant opened => ?_) fun c j _ inside other => ?_
    · obtain ⟨-, rfl⟩ := Context.openWorkspace_eq_ok_iff.1 opened
      exact .root (h.keeps.fresh_workspace vacant dir)
    · cases inside
      exact absurd rfl other
  | openMember i j dir =>
    simp only [Session.step]
    rcases here : s.context? (.root i) with _ | c
    · exact h
    obtain @⟨_, w, found⟩ := has_of_context? here
    refine h.enter (fun c vacant opened => ?_) fun c i' opened inside _ => ?_
    · obtain ⟨-, rfl⟩ := Context.createChild_eq_ok_iff.1 opened
      exact .member (h.keeps.fresh_package vacant dir) (h.keeps.workspace found)
    · obtain ⟨-, rfl⟩ := Context.createChild_eq_ok_iff.1 opened
      cases inside
      exact found.symm
  | openPackage j dir =>
    refine h.enter (fun c vacant opened => ?_) fun c i _ inside _ => ?_
    · obtain ⟨-, rfl⟩ := Context.openPackage_eq_ok_iff.1 opened
      exact .standalone (h.keeps.fresh_package vacant dir)
    · cases inside
  | ask p q => exact h.ask p q
  | check p check => exact h.probe p (ExceptT.run check)
  | forget p => exact h.forget p
  | takeFindings p => exact h.takeFindings p
  | files files => exact ⟨⟨h.keeps.packages, h.keeps.workspaces⟩, h.faithful⟩

theorem run (h : s.Coherent) (steps : List (Step σ)) : (s.run steps).Coherent := by
  induction steps generalizing s with
  | nil => exact h
  | cons next steps ih => exact ih (h.step next)

end Coherent

/-- Whatever happens in a session, all answers say what follows from the log before them: a manifest
is as it was when it was first read since it was forgotten, be it asked for at its own place or at
another one of the workspace, and the members and their names are as they were first found.  What is
forgotten at one place is kept at all others, and a check leaves its context as it does outside of
the session. -/
theorem faithful_run (files : σ) (steps : List (Step σ)) :
    ((start files).run steps).Faithful ∧
      (∀ p, Set.EqOn (((start files).run steps).forget p).packages
          ((start files).run steps).packages {p}ᶜ ∧
        (((start files).run steps).forget p).dirs = ((start files).run steps).dirs ∧
        (((start files).run steps).forget p).names = ((start files).run steps).names) ∧
      ∀ p (check : Check Unit), (((start files).run steps).step (.check p check)).context? p =
        (((start files).run steps).context? p).map fun c =>
          (check.run ((start files).run steps).files c).2 := by
  have coherent := (Coherent.start files).run steps
  exact ⟨coherent.faithful, fun p => forget_elsewhere _ p, fun p check =>
    coherent.context?_probe p (ExceptT.run check)⟩

-- The manifest is no JSON at first.  The name it gets last is not seen before it was forgotten.
example :
    let at_a : Place := .alone 0
    let text (t : String) := Step.files (Tree.empty.withFile ⟨"/a/package.json"⟩ t)
    ((start Tree.empty).run [text "\x7b", .openPackage 0 ⟨"/a"⟩, .ask at_a .manifest,
      text "\x7b\"name\":\"a\"\x7d", .ask at_a .manifest, text "\x7b\"name\":\"b\"\x7d",
      .ask at_a .manifest, .forget at_a, .ask at_a .manifest]).log.filterMap (fun
        | .asked _ _ .manifest m => some (m.toOption.bind Manifest.name?)
        | _ => none) = [none, some "a", some "a", some "b"] := by decide +kernel

end

end Session

end WorkspaceLint
