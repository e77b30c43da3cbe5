import Mathlib.Data.List.Induction
import Mathlib.Data.Set.List
import WorkspaceLint.Proofs.FileSystem.Entries
import WorkspaceLint.Proofs.Json.Depth
import WorkspaceLint.Proofs.Rule.Settled

/-!
# Fixers applied twice

A change is about one path only, so a fixer is followed path by path: `FixOp.editsAt` says what a
change does to the entry at a path, and `Edited` what edits make of an entry (`edited_of_applied`).
Editing an entry twice is editing it once (`Edited.twice`).  After a removal nothing of the entry
before is left, and after a write only its spelling; edits that only set keys read what they wrote,
which is why the documents have to be readable without loss.
-/

namespace WorkspaceLint

/-! ## Setting several keys -/

namespace Members

/-- Set keys one after the other. -/
def insertAll (kvs : List (String × Json)) (ms : Members) : Members :=
  kvs.foldl (fun ms kv => insert kv.1 kv.2 ms) ms

theorem keys_subset_keys_insert (key : String) (value : Json) (ms : Members) :
    keys ms ⊆ keys (insert key value ms) := fun _ there => mem_keys_insert.2 (.inr there)

theorem keys_subset_keys_insertAll (kvs : List (String × Json)) (ms : Members) :
    keys ms ⊆ keys (insertAll kvs ms) := by
  induction kvs generalizing ms with
  | nil => exact List.Subset.refl _
  | cons kv kvs ih => exact List.Subset.trans (keys_subset_keys_insert kv.1 kv.2 ms) (ih _)

theorem mem_keys_insertAll {kvs : List (String × Json)} {ms : Members} {kv : String × Json}
    (h : kv ∈ kvs) : kv.1 ∈ keys (insertAll kvs ms) := by
  induction kvs generalizing ms with
  | nil => cases h
  | cons kv' kvs ih =>
    rcases List.mem_cons.1 h with rfl | later
    · exact keys_subset_keys_insertAll kvs _ (mem_keys_insert.2 (.inl rfl))
    · exact ih later

/-- A key that is there is set in place, before or after another one. -/
theorem insert_comm {key other : String} (value value' : Json) {ms : Members}
    (there : other ∈ keys ms) (ne : other ≠ key) :
    insert other value' (insert key value ms) = insert key value (insert other value' ms) := by
  induction ms with
  | nil => cases there
  | cons m ms ih =>
    obtain ⟨k, v⟩ := m
    by_cases here : k = other
    · subst here
      simp only [insert, if_pos, if_neg ne]
    · have later : other ∈ keys ms := (List.mem_cons.1 there).resolve_left (Ne.symm here)
      by_cases same : k = key
      · subst same
        simp only [insert, if_pos, if_neg here]
      · simp only [insert, if_neg here, if_neg same, ih later]

/-- What a key was set to before does not matter where it is set at last. -/
theorem insert_insertAll_insert (key : String) (value : Json) {kvs : List (String × Json)}
    {ms : Members} (there : ∀ kv ∈ kvs, kv.1 ∈ keys ms) :
    insert key value (insertAll kvs (insert key value ms)) =
      insert key value (insertAll kvs ms) := by
  induction kvs generalizing ms with
  | nil => exact insert_insert key value value ms
  | cons kv kvs ih =>
    obtain ⟨first, rest⟩ := List.forall_mem_cons.1 there
    show insert key value (insertAll kvs (insert kv.1 kv.2 (insert key value ms))) =
      insert key value (insertAll kvs (insert kv.1 kv.2 ms))
    by_cases same : kv.1 = key
    · rw [same, insert_insert]
    · rw [insert_comm value kv.2 first same]
      exact ih fun kv' later => keys_subset_keys_insert _ _ _ (rest kv' later)

/-- Setting the same keys again changes nothing. -/
theorem insertAll_insertAll (kvs : List (String × Json)) (ms : Members) :
    insertAll kvs (insertAll kvs ms) = insertAll kvs ms := by
  induction kvs using List.reverseRecOn with
  | nil => rfl
  | append_singleton kvs kv ih =>
    have last (ms : Members) : insertAll (kvs ++ [kv]) ms = insert kv.1 kv.2 (insertAll kvs ms) :=
      List.foldl_append
    have there : ∀ kv' ∈ kvs, kv'.1 ∈ keys (insertAll kvs ms) := fun kv' => mem_keys_insertAll
    rw [last, last, insert_insertAll_insert kv.1 kv.2 there, ih]

end Members

/-- Keys that are set to plain values keep an object plain. -/
theorem Json.Plain.insertAll {depth : Nat} {kvs : List (String × Json)} {ms : Members}
    (h : (object ms).Plain (depth + 1)) (values : ∀ kv ∈ kvs, kv.2.Plain depth) :
    (object (Members.insertAll kvs ms)).Plain (depth + 1) := by
  induction kvs generalizing ms with
  | nil => exact h
  | cons kv kvs ih =>
    obtain ⟨first, later⟩ := List.forall_mem_cons.1 values
    exact ih (h.insert first) later

/-! ## Edits of one entry -/

/-- What a change does to the entry at its path. -/
inductive Edit where
  | put (path : Path) (contents : String)
  | set (key : String) (value : Json)
  | clear

/-- The edit that a change makes at a path: none, unless the change is about that path. -/
def FixOp.editsAt (p : Path) : FixOp → List Edit
  | writeJson q value => if q.same p then [.put q value.canonical] else []
  | setJsonKey q key value => if q.same p then [.set key value] else []
  | writeFile q contents => if q.same p then [.put q contents] else []
  | createDirs _ => []
  | removeFile q => if q.same p then [.clear] else []

/-- A key is set at a path only by a change that sets it there. -/
theorem FixOp.eq_of_set_mem_editsAt {p : Path} {op : FixOp} {key : String} {value : Json}
    (h : Edit.set key value ∈ op.editsAt p) :
    ∃ q, op = .setJsonKey q key value ∧ q.same p = true := by
  cases op with
  | setJsonKey q key' value' =>
    rw [editsAt] at h
    split at h
    · rename_i here
      cases List.mem_singleton.1 h
      exact ⟨q, rfl, here⟩
    · cases h
  | createDirs q => cases h
  | writeJson q _ | writeFile q _ | removeFile q =>
    rw [editsAt] at h
    split at h
    · cases List.mem_singleton.1 h
    · cases h

/-- What edits make of an entry.  Contents that are put there take the spelling that is there, and a
key is only set in a JSON object. -/
inductive Edited : Option (Path × String) → List Edit → Option (Path × String) → Prop where
  | nil (e : Option (Path × String)) : Edited e [] e
  | put {e e' : Option (Path × String)} {p : Path} {contents : String} {es : List Edit}
      (rest : Edited (some ((e.map Prod.fst).getD p, contents)) es e') :
      Edited e (.put p contents :: es) e'
  | set {e' : Option (Path × String)} {p : Path} {contents key : String} {value : Json}
      {ms : Members} {es : List Edit} (reads : Json.parse contents = .ok (.object ms))
      (rest : Edited (some (p, (Json.object (Members.insert key value ms)).canonical)) es e') :
      Edited (some (p, contents)) (.set key value :: es) e'
  | clear {e e' : Option (Path × String)} {es : List Edit} (rest : Edited none es e') :
      Edited e (.clear :: es) e'

namespace Edited

variable {e e' a b : Option (Path × String)} {es : List Edit}

theorem append {es' : List Edit} (h : Edited e es a) (h' : Edited a es' b) :
    Edited e (es ++ es') b := by
  induction h with
  | nil e => exact h'
  | put rest ih => exact .put (ih h')
  | set reads rest ih => exact .set reads (ih h')
  | clear rest ih => exact .clear (ih h')

theorem unique (h : Edited e es a) (h' : Edited e es b) : a = b := by
  induction h with
  | nil e =>
    cases h'
    rfl
  | put rest ih =>
    cases h' with
    | put rest' => exact ih rest'
  | set reads rest ih =>
    cases h' with
    | set reads' rest' =>
      rw [reads] at reads'
      cases reads'
      exact ih rest'
  | clear rest ih =>
    cases h' with
    | clear rest' => exact ih rest'

/-- After a removal nothing is left of the entry before. -/
theorem eq_of_clear (h : Edited e es a) (h' : Edited e' es b) (cleared : Edit.clear ∈ es) :
    a = b := by
  induction h generalizing e' with
  | nil e => cases cleared
  | put rest ih =>
    cases h' with
    | put rest' => exact ih rest' ((List.mem_cons.1 cleared).resolve_left nofun)
  | set reads rest ih =>
    cases h' with
    | set reads' rest' => exact ih rest' ((List.mem_cons.1 cleared).resolve_left nofun)
  | clear rest ih =>
    cases h' with
    | clear rest' => exact rest.unique rest'

/-- The contents after edits depend on the contents before only. -/
theorem contents_congr (h : Edited e es a) (h' : Edited e' es b)
    (same : e.map Prod.snd = e'.map Prod.snd) : a.map Prod.snd = b.map Prod.snd := by
  induction h generalizing e' with
  | nil e =>
    cases h'
    exact same
  | put rest ih =>
    cases h' with
    | put rest' => exact ih rest' rfl
  | set reads rest ih =>
    cases h' with
    | set reads' rest' =>
      obtain rfl := Option.some.inj same
      rw [reads] at reads'
      cases reads'
      exact ih rest' rfl
  | clear rest ih =>
    cases h' with
    | clear rest' => exact ih rest' rfl

/-- After a write nothing is left of the contents before. -/
theorem contents_eq_of_put (h : Edited e es a) (h' : Edited e' es b) {p : Path} {contents : String}
    (written : Edit.put p contents ∈ es) : a.map Prod.snd = b.map Prod.snd := by
  induction h generalizing e' with
  | nil e => cases written
  | put rest ih =>
    cases h' with
    | put rest' => exact rest.contents_congr rest' rfl
  | set reads rest ih =>
    cases h' with
    | set reads' rest' => exact ih rest' ((List.mem_cons.1 written).resolve_left nofun)
  | clear rest ih =>
    cases h' with
    | clear rest' => exact ih rest' ((List.mem_cons.1 written).resolve_left nofun)

/-- Without a removal an entry keeps its spelling. -/
theorem spelling_kept {p : Path} {contents : String} (h : Edited (some (p, contents)) es a)
    (kept : Edit.clear ∉ es) : ∃ contents', a = some (p, contents') := by
  generalize hs : some (p, contents) = start at h
  induction h generalizing contents with
  | nil e => exact ⟨contents, hs.symm⟩
  | put rest ih =>
    subst hs
    exact ih (fun later => kept (List.mem_cons_of_mem _ later)) rfl
  | set reads rest ih =>
    obtain ⟨rfl, -⟩ := Prod.mk.inj (Option.some.inj hs)
    exact ih (fun later => kept (List.mem_cons_of_mem _ later)) rfl
  | clear rest ih => exact absurd List.mem_cons_self kept

/-- Edits that keep the contents of an entry keep the entry, unless they remove it. -/
theorem eq_of_contents_eq (h : Edited e es a) (kept : Edit.clear ∉ es)
    (same : a.map Prod.snd = e.map Prod.snd) : a = e := by
  rcases e with _ | ⟨p, contents⟩
  · simpa using same
  · obtain ⟨contents', rfl⟩ := h.spelling_kept kept
    exact congrArg some (Prod.ext rfl (Option.some.inj same))

/-- Setting keys in a plain object leads to the canonical text of the object with the keys set: what
one edit writes, the next one reads. -/
theorem eq_of_sets {p : Path} {contents : String} {ms : Members} {depth : Nat}
    {kvs : List (String × Json)} (some : kvs ≠ [])
    (h : Edited (.some (p, contents)) (kvs.map fun kv => .set kv.1 kv.2) a)
    (reads : Json.parse contents = .ok (.object ms)) (plain : (Json.object ms).Plain (depth + 1))
    (values : ∀ kv ∈ kvs, kv.2.Plain depth) :
    a = .some (p, (Json.object (Members.insertAll kvs ms)).canonical) := by
  induction kvs generalizing contents ms with
  | nil => exact absurd rfl some
  | cons kv kvs ih =>
    obtain ⟨first, later⟩ := List.forall_mem_cons.1 values
    have next : (Json.object (Members.insert kv.1 kv.2 ms)).Plain (depth + 1) := plain.insert first
    cases h with
    | set reads' rest =>
      rw [reads] at reads'
      cases reads'
      cases kvs with
      | nil =>
        cases rest
        rfl
      | cons kv' kvs =>
        refine ih (List.cons_ne_nil _ _) rest ?_ next later
        cases rest with
        | set reads'' _ => rw [reads'', next.eq_of_parse_canonical reads'']

/-- Setting keys again changes nothing: each round starts from an object that is read without
loss. -/
theorem twice_of_sets {kvs : List (String × Json)} {depth : Nat}
    (first : Edited e (kvs.map fun kv => .set kv.1 kv.2) a)
    (second : Edited a (kvs.map fun kv => .set kv.1 kv.2) b)
    (values : ∀ kv ∈ kvs, kv.2.Plain depth)
    (free : kvs ≠ [] → ∀ p contents ms, e = some (p, contents) →
      Json.parse contents = .ok (.object ms) → (Json.object ms).floatFree = true) : b = a := by
  cases kvs with
  | nil =>
    cases second
    rfl
  | cons kv kvs =>
    have some : kv :: kvs ≠ [] := List.cons_ne_nil kv kvs
    have plain : ∀ kv' ∈ kv :: kvs, kv'.2.Plain (max depth Json.Reader.nestingLimit) :=
      fun kv' member => (values kv' member).mono (Nat.le_max_left ..)
    cases first with
    | @set _ p contents key value ms es reads rest =>
      have object : (Json.object ms).Plain (max depth Json.Reader.nestingLimit + 1) := by
        have own : (Json.object ms).Plain Json.Reader.nestingLimit :=
          ⟨Json.legible_of_parse reads, free some _ _ _ rfl reads⟩
        exact own.mono (Nat.le_succ_of_le (Nat.le_max_right ..))
      have once := eq_of_sets some (.set reads rest) reads object plain
      subst once
      have result := object.insertAll plain
      cases second with
      | set reads' rest' =>
        obtain rfl := Json.object.inj (result.eq_of_parse_canonical reads')
        have again := eq_of_sets some (.set reads' rest') reads' result plain
        rw [again, Members.insertAll_insertAll]

/-- Editing an entry twice is editing it once. -/
theorem twice {depth : Nat} (first : Edited e es a) (second : Edited a es b)
    (values : ∀ key value, Edit.set key value ∈ es → value.Plain depth)
    (free : ∀ key value, Edit.set key value ∈ es → ∀ p contents ms, e = some (p, contents) →
      Json.parse contents = .ok (.object ms) → (Json.object ms).floatFree = true) : b = a := by
  by_cases cleared : Edit.clear ∈ es
  · exact second.eq_of_clear first cleared
  by_cases written : ∃ p contents, Edit.put p contents ∈ es
  · obtain ⟨p, contents, written⟩ := written
    exact second.eq_of_contents_eq cleared (second.contents_eq_of_put first written)
  -- What is left sets keys only.
  have all : es ∈ Set.range (List.map fun kv : String × Json => Edit.set kv.1 kv.2) := by
    rw [Set.range_list_map]
    intro edit member
    cases edit with
    | put p contents => exact absurd ⟨p, contents, member⟩ written
    | set key value => exact ⟨(key, value), rfl⟩
    | clear => exact absurd member cleared
  obtain ⟨kvs, rfl⟩ := all
  refine twice_of_sets first second
    (fun kv member => values kv.1 kv.2 (List.mem_map_of_mem member)) fun some => ?_
  obtain ⟨kv, rest, rfl⟩ := List.exists_cons_of_ne_nil some
  exact free kv.1 kv.2 List.mem_cons_self

end Edited

/-! ## Changes of trees -/

namespace Tree

variable {t t' : Tree} {q : Path}

/-- A write that succeeds stores the contents. -/
theorem Ordered.edited_of_write (ordered : t.Ordered) {contents : String}
    (made : FileSystem.write t q contents = .ok t') :
    t'.Ordered ∧ ∀ p,
      Edited (t.stored? p) (if q.same p then [.put q contents] else []) (t'.stored? p) := by
  obtain ⟨-, -, rfl⟩ := write_eq_ok_iff.1 made
  refine ⟨ordered.withFile q contents, fun p => ?_⟩
  rw [ordered.stored?_withFile]
  split
  · exact .put (.nil _)
  · exact .nil _

theorem Ordered.edited_of_setJsonKey (ordered : t.Ordered) {key : String} {value : Json}
    (made : (FixOp.setJsonKey q key value).apply t = .ok t') :
    t'.Ordered ∧
      ∀ p, Edited (t.stored? p) ((FixOp.setJsonKey q key value).editsAt p) (t'.stored? p) := by
  obtain ⟨v, read, made⟩ := bind_eq_ok_iff.1 made
  cases v with
  | object ms =>
    obtain ⟨contents, stored, reads⟩ := readJson_eq_ok_iff.1 read
    obtain ⟨-, -, rfl⟩ := write_eq_ok_iff.1 made
    refine ⟨ordered.withFile q _, fun p => ?_⟩
    rw [ordered.stored?_withFile, FixOp.editsAt]
    split
    · rename_i here
      rw [contents?_congr (Path.same_iff.1 here), contents?_eq_stored?] at stored
      obtain ⟨⟨r, contents⟩, entry, rfl⟩ := Option.map_eq_some_iff.1 stored
      rw [entry]
      exact .set reads (.nil _)
    · exact .nil _
  | _ => cases made

theorem Ordered.edited_of_createDirs (ordered : t.Ordered)
    (made : (FixOp.createDirs q).apply t = .ok t') :
    t'.Ordered ∧ ∀ p, Edited (t.stored? p) [] (t'.stored? p) := by
  simp only [FixOp.apply] at made
  split at made
  · rw [← Except.ok.inj made]
    exact ⟨ordered, fun p => .nil _⟩
  · have created : t.makeDir q true = .ok t' := made
    unfold makeDir at created
    split at created
    · cases created
    · rw [← Except.ok.inj created]
      exact ⟨ordered.withDir q, fun p => .nil _⟩

theorem Ordered.edited_of_removeFile (ordered : t.Ordered)
    (made : (FixOp.removeFile q).apply t = .ok t') :
    t'.Ordered ∧ ∀ p, Edited (t.stored? p) ((FixOp.removeFile q).editsAt p) (t'.stored? p) := by
  simp only [FixOp.apply] at made
  split at made
  · have removed : t.remove q = .ok t' := made
    unfold remove at removed
    split at removed
    · cases removed
    · rw [← Except.ok.inj removed]
      refine ⟨ordered.withoutFile q, fun p => ?_⟩
      rw [stored?_withoutFile, FixOp.editsAt]
      split
      · exact .clear (.nil _)
      · exact .nil _
  · -- Where nothing is, no entry is to be removed.
    rename_i absent
    rw [contains_eq, Bool.or_eq_true, not_or, Option.not_isSome_iff_eq_none] at absent
    rw [← Except.ok.inj made]
    refine ⟨ordered, fun p => ?_⟩
    rw [FixOp.editsAt]
    split
    · rename_i here
      have none : t.stored? p = none := by
        rw [← Option.map_eq_none_iff, ← contents?_eq_stored?, ← absent.1]
        exact (contents?_congr (Path.same_iff.1 here) t).symm
      rw [none]
      exact .clear (.nil _)
    · exact .nil _

/-- A change that succeeds edits the entry at its path and no other. -/
theorem Ordered.edited_of_apply (ordered : t.Ordered) {op : FixOp} (made : op.apply t = .ok t') :
    t'.Ordered ∧ ∀ p, Edited (t.stored? p) (op.editsAt p) (t'.stored? p) := by
  cases op with
  | writeJson q value => exact ordered.edited_of_write made
  | setJsonKey q key value => exact ordered.edited_of_setJsonKey made
  | writeFile q contents => exact ordered.edited_of_write made
  | createDirs q => exact ordered.edited_of_createDirs made
  | removeFile q => exact ordered.edited_of_removeFile made

/-- Changes in order edit the entry at every path in order. -/
theorem Ordered.edited_of_applied (ordered : t.Ordered) {ops : List FixOp}
    (applied : FixOp.Applied t ops t') :
    t'.Ordered ∧ ∀ p, Edited (t.stored? p) (ops.flatMap (FixOp.editsAt p)) (t'.stored? p) := by
  induction applied with
  | nil t => exact ⟨ordered, fun p => .nil _⟩
  | cons made rest ih =>
    obtain ⟨ordered', first⟩ := ordered.edited_of_apply made
    obtain ⟨ordered'', later⟩ := ih ordered'
    exact ⟨ordered'', fun p => (first p).append (later p)⟩

end Tree

/-! ## Fixers -/

namespace Fixer

/-- A fixer that succeeds twice in a row leaves the files as they are after its first time, byte by
byte, when the values that it sets under keys are plain and the documents it finds have no
floating-point number. -/
theorem files_of_apply_twice {t t₁ t₂ : Tree} {fixer : Fixer} {depth : Nat} (ordered : t.Ordered)
    (values : ∀ path key value, FixOp.setJsonKey path key value ∈ fixer.ops → value.Plain depth)
    (free : ∀ path key value, FixOp.setJsonKey path key value ∈ fixer.ops →
      ∀ ms, FileSystem.readJson t path = .ok (.object ms) → (Json.object ms).floatFree = true)
    (first : fixer.apply t = (t₁, none)) (second : fixer.apply t₁ = (t₂, none)) :
    t₂.files = t₁.files := by
  obtain ⟨ordered₁, once⟩ := ordered.edited_of_applied (applied_of_applyOps first)
  obtain ⟨ordered₂, again⟩ := ordered₁.edited_of_applied (applied_of_applyOps second)
  -- A key that is set at a path is set by a change of the fixer.
  have source {p : Path} {key : String} {value : Json}
      (set : Edit.set key value ∈ fixer.ops.flatMap (FixOp.editsAt p)) :
      ∃ q, FixOp.setJsonKey q key value ∈ fixer.ops ∧ q.same p = true := by
    obtain ⟨op, member, set⟩ := List.mem_flatMap.1 set
    obtain ⟨q, rfl, here⟩ := FixOp.eq_of_set_mem_editsAt set
    exact ⟨q, member, here⟩
  refine Tree.files_eq_of_stored?_eq ordered₂ ordered₁ fun p => ?_
  have plain (key : String) (value : Json)
      (set : Edit.set key value ∈ fixer.ops.flatMap (FixOp.editsAt p)) : value.Plain depth := by
    obtain ⟨q, member, -⟩ := source set
    exact values q key value member
  refine (once p).twice (again p) plain fun key value set r contents ms entry reads => ?_
  obtain ⟨q, member, here⟩ := source set
  refine free q key value member ms (Tree.readJson_eq_ok_iff.2 ⟨contents, ?_, reads⟩)
  rw [Tree.contents?_congr (Path.same_iff.1 here), Tree.contents?_eq_stored?, entry]
  rfl

/-- A fixer whose changes meet at two files, under several spellings. -/
def overlapping : Fixer := ⟨[
  .removeFile ⟨"/r/notes"⟩,
  .writeFile ⟨"/r/./notes"⟩ "new",
  .setJsonKey ⟨"/r/package.json"⟩ "name" (.string "a"),
  .createDirs ⟨"/r/src/bin"⟩,
  .writeJson ⟨"/r/src/empty.json"⟩ (.object []),
  .setJsonKey ⟨"/r//package.json"⟩ "license" (.string "MIT"),
  .setJsonKey ⟨"/r/package.json"⟩ "name" (.string "b"),
  .removeFile ⟨"/r/src/empty.json"⟩]⟩

/-- The files that the fixer finds. -/
def twoFiles : Tree where
  files := [(⟨"/r/notes"⟩, "old"),
    (⟨"/r/package.json"⟩, (Json.object [("name", .string "r")]).canonical)]
  dirs := []

theorem files_of_overlapping_twice :
    overlapping.apply twoFiles = ((overlapping.apply twoFiles).1, none) ∧
    (overlapping.apply (overlapping.apply twoFiles).1).2.isNone = true ∧
    (overlapping.apply (overlapping.apply twoFiles).1).1.files =
      (overlapping.apply twoFiles).1.files := by
  have succeeds {α β : Type} {r : α × Option β} (none : r.2.isNone = true) : r = (r.1, .none) :=
    Prod.ext rfl (Option.isNone_iff_eq_none.1 none)
  have begins : (overlapping.apply twoFiles).2.isNone = true := by decide +kernel
  have first : overlapping.apply twoFiles = ((overlapping.apply twoFiles).1, none) :=
    succeeds begins
  have ends : (overlapping.apply (overlapping.apply twoFiles).1).2.isNone = true := by
    decide +kernel
  have second : overlapping.apply (overlapping.apply twoFiles).1 =
      ((overlapping.apply (overlapping.apply twoFiles).1).1, none) := succeeds ends
  have set_cases {path : Path} {key : String} {value : Json}
      (set : FixOp.setJsonKey path key value ∈ overlapping.ops) :
      (path = ⟨"/r/package.json"⟩ ∨ path = ⟨"/r//package.json"⟩) ∧ ∃ s, value = .string s := by
    simp only [overlapping, List.mem_cons, reduceCtorEq, FixOp.setJsonKey.injEq, false_or,
      List.not_mem_nil, or_false] at set
    rcases set with ⟨rfl, -, rfl⟩ | ⟨rfl, -, rfl⟩ | ⟨rfl, -, rfl⟩ <;> simp
  have values : ∀ path key value, FixOp.setJsonKey path key value ∈ overlapping.ops →
      value.Plain 1 := by
    intro path key value set
    obtain ⟨-, s, rfl⟩ := set_cases set
    exact Json.plain_string 1 s
  have free : ∀ path key value, FixOp.setJsonKey path key value ∈ overlapping.ops →
      ∀ ms, FileSystem.readJson twoFiles path = .ok (.object ms) →
        (Json.object ms).floatFree = true := by
    intro path key value set ms reads
    have all : (FileSystem.readJson twoFiles path).toOption.all (·.floatFree) = true := by
      rcases (set_cases set).1 with rfl | rfl <;> decide +kernel
    rwa [reads] at all
  exact ⟨first, ends, files_of_apply_twice (by decide) values free first second⟩

end Fixer

end WorkspaceLint
