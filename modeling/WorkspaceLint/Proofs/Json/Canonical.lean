import WorkspaceLint.Proofs.FileSystem.Disk
import WorkspaceLint.Proofs.Json.Plain

/-!
# Canonical text is stable

A document that was read and has no floating-point number is given back by its canonical text, with
the members of its objects in their order.  So canonical text is written as it was read, and reading
a canonical file and writing it back changes no file, in memory or on disk (`canonical_stable`).
-/

namespace WorkspaceLint

/-! ## Writing back what was read -/

/-- Read the document in a file and write it back in its canonical text. -/
def FileSystem.rewriteJson {σ : Type} [FileSystem σ] (fs : σ) (path : Path) : Except Trouble σ := do
  let v ← readJson fs path
  writeJson fs path v

namespace FileSystem

variable {σ : Type} [FileSystem σ] {fs : σ} {path : Path} {text : String} {v : Json}

theorem readJson_of_read (stored : read fs path = .ok text) (spells : Json.parse text = .ok v) :
    readJson fs path = .ok v := by
  rw [readJson, stored]
  show (Json.parse text).mapError _ = .ok v
  rw [spells]
  rfl

/-- A canonical file is written with the text that it has. -/
theorem rewriteJson_of_read (stored : read fs path = .ok v.canonical)
    (stable : Json.parse v.canonical = .ok v) :
    rewriteJson fs path = write fs path v.canonical := by
  rw [rewriteJson, readJson_of_read stored stable]
  rfl

end FileSystem

/-- Writing the contents that are there leaves every file as it is. -/
theorem Tree.contents?_withFile_of_stored {t : Tree} {p : Path} {contents : String}
    (stored : t.contents? p = some contents) (q : Path) :
    (t.withFile p contents).contents? q = t.contents? q := by
  rw [contents?_withFile]
  split
  · rename_i same
    rw [← contents?_congr (Path.same_iff.1 same) t, stored]
  · rfl

theorem Disk.follow_eq_file {d : Disk} {here parts names : List String}
    (h : d.follow here parts = .file names) : (d.file? names).isSome = true := by
  induction parts generalizing here with
  | nil => cases h
  | cons part parts ih =>
    unfold follow at h
    split at h
    · exact ih h
    split at h
    · exact ih h
    simp only at h
    split at h
    · exact ih h
    split at h
    · rename_i stored
      split at h
      · rwa [← Target.file.inj h]
      · cases h
    split at h <;> cases h

/-- What is read from a disk is the contents of a file, and writing to its path sets them. -/
theorem Disk.exists_file_of_read {d : Disk} {p : Path} {contents : String}
    (stored : FileSystem.read d p = .ok contents) :
    ∃ names, d.file? names = some contents ∧
      ∀ new, FileSystem.write d p new = .ok (d.setFile names new) := by
  have read : d.read p = .ok contents := stored
  unfold Disk.read at read
  rcases target : d.resolve p with dir | names | ⟨names, asDir⟩ | _ | _ <;> rw [target] at read <;>
    try cases read
  have file : (d.file? names).isSome = true := by
    unfold resolve at target
    split at target
    · exact follow_eq_file target
    · cases target
  obtain ⟨old, same⟩ := Option.isSome_iff_exists.1 file
  refine ⟨names, by rw [same]; rfl, fun new => ?_⟩
  show Disk.write d p new = _
  unfold Disk.write
  rw [target]

namespace Json

variable {text : String} {v : Json}

/-- Canonical text is stable: a document without floating-point numbers that was read from some text
is read back from its canonical text, and a file with this text stays as it is when its document is
read and written again. -/
theorem canonical_stable (read : parse text = .ok v) (free : v.floatFree = true) :
    parse v.canonical = .ok v ∧
    (∀ (t : Tree) (path : Path), t.contents? path = some v.canonical →
      FileSystem.readJson t path = .ok v ∧
      (t.created path = false → ∃ t', FileSystem.rewriteJson t path = .ok t' ∧
        ∀ q, t'.contents? q = t.contents? q)) ∧
    ∀ (d : Disk) (path : Path), FileSystem.read d path = .ok v.canonical →
      FileSystem.readJson d path = .ok v ∧
      ∃ d', FileSystem.rewriteJson d path = .ok d' ∧ ∀ names, d'.file? names = d.file? names := by
  have stable := parse_canonical (legible_of_parse read) free
  refine ⟨stable, fun t path stored => ?_, fun d path stored => ?_⟩
  · have read : FileSystem.read t path = .ok v.canonical := by rw [Tree.read_eq, stored]
    refine ⟨FileSystem.readJson_of_read read stable, fun noDir => ?_⟩
    refine ⟨t.withFile path v.canonical, ?_, Tree.contents?_withFile_of_stored stored⟩
    rw [FileSystem.rewriteJson_of_read read stable, Tree.write_eq_ok_iff]
    exact ⟨Tree.parentExists_of_stored (by rw [stored]; rfl), noDir, rfl⟩
  · refine ⟨FileSystem.readJson_of_read stored stable, ?_⟩
    obtain ⟨names, file, written⟩ := Disk.exists_file_of_read stored
    refine ⟨d.setFile names v.canonical, ?_, fun more => ?_⟩
    · rw [FileSystem.rewriteJson_of_read stored stable, written]
    · rw [Disk.file?_setFile]
      split
      · rename_i same
        rw [← same, file]
      · rfl

/-- A text with escapes, a repeated key, empty containers and the ends of the range of integers. -/
def spelledOut : String :=
  "\x7b\"b\": 1, \"a\": [18446744073709551615,-9223372036854775808,\x7b\x7d,[ ]]," ++
    "\"b\": \"\\ud83d\\ude00\\u0001\\/\\\"\"\x7d"

/-- That text as it is written again. -/
def spelledAgain : String :=
  "\x7b\n  \"b\": \"😀\\u0001/\\\"\",\n  \"a\": [\n    18446744073709551615,\n" ++
    "    -9223372036854775808,\n    \x7b\x7d,\n    []\n  ]\n\x7d\n"

set_option maxRecDepth 20000 in
theorem canonical_stable_spelledOut :
    ∃ v, parse spelledOut = .ok v ∧ v.floatFree = true ∧ v.canonical = spelledAgain ∧
      parse spelledAgain = .ok v := by
  have made : (parse spelledOut).toOption.map (fun v => (v.floatFree, v.canonical)) =
      some (true, spelledAgain) := by decide +kernel
  rcases read : parse spelledOut with e | v <;> rw [read] at made
  · cases made
  · obtain ⟨free, again⟩ := Prod.mk.inj (Option.some.inj made)
    have stable := (canonical_stable read free).1
    rw [again] at stable
    exact ⟨v, rfl, free, again, stable⟩

end Json

end WorkspaceLint
