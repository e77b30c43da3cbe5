import WorkspaceLint.Proofs.Path.Names

/-!
# Where paths lead

The parts of a path are followed one after the other, from the top of the file system (`walk`).
This is what joining and normalizing come to (`normalize_join`): a path that is given to a directory
means the directory that its own parts lead to, or for a relative path those of the directory and
then its own.
-/

namespace WorkspaceLint

namespace Path

/-- The names of the directory that parts lead to: an empty part and a dot stay, two dots go up, and
everything else goes down.  Nothing is above the top. -/
def walk (names : List String) : List String → List String
  | [] => names
  | part :: parts =>
    if part = "" ∨ part = "." then walk names parts
    else if part = ".." then walk names.dropLast parts
    else walk (names ++ [part]) parts

/-- The names of the directory that a path leads to from a base. -/
def leadsTo (base p : Path) : List String :=
  walk [] (if p.isAbsolute then p.segments else base.segments ++ p.segments)

example : leadsTo ⟨"/w/"⟩ ⟨"./a//../../../b/."⟩ = ["b"] := by decide

theorem walk_append (names parts more : List String) :
    walk names (parts ++ more) = walk (walk names parts) more := by
  induction parts generalizing names with
  | nil => rfl
  | cons part parts ih =>
    rw [List.cons_append, walk, walk]
    split
    · exact ih names
    split
    · exact ih names.dropLast
    · exact ih (names ++ [part])

/-- The parts of a path lead to names. -/
theorem areNames_walk {names parts : List String} (h : AreNames names)
    (slashes : ∀ s ∈ parts, '/' ∉ s.toList) : AreNames (walk names parts) := by
  induction parts generalizing names with
  | nil => exact h
  | cons part parts ih =>
    obtain ⟨first, later⟩ := List.forall_mem_cons.1 slashes
    rw [walk]
    split
    · exact ih h later
    · rename_i some
      obtain ⟨nonempty, notCurrent⟩ := not_or.1 some
      split
      · exact ih h.dropLast later
      · rename_i notParent
        have one : IsName part := ⟨nonempty, notCurrent, notParent, first⟩
        exact ih (areNames_append.2 ⟨h, List.forall_mem_singleton.2 one⟩) later

/-- Folding components is following the parts that they come from, with the names in reverse. -/
theorem foldNames_named (stack parts : List String) :
    foldNames stack (named parts) = (walk stack.reverse parts).reverse := by
  induction parts generalizing stack with
  | nil => exact (List.reverse_reverse stack).symm
  | cons part parts ih =>
    rw [walk, ← List.singleton_append, named_append]
    split
    · rename_i void
      have none : named [part] = [] := by rcases void with rfl | rfl <;> rfl
      rw [none, List.nil_append, ih]
    · rename_i some
      have one : named [part] = [ofSegment part] := by
        have kept : isVoid part = false := by simpa [isVoid] using some
        simp [named, kept]
      rw [one, List.singleton_append, ofSegment]
      split
      · rw [foldNames, ih, List.dropLast_reverse]
      · rw [foldNames, ih, List.reverse_cons]

theorem components_of_absolute {p : Path} (h : p.isAbsolute = true) :
    p.components = .root :: named p.segments := by
  obtain ⟨rest, -, parts⟩ := isAbsolute_iff.1 h
  have void : named ("" :: rest) = named rest := by simp [named, isVoid]
  rw [components_eq_spelled, h, parts, void]
  rfl

/-- Whatever is joined to an absolute base is absolute. -/
theorem isAbsolute_join_of_absolute {base : Path} (absolute : base.isAbsolute = true) (p : Path) :
    (base.join p).isAbsolute = true := by
  by_cases whole : p.isAbsolute = true
  · rwa [join, if_pos whole]
  · rwa [isAbsolute_join base (Bool.eq_false_iff.2 whole)]

/-- Joined to an absolute base, a path has the components of the parts that it follows. -/
theorem components_join_of_absolute {base : Path} (absolute : base.isAbsolute = true) (p : Path) :
    (base.join p).components =
      .root :: named (if p.isAbsolute then p.segments else base.segments ++ p.segments) := by
  by_cases whole : p.isAbsolute = true
  · rw [join, if_pos whole, if_pos whole, components_of_absolute whole]
  · rw [if_neg whole, named_append]
    rcases components_join_of_relative base (Bool.eq_false_iff.2 whole) with below | ⟨-, none⟩
    · rw [below, components_of_absolute absolute, List.cons_append]
    · rw [components_of_absolute absolute] at none
      cases none

/-- Joined to an absolute base and normalized, a path is the directory that it leads to. -/
theorem normalize_join {base : Path} (absolute : base.isAbsolute = true) (p : Path) :
    (base.join p).normalize = down (leadsTo base p) := by
  rw [normalize, isAbsolute_join_of_absolute absolute, components_join_of_absolute absolute,
    foldNames, foldNames_named, List.reverse_nil, List.reverse_reverse]
  rfl

end Path

end WorkspaceLint
