import WorkspaceLint.Proofs.Path.Names

/-!
# Relative paths

The path that leads from one plain directory to another goes up until it is above both, and down
from there (`exists_relativeTo`).  Joined to the directory that it starts from and normalized, it
gives the directory that it leads to (`normalize_join_upAndDown`).
-/

namespace WorkspaceLint

namespace Path

/-! ## Names that are left -/

theorem foldNames_names (stack names : List String) :
    foldNames stack (names.map .name) = names.reverse ++ stack := by
  induction names generalizing stack with
  | nil => rfl
  | cons s names ih => rw [List.map_cons, foldNames, ih, List.reverse_cons, List.append_assoc]; rfl

/-- Going up takes one name away for each `..`. -/
theorem foldNames_parents (stack up : List String) :
    foldNames stack (up.map fun _ => .parent) = stack.drop up.length := by
  induction up generalizing stack with
  | nil => rfl
  | cons s up ih => rw [List.map_cons, foldNames, ih, List.drop_tail, List.length_cons]

/-- A character other than a slash stands in a path when it stands in one of the parts. -/
theorem mem_joinSegments_iff {c : Char} (other : c ≠ '/') {segs : List String} :
    c ∈ (joinSegments segs).toList ↔ ∃ s ∈ segs, c ∈ s.toList := by
  induction segs with
  | nil => simp [joinSegments, String.intercalate]
  | cons s segs ih =>
    simp only [List.mem_cons, exists_eq_or_imp]
    rcases eq_or_ne segs [] with rfl | some
    · have alone : joinSegments [s] = s := rfl
      simp [alone]
    · have slash : c ∉ "/".toList := fun member => other (List.mem_singleton.1 member)
      rw [joinSegments_cons s some, String.toList_append, String.toList_append, List.mem_append,
        List.mem_append, or_iff_left slash, ih]

/-- Plain paths are the absolute ones that normalizing leaves as they are. -/
theorem plain_iff {p : Path} : p.Plain ↔ p.isAbsolute = true ∧ p.normalize = p := by
  constructor
  · rintro ⟨names, hn, rfl⟩
    refine ⟨isAbsolute_down names, ?_⟩
    rw [normalize, components_down hn, isAbsolute_down, foldNames, foldNames_names,
      List.append_nil, List.reverse_reverse]
    rfl
  · rintro ⟨absolute, normal⟩
    rw [normalize, absolute] at normal
    refine ⟨_, fun s hs => ?_, normal.symm⟩
    rcases mem_foldNames (List.mem_reverse.1 hs) with none | named
    · cases none
    · exact isName_of_mem_components named

/-! ## Up and down -/

/-- The parts of the path that goes up once for each of `up` and down through `rest`. -/
def upAndDown (up rest : List String) : List String := up.map (fun _ => "..") ++ rest

/-- Nothing is left of the target, so only going up is. -/
theorem leadingFrom_nil (moved : Bool) (base : List Component) :
    leadingFrom moved [] base = some (base.map fun _ => .parent) := by
  induction base generalizing moved with
  | nil => rfl
  | cons b base ih => rw [leadingFrom, ih true]; rfl

/-- Between names the common start is dropped, the rest of the base is gone up from, and the rest of
the target is gone down through. -/
theorem exists_leadingFrom (target base : List String) :
    ∃ common up rest, target = common ++ rest ∧ base = common ++ up ∧
      leadingFrom false (target.map .name) (base.map .name) =
        some (up.map (fun _ => .parent) ++ rest.map .name) := by
  induction target generalizing base with
  | nil =>
    refine ⟨[], base, [], rfl, rfl, ?_⟩
    rw [List.map_nil, leadingFrom_nil, List.map_map, List.append_nil]
    rfl
  | cons a target ih =>
    cases base with
    | nil => exact ⟨[], [], a :: target, rfl, rfl, rfl⟩
    | cons b base =>
      by_cases same : a = b
      · subst same
        obtain ⟨common, up, rest, rfl, rfl, leads⟩ := ih base
        refine ⟨a :: common, up, rest, rfl, rfl, ?_⟩
        rw [List.map_cons, List.map_cons, leadingFrom, if_pos (by simp), leads]
      · refine ⟨[], b :: base, a :: target, rfl, rfl, ?_⟩
        rw [List.map_cons, List.map_cons, leadingFrom, if_neg (by simp [same]),
          if_neg nofun, if_neg nofun, List.map_map]
        rfl

/-- One plain directory is reached from another by going up and down. -/
theorem exists_relativeTo {target base : List String} (ht : AreNames target) (hb : AreNames base) :
    ∃ common up rest, target = common ++ rest ∧ base = common ++ up ∧
      (down target).relativeTo (down base) = some ⟨joinSegments (upAndDown up rest)⟩ := by
  obtain ⟨common, up, rest, whole, whole', leads⟩ := exists_leadingFrom target base
  refine ⟨common, up, rest, whole, whole', ?_⟩
  have first : leadingFrom false (.root :: target.map .name) (.root :: base.map .name) =
      leadingFrom false (target.map .name) (base.map .name) := by
    rw [leadingFrom, if_pos (by simp)]
  have texts : (up.map (fun _ => Component.parent) ++ rest.map Component.name).map Component.text =
      upAndDown up rest := by
    rw [List.map_append, List.map_map, List.map_map, upAndDown]
    exact congrArg _ (List.map_id rest)
  rw [relativeTo, isAbsolute_down, isAbsolute_down, if_pos rfl, components_down ht,
    components_down hb, first, leads, Option.map_some, texts]

theorem noSlash_upAndDown (up : List String) {rest : List String} (hr : AreNames rest) :
    ∀ s ∈ upAndDown up rest, '/' ∉ s.toList := by
  intro s hs
  rcases List.mem_append.1 hs with upward | downward
  · obtain ⟨-, -, rfl⟩ := List.mem_map.1 upward
    decide
  · exact (hr s downward).noSlash

theorem named_upAndDown {up rest : List String} (hr : AreNames rest) :
    named (upAndDown up rest) = up.map (fun _ => .parent) ++ rest.map .name := by
  rw [upAndDown, named_append, named_names hr]
  congr 1
  induction up with
  | nil => rfl
  | cons s up ih =>
    rw [List.map_cons, ← List.singleton_append, named_append, ih]
    rfl

/-- A path that goes up and down is relative, and its parts name what they spell. -/
theorem joinSegments_upAndDown (up : List String) {rest : List String} (hr : AreNames rest) :
    (Path.mk (joinSegments (upAndDown up rest))).isAbsolute = false ∧
      named (Path.mk (joinSegments (upAndDown up rest))).segments =
        up.map (fun _ => .parent) ++ rest.map .name := by
  rw [← named_upAndDown hr]
  rcases hs : upAndDown up rest with _ | ⟨first, later⟩
  · exact ⟨rfl, rfl⟩
  · have slashes := noSlash_upAndDown up hr
    rw [hs] at slashes
    have parts := segments_joinSegments (List.cons_ne_nil first later) slashes
    refine ⟨?_, by rw [parts]⟩
    rw [Bool.eq_false_iff, Ne, isAbsolute_iff, parts]
    rintro ⟨rest', -, eq⟩
    have empty : "" ∈ upAndDown up rest := by
      rw [hs, (List.cons.inj eq).1]
      exact List.mem_cons_self
    rcases List.mem_append.1 empty with upward | downward
    · obtain ⟨-, -, same⟩ := List.mem_map.1 upward
      exact absurd same (by decide)
    · exact (hr "" downward).nonempty rfl

/-- Going up and down from a directory ends where the path leads to. -/
theorem normalize_join_upAndDown {common up rest : List String} (hb : AreNames (common ++ up))
    (hr : AreNames rest) :
    ((down (common ++ up)).join ⟨joinSegments (upAndDown up rest)⟩).normalize =
      down (common ++ rest) := by
  obtain ⟨relative, parts⟩ := joinSegments_upAndDown up hr
  have below := (components_join_of_relative (down (common ++ up)) relative).resolve_right
    fun alone => by
      rw [components_down hb] at alone
      exact List.cons_ne_nil _ _ alone.2
  have left : foldNames [] (.root :: (common ++ up).map .name ++
      (up.map (fun _ => .parent) ++ rest.map .name)) = (common ++ rest).reverse := by
    rw [List.cons_append, foldNames, foldNames_append, foldNames_names, foldNames_append,
      foldNames_parents, foldNames_names, List.append_nil, List.reverse_append,
      List.drop_left' up.length_reverse, List.reverse_append]
  rw [normalize, isAbsolute_join _ relative, isAbsolute_down, below, parts, components_down hb,
    left, List.reverse_reverse]
  rfl

end Path

end WorkspaceLint
