import Mathlib.Data.List.Basic
import WorkspaceLint.Proofs.Path.Normal
import WorkspaceLint.Proofs.FileSystem.Tree

/-!
# Plain paths

A plain absolute path is spelled with one slash in front of each of its names.  Its names determine
it, and building paths from it, going up from it and comparing it are the same operations on lists
of names.
-/

namespace WorkspaceLint

namespace Path

/-- Every one is the name of an entry. -/
def AreNames (names : List String) : Prop := ∀ s ∈ names, IsName s

instance (names : List String) : Decidable (AreNames names) :=
  inferInstanceAs (Decidable (∀ s ∈ names, IsName s))

theorem areNames_nil : AreNames [] := nofun

theorem areNames_append {names more : List String} :
    AreNames (names ++ more) ↔ AreNames names ∧ AreNames more := List.forall_mem_append

theorem AreNames.of_prefix {names more : List String} (h : AreNames more)
    (above : names <+: more) : AreNames names := fun s hs => h s (above.subset hs)

theorem AreNames.dropLast {names : List String} (h : AreNames names) : AreNames names.dropLast :=
  h.of_prefix (List.dropLast_prefix names)

/-- The absolute path that goes down through names. -/
def down (names : List String) : Path := ofNames true names

/-- An absolute path in normal form. -/
def Plain (p : Path) : Prop := ∃ names, AreNames names ∧ p = down names

variable {names more : List String}

/-! ## Components -/

theorem components_down (h : AreNames names) :
    (down names).components = .root :: names.map .name := components_ofNames true h

theorem map_name_inj : names.map Component.name = more.map .name ↔ names = more :=
  (List.map_injective_iff.2 fun _ _ => Component.name.inj).eq_iff

theorem components_down_inj (h : AreNames names) (h' : AreNames more) :
    (down names).components = (down more).components ↔ names = more := by
  rw [components_down h, components_down h', List.cons_inj_right, map_name_inj]

theorem same_down (h : AreNames names) (h' : AreNames more) :
    (down names).same (down more) = true ↔ names = more := by
  rw [same_iff, components_down_inj h h']

theorem prefix_components_down (h : AreNames names) (h' : AreNames more) :
    (down names).components <+: (down more).components ↔ names <+: more := by
  rw [components_down h, components_down h', List.prefix_cons_inj]
  constructor
  · rintro ⟨cs, whole⟩
    have taken := congrArg (List.take names.length) whole
    rw [List.take_left' (List.length_map _), ← List.map_take, map_name_inj] at taken
    rw [taken]
    exact List.take_prefix _ _
  · rintro ⟨rest, rfl⟩
    rw [List.map_append]
    exact List.prefix_append _ _

/-! ## Texts -/

theorem isAbsolute_down (names : List String) : (down names).isAbsolute = true := by
  have text : (down names).text.toList = '/' :: (joinSegments names).toList := by
    show ("/" ++ joinSegments names).toList = _
    rw [String.toList_append]
    rfl
  rw [isAbsolute, text]
  rfl

theorem joinSegments_cons (s : String) (some : names ≠ []) :
    joinSegments (s :: names) = s ++ "/" ++ joinSegments names := by
  obtain ⟨t, rest, rfl⟩ := List.exists_cons_of_ne_nil some
  rw [← String.toList_inj, joinSegments, joinSegments, String.toList_append, String.toList_append,
    String.toList_intercalate, String.toList_intercalate]
  simp [List.intercalate]

theorem joinSegments_append (some : names ≠ []) (some' : more ≠ []) :
    joinSegments (names ++ more) = joinSegments names ++ "/" ++ joinSegments more := by
  induction names with
  | nil => exact absurd rfl some
  | cons s names ih =>
    rcases names with _ | ⟨t, rest⟩
    · rw [List.singleton_append, joinSegments_cons s some']
      rfl
    · rw [List.cons_append, joinSegments_cons s (by simp), ih (by simp),
        joinSegments_cons s (List.cons_ne_nil t rest)]
      simp only [String.append_assoc]

/-- The names of a plain path are its parts. -/
theorem segments_down (h : AreNames names) (some : names ≠ []) :
    (down names).segments = "" :: names := by
  have slashes := fun s hs => (h s hs).noSlash
  show (Path.mk ("/" ++ joinSegments names)).segments = _
  unfold segments
  rw [String.toList_append]
  show (splitSlashes ('/' :: (joinSegments names).toList)).map String.ofList = _
  rw [splitSlashes, if_pos rfl, List.map_cons]
  exact congrArg ("" :: ·) (segments_joinSegments some slashes)

/-- A plain path below the root does not end with a slash. -/
theorem getLast?_text_down (h : AreNames names) (nonempty : names ≠ []) :
    ¬ (down names).text.toList.getLast? = some '/' := by
  intro slash
  obtain ⟨cs, eq⟩ := List.getLast?_eq_some_iff.1 slash
  have parts := segments_down h nonempty
  unfold segments at parts
  rw [eq, splitSlashes_append, List.map_append] at parts
  have last := congrArg List.getLast? parts
  rw [List.getLast?_append] at last
  have empty : "" ∈ names := by
    rcases names with _ | ⟨s, rest⟩
    · exact absurd rfl nonempty
    · rw [List.getLast?_cons_cons] at last
      exact List.mem_of_getLast? last.symm
  exact (h "" empty).nonempty rfl

/-! ## Building paths -/

theorem isAbsolute_ofNames (h : AreNames more) : (ofNames false more).isAbsolute = false := by
  rw [Bool.eq_false_iff, Ne, isAbsolute_iff_components, components_ofNames false h]
  rintro ⟨cs, eq⟩
  rcases more with _ | ⟨s, rest⟩ <;> cases eq

/-- Going down further. -/
theorem join_down (h : AreNames names) (h' : AreNames more) (some' : more ≠ []) :
    (down names).join (ofNames false more) = down (names ++ more) := by
  unfold join
  rw [if_neg (by rw [isAbsolute_ofNames h']; exact Bool.false_ne_true)]
  have relative : (ofNames false more).text = joinSegments more := String.empty_append
  rw [relative]
  by_cases some : names = []
  · subst some
    rw [if_pos (.inr rfl)]
    rfl
  · have nonempty : ¬ (down names).text = "" := by
      intro empty
      have absolute := isAbsolute_down names
      unfold isAbsolute at absolute
      rw [empty] at absolute
      cases absolute
    rw [if_neg (not_or.2 ⟨nonempty, getLast?_text_down h some⟩)]
    unfold down ofNames
    rw [joinSegments_append some some']
    simp only [if_true, String.append_assoc]

theorem join_down_of_absolute (names : List String) :
    (down more).join (down names) = down names := by
  unfold join
  rw [if_pos (isAbsolute_down names)]

/-- A path that is spelled with names alone, and names something. -/
def Tidy (p : Path) : Prop :=
  ∃ absolute names, AreNames names ∧ names ≠ [] ∧ p = ofNames absolute names

/-- A tidy path leads from a plain directory to a plain path below the top. -/
theorem Tidy.join {p dir : Path} (h : p.Tidy) (plain : dir.Plain) :
    ∃ more, AreNames more ∧ more ≠ [] ∧ dir.join p = down more := by
  obtain ⟨absolute, names, hn, some, rfl⟩ := h
  obtain ⟨front, hf, rfl⟩ := plain
  cases absolute with
  | true => exact ⟨names, hn, some, join_down_of_absolute names⟩
  | false =>
    exact ⟨front ++ names, areNames_append.2 ⟨hf, hn⟩, by simp [some], join_down hf hn some⟩

theorem entry_down (h : AreNames names) {s : String} (hs : IsName s) :
    (down names).entry s = down (names ++ [s]) := by
  have one : AreNames [s] := List.forall_mem_singleton.2 hs
  have whole := join_down h one (List.cons_ne_nil s [])
  have spelled : ofNames false [s] = ⟨s⟩ := by
    show Path.mk ("" ++ joinSegments [s]) = _
    rw [String.empty_append]
    rfl
  rwa [spelled] at whole

/-! ## Going up -/

theorem dropVoidEnd_names (h : AreNames names) : dropVoidEnd names = names := by
  obtain ⟨voids, whole, all, -⟩ := exists_dropVoidEnd names
  have none : voids = [] := by
    refine List.eq_nil_iff_forall_not_mem.2 fun s hs => ?_
    have name := h s (by rw [whole]; exact List.mem_append_right _ hs)
    have void := all s hs
    simp [isVoid, name.nonempty, name.notCurrent] at void
  rw [none, List.append_nil] at whole
  exact whole.symm

/-- The parent of a plain path has its names but the last. -/
theorem parent?_down (h : AreNames names) (nonempty : names ≠ []) :
    (down names).parent? = some (down names.dropLast) := by
  have shorter : dropLastName names = names.dropLast := by
    rw [dropLastName, dropVoidEnd_names h, dropVoidEnd_names h.dropLast]
  unfold parent?
  rw [segments_down h nonempty]
  simp only [isAbsolute_down, if_true, dropVoidEnd_names h, if_neg nonempty, shorter]
  split
  · rename_i none
    rw [none]
    rfl
  · rename_i segs some
    rw [joinSegments_cons "" some]
    rfl

theorem parent?_down_nil : (down []).parent? = none := by decide

theorem mem_ancestorsFrom_down (h : AreNames names) {fuel : Nat} (enough : names.length ≤ fuel)
    {p : Path} :
    p ∈ ancestorsFrom fuel (down names) ↔ ∃ above, above <+: names ∧ p = down above := by
  induction hn : names.length generalizing names fuel with
  | zero =>
    obtain rfl := List.length_eq_zero_iff.1 hn
    have only : ancestorsFrom fuel (down []) = [down []] := by
      cases fuel with
      | zero => rfl
      | succ fuel => rw [ancestorsFrom, parent?_down_nil]
    rw [only, List.mem_singleton]
    constructor
    · rintro rfl
      exact ⟨[], List.prefix_rfl, rfl⟩
    · rintro ⟨above, isPrefix, rfl⟩
      rw [List.prefix_nil.1 isPrefix]
  | succ n ih =>
    obtain ⟨fuel, rfl⟩ : ∃ k, fuel = k + 1 := ⟨fuel - 1, by omega⟩
    have some : names ≠ [] := List.length_pos_iff.1 (by omega)
    have length : names.dropLast.length = n := by rw [List.length_dropLast]; omega
    have front := h.dropLast
    rw [ancestorsFrom, parent?_down h some, List.mem_cons, ih front (by omega) length]
    constructor
    · rintro (rfl | ⟨above, isPrefix, rfl⟩)
      · exact ⟨names, List.prefix_rfl, rfl⟩
      · exact ⟨above, ((prefix_dropLast_iff some).1 isPrefix).1, rfl⟩
    · rintro ⟨above, isPrefix, rfl⟩
      by_cases same : names = above
      · exact .inl (by rw [same])
      · exact .inr ⟨above, (prefix_dropLast_iff some).2 ⟨isPrefix, same⟩, rfl⟩

/-- Above a plain path are the plain paths of its first names. -/
theorem mem_ancestors_down (h : AreNames names) {p : Path} :
    p ∈ (down names).ancestors ↔ ∃ above, above <+: names ∧ p = down above := by
  have length := length_components_le (down names)
  rw [components_down h, List.length_cons, List.length_map, String.length_toList] at length
  exact mem_ancestorsFrom_down h (by omega)

end Path

end WorkspaceLint
