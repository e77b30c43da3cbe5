import WorkspaceLint.Proofs.Path.Order

/-!
# Normal forms of paths

Normalizing a path folds every `..` into the name before it.  The components of the result are the
names that are left (`components_normalize`), so it depends on components only, and a path that goes
down from a directory goes down from its normal form (`inside_join`).
-/

namespace WorkspaceLint

namespace Path

/-! ## Names that are left -/

theorem foldNames_append (stack : List String) (cs ds : List Component) :
    foldNames stack (cs ++ ds) = foldNames (foldNames stack cs) ds := by
  induction cs generalizing stack with
  | nil => rfl
  | cons c cs ih => cases c <;> exact ih _

theorem mem_foldNames {stack : List String} {cs : List Component} {s : String}
    (h : s ∈ foldNames stack cs) : s ∈ stack ∨ .name s ∈ cs := by
  induction cs generalizing stack with
  | nil => exact .inl h
  | cons c cs ih =>
    cases c with
    | name t =>
      rcases ih h with old | new
      · rcases List.mem_cons.1 old with rfl | old
        · exact .inr List.mem_cons_self
        · exact .inl old
      · exact .inr (List.mem_cons_of_mem _ new)
    | parent => exact (ih h).imp List.mem_of_mem_tail (List.mem_cons_of_mem _)
    | root => exact (ih h).imp_right (List.mem_cons_of_mem _)
    | current => exact (ih h).imp_right (List.mem_cons_of_mem _)

theorem isName_of_mem_named {segs : List String} (h : ∀ s ∈ segs, '/' ∉ s.toList) {s : String}
    (named : .name s ∈ named segs) : IsName s := by
  obtain ⟨t, member, same⟩ := List.mem_map.1 named
  obtain ⟨there, kept⟩ := List.mem_filter.1 member
  unfold ofSegment at same
  split at same
  · cases same
  · rename_i other
    obtain rfl := Component.name.inj same
    simp only [isVoid, Bool.not_eq_true', Bool.or_eq_false_iff, decide_eq_false_iff_not] at kept
    exact ⟨kept.1, kept.2, other, h t there⟩

/-- The names in a path are names of entries. -/
theorem isName_of_mem_components {p : Path} {s : String} (h : .name s ∈ p.components) :
    IsName s := by
  have slashes := fun s => slash_not_mem_of_mem_segments (p := p) (s := s)
  have notRoot : Component.name s ≠ .root := fun same => Component.noConfusion same
  have notCurrent : Component.name s ≠ .current := fun same => Component.noConfusion same
  rw [components_eq_spelled] at h
  rcases hs : p.segments with _ | ⟨first, rest⟩ <;> rw [hs] at h slashes
  · cases h
  · have later := fun s hs => slashes s (List.mem_cons_of_mem first hs)
    simp only [spelled] at h
    split at h
    · exact isName_of_mem_named later ((List.mem_cons.1 h).resolve_left notRoot)
    · split at h
      · exact isName_of_mem_named later ((List.mem_cons.1 h).resolve_left notCurrent)
      · exact isName_of_mem_named slashes h

/-! ## Paths of names -/

theorem named_names {names : List String} (h : ∀ s ∈ names, IsName s) :
    named names = names.map .name := by
  induction names with
  | nil => rfl
  | cons s names ih =>
    obtain ⟨first, later⟩ := List.forall_mem_cons.1 h
    have whole := named_append [s] names
    rw [List.singleton_append, first.named, ih later] at whole
    exact whole

/-- Where the components of a path start. -/
def start (absolute : Bool) : List Component := if absolute then [.root] else []

/-- A path that is put together from names has these as its components. -/
theorem components_ofNames (absolute : Bool) {names : List String} (h : ∀ s ∈ names, IsName s) :
    (ofNames absolute names).components = start absolute ++ names.map .name := by
  have slashes := fun s hs => (h s hs).noSlash
  rcases names with _ | ⟨first, rest⟩
  · cases absolute <;> rfl
  · have parts := segments_joinSegments (List.cons_ne_nil first rest) slashes
    cases absolute with
    | true =>
      show (Path.mk ("/" ++ joinSegments (first :: rest))).components = _
      rw [components_slash, parts, named_names h]
      rfl
    | false =>
      have here := h first List.mem_cons_self
      show (Path.mk ("" ++ joinSegments (first :: rest))).components = _
      rw [String.empty_append, components_joinSegments slashes,
        decide_eq_false fun empty => here.nonempty empty.1]
      simp only [spelled, Bool.false_eq_true, if_false, if_neg here.notCurrent]
      exact named_names h

/-! ## Normal forms -/

theorem isAbsolute_iff_components {p : Path} :
    p.isAbsolute = true ↔ ∃ cs, p.components = .root :: cs := by
  have root := root_not_mem_named p.segments
  rw [components_eq_spelled]
  rcases hs : p.segments with _ | ⟨first, rest⟩
  · exact absurd hs (segments_ne_nil p)
  · rw [hs] at root
    by_cases absolute : p.isAbsolute = true
    · exact ⟨fun _ => ⟨named rest, by rw [absolute]; rfl⟩, fun _ => absolute⟩
    · refine ⟨fun h => absurd h absolute, ?_⟩
      rintro ⟨cs, eq⟩
      simp only [spelled, absolute, Bool.false_eq_true, if_false] at eq
      split at eq
      · cases eq
      · rw [eq] at root
        exact absurd List.mem_cons_self root

theorem isAbsolute_congr {p q : Path} (h : p.components = q.components) :
    p.isAbsolute = q.isAbsolute := by
  rw [Bool.eq_iff_iff, isAbsolute_iff_components, isAbsolute_iff_components, h]

/-- The normal form of a path has the names that are left as its components. -/
theorem components_normalize (p : Path) :
    p.normalize.components =
      start p.isAbsolute ++ (foldNames [] p.components).reverse.map .name := by
  refine components_ofNames _ fun s hs => ?_
  rcases mem_foldNames (List.mem_reverse.1 hs) with old | new
  · cases old
  · exact isName_of_mem_components new

theorem components_normalize_congr {p q : Path} (h : p.components = q.components) :
    p.normalize.components = q.normalize.components := by
  rw [components_normalize, components_normalize, h, isAbsolute_congr h]

/-! ## Going down -/

/-- A path lies below a directory when both are in their normal form. -/
def Inside (p dir : Path) : Prop :=
  p.normalize.startsWith dir.normalize = true ∧ p.normalize.same dir.normalize = false

theorem Inside.congr {p q dir : Path} (same : p.components = q.components) (h : q.Inside dir) :
    p.Inside dir := by
  unfold Inside startsWith Path.same at h ⊢
  rwa [components_normalize_congr same]

/-- A relative path that goes down: it has a name and no `..`. -/
def Descends (p : Path) : Prop :=
  p.isAbsolute = false ∧ .parent ∉ p.components ∧ ∃ s, .name s ∈ p.components

theorem descends_of_isName {s : String} (h : IsName s) : (Path.mk s).Descends := by
  refine ⟨h.isAbsolute, ?_, s, ?_⟩
  · rw [h.components]
    simp
  · rw [h.components]
    exact List.mem_singleton_self _

theorem components_of_relative {p : Path} (relative : p.isAbsolute = false) :
    p.components = named p.segments ∨ p.components = .current :: named p.segments := by
  rw [components_eq_spelled, relative]
  rcases p.segments with _ | ⟨first, rest⟩
  · exact .inl rfl
  · simp only [spelled, Bool.false_eq_true, if_false]
    by_cases current : first = "."
    · have void : named (first :: rest) = named rest := by simp [named, isVoid, current]
      rw [if_pos current, void]
      exact .inr rfl
    · rw [if_neg current]
      exact .inl rfl

theorem isAbsolute_join (dir : Path) {p : Path} (relative : p.isAbsolute = false) :
    (dir.join p).isAbsolute = dir.isAbsolute := by
  rw [Bool.eq_iff_iff, isAbsolute_iff_components, isAbsolute_iff_components]
  rcases components_join_of_relative dir relative with below | ⟨alone, none⟩
  · rw [below]
    rcases dir.components with _ | ⟨c, cs⟩
    · refine ⟨fun ⟨cs, eq⟩ => absurd ?_ (root_not_mem_named p.segments), nofun⟩
      rw [← List.nil_append (named p.segments), eq]
      exact List.mem_cons_self
    · simp
  · rw [alone, none, ← isAbsolute_iff_components, relative]
    simp

/-- Without `..` the names are put on top of those that are there. -/
theorem exists_foldNames {cs : List Component} (h : .parent ∉ cs) (stack : List String) :
    ∃ names, foldNames stack cs = names ++ stack ∧ ∀ s, .name s ∈ cs → s ∈ names := by
  induction cs generalizing stack with
  | nil => exact ⟨[], rfl, nofun⟩
  | cons c cs ih =>
    obtain ⟨here, later⟩ := not_or.1 fun member => h (List.mem_cons.2 member)
    cases c with
    | parent => exact absurd rfl here
    | name t =>
      obtain ⟨names, left, all⟩ := ih later (t :: stack)
      refine ⟨names ++ [t], by rw [foldNames, left, List.append_assoc]; rfl, ?_⟩
      intro s member
      rcases List.mem_cons.1 member with same | member
      · rw [Component.name.inj same]
        exact List.mem_append_right _ (List.mem_singleton_self t)
      · exact List.mem_append_left _ (all s member)
    | root | current =>
      obtain ⟨names, left, all⟩ := ih later stack
      exact ⟨names, left, fun s member => all s ((List.mem_cons.1 member).resolve_left nofun)⟩

/-- What goes down from a directory ends inside of it. -/
theorem inside_join (dir : Path) {p : Path} (h : p.Descends) : (dir.join p).Inside dir := by
  obtain ⟨relative, noParent, s, named⟩ := h
  have shape : ∃ cs, foldNames [] (dir.join p).components =
      foldNames (foldNames [] dir.components) cs ∧ .parent ∉ cs ∧ .name s ∈ cs := by
    rcases components_join_of_relative dir relative with below | ⟨alone, none⟩
    · refine ⟨Path.named p.segments, by rw [below, foldNames_append], ?_⟩
      rcases components_of_relative relative with same | same <;> rw [same] at noParent named
      · exact ⟨noParent, named⟩
      · exact ⟨fun h => noParent (List.mem_cons_of_mem _ h),
          (List.mem_cons.1 named).resolve_left nofun⟩
    · exact ⟨p.components, by rw [alone, none, foldNames], noParent, named⟩
  obtain ⟨cs, fold, noParent, named⟩ := shape
  obtain ⟨names, left, all⟩ := exists_foldNames noParent (foldNames [] dir.components)
  have some : names ≠ [] := List.ne_nil_of_mem (all s named)
  have components : (dir.join p).normalize.components =
      dir.normalize.components ++ names.reverse.map .name := by
    rw [components_normalize, components_normalize, isAbsolute_join dir relative, fold, left,
      List.reverse_append, List.map_append, List.append_assoc]
  constructor
  · rw [startsWith_iff, components]
    exact List.prefix_append _ _
  · rw [Bool.eq_false_iff, Ne, same_iff, components]
    simp [some]

end Path

end WorkspaceLint
