import WorkspaceLint.Path

/-!
# Components of paths

Paths are built from texts, and compared by components.  This module says what the components of a
built path are: an entry of a directory has one component more (`components_entry`), a parent one
less (`components_parent?`), and above a path is what its components start with
(`mem_map_components_ancestors`), whatever its spelling.
-/

namespace WorkspaceLint

/-- A list starts properly with what it starts with when its last item is dropped. -/
theorem prefix_dropLast_iff {α : Type} {as bs : List α} (some : bs ≠ []) :
    as <+: bs.dropLast ↔ as <+: bs ∧ bs ≠ as := by
  constructor
  · intro above
    refine ⟨above.trans (List.dropLast_prefix bs), ?_⟩
    rintro rfl
    have length := above.length_le
    have nonempty := List.length_pos_iff.2 some
    rw [List.length_dropLast] at length
    omega
  · rintro ⟨⟨rest, rfl⟩, other⟩
    rw [List.dropLast_append_of_ne_nil fun none => other (by rw [none, List.append_nil])]
    exact List.prefix_append _ _

namespace Path

/-! ## Texts and their parts -/

theorem splitSlashes_ne_nil (cs : List Char) : splitSlashes cs ≠ [] := by
  cases cs with
  | nil => exact List.cons_ne_nil _ _
  | cons c cs =>
    unfold splitSlashes
    split
    · exact List.cons_ne_nil _ _
    · split <;> exact List.cons_ne_nil _ _

theorem splitSlashes_cons_of_ne {c : Char} (h : c ≠ '/') {cs seg : List Char}
    {segs : List (List Char)} (rest : splitSlashes cs = seg :: segs) :
    splitSlashes (c :: cs) = (c :: seg) :: segs := by
  rw [splitSlashes, if_neg h, rest]

/-- A slash divides the parts before it from those after it. -/
theorem splitSlashes_append (cs ds : List Char) :
    splitSlashes (cs ++ '/' :: ds) = splitSlashes cs ++ splitSlashes ds := by
  induction cs with
  | nil =>
    rw [List.nil_append, splitSlashes]
    rfl
  | cons c cs ih =>
    by_cases slash : c = '/'
    · rw [List.cons_append, splitSlashes, splitSlashes, if_pos slash, if_pos slash, ih,
        List.cons_append]
    · obtain ⟨seg, segs, eq⟩ := List.exists_cons_of_ne_nil (splitSlashes_ne_nil cs)
      rw [eq, List.cons_append] at ih
      rw [List.cons_append, splitSlashes_cons_of_ne slash ih, splitSlashes_cons_of_ne slash eq,
        List.cons_append]

theorem splitSlashes_of_not_mem {cs : List Char} (h : '/' ∉ cs) : splitSlashes cs = [cs] := by
  induction cs with
  | nil => rfl
  | cons c cs ih =>
    obtain ⟨first, later⟩ := not_or.1 (fun member => h (List.mem_cons.2 member))
    exact splitSlashes_cons_of_ne (Ne.symm first) (ih later)

theorem slash_not_mem_of_mem {cs seg : List Char} (h : seg ∈ splitSlashes cs) : '/' ∉ seg := by
  induction cs generalizing seg with
  | nil =>
    rw [List.mem_singleton.1 h]
    exact List.not_mem_nil
  | cons c cs ih =>
    by_cases slash : c = '/'
    · rw [splitSlashes, if_pos slash] at h
      rcases List.mem_cons.1 h with rfl | later
      · exact List.not_mem_nil
      · exact ih later
    · obtain ⟨first, segs, eq⟩ := List.exists_cons_of_ne_nil (splitSlashes_ne_nil cs)
      rw [splitSlashes_cons_of_ne slash eq] at h
      rcases List.mem_cons.1 h with rfl | later
      · intro member
        rcases List.mem_cons.1 member with same | member
        · exact slash same.symm
        · exact ih (by rw [eq]; exact List.mem_cons_self) member
      · exact ih (by rw [eq]; exact List.mem_cons_of_mem _ later)

theorem splitSlashes_intercalate {segs : List (List Char)} (nonempty : segs ≠ [])
    (h : ∀ seg ∈ segs, '/' ∉ seg) : splitSlashes (['/'].intercalate segs) = segs := by
  induction segs with
  | nil => exact absurd rfl nonempty
  | cons seg segs ih =>
    obtain ⟨first, later⟩ := List.forall_mem_cons.1 h
    cases segs with
    | nil => simpa [List.intercalate] using splitSlashes_of_not_mem first
    | cons seg' segs =>
      have rest := ih (List.cons_ne_nil _ _) later
      have text : ['/'].intercalate (seg :: seg' :: segs) =
          seg ++ '/' :: ['/'].intercalate (seg' :: segs) := by
        simp [List.intercalate, List.intersperse]
      rw [text, splitSlashes_append, splitSlashes_of_not_mem first, rest]
      rfl

/-- A text starts with a slash when its first part is empty and not its last. -/
theorem head?_eq_slash_iff {cs : List Char} :
    cs.head? = some '/' ↔ ∃ rest, rest ≠ [] ∧ splitSlashes cs = [] :: rest := by
  cases cs with
  | nil =>
    refine ⟨nofun, ?_⟩
    rintro ⟨rest, more, eq⟩
    exact absurd (List.cons.inj eq).2.symm more
  | cons c cs =>
    by_cases slash : c = '/'
    · subst slash
      exact ⟨fun _ => ⟨splitSlashes cs, splitSlashes_ne_nil cs, by rw [splitSlashes, if_pos rfl]⟩,
        fun _ => rfl⟩
    · obtain ⟨seg, segs, eq⟩ := List.exists_cons_of_ne_nil (splitSlashes_ne_nil cs)
      rw [splitSlashes_cons_of_ne slash eq]
      constructor
      · intro h
        exact absurd (Option.some.inj h) slash
      · rintro ⟨rest, -, eq⟩
        exact absurd (List.cons.inj eq).1 (List.cons_ne_nil _ _)

/-! ## Parts of paths -/

theorem segments_ne_nil (p : Path) : p.segments ≠ [] :=
  fun h => splitSlashes_ne_nil _ (List.map_eq_nil_iff.1 h)

theorem slash_not_mem_of_mem_segments {p : Path} {s : String} (h : s ∈ p.segments) :
    '/' ∉ s.toList := by
  obtain ⟨seg, member, rfl⟩ := List.mem_map.1 h
  rw [String.toList_ofList]
  exact slash_not_mem_of_mem member

theorem segments_joinSegments {segs : List String} (nonempty : segs ≠ [])
    (h : ∀ s ∈ segs, '/' ∉ s.toList) : (Path.mk (joinSegments segs)).segments = segs := by
  have parts : splitSlashes (['/'].intercalate (segs.map String.toList)) =
      segs.map String.toList := by
    refine splitSlashes_intercalate (fun none => nonempty (List.map_eq_nil_iff.1 none)) ?_
    intro seg member
    obtain ⟨s, hs, rfl⟩ := List.mem_map.1 member
    exact h s hs
  unfold segments joinSegments
  rw [String.toList_intercalate]
  show (splitSlashes (['/'].intercalate (segs.map String.toList))).map String.ofList = segs
  rw [parts, List.map_map]
  simp [Function.comp_def]

theorem isAbsolute_iff {p : Path} :
    p.isAbsolute = true ↔ ∃ rest, rest ≠ [] ∧ p.segments = "" :: rest := by
  unfold isAbsolute segments
  rw [decide_eq_true_eq, head?_eq_slash_iff]
  constructor
  · rintro ⟨rest, more, eq⟩
    exact ⟨rest.map String.ofList, fun none => more (List.map_eq_nil_iff.1 none), by rw [eq]; rfl⟩
  · rintro ⟨rest, more, eq⟩
    obtain ⟨seg, segs, parts⟩ := List.exists_cons_of_ne_nil (splitSlashes_ne_nil p.text.toList)
    rw [parts, List.map_cons] at eq
    obtain ⟨first, later⟩ := List.cons.inj eq
    refine ⟨segs, fun none => more (by rw [← later, none]; rfl), ?_⟩
    have empty : seg = [] := by
      have := congrArg String.toList first
      rwa [String.toList_ofList] at this
    rw [parts, empty]

/-! ## From parts to components -/

/-- The components that the parts of a path spell. -/
def spelled (absolute : Bool) : List String → List Component
  | [] => []
  | first :: rest =>
    if absolute then .root :: named rest
    else if first = "." then .current :: named rest
    else named (first :: rest)

theorem components_eq_spelled (p : Path) : p.components = spelled p.isAbsolute p.segments := rfl

theorem named_append (segs segs' : List String) :
    named (segs ++ segs') = named segs ++ named segs' := by
  unfold named
  rw [List.filter_append, List.map_append]

theorem spelled_append (absolute : Bool) {segs : List String} (h : segs ≠ [])
    (segs' : List String) :
    spelled absolute (segs ++ segs') = spelled absolute segs ++ named segs' := by
  obtain ⟨first, rest, rfl⟩ := List.exists_cons_of_ne_nil h
  rw [List.cons_append]
  simp only [spelled]
  split
  · rw [named_append, List.cons_append]
  split
  · rw [named_append, List.cons_append]
  · rw [← List.cons_append, named_append]

/-- Whether a text is the name of an entry: not empty, without slash, and no dots only. -/
structure IsName (s : String) : Prop where
  nonempty : s ≠ ""
  notCurrent : s ≠ "."
  notParent : s ≠ ".."
  noSlash : '/' ∉ s.toList

instance (s : String) : Decidable (IsName s) :=
  decidable_of_iff (s ≠ "" ∧ s ≠ "." ∧ s ≠ ".." ∧ '/' ∉ s.toList)
    ⟨fun h => ⟨h.1, h.2.1, h.2.2.1, h.2.2.2⟩, fun h => ⟨h.1, h.2, h.3, h.4⟩⟩

theorem IsName.named {s : String} (h : IsName s) : named [s] = [.name s] := by
  have kept : isVoid s = false := by
    simp [isVoid, h.nonempty, h.notCurrent]
  simp [Path.named, kept, ofSegment, h.notParent]

/-! ## Entries of directories -/

theorem isAbsolute_append (s t : String) (h : s ≠ "") :
    (Path.mk (s ++ t)).isAbsolute = (Path.mk s).isAbsolute := by
  have nonempty : s.toList ≠ [] := fun none => h (String.toList_eq_nil_iff.1 none)
  obtain ⟨c, cs, eq⟩ := List.exists_cons_of_ne_nil nonempty
  unfold isAbsolute
  rw [String.toList_append, eq]
  rfl

theorem components_append_slash {s : String} (h : s ≠ "") (t : String) :
    (Path.mk (s ++ ("/" ++ t))).components =
      (Path.mk s).components ++ named (Path.mk t).segments := by
  have parts : (Path.mk (s ++ ("/" ++ t))).segments =
      (Path.mk s).segments ++ (Path.mk t).segments := by
    unfold segments
    rw [String.toList_append, String.toList_append]
    show (splitSlashes (s.toList ++ '/' :: t.toList)).map String.ofList = _
    rw [splitSlashes_append, List.map_append]
  rw [components_eq_spelled, isAbsolute_append s _ h, parts,
    spelled_append _ (segments_ne_nil _), ← components_eq_spelled]

theorem components_slash (t : String) :
    (Path.mk ("/" ++ t)).components = .root :: named (Path.mk t).segments := by
  have parts : (Path.mk ("/" ++ t)).segments = "" :: (Path.mk t).segments := by
    unfold segments
    rw [String.toList_append]
    show (splitSlashes ('/' :: t.toList)).map String.ofList = _
    rw [splitSlashes, if_pos rfl]
    rfl
  have absolute : (Path.mk ("/" ++ t)).isAbsolute = true :=
    isAbsolute_iff.2 ⟨_, segments_ne_nil ⟨t⟩, parts⟩
  rw [components_eq_spelled, absolute, parts]
  rfl

theorem IsName.segments {s : String} (h : IsName s) : (Path.mk s).segments = [s] := by
  unfold Path.segments
  rw [splitSlashes_of_not_mem h.noSlash]
  simp

theorem IsName.isAbsolute {s : String} (h : IsName s) : (Path.mk s).isAbsolute = false := by
  rw [Bool.eq_false_iff]
  intro absolute
  obtain ⟨rest, more, eq⟩ := isAbsolute_iff.1 absolute
  rw [h.segments] at eq
  exact more (List.cons.inj eq).2.symm

/-- The components of a relative path below a directory; below nothing a dot at the start of the
path stays. -/
theorem components_join_of_relative (dir : Path) {p : Path} (relative : p.isAbsolute = false) :
    (dir.join p).components = dir.components ++ named p.segments ∨
      (dir.join p).components = p.components ∧ dir.components = [] := by
  obtain ⟨text⟩ := dir
  unfold join
  rw [if_neg (by rw [relative]; exact Bool.false_ne_true)]
  by_cases empty : text = ""
  · subst empty
    rw [if_pos (.inl rfl), String.empty_append]
    exact .inr ⟨rfl, rfl⟩
  left
  split
  · rename_i slash
    obtain ⟨cs, eq⟩ := List.getLast?_eq_some_iff.1 (slash.resolve_left empty)
    have text_eq : text = String.ofList cs ++ "/" := by
      rw [← String.toList_inj, eq, String.toList_append, String.toList_ofList]
      rfl
    have last : named (Path.mk "").segments = [] := rfl
    by_cases start : String.ofList cs = ""
    · have whole := components_slash ""
      rw [last, String.append_empty] at whole
      rw [text_eq, start, String.empty_append, components_slash, whole]
      rfl
    · have whole := components_append_slash start ""
      rw [last, String.append_empty, List.append_nil] at whole
      rw [text_eq, String.append_assoc, components_append_slash start, whole]
  · rw [String.append_assoc, components_append_slash empty]

theorem IsName.components {s : String} (h : IsName s) : (Path.mk s).components = [.name s] := by
  rw [components_eq_spelled, h.isAbsolute, h.segments]
  simp only [spelled, if_neg h.notCurrent, Bool.false_eq_true, if_false, h.named]

/-- An entry of a directory has its name as one more component. -/
theorem components_entry (dir : Path) {name : String} (h : IsName name) :
    (dir.entry name).components = dir.components ++ [.name name] := by
  rcases components_join_of_relative dir h.isAbsolute with below | ⟨alone, none⟩
  · rw [entry, below, h.segments, h.named]
  · rw [entry, alone, none, h.components, List.nil_append]

/-! ## Parents -/

/-- Parts at the end that name nothing are all that is dropped. -/
theorem exists_dropVoidEnd (segs : List String) :
    ∃ voids, segs = dropVoidEnd segs ++ voids ∧ (∀ s ∈ voids, isVoid s = true) ∧
      ∀ s, (dropVoidEnd segs).getLast? = some s → isVoid s = false := by
  have parts := List.takeWhile_append_dropWhile (p := isVoid) (l := segs.reverse)
  refine ⟨(segs.reverse.takeWhile isVoid).reverse, ?_, ?_, ?_⟩
  · have whole := congrArg List.reverse parts
    rw [List.reverse_append, List.reverse_reverse] at whole
    exact whole.symm
  · intro s member
    have all : (segs.reverse.takeWhile isVoid).all isVoid = true := List.all_takeWhile
    exact List.all_eq_true.1 all s (List.mem_reverse.1 member)
  · intro s last
    unfold dropVoidEnd at last
    rw [List.getLast?_reverse] at last
    have := List.head?_dropWhile_not isVoid segs.reverse
    rw [last] at this
    simpa using this

theorem named_eq_nil_iff {segs : List String} : named segs = [] ↔ ∀ s ∈ segs, isVoid s = true := by
  unfold named
  rw [List.map_eq_nil_iff, List.filter_eq_nil_iff]
  simp

theorem named_dropVoidEnd (segs : List String) : named (dropVoidEnd segs) = named segs := by
  obtain ⟨voids, eq, all, -⟩ := exists_dropVoidEnd segs
  have whole := congrArg named eq
  rw [named_append, named_eq_nil_iff.2 all, List.append_nil] at whole
  exact whole.symm

theorem dropVoidEnd_eq_nil_iff {segs : List String} : dropVoidEnd segs = [] ↔ named segs = [] := by
  constructor
  · intro h
    rw [← named_dropVoidEnd, h]
    rfl
  · intro h
    obtain ⟨voids, -, -, last⟩ := exists_dropVoidEnd segs
    rcases hl : (dropVoidEnd segs).getLast? with _ | s
    · exact List.getLast?_eq_none_iff.1 hl
    · have member : s ∈ dropVoidEnd segs := List.mem_of_getLast? hl
      rw [← named_dropVoidEnd] at h
      have void := named_eq_nil_iff.1 h s member
      rw [last s hl] at void
      cases void

theorem named_dropLastName (segs : List String) :
    named (dropLastName segs) = (named segs).dropLast := by
  unfold dropLastName
  rw [named_dropVoidEnd, ← named_dropVoidEnd segs]
  obtain ⟨voids, -, -, last⟩ := exists_dropVoidEnd segs
  rcases List.eq_nil_or_concat (dropVoidEnd segs) with none | ⟨front, s, eq⟩
  · rw [none]
    rfl
  · rw [List.concat_eq_append] at eq
    have kept : isVoid s = false := last s (by rw [eq]; exact List.getLast?_concat)
    have one : named [s] = [ofSegment s] := by simp [named, kept]
    rw [eq, List.dropLast_concat, named_append, one, List.dropLast_concat]

/-- The parts without the last name are those that a path starts with. -/
theorem exists_dropLastName (segs : List String) :
    ∃ dropped, segs = dropLastName segs ++ dropped := by
  obtain ⟨voids, eq, -⟩ := exists_dropVoidEnd segs
  obtain ⟨voids', eq', -⟩ := exists_dropVoidEnd (dropVoidEnd segs).dropLast
  have first : dropLastName segs <+: (dropVoidEnd segs).dropLast := ⟨voids', eq'.symm⟩
  have shorter : (dropVoidEnd segs).dropLast <+: dropVoidEnd segs := List.dropLast_prefix _
  obtain ⟨dropped, whole⟩ := first.trans (shorter.trans ⟨voids, eq.symm⟩)
  exact ⟨dropped, whole.symm⟩

theorem slash_not_mem_dropLastName {segs : List String} (h : ∀ s ∈ segs, '/' ∉ s.toList) :
    ∀ s ∈ dropLastName segs, '/' ∉ s.toList := by
  obtain ⟨dropped, eq⟩ := exists_dropLastName segs
  intro s member
  refine h s ?_
  rw [eq]
  exact List.mem_append_left _ member

/-- The components of a path that is put together from parts. -/
theorem components_joinSegments {first : String} {rest : List String}
    (h : ∀ s ∈ first :: rest, '/' ∉ s.toList) :
    (Path.mk (joinSegments (first :: rest))).components =
      spelled (decide (first = "" ∧ rest ≠ [])) (first :: rest) := by
  have parts := segments_joinSegments (List.cons_ne_nil first rest) h
  have absolute : (Path.mk (joinSegments (first :: rest))).isAbsolute =
      decide (first = "" ∧ rest ≠ []) := by
    rw [Bool.eq_iff_iff, isAbsolute_iff, parts, decide_eq_true_eq]
    constructor
    · rintro ⟨rest', more, eq⟩
      obtain ⟨rfl, rfl⟩ := List.cons.inj eq
      exact ⟨rfl, more⟩
    · rintro ⟨rfl, more⟩
      exact ⟨rest, more, rfl⟩
  rw [components_eq_spelled, parts, absolute]

theorem root_not_mem_named (segs : List String) : Component.root ∉ named segs := by
  intro member
  obtain ⟨s, -, spelling⟩ := List.mem_map.1 member
  unfold ofSegment at spelling
  split at spelling <;> cases spelling

theorem components_joinSegments_dropLastName {first : String} {rest : List String}
    (slashes : ∀ s ∈ first :: rest, '/' ∉ s.toList) (current : first ≠ ".")
    (relative : first = "" → rest = []) :
    (Path.mk (joinSegments (dropLastName (first :: rest)))).components =
      (named (first :: rest)).dropLast := by
  rw [← named_dropLastName]
  obtain ⟨dropped, whole⟩ := exists_dropLastName (first :: rest)
  have free := slash_not_mem_dropLastName slashes
  rcases hl : dropLastName (first :: rest) with _ | ⟨first', segs⟩
  · rfl
  · rw [hl] at whole free
    obtain ⟨rfl, parts⟩ := List.cons.inj whole
    have relative' : ¬ (first = "" ∧ segs ≠ []) := by
      rintro ⟨empty, more⟩
      rw [relative empty] at parts
      exact more (List.append_eq_nil_iff.1 parts.symm).1
    rw [components_joinSegments free, decide_eq_false relative']
    simp [spelled, current]

/-- A parent has the components without the last one, and only the root and the empty path have
none. -/
theorem components_parent? (p : Path) :
    match p.parent? with
    | none => p.components = [] ∨ p.components = [.root]
    | some q => p.components ≠ [] ∧ p.components ≠ [.root] ∧
        q.components = p.components.dropLast := by
  have slashes := fun s => slash_not_mem_of_mem_segments (p := p) (s := s)
  rw [components_eq_spelled]
  unfold parent?
  obtain ⟨first, rest, eq⟩ := List.exists_cons_of_ne_nil (segments_ne_nil p)
  rw [eq] at slashes
  obtain ⟨slashFirst, slashRest⟩ := List.forall_mem_cons.1 slashes
  rw [eq]
  simp only [spelled]
  by_cases absolute : p.isAbsolute = true
  · obtain ⟨rest', more, eq'⟩ := isAbsolute_iff.1 absolute
    obtain ⟨rfl, rfl⟩ := List.cons.inj (eq.symm.trans eq')
    simp only [absolute, if_true]
    by_cases none : dropVoidEnd rest = []
    · rw [if_pos none]
      exact .inr (by rw [dropVoidEnd_eq_nil_iff.1 none])
    · rw [if_neg none]
      have names : named rest ≠ [] := fun h => none (dropVoidEnd_eq_nil_iff.2 h)
      have shorter : (Component.root :: named rest).dropLast =
          .root :: named (dropLastName rest) := by
        rw [named_dropLastName, List.dropLast_cons_of_ne_nil names]
      rcases hl : dropLastName rest with _ | ⟨second, segs⟩
      · refine ⟨List.cons_ne_nil _ _, fun h => names (List.cons.inj h).2, ?_⟩
        rw [shorter, hl]
        rfl
      · refine ⟨List.cons_ne_nil _ _, fun h => names (List.cons.inj h).2, ?_⟩
        have free := slash_not_mem_dropLastName slashRest
        rw [hl] at free
        rw [shorter, hl, components_joinSegments (List.forall_mem_cons.2 ⟨slashFirst, free⟩)]
        simp [spelled]
  · simp only [absolute, Bool.false_eq_true, if_false]
    by_cases current : first = "."
    · subst current
      simp only [if_true]
      by_cases none : dropVoidEnd rest = []
      · rw [if_pos none, dropVoidEnd_eq_nil_iff.1 none]
        exact ⟨List.cons_ne_nil _ _, by simp, rfl⟩
      · rw [if_neg none]
        have names : named rest ≠ [] := fun h => none (dropVoidEnd_eq_nil_iff.2 h)
        refine ⟨List.cons_ne_nil _ _, by simp, ?_⟩
        rw [components_joinSegments (List.forall_mem_cons.2
          ⟨slashFirst, slash_not_mem_dropLastName slashRest⟩),
          List.dropLast_cons_of_ne_nil names, ← named_dropLastName]
        simp [spelled]
    · simp only [if_neg current]
      by_cases none : dropVoidEnd (first :: rest) = []
      · rw [if_pos none]
        exact .inl (dropVoidEnd_eq_nil_iff.1 none)
      · rw [if_neg none]
        have names : named (first :: rest) ≠ [] := fun h => none (dropVoidEnd_eq_nil_iff.2 h)
        have notRoot : named (first :: rest) ≠ [.root] := fun h =>
          root_not_mem_named (first :: rest) (h ▸ List.mem_singleton_self _)
        refine ⟨names, notRoot, components_joinSegments_dropLastName slashes current ?_⟩
        exact fun empty => Decidable.byContradiction fun more =>
          absolute (isAbsolute_iff.2 ⟨rest, more, empty ▸ eq⟩)

theorem parent?_eq_none_iff {p : Path} :
    p.parent? = none ↔ p.components = [] ∨ p.components = [.root] := by
  have h := components_parent? p
  rcases hp : p.parent? with _ | q <;> rw [hp] at h
  · exact ⟨fun _ => h, fun _ => rfl⟩
  · exact ⟨nofun, fun none => absurd none (not_or.2 ⟨h.1, h.2.1⟩)⟩

/-- Nothing but the empty path is above a path that has no parent. -/
theorem eq_of_prefix_of_parent?_eq_none {p : Path} (h : p.parent? = none) {cs : List Component}
    (above : cs <+: p.components) : cs = [] ∨ cs = p.components := by
  rcases parent?_eq_none_iff.1 h with none | top
  · exact .inl (List.prefix_nil.1 (none ▸ above))
  · rw [top] at above ⊢
    obtain none | ⟨more, same, none⟩ := List.prefix_cons_iff.1 above
    · exact .inl none
    · exact .inr (by rw [same, List.prefix_nil.1 none])

/-- What is properly above a path is at or above its parent. -/
theorem prefix_parent?_iff {p q : Path} (parent : p.parent? = some q) {cs : List Component} :
    cs <+: q.components ↔ cs <+: p.components ∧ p.components ≠ cs := by
  have shorter := components_parent? p
  rw [parent] at shorter
  rw [shorter.2.2, prefix_dropLast_iff shorter.1]

/-- The parent of an entry is its directory. -/
theorem parent?_entry (dir : Path) {name : String} (h : IsName name) :
    ∃ q, (dir.entry name).parent? = some q ∧ q.components = dir.components := by
  have parent := components_parent? (dir.entry name)
  rw [components_entry dir h, List.dropLast_concat] at parent
  rcases hp : (dir.entry name).parent? with _ | q <;> rw [hp] at parent
  · exact absurd parent (by simp [List.append_eq_singleton_iff])
  · exact ⟨q, rfl, parent.2.2⟩

theorem startsWith_iff {p q : Path} : p.startsWith q = true ↔ q.components <+: p.components :=
  List.isPrefixOf_iff_prefix

/-! ## Ancestors -/

/-- A text has at most as many parts that are not empty as characters. -/
theorem countP_splitSlashes_le (cs : List Char) :
    ((splitSlashes cs).map String.ofList).countP (· ≠ "") ≤ cs.length := by
  induction cs with
  | nil => exact Nat.le_refl _
  | cons c cs ih =>
    by_cases slash : c = '/'
    · rw [splitSlashes, if_pos slash, List.map_cons, List.countP_cons_of_neg (by simp),
        List.length_cons]
      exact Nat.le_succ_of_le ih
    · obtain ⟨seg, segs, eq⟩ := List.exists_cons_of_ne_nil (splitSlashes_ne_nil cs)
      rw [eq, List.map_cons] at ih
      rw [splitSlashes_cons_of_ne slash eq, List.map_cons, List.countP_cons_of_pos (by simp),
        List.length_cons]
      have rest := List.countP_cons (p := (· ≠ "")) (a := String.ofList seg)
        (l := segs.map String.ofList)
      omega

theorem length_named_le (segs : List String) : (named segs).length ≤ segs.countP (· ≠ "") := by
  unfold named
  rw [List.length_map, ← List.countP_eq_length_filter]
  refine List.countP_mono_left fun s _ kept => ?_
  simp only [isVoid, Bool.not_eq_true', Bool.or_eq_false_iff, decide_eq_false_iff_not] at kept
  simpa using kept.1

/-- A path has at most as many components as characters. -/
theorem length_components_le (p : Path) : p.components.length ≤ p.text.toList.length := by
  have parts := countP_splitSlashes_le p.text.toList
  rw [components_eq_spelled]
  obtain ⟨first, rest, eq⟩ := List.exists_cons_of_ne_nil (segments_ne_nil p)
  have names := length_named_le rest
  by_cases absolute : p.isAbsolute = true
  · -- The slash at the start is the character that stands for the root.
    obtain ⟨cs, text⟩ := List.head?_eq_some_iff.1 (of_decide_eq_true absolute)
    rw [segments, text, splitSlashes, if_pos rfl, List.map_cons] at eq
    have later := countP_splitSlashes_le cs
    rw [(List.cons.inj eq).2] at later
    rw [segments, text, splitSlashes, if_pos rfl, List.map_cons, absolute, spelled, if_pos rfl,
      (List.cons.inj eq).2, List.length_cons, List.length_cons]
    omega
  · rw [eq]
    rw [show (splitSlashes p.text.toList).map String.ofList = first :: rest from eq] at parts
    simp only [spelled, absolute, Bool.false_eq_true, if_false]
    split
    · rename_i current
      rw [List.countP_cons_of_pos (by simp [current])] at parts
      rw [List.length_cons]
      omega
    · exact Nat.le_trans (length_named_le _) parts

theorem map_components_ancestorsFrom {p q : Path} (h : p.components = q.components)
    {fuel fuel' : Nat} (enough : p.components.length ≤ fuel)
    (enough' : q.components.length ≤ fuel') :
    (ancestorsFrom fuel p).map components = (ancestorsFrom fuel' q).map components := by
  -- Both sides go up as long as there are components, so the induction is on those.
  induction hn : p.components.length generalizing p q fuel fuel' with
  | zero =>
    have none : ∀ (p : Path) (fuel : Nat), p.components = [] →
        (ancestorsFrom fuel p).map components = [[]] := by
      intro p fuel empty
      have parent := components_parent? p
      cases fuel with
      | zero => rw [ancestorsFrom, List.map_singleton, empty]
      | succ fuel =>
        rw [ancestorsFrom]
        rcases hp : p.parent? with _ | q
        · rw [List.map_singleton, empty]
        · rw [hp] at parent
          exact absurd empty parent.1
    have empty := List.length_eq_zero_iff.1 hn
    rw [none p fuel empty, none q fuel' (h ▸ empty)]
  | succ n ih =>
    have parent := components_parent? p
    have parent' := components_parent? q
    obtain ⟨fuel, rfl⟩ : ∃ k, fuel = k + 1 := ⟨fuel - 1, by omega⟩
    obtain ⟨fuel', rfl⟩ : ∃ k, fuel' = k + 1 := ⟨fuel' - 1, by rw [← h] at enough'; omega⟩
    rw [ancestorsFrom, ancestorsFrom]
    rcases hp : p.parent? with _ | p' <;> rcases hq : q.parent? with _ | q' <;>
      rw [hp] at parent <;> rw [hq] at parent'
    · rw [List.map_singleton, List.map_singleton, h]
    · rw [h] at parent
      exact absurd parent (not_or.2 ⟨parent'.1, parent'.2.1⟩)
    · rw [← h] at parent'
      exact absurd parent' (not_or.2 ⟨parent.1, parent.2.1⟩)
    · have same : p'.components = q'.components := by rw [parent.2.2, parent'.2.2, h]
      have length : p'.components.length = n := by
        rw [parent.2.2, List.length_dropLast, hn, Nat.add_sub_cancel]
      have length' : q'.components.length = n := same ▸ length
      rw [← h] at enough'
      have above : (ancestorsFrom fuel p').map components =
          (ancestorsFrom fuel' q').map components := ih same (by omega) (by omega) length
      rw [List.map_cons, List.map_cons, h, above]

/-- The paths above a path depend on its components only, up to their spelling. -/
theorem map_components_ancestors {p q : Path} (h : p.components = q.components) :
    p.ancestors.map components = q.ancestors.map components :=
  map_components_ancestorsFrom h (length_components_le p) (length_components_le q)

theorem mem_map_components_ancestorsFrom {cs : List Component} (some : cs ≠ []) {p : Path}
    {fuel : Nat} (enough : p.components.length ≤ fuel) :
    cs ∈ (ancestorsFrom fuel p).map components ↔ cs <+: p.components := by
  induction fuel generalizing p with
  | zero =>
    rw [ancestorsFrom, List.map_singleton, List.mem_singleton,
      List.length_eq_zero_iff.1 (Nat.le_zero.1 enough), List.prefix_nil]
  | succ fuel ih =>
    rw [ancestorsFrom]
    rcases hp : p.parent? with _ | q
    · rw [List.map_singleton, List.mem_singleton]
      refine ⟨fun same => same ▸ List.prefix_rfl, fun above => ?_⟩
      exact (eq_of_prefix_of_parent?_eq_none hp above).resolve_left some
    · have length : q.components.length ≤ fuel := by
        have parent := components_parent? p
        rw [hp] at parent
        rw [parent.2.2, List.length_dropLast]
        omega
      rw [List.map_cons, List.mem_cons, ih length, prefix_parent?_iff hp]
      constructor
      · rintro (rfl | ⟨within, -⟩)
        · exact List.prefix_rfl
        · exact within
      · intro within
        by_cases same : p.components = cs
        · exact .inl same.symm
        · exact .inr ⟨within, same⟩

/-- Above a path is what its components start with. -/
theorem mem_map_components_ancestors {p : Path} {cs : List Component} (some : cs ≠ []) :
    cs ∈ p.ancestors.map components ↔ cs <+: p.components :=
  mem_map_components_ancestorsFrom some (length_components_le p)

end Path

end WorkspaceLint
