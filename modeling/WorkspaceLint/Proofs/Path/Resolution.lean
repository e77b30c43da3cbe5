import WorkspaceLint.Proofs.Path.Relative
import WorkspaceLint.Proofs.Path.Walk

/-!
# Resolving paths step by step

Normalizing an absolute path gives the plain path that its parts lead to.  A plain path leads to its
own names, so a path may be normalized before another one is joined to it, and normalizing twice is
normalizing once (`normalize_resolves`).
-/

namespace WorkspaceLint

namespace Path

variable {names more : List String}

theorem walk_names (names : List String) (h : AreNames more) : walk names more = names ++ more := by
  induction more generalizing names with
  | nil => rw [walk, List.append_nil]
  | cons s more ih =>
    obtain ⟨name, later⟩ := List.forall_mem_cons.1 h
    rw [walk, if_neg (not_or.2 ⟨name.nonempty, name.notCurrent⟩), if_neg name.notParent, ih _ later,
      List.append_assoc, List.singleton_append]

/-- A plain path leads to its names. -/
theorem walk_segments_down (h : AreNames names) : walk [] (down names).segments = names := by
  rcases eq_or_ne names [] with rfl | some
  · decide
  · rw [segments_down h some, walk, if_pos (.inl rfl), walk_names [] h, List.nil_append]

theorem normalize_of_absolute {p : Path} (absolute : p.isAbsolute = true) :
    p.normalize = down (walk [] p.segments) := by
  rw [normalize, absolute, components_of_absolute absolute, foldNames, foldNames_named,
    List.reverse_nil, List.reverse_reverse]
  rfl

theorem areNames_walk_segments (p : Path) : AreNames (walk [] p.segments) :=
  areNames_walk areNames_nil fun _ => slash_not_mem_of_mem_segments

theorem plain_normalize {p : Path} (absolute : p.isAbsolute = true) : p.normalize.Plain :=
  ⟨_, areNames_walk_segments p, normalize_of_absolute absolute⟩

/-- From a directory and from its normal form a path leads to the same place. -/
theorem leadsTo_normalize {p : Path} (absolute : p.isAbsolute = true) (q : Path) :
    p.normalize.leadsTo q = p.leadsTo q := by
  unfold leadsTo
  split
  · rfl
  · rw [walk_append, walk_append, normalize_of_absolute absolute,
      walk_segments_down (areNames_walk_segments p)]

/-- Two dots lead to the directory above, and from the top nowhere else. -/
theorem normalize_join_parent {p : Path} (absolute : p.isAbsolute = true) :
    (p.join ⟨".."⟩).normalize = p.normalize.parent?.getD ⟨"/"⟩ := by
  have relative : ¬ (Path.mk "..").isAbsolute = true := by decide
  have parts : (Path.mk "..").segments = [".."] := by decide
  have up (names : List String) : walk names [".."] = names.dropLast := rfl
  rw [normalize_join absolute, leadsTo, if_neg relative, parts, walk_append, up,
    normalize_of_absolute absolute]
  rcases eq_or_ne (walk [] p.segments) [] with top | below
  · rw [top]
    decide
  · rw [parent?_down (areNames_walk_segments p) below]
    rfl

/-- What a plain path is spelled with. -/
theorem Plain.spelling {p : Path} (h : p.Plain) :
    (∀ s ∈ p.segments, s ≠ "." ∧ s ≠ "..") ∧
      (p ≠ ⟨"/"⟩ → p.text.toList.getLast? ≠ some '/') := by
  obtain ⟨names, hn, rfl⟩ := h
  rcases eq_or_ne names [] with rfl | some
  · exact ⟨by decide, fun below => absurd rfl below⟩
  · rw [segments_down hn some]
    refine ⟨List.forall_mem_cons.2 ⟨by decide, fun s hs => ?_⟩, fun _ => getLast?_text_down hn some⟩
    exact ⟨(hn s hs).notCurrent, (hn s hs).notParent⟩

/-- The normal form of an absolute path is absolute, has no dots for its parts and no slash at its
end, and stays below the top however often its path goes up.  It is its own normal form, and what is
joined to it leads where it leads from the path itself. -/
theorem normalize_resolves {p : Path} (absolute : p.isAbsolute = true) :
    p.normalize.isAbsolute = true ∧
    (∀ s ∈ p.normalize.segments, s ≠ "." ∧ s ≠ "..") ∧
    (p.normalize ≠ ⟨"/"⟩ → p.normalize.text.toList.getLast? ≠ some '/') ∧
    (p.join ⟨".."⟩).normalize = p.normalize.parent?.getD ⟨"/"⟩ ∧
    p.normalize.normalize = p.normalize ∧
    ∀ q : Path, (p.join q).normalize = (p.normalize.join q).normalize := by
  obtain ⟨root, settled⟩ := plain_iff.1 (plain_normalize absolute)
  obtain ⟨noDots, noSlash⟩ := (plain_normalize absolute).spelling
  refine ⟨root, noDots, noSlash, normalize_join_parent absolute, settled, fun q => ?_⟩
  rw [normalize_join absolute, normalize_join root, leadsTo_normalize absolute]

theorem normalize_resolves_climbing :
    (Path.mk "/w/.//a/../../../b/").isAbsolute = true ∧
    (Path.mk "/w/.//a/../../../b/").normalize = ⟨"/b"⟩ ∧
    ((Path.mk "/w/.//a/../../../b/").join ⟨".."⟩).normalize = ⟨"/"⟩ ∧
    ((Path.mk "/w/.//a/../../../b/").join ⟨"../../c/."⟩).normalize =
      ((Path.mk "/b").join ⟨"../../c/."⟩).normalize := by
  have absolute : (Path.mk "/w/.//a/../../../b/").isAbsolute = true := by decide
  have resolves := normalize_resolves absolute
  have here : (Path.mk "/w/.//a/../../../b/").normalize = ⟨"/b"⟩ := by decide
  rw [here] at resolves
  obtain ⟨-, -, -, up, -, joined⟩ := resolves
  exact ⟨absolute, here, up.trans (by decide), joined ⟨"../../c/."⟩⟩

end Path

end WorkspaceLint
