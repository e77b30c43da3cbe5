import Mathlib.Data.List.Sort
import WorkspaceLint.Proofs.FileSystem.Tree

/-!
# Entries of trees

What a tree stores at a path: contents, under the spelling that they were first given.  A tree in
order is determined by its entries (`files_eq_of_stored?_eq`), so what becomes of its files can be
followed path by path.
-/

namespace WorkspaceLint

namespace Tree

variable {t t' : Tree}

/-- What is stored at a path: its spelling and contents. -/
def stored? (t : Tree) (p : Path) : Option (Path × String) := t.files.find? (·.1.same p)

theorem contents?_eq_stored? (t : Tree) (p : Path) :
    t.contents? p = (t.stored? p).map Prod.snd := by
  unfold contents? stored?
  induction t.files with
  | nil => rfl
  | cons f fs ih =>
    rw [lookup, List.find?_cons]
    cases f.1.same p with
    | true => rfl
    | false => exact ih

/-- Nothing is found at a path that comes before or after every entry. -/
theorem find?_eq_none_of_before {p : Path} {fs : List (Path × String)}
    (apart : ∀ f ∈ fs, f.1.before p = true ∨ p.before f.1 = true) :
    fs.find? (·.1.same p) = none := by
  refine List.find?_eq_none.2 fun f member same => ?_
  rcases apart f member with first | first
  · exact Path.not_before_of_same (Path.same_iff.1 same) first
  · exact Path.not_before_of_same (Path.same_iff.1 same).symm first

/-! ## Trees are their entries -/

/-- In a tree in order every file is the entry at its path. -/
theorem Ordered.mem_files_iff (h : t.Ordered) {f : Path × String} :
    f ∈ t.files ↔ t.stored? f.1 = some f := by
  refine ⟨fun member => ?_, List.mem_of_find?_eq_some⟩
  obtain ⟨before, after, whole⟩ := List.append_of_mem member
  have ascending := h.files
  rw [paths, whole, List.map_append, List.map_cons] at ascending
  have none : before.find? (·.1.same f.1) = none := find?_eq_none_of_before fun g earlier =>
    .inl ((List.pairwise_append.1 ascending).2.2 g.1 (List.mem_map_of_mem earlier) f.1
      List.mem_cons_self)
  rw [stored?, whole, List.find?_append, none, Option.none_or, List.find?_cons_of_pos]
  exact Path.same_self f.1

/-- Trees in order with the same entry at every path store the same files. -/
theorem files_eq_of_stored?_eq (h : t.Ordered) (h' : t'.Ordered)
    (same : ∀ p, t.stored? p = t'.stored? p) : t.files = t'.files := by
  let earlier (f g : Path × String) : Prop := f.1.before g.1 = true
  have irrefl : Std.Irrefl earlier := ⟨fun f => Path.not_before_of_same rfl⟩
  have antisymm : Std.Antisymm earlier :=
    ⟨fun f g first second => absurd second (Path.before_asymm first)⟩
  refine List.Pairwise.eq_of_mem_iff (r := earlier) (List.pairwise_map.1 h.files)
    (List.pairwise_map.1 h'.files) fun f => ?_
  rw [h.mem_files_iff, h'.mem_files_iff, same]

/-! ## Entries after an operation -/

/-- Storing contents keeps the spelling of the entry that is there. -/
theorem find?_store {p : Path} {contents : String} {fs : List (Path × String)}
    (h : Path.Ascending (fs.map Prod.fst)) (q : Path) :
    (store p contents fs).find? (·.1.same q) =
      if p.same q then some (((fs.find? (·.1.same q)).map Prod.fst).getD p, contents)
      else fs.find? (·.1.same q) := by
  induction fs with
  | nil =>
    rw [store, List.find?_cons]
    cases p.same q <;> rfl
  | cons f fs ih =>
    obtain ⟨r, old⟩ := f
    obtain ⟨first, rest⟩ := List.pairwise_cons.1 h
    unfold store
    split
    · rename_i before
      rw [List.find?_cons]
      split
      · rename_i here
        rw [if_pos here]
        -- Everything that is there comes after the new entry, so nothing is at its path.
        have none : ((r, old) :: fs).find? (·.1.same q) = none := by
          refine find?_eq_none_of_before fun g member => .inr ?_
          rw [Path.before, ← Path.same_iff.1 here]
          rcases List.mem_cons.1 member with rfl | later
          · exact before
          · exact Path.before_trans before (first g.1 (List.mem_map_of_mem later))
        rw [none]
        rfl
      · rename_i elsewhere
        rw [if_neg (Bool.eq_false_iff.1 elsewhere)]
    split
    · rename_i same
      have alike : r.same q = p.same q := by rw [Path.same, Path.same, Path.same_iff.1 same]
      rw [List.find?_cons, List.find?_cons, alike]
      cases p.same q <;> rfl
    · rename_i other
      rw [List.find?_cons, List.find?_cons, ih rest]
      by_cases here : r.same q = true
      · have elsewhere : ¬ p.same q = true := by
          rw [Path.same_iff] at here other ⊢
          exact fun same => other (here.trans same.symm)
        simp only [here, if_neg elsewhere]
      · rw [Bool.eq_false_iff.2 here]

theorem Ordered.stored?_withFile (h : t.Ordered) (p q : Path) (contents : String) :
    (t.withFile p contents).stored? q =
      if p.same q then some (((t.stored? q).map Prod.fst).getD p, contents) else t.stored? q :=
  find?_store h.files q

theorem Ordered.withoutFile (h : t.Ordered) (p : Path) :
    Ordered { t with files := t.files.filter fun f => !f.1.same p } where
  files := List.Pairwise.sublist (List.filter_sublist.map Prod.fst) h.files
  dirs := h.dirs

theorem stored?_withoutFile (t : Tree) (p q : Path) :
    stored? { t with files := t.files.filter fun f => !f.1.same p } q =
      if p.same q then none else t.stored? q := by
  unfold stored?
  split
  · rename_i here
    refine List.find?_eq_none.2 fun f member same => ?_
    have other := (List.mem_filter.1 member).2
    rw [Bool.not_eq_true', ← Bool.not_eq_true, Path.same_iff] at other
    exact other ((Path.same_iff.1 same).trans (Path.same_iff.1 here).symm)
  · rename_i elsewhere
    rw [List.find?_filter]
    refine congrArg (t.files.find? ·) (funext fun f => ?_)
    by_cases here : f.1.same q = true
    · have kept : f.1.same p = false := by
        rw [← Bool.not_eq_true, Path.same_iff]
        rw [Path.same_iff] at here elsewhere
        exact fun same => elsewhere (same.symm.trans here)
      rw [here, kept]
      rfl
    · simp [here]

end Tree

end WorkspaceLint
