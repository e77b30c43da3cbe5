import Mathlib.Data.List.Nodup
import WorkspaceLint.Proofs.Path.Components

/-!
# The order of paths

Paths are compared by their components, as the lexicographic order over the order of components.
The order is strict and leaves only paths with the same components undecided, so a list in this order
has every path at one place: inserting a path again changes nothing (`insertSorted_eq_self`), and it
is found under the spelling that was inserted first (`find?_insertSorted`).
-/

namespace WorkspaceLint

namespace Text

variable {s t u : String}

theorem before_iff : before s t = true ↔ s.toList < t.toList := decide_eq_true_iff

theorem not_before_self (s : String) : ¬ before s s = true := by
  rw [before_iff]
  exact List.lt_irrefl s.toList

theorem before_trans (h : before s t = true) (h' : before t u = true) : before s u = true := by
  rw [before_iff] at h h' ⊢
  exact List.lt_trans h h'

theorem eq_of_not_before (h : ¬ before s t = true) (h' : ¬ before t s = true) : s = t := by
  rw [before_iff] at h h'
  exact String.toList_inj.1 (List.le_antisymm h' h)

end Text

namespace Path

/-! ## Components -/

namespace Component

theorem not_before_self (a : Component) : ¬ a.before a = true := by
  cases a with
  | name s => exact Text.not_before_self s
  | root | current | parent => decide

theorem before_trans {a b c : Component} (h : a.before b = true) (h' : b.before c = true) :
    a.before c = true := by
  cases a <;> cases b <;> cases c <;> simp_all [before, rank]
  exact Text.before_trans h h'

theorem eq_of_not_before {a b : Component} (h : ¬ a.before b = true) (h' : ¬ b.before a = true) :
    a = b := by
  cases a <;> cases b <;> simp_all [before, rank]
  exact Text.eq_of_not_before (Bool.not_eq_true _ ▸ h) (Bool.not_eq_true _ ▸ h')

end Component

/-- The lexicographic order over components. -/
theorem componentsBefore_iff_lex {as bs : List Component} :
    componentsBefore as bs = true ↔ List.Lex (fun a b => a.before b = true) as bs := by
  induction as generalizing bs with
  | nil => cases bs <;> simp [componentsBefore]
  | cons a as ih =>
    cases bs with
    | nil => simp [componentsBefore]
    | cons b bs => simp [componentsBefore, List.cons_lex_cons_iff, ih]

/-! ## Paths -/

theorem same_iff {p q : Path} : p.same q = true ↔ p.components = q.components := by
  rw [same, decide_eq_true_eq]

@[simp] theorem same_self (p : Path) : p.same p = true := same_iff.2 rfl

theorem same_comm (p q : Path) : p.same q = q.same p := by
  rw [Bool.eq_iff_iff, same_iff, same_iff]
  exact eq_comm

theorem before_iff {p q : Path} :
    p.before q = true ↔ List.Lex (fun a b => a.before b = true) p.components q.components :=
  componentsBefore_iff_lex

theorem before_trans {p q r : Path} (h : p.before q = true) (h' : q.before r = true) :
    p.before r = true :=
  before_iff.2 (List.lex_trans Component.before_trans (before_iff.1 h) (before_iff.1 h'))

/-- A path does not come before one with the same components. -/
theorem not_before_of_same {p q : Path} (h : p.components = q.components) :
    ¬ p.before q = true := by
  rw [before_iff, h]
  exact List.lex_irrefl Component.not_before_self _

theorem before_asymm {p q : Path} (h : p.before q = true) : ¬ q.before p = true :=
  fun h' => not_before_of_same rfl (before_trans h h')

/-- Paths of which none comes before the other have the same components. -/
theorem components_eq_of_not_before {p q : Path} (h : ¬ p.before q = true)
    (h' : ¬ q.before p = true) : p.components = q.components :=
  List.lex_trichotomous (fun _ _ => Component.eq_of_not_before)
    (fun later => h' (before_iff.2 later)) fun earlier => h (before_iff.2 earlier)

/-- Entries of a directory are in the order of their names. -/
theorem entry_before_entry (dir : Path) {name name' : String} (h : IsName name) (h' : IsName name')
    (first : Text.before name name' = true) : (dir.entry name).before (dir.entry name') = true := by
  rw [before_iff, components_entry dir h, components_entry dir h']
  generalize dir.components = cs
  induction cs with
  | nil => exact .rel first
  | cons c cs ih => exact .cons ih

/-! ## Lists in order -/

/-- Paths in their order, no two with the same components. -/
def Ascending (ps : List Path) : Prop := ps.Pairwise fun p q => p.before q = true

theorem Ascending.eq_of_components_eq {ps : List Path} (h : Ascending ps) {p q : Path}
    (hp : p ∈ ps) (hq : q ∈ ps) (same : p.components = q.components) : p = q := by
  have distinct : (ps.map components).Nodup :=
    List.pairwise_map.2 (h.imp fun before alike => not_before_of_same alike before)
  exact List.inj_on_of_nodup_map distinct hp hq same

theorem mem_map_components_insertSorted {p : Path} {ps : List Path} {cs : List Component} :
    cs ∈ (p.insertSorted ps).map components ↔ cs = p.components ∨ cs ∈ ps.map components := by
  induction ps with
  | nil => simp [insertSorted]
  | cons q qs ih =>
    unfold insertSorted
    split
    · simp
    split
    · rename_i same
      rw [same_iff] at same
      simp [same]
    · simp only [List.map_cons, List.mem_cons, ih]
      exact or_left_comm

theorem eq_or_mem_of_mem_insertSorted {p q : Path} {ps : List Path} (h : q ∈ p.insertSorted ps) :
    q = p ∨ q ∈ ps := by
  induction ps with
  | nil => exact .inl (List.mem_singleton.1 h)
  | cons r rs ih =>
    rw [insertSorted] at h
    split at h
    · exact List.mem_cons.1 h
    split at h
    · exact .inr h
    · rcases List.mem_cons.1 h with rfl | later
      · exact .inr List.mem_cons_self
      · exact (ih later).imp_right (List.mem_cons_of_mem _)

theorem ascending_insertSorted {p : Path} {ps : List Path} (h : Ascending ps) :
    Ascending (p.insertSorted ps) := by
  induction ps with
  | nil => exact List.pairwise_singleton _ _
  | cons q qs ih =>
    obtain ⟨first, rest⟩ := List.pairwise_cons.1 h
    unfold insertSorted
    split
    · rename_i before
      refine List.pairwise_cons.2 ⟨fun r member => ?_, h⟩
      rcases List.mem_cons.1 member with rfl | later
      · exact before
      · exact before_trans before (first r later)
    split
    · exact h
    · rename_i notBefore other
      refine List.pairwise_cons.2 ⟨fun r member => ?_, ih rest⟩
      have known := mem_map_components_insertSorted.1 (List.mem_map_of_mem member)
      have after : q.before p = true := by
        refine Decidable.not_not.1 fun notAfter => other (same_iff.2 ?_)
        exact components_eq_of_not_before notBefore notAfter
      rw [before_iff]
      rcases known with same | old
      · rw [same]
        exact before_iff.1 after
      · obtain ⟨r', member', same⟩ := List.mem_map.1 old
        rw [← same]
        exact before_iff.1 (first r' member')

/-- A path that is there already is not inserted again. -/
theorem insertSorted_eq_self {p : Path} {ps : List Path} (h : Ascending ps)
    (there : p.components ∈ ps.map components) : p.insertSorted ps = ps := by
  induction ps with
  | nil => cases there
  | cons q qs ih =>
    obtain ⟨first, rest⟩ := List.pairwise_cons.1 h
    unfold insertSorted
    rcases List.mem_cons.1 there with same | later
    · rw [if_neg (not_before_of_same same), if_pos (same_iff.2 same)]
    · obtain ⟨r, member, same⟩ := List.mem_map.1 later
      have after : q.before p = true := by
        rw [before_iff, ← same]
        exact before_iff.1 (first r member)
      have other : ¬ p.same q = true := fun alike =>
        not_before_of_same (same_iff.1 alike).symm after
      rw [if_neg (before_asymm after), if_neg other, ih rest later]

/-- A path is put between those before it and those after it, unless it is there. -/
theorem exists_insertSorted {ps : List Path} (h : Ascending ps) (p : Path) :
    p.insertSorted ps = ps ∨ ∃ front back, ps = front ++ back ∧
      p.insertSorted ps = front ++ p :: back ∧ ∀ q ∈ back, p.before q = true := by
  induction ps with
  | nil => exact .inr ⟨[], [], rfl, rfl, nofun⟩
  | cons q qs ih =>
    obtain ⟨first, rest⟩ := List.pairwise_cons.1 h
    unfold insertSorted
    split
    · rename_i before
      refine .inr ⟨[], q :: qs, rfl, rfl, fun r member => ?_⟩
      rcases List.mem_cons.1 member with rfl | later
      · exact before
      · exact before_trans before (first r later)
    split
    · exact .inl rfl
    · rcases ih rest with same | ⟨front, back, parts, inserted, after⟩
      · exact .inl (by rw [same])
      · exact .inr ⟨q :: front, back, by rw [parts]; rfl, by rw [inserted]; rfl, after⟩

/-- A path that is inserted in order is found as if it stood at the end: one that is there stays. -/
theorem find?_insertSorted {ps : List Path} (h : Ascending ps) (p q : Path) :
    (p.insertSorted ps).find? (·.same q) = (ps ++ [p]).find? (·.same q) := by
  rcases here : p.same q with _ | _
  · have other : [p].find? (·.same q) = none := List.find?_cons_of_neg (by simp [here])
    obtain kept | ⟨front, back, rfl, inserted, -⟩ := exists_insertSorted h p
    · rw [kept, List.find?_append, other, Option.or_none]
    · rw [inserted, List.find?_append, List.find?_append, other, Option.or_none,
        List.find?_cons_of_neg (by simp [here]), List.find?_append]
  · have found : [p].find? (·.same q) = some p := List.find?_cons_of_pos here
    obtain kept | ⟨front, back, rfl, inserted, after⟩ := exists_insertSorted h p
    · have known : p.components ∈ ps.map components := by
        rw [← kept]
        exact mem_map_components_insertSorted.2 (.inl rfl)
      obtain ⟨r, member, same⟩ := List.mem_map.1 known
      have there : (ps.find? (·.same q)).isSome = true :=
        List.find?_isSome.2 ⟨r, member, by rw [same_iff, same, same_iff.1 here]⟩
      rw [kept, List.find?_append, Option.or_of_isSome there]
    · -- What is behind the path comes after it, so it has other components.
      have none : back.find? (·.same q) = none := by
        refine List.find?_eq_none.2 fun r member same => ?_
        exact not_before_of_same ((same_iff.1 here).trans (same_iff.1 same).symm) (after r member)
      have next : (p :: back).find? (·.same q) = some p := List.find?_cons_of_pos here
      rw [inserted, List.find?_append, List.find?_append, List.find?_append, none, found, next,
        Option.or_none]

theorem components_of_find? {ps : List Path} {p q : Path}
    (found : ps.find? (·.same p) = some q) : q.components = p.components :=
  same_iff.1 (List.find?_eq_some_iff_append.1 found).1

theorem Ascending.mem_iff_find? {ps : List Path} (h : Ascending ps) {p : Path} :
    p ∈ ps ↔ ps.find? (·.same p) = some p := by
  refine ⟨fun member => ?_, List.mem_of_find?_eq_some⟩
  obtain ⟨q, found⟩ : ∃ q, ps.find? (·.same p) = some q :=
    Option.isSome_iff_exists.1 (List.find?_isSome.2 ⟨p, member, p.same_self⟩)
  rw [found, h.eq_of_components_eq (List.mem_of_find?_eq_some found) member
    (components_of_find? found)]

end Path

end WorkspaceLint
