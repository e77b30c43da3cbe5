import Mathlib.Data.List.Basic
import WorkspaceLint.Proofs.Json.Members
import WorkspaceLint.Schema

/-!
# What schemas allow

`Schema.Allows` is the absence of violations.  For the schemas that options are described with it
comes down to plain conditions: the types of a value, the items of a list, and for an object its
members, the required ones, and the choices of which one has to hold.
-/

namespace WorkspaceLint

namespace Schema

/-- Nothing about a document violates a schema. -/
def Allows (s : Schema) (v : Json) : Prop := s.violations v = []

/-! ## One keyword -/

theorem typeViolations_eq_nil_iff {types : List JsonType} {v : Json} :
    typeViolations types v = [] ↔ types = [] ∨ ∃ t ∈ types, t.accepts v = true := by
  unfold typeViolations
  split
  · rename_i allowed
    rw [Bool.or_eq_true, List.isEmpty_iff, List.any_eq_true] at allowed
    exact ⟨fun _ => allowed, fun _ => rfl⟩
  · rename_i refused
    rw [Bool.or_eq_true, List.isEmpty_iff, List.any_eq_true] at refused
    exact ⟨nofun, fun allowed => absurd allowed refused⟩

theorem requiredViolations_eq_nil_iff {required : List String} {ms : Members} :
    requiredViolations required (.object ms) = [] ↔
      ∀ key ∈ required, Members.contains key ms = true := by
  unfold requiredViolations
  rw [List.map_eq_nil_iff, List.filter_eq_nil_iff]
  simp only [Bool.not_eq_true', Bool.not_eq_false]

theorem unexpectedViolations_eq_nil_iff {known : List String} {ms : Members} :
    unexpectedViolations known (.object ms) = [] ↔ ∀ key ∈ Members.keys ms, key ∈ known := by
  unfold unexpectedViolations
  simp only
  split
  · rename_i none
    rw [List.isEmpty_iff, List.filter_eq_nil_iff] at none
    refine ⟨fun _ key there => ?_, fun _ => rfl⟩
    simpa using none key there
  · rename_i some
    refine ⟨nofun, fun all => absurd ?_ some⟩
    rw [List.isEmpty_iff, List.filter_eq_nil_iff]
    intro key there
    simpa using all key there

/-- A member violates nothing when the schema of its key, if there is one, allows it. -/
theorem memberViolations_eq_nil_iff {properties : List (String × Schema)} {key : String}
    {v : Json} :
    memberViolations properties key v = [] ↔
      ∀ s, properties.lookup key = some s → s.Allows v := by
  induction properties with
  | nil => simp [memberViolations]
  | cons p rest ih =>
    obtain ⟨k, s⟩ := p
    rw [memberViolations]
    by_cases same : k = key
    · subst same
      rw [if_pos rfl, List.map_eq_nil_iff, List.lookup_cons_self]
      exact ⟨fun h _ found => Option.some.inj found ▸ h, fun h => h s rfl⟩
    · have other : (key == k) = false := by
        rw [beq_eq_false_iff_ne]
        exact Ne.symm same
      rw [if_neg same, ih, List.lookup_cons, other]

/-- A schema allows only what is of one of its types. -/
theorem typed_of_allows {types : List JsonType} {required : List String}
    {properties : List (String × Schema)} {closed : Bool} {others items oneOf : List Schema}
    {v : Json} (h : (keywords types required properties closed others items oneOf).Allows v) :
    types = [] ∨ ∃ t ∈ types, t.accepts v = true := by
  rw [← typeViolations_eq_nil_iff]
  cases v <;> simp only [Allows, violations, List.append_eq_nil_iff] at h <;> exact h.1.1.1

/-! ## Values and lists -/

theorem allows_types_iff {types : List JsonType} (some : types ≠ []) {v : Json} :
    (keywords types [] [] false [] [] []).Allows v ↔ ∃ t ∈ types, t.accepts v = true := by
  have required : requiredViolations [] v = [] := by cases v <;> rfl
  have alone : (keywords types [] [] false [] [] []).violations v = typeViolations types v := by
    cases v <;> simp [violations, propertyViolations, allViolations, required]
  rw [Allows, alone, typeViolations_eq_nil_iff]
  exact or_iff_right some

theorem allows_string_iff {v : Json} :
    (keywords [.string] [] [] false [] [] []).Allows v ↔ ∃ s, v = .string s := by
  rw [allows_types_iff (by simp)]
  cases v <;> simp [JsonType.accepts]

theorem allows_null_iff {v : Json} :
    (keywords [.null] [] [] false [] [] []).Allows v ↔ v = .null := by
  rw [allows_types_iff (by simp)]
  cases v <;> simp [JsonType.accepts]

theorem allows_objectOrString_iff {v : Json} :
    (keywords [.object, .string] [] [] false [] [] []).Allows v ↔
      (∃ ms, v = .object ms) ∨ ∃ s, v = .string s := by
  rw [allows_types_iff (by simp)]
  cases v <;> simp [JsonType.accepts]

theorem exists_eq_map_string {vs : List Json} (h : ∀ v ∈ vs, ∃ s, v = .string s) :
    ∃ ss : List String, vs = ss.map .string := by
  induction vs with
  | nil => exact ⟨[], rfl⟩
  | cons v vs ih =>
    obtain ⟨s, rfl⟩ := h v List.mem_cons_self
    obtain ⟨ss, rfl⟩ := ih fun w hw => h w (List.mem_cons_of_mem _ hw)
    exact ⟨s :: ss, rfl⟩

theorem allows_stringList_iff {v : Json} :
    (keywords [.array] [] [] false [] [keywords [.string] [] [] false [] [] []] []).Allows v ↔
      ∃ ss : List String, v = .array (ss.map .string) := by
  by_cases array : ∃ vs, v = .array vs
  · obtain ⟨vs, rfl⟩ := array
    have items :
        (keywords [.array] [] [] false [] [keywords [.string] [] [] false [] [] []] []).Allows
          (.array vs) ↔ ∀ e ∈ vs.zipIdx, (keywords [.string] [] [] false [] [] []).Allows e.1 := by
      simp [Allows, violations, typeViolations, JsonType.accepts, allViolations, requiredViolations]
    rw [items]
    constructor
    · intro strings
      have each : ∀ v ∈ vs, ∃ s, v = .string s := fun v there => by
        obtain ⟨i, bound, rfl⟩ := List.getElem_of_mem there
        exact allows_string_iff.1
          (strings (vs[i], i) (List.mk_mem_zipIdx_iff_getElem?.2 (List.getElem?_eq_getElem bound)))
      obtain ⟨ss, rfl⟩ := exists_eq_map_string each
      exact ⟨ss, rfl⟩
    · rintro ⟨ss, same⟩ e there
      rw [Json.array.inj same] at there
      obtain ⟨s, -, eq⟩ := List.mem_map.1 (List.fst_mem_of_mem_zipIdx there)
      exact allows_string_iff.2 ⟨s, eq.symm⟩
  · constructor
    · intro allowed
      have typed := typed_of_allows allowed
      cases v <;> simp_all [JsonType.accepts]
    · rintro ⟨ss, same⟩
      exact absurd ⟨_, same⟩ array

/-! ## Objects -/

theorem allows_having_iff {key : String} {ms : Members} :
    (keywords [] [key] [] false [] [] []).Allows (.object ms) ↔ Members.contains key ms = true := by
  have alone : (keywords [] [key] [] false [] [] []).violations (.object ms) =
      requiredViolations [key] (.object ms) := by
    simp [violations, typeViolations, propertyViolations]
  rw [Allows, alone, requiredViolations_eq_nil_iff]
  simp

/-- An object that refuses unknown members allows what its members, its required keys and its
choices allow. -/
theorem allows_closed_iff {required : List String} {properties : List (String × Schema)}
    {oneOf : List Schema} {v : Json} :
    (keywords [.object] required properties true [] [] oneOf).Allows v ↔
      ∃ ms, v = .object ms ∧
        (∀ m ∈ ms, ∀ s, properties.lookup m.1 = some s → s.Allows m.2) ∧
        (∀ key ∈ Members.keys ms, key ∈ properties.map Prod.fst) ∧
        (∀ key ∈ required, Members.contains key ms = true) ∧
        (oneOf = [] ∨ allowedBy oneOf (.object ms) = 1) := by
  by_cases object : ∃ ms, v = .object ms
  · obtain ⟨ms, rfl⟩ := object
    have members : (ms.flatMap fun m => memberViolations properties m.1 m.2) = [] ↔
        ∀ m ∈ ms, ∀ s, properties.lookup m.1 = some s → s.Allows m.2 := by
      simp only [List.flatMap_eq_nil_iff, memberViolations_eq_nil_iff]
    have typed : typeViolations [.object] (.object ms) = [] := rfl
    have object : (keywords [.object] required properties true [] [] oneOf).Allows (.object ms) ↔
        ((ms.flatMap fun m => memberViolations properties m.1 m.2) = [] ∧
          unexpectedViolations (properties.map Prod.fst) (.object ms) = [] ∧
          requiredViolations required (.object ms) = []) ∧
        (oneOf = [] ∨ allowedBy oneOf (.object ms) = 1) := by
      simp only [Allows, violations, typed, List.append_eq_nil_iff, if_true, Bool.true_and,
        List.nil_append, and_true]
      refine and_congr ?_ ?_
      · split <;> simp only [List.append_eq_nil_iff]
        · exact and_assoc
        · rw [and_assoc, and_comm, and_assoc]
      · split
        · rename_i none
          simp [List.isEmpty_iff.1 none]
        · rename_i some
          rw [List.isEmpty_iff] at some
          split <;> simp_all
    rw [object, members, unexpectedViolations_eq_nil_iff, requiredViolations_eq_nil_iff]
    constructor
    · rintro ⟨⟨own, known, there⟩, one⟩
      exact ⟨ms, rfl, own, known, there, one⟩
    · rintro ⟨_, same, own, known, there, one⟩
      obtain rfl := Json.object.inj same
      exact ⟨⟨own, known, there⟩, one⟩
  · refine ⟨fun allowed => absurd ?_ object, fun ⟨ms, same, _⟩ => absurd ⟨ms, same⟩ object⟩
    have typed := typed_of_allows allowed
    cases v <;> simp_all [JsonType.accepts]

/-- Exactly one of two choices of members holds. -/
theorem allowedBy_having_iff {key key' : String} {ms : Members} :
    allowedBy [keywords [] [key] [] false [] [] [], keywords [] [key'] [] false [] [] []]
        (.object ms) = 1 ↔
      Members.contains key ms = true ∧ Members.contains key' ms = false ∨
        Members.contains key ms = false ∧ Members.contains key' ms = true := by
  have one (k : String) : ((keywords [] [k] [] false [] [] []).violations (.object ms)).isEmpty =
      Members.contains k ms := by
    rw [Bool.eq_iff_iff, List.isEmpty_iff]
    exact allows_having_iff
  simp only [allowedBy, one]
  cases Members.contains key ms <;> cases Members.contains key' ms <;> simp

end Schema

end WorkspaceLint
