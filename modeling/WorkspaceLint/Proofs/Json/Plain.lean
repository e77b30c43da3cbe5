import WorkspaceLint.Proofs.Json.RoundTrip

/-!
# Plain documents

A *plain* document is legible and has no floating-point number, so it is read back from its texts.
Rules and fixers put objects together from the parts of plain ones; what they do to members keeps
documents plain.
-/

namespace WorkspaceLint

namespace Json

mutual

theorem Legible.mono {depth depth' : Nat} (le : depth ≤ depth') :
    (v : Json) → v.Legible depth → v.Legible depth'
  | null, h | bool _, h | string _, h => h
  | number _, h => h
  | array vs, h => by
    unfold Legible at h ⊢
    exact ⟨by omega, LegibleItems.mono (by omega) vs h.2⟩
  | object ms, h => by
    unfold Legible at h ⊢
    exact ⟨by omega, h.2.1, LegibleMembers.mono (by omega) ms h.2.2⟩

theorem LegibleItems.mono {depth depth' : Nat} (le : depth ≤ depth') :
    (vs : List Json) → LegibleItems depth vs → LegibleItems depth' vs
  | [], _ => trivial
  | v :: vs, h => ⟨Legible.mono le v h.1, LegibleItems.mono le vs h.2⟩

theorem LegibleMembers.mono {depth depth' : Nat} (le : depth ≤ depth') :
    (ms : List (String × Json)) → LegibleMembers depth ms → LegibleMembers depth' ms
  | [], _ => trivial
  | (_, v) :: ms, h => ⟨Legible.mono le v h.1, LegibleMembers.mono le ms h.2⟩

end

/-- Whether a document is legible with `depth` levels and has no floating-point number. -/
structure Plain (depth : Nat) (v : Json) : Prop where
  legible : v.Legible depth
  free : v.floatFree = true

theorem Plain.mono {depth depth' : Nat} {v : Json} (h : v.Plain depth) (le : depth ≤ depth') :
    v.Plain depth' := ⟨h.legible.mono le, h.free⟩

theorem plain_string (depth : Nat) (s : String) : (string s).Plain depth :=
  ⟨by simp only [Legible], by simp only [floatFree]⟩

theorem plain_array {depth : Nat} {vs : List Json} (deep : 1 < depth)
    (h : ∀ v ∈ vs, v.Plain (depth - 1)) : (array vs).Plain depth := by
  have free : itemsFloatFree vs = true := by
    induction vs with
    | nil => rfl
    | cons v vs ih =>
      obtain ⟨first, rest⟩ := List.forall_mem_cons.1 h
      rw [itemsFloatFree, first.free, ih rest]
      rfl
  refine ⟨?_, by rw [floatFree, free]⟩
  rw [Legible, legibleItems_iff]
  exact ⟨deep, fun v member => (h v member).legible⟩

theorem plain_object_iff {depth : Nat} {ms : Members} :
    (object ms).Plain depth ↔
      1 < depth ∧ (Members.keys ms).Nodup ∧ ∀ m ∈ ms, m.2.Plain (depth - 1) := by
  constructor
  · rintro ⟨legible, free⟩
    rw [legible_object_iff] at legible
    rw [floatFree_object_iff] at free
    exact ⟨legible.1, legible.2.1, fun m member => ⟨legible.2.2 m member, free m member⟩⟩
  · rintro ⟨deep, nodup, plain⟩
    refine ⟨legible_object_iff.2 ⟨deep, nodup, fun m member => (plain m member).legible⟩, ?_⟩
    exact floatFree_object_iff.2 fun m member => (plain m member).free

namespace Plain

variable {depth : Nat} {ms : Members}

theorem nodup_keys (h : (object ms).Plain depth) : (Members.keys ms).Nodup :=
  (plain_object_iff.1 h).2.1

theorem get? (h : (object ms).Plain depth) {key : String} {v : Json}
    (found : Members.get? key ms = some v) : v.Plain (depth - 1) :=
  (plain_object_iff.1 h).2.2 _ (Members.mem_of_get? found)

theorem insert (h : (object ms).Plain depth) {key : String} {v : Json} (new : v.Plain (depth - 1)) :
    (object (Members.insert key v ms)).Plain depth := by
  obtain ⟨deep, nodup, plain⟩ := plain_object_iff.1 h
  have all : ∀ m ∈ Members.insert key v ms, m.2.Plain (depth - 1) :=
    Members.forall_mem_insert (P := Json.Plain (depth - 1)) new plain
  exact plain_object_iff.2 ⟨deep, Members.nodup_keys_insert nodup, all⟩

theorem filter (h : (object ms).Plain depth) (p : String × Json → Bool) :
    (object (ms.filter p)).Plain depth := by
  obtain ⟨deep, nodup, plain⟩ := plain_object_iff.1 h
  refine plain_object_iff.2 ⟨deep, ?_, fun m member => plain m (List.mem_filter.1 member).1⟩
  exact nodup.sublist (List.filter_sublist.map Prod.fst)

/-- Values may be replaced under their keys. -/
theorem mapValues (h : (object ms).Plain depth) {f : String × Json → Json}
    (values : ∀ m ∈ ms, (f m).Plain (depth - 1)) :
    (object (ms.map fun m => (m.1, f m))).Plain depth := by
  obtain ⟨deep, nodup, -⟩ := plain_object_iff.1 h
  refine plain_object_iff.2 ⟨deep, by rwa [Members.keys_mapValues], fun m member => ?_⟩
  obtain ⟨m', member', rfl⟩ := List.mem_map.1 member
  exact values m' member'

/-- A plain document is read back from its canonical text. -/
theorem parse_canonical {v : Json} (h : v.Plain Reader.nestingLimit) :
    parse v.canonical = .ok v := Json.parse_canonical h.legible h.free

end Plain

end Json

end WorkspaceLint
