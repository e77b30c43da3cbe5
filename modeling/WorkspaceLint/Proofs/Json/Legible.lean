import WorkspaceLint.Json.Reader
import WorkspaceLint.Proofs.Json.Members

/-!
# What the reader gives

A document that was read is *legible*: its integers have 64 bits, no object repeats a key, and it
nests no deeper than the reader goes.  Legible documents without floating-point numbers are those
that can be written and read back, so the operations on members that rules and fixers use are shown
to keep them so.
-/

namespace WorkspaceLint

/-- Whether a number is one that the reader gives: a float, or an integer of 64 bits. -/
def JsonNumber.Legible : JsonNumber → Prop
  | .integer n => -9223372036854775808 ≤ n ∧ n ≤ (Json.Reader.maxSignificand : Int)
  | .float _ => True

namespace Json

mutual

/-- Whether a document is one that the reader gives when `depth` levels are allowed, plus one. -/
def Legible (depth : Nat) : Json → Prop
  | number n => n.Legible
  | array items => 1 < depth ∧ LegibleItems (depth - 1) items
  | object ms => 1 < depth ∧ (Members.keys ms).Nodup ∧ LegibleMembers (depth - 1) ms
  | _ => True

/-- Whether all items are legible. -/
def LegibleItems (depth : Nat) : List Json → Prop
  | [] => True
  | v :: vs => Legible depth v ∧ LegibleItems depth vs

/-- Whether the values of all members are legible. -/
def LegibleMembers (depth : Nat) : List (String × Json) → Prop
  | [] => True
  | (_, v) :: ms => Legible depth v ∧ LegibleMembers depth ms

end

mutual

/-- Whether a document has no floating-point number. -/
def floatFree : Json → Bool
  | number (.float _) => false
  | array items => itemsFloatFree items
  | object ms => membersFloatFree ms
  | _ => true

/-- Whether no item has a floating-point number. -/
def itemsFloatFree : List Json → Bool
  | [] => true
  | v :: vs => floatFree v && itemsFloatFree vs

/-- Whether no member has a floating-point number. -/
def membersFloatFree : List (String × Json) → Bool
  | [] => true
  | (_, v) :: ms => floatFree v && membersFloatFree ms

end

theorem legibleItems_iff {depth : Nat} {vs : List Json} :
    LegibleItems depth vs ↔ ∀ v ∈ vs, v.Legible depth := by
  induction vs with
  | nil => simp [LegibleItems]
  | cons v vs ih => simp [LegibleItems, ih]

theorem legibleMembers_iff {depth : Nat} {ms : List (String × Json)} :
    LegibleMembers depth ms ↔ ∀ m ∈ ms, m.2.Legible depth := by
  induction ms with
  | nil => simp [LegibleMembers]
  | cons m ms ih => simp [LegibleMembers, ih]

theorem membersFloatFree_iff {ms : List (String × Json)} :
    membersFloatFree ms = true ↔ ∀ m ∈ ms, m.2.floatFree = true := by
  induction ms with
  | nil => simp [membersFloatFree]
  | cons m ms ih => simp [membersFloatFree, ih]

theorem legible_object_iff {depth : Nat} {ms : Members} :
    (object ms).Legible depth ↔
      1 < depth ∧ (Members.keys ms).Nodup ∧ ∀ m ∈ ms, m.2.Legible (depth - 1) := by
  rw [Legible, legibleMembers_iff]

theorem floatFree_object_iff {ms : Members} :
    (object ms).floatFree = true ↔ ∀ m ∈ ms, m.2.floatFree = true := by
  rw [floatFree, membersFloatFree_iff]

end Json

/-! ## The reader gives legible documents -/

namespace Json.Reader

theorem extend_le {s : Nat} (h : s ≤ maxSignificand) (cs : List Char) :
    (extend s cs).1 ≤ maxSignificand := by
  induction cs generalizing s with
  | nil => exact h
  | cons c cs ih =>
    unfold extend
    simp only
    split
    · exact h
    · rename_i small
      exact ih (Nat.not_lt.1 small)

theorem legible_integerNumber (negative : Bool) {n : Nat} (h : n ≤ maxSignificand) :
    (integerNumber negative n).Legible := by
  unfold integerNumber
  split
  · split
    · trivial
    · rename_i inside
      rw [not_or] at inside
      refine ⟨by omega, ?_⟩
      unfold maxSignificand
      omega
  · exact ⟨by omega, by exact_mod_cast h⟩

theorem legible_floatStep {step : Step Binary64} {n : JsonNumber} {rest : List Char}
    (h : floatStep step = .ok (n, rest)) : n.Legible := by
  unfold floatStep at h
  split at h
  · rw [← (Prod.mk.inj (Except.ok.inj h)).1]
    trivial
  · cases h

theorem legible_number {negative : Bool} {cs : List Char} {n : JsonNumber} {rest : List Char}
    (h : number negative cs = .ok (n, rest)) : n.Legible := by
  have bound := fun ds => extend_le (Nat.zero_le maxSignificand) ds
  unfold number at h
  split at h
  · cases h
  · cases h
  · rename_i d ds left _
    split at h
    · cases h
    · simp only at h
      split at h
      · exact legible_floatStep h
      · split at h
        · exact legible_floatStep h
        · split at h
          · rw [← (Prod.mk.inj (Except.ok.inj h)).1]
            exact legible_integerNumber negative (bound (d :: ds))
          · exact legible_floatStep h
      · split at h
        · rw [← (Prod.mk.inj (Except.ok.inj h)).1]
          exact legible_integerNumber negative (bound (d :: ds))
        · exact legible_floatStep h

theorem eq_of_word {α : Type} {result a : α} {es cs rest : List Char}
    (h : word result es cs = .ok (a, rest)) : a = result := by
  induction es generalizing cs with
  | nil => exact (Prod.mk.inj (Except.ok.inj h)).1.symm
  | cons e es ih =>
    cases cs with
    | nil => cases h
    | cons c cs =>
      unfold word at h
      split at h
      · exact ih h
      · cases h

/-- What each reader gives with some fuel is legible. -/
structure Sound (fuel : Nat) : Prop where
  value : ∀ {depth text v rest}, Reader.value fuel depth text = .ok (v, rest) → v.Legible depth
  items : ∀ {depth first text vs rest}, Reader.items fuel depth first text = .ok (vs, rest) →
    LegibleItems depth vs
  members : ∀ {depth first text ms rest}, Reader.members fuel depth first text = .ok (ms, rest) →
    LegibleMembers depth ms
  member : ∀ {depth text ms rest}, Reader.member fuel depth text = .ok (ms, rest) →
    LegibleMembers depth ms

namespace Sound

variable {fuel : Nat}

theorem value_succ (sound : Sound fuel) {depth : Nat} {text rest : List Char} {v : Json}
    (h : Reader.value (fuel + 1) depth text = .ok (v, rest)) : v.Legible depth := by
  unfold Reader.value at h
  split at h
  · cases h
  · rename_i c cs _
    split at h
    · rw [eq_of_word h]
      trivial
    split at h
    · rw [eq_of_word h]
      trivial
    split at h
    · rw [eq_of_word h]
      trivial
    split at h
    · split at h
      · rename_i n rest' hn
        rw [← (Prod.mk.inj (Except.ok.inj h)).1]
        exact legible_number hn
      · cases h
    split at h
    · split at h
      · rename_i n rest' hn
        rw [← (Prod.mk.inj (Except.ok.inj h)).1]
        exact legible_number hn
      · cases h
    split at h
    · split at h
      · rw [← (Prod.mk.inj (Except.ok.inj h)).1]
        trivial
      · cases h
    split at h
    · split at h
      · cases h
      · rename_i deep
        split at h
        · rename_i vs rest' hvs
          rw [← (Prod.mk.inj (Except.ok.inj h)).1]
          exact ⟨Nat.not_le.1 deep, sound.items hvs⟩
        · cases h
    split at h
    · split at h
      · cases h
      · rename_i deep
        split at h
        · rename_i ms rest' hms
          rw [← (Prod.mk.inj (Except.ok.inj h)).1]
          refine legible_object_iff.2 ⟨Nat.not_le.1 deep, Members.nodup_keys_ofList ms, ?_⟩
          exact Members.forall_mem_ofList (legibleMembers_iff.1 (sound.members hms))
        · cases h
    · cases h

theorem items_succ (sound : Sound fuel) {depth : Nat} {first : Bool} {text rest : List Char}
    {vs : List Json} (h : Reader.items (fuel + 1) depth first text = .ok (vs, rest)) :
    LegibleItems depth vs := by
  unfold Reader.items at h
  split at h
  · cases h
  · split at h
    · rw [← (Prod.mk.inj (Except.ok.inj h)).1]
      trivial
    split at h
    · split at h
      · cases h
      · rename_i hv
        split at h
        · cases h
        · rename_i hvs
          rw [← (Prod.mk.inj (Except.ok.inj h)).1]
          exact ⟨sound.value hv, sound.items hvs⟩
    split at h
    · split at h
      · cases h
      · split at h
        · cases h
        · split at h
          · cases h
          · rename_i hv
            split at h
            · cases h
            · rename_i hvs
              rw [← (Prod.mk.inj (Except.ok.inj h)).1]
              exact ⟨sound.value hv, sound.items hvs⟩
    · cases h

theorem members_succ (sound : Sound fuel) {depth : Nat} {first : Bool} {text rest : List Char}
    {ms : List (String × Json)}
    (h : Reader.members (fuel + 1) depth first text = .ok (ms, rest)) :
    LegibleMembers depth ms := by
  unfold Reader.members at h
  split at h
  · cases h
  · split at h
    · rw [← (Prod.mk.inj (Except.ok.inj h)).1]
      trivial
    split at h
    · split at h
      · exact sound.member h
      · cases h
    split at h
    · split at h
      · cases h
      · split at h
        · exact sound.member h
        split at h
        · cases h
        · cases h
    · cases h

theorem member_succ (sound : Sound fuel) {depth : Nat} {text rest : List Char}
    {ms : List (String × Json)} (h : Reader.member (fuel + 1) depth text = .ok (ms, rest)) :
    LegibleMembers depth ms := by
  unfold Reader.member at h
  split at h
  · cases h
  · split at h
    · cases h
    · split at h
      · split at h
        · cases h
        · rename_i hv
          split at h
          · cases h
          · rename_i hms
            rw [← (Prod.mk.inj (Except.ok.inj h)).1]
            exact ⟨sound.value hv, sound.members hms⟩
      · cases h

end Sound

theorem sound (fuel : Nat) : Sound fuel := by
  induction fuel with
  | zero =>
    constructor
    · intro _ _ _ _ h; rw [Reader.value] at h; cases h
    · intro _ _ _ _ _ h; rw [Reader.items] at h; cases h
    · intro _ _ _ _ _ h; rw [Reader.members] at h; cases h
    · intro _ _ _ _ h; rw [Reader.member] at h; cases h
  | succ fuel ih => exact ⟨ih.value_succ, ih.items_succ, ih.members_succ, ih.member_succ⟩

theorem legible_document {text : List Char} {v : Json} (h : document text = .ok v) :
    v.Legible nestingLimit := by
  unfold document at h
  split at h
  · cases h
  · rename_i v' rest hv
    split at h
    · cases h
    · rw [← Except.ok.inj h]
      exact (sound _).value hv

end Json.Reader

namespace Json

/-- The document that a text spells is legible. -/
theorem legible_of_parse {text : String} {v : Json} (h : parse text = .ok v) :
    v.Legible Reader.nestingLimit := by
  unfold parse at h
  rcases hd : Reader.document text.toList with stop | v'
  · rw [hd] at h
    cases h
  · rw [hd] at h
    rw [← Except.ok.inj h]
    exact Reader.legible_document hd

end Json

end WorkspaceLint
