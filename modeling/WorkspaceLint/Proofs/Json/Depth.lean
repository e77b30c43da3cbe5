import WorkspaceLint.Proofs.Json.Plain

/-!
# Reading with more levels

What is read when few levels are allowed is also read when more are.  So a document without
floating-point numbers is the only one that its canonical text can be read as, however deep it
nests: if it nests too deep, the text is not read at all.
-/

namespace WorkspaceLint

namespace Json

namespace Reader

/-- What holds of both branches of a test carries over to another test of the same condition. -/
theorem ite_eq_ok_of {α : Type} {p : Prop} [Decidable p] {a a' b b' : Step α} {r : α × List Char}
    (first : a = .ok r → a' = .ok r) (second : b = .ok r → b' = .ok r)
    (h : (if p then a else b) = .ok r) : (if p then a' else b') = .ok r := by
  by_cases holds : p
  · rw [if_pos holds] at h ⊢
    exact first h
  · rw [if_neg holds] at h ⊢
    exact second h

/-- What each reader gives with some fuel, it also gives when more levels are allowed. -/
structure Deepens (fuel : Nat) : Prop where
  value : ∀ {depth depth' text r}, depth ≤ depth' →
    Reader.value fuel depth text = .ok r → Reader.value fuel depth' text = .ok r
  items : ∀ {depth depth' first text r}, depth ≤ depth' →
    Reader.items fuel depth first text = .ok r → Reader.items fuel depth' first text = .ok r
  members : ∀ {depth depth' first text r}, depth ≤ depth' →
    Reader.members fuel depth first text = .ok r → Reader.members fuel depth' first text = .ok r
  member : ∀ {depth depth' text r}, depth ≤ depth' →
    Reader.member fuel depth text = .ok r → Reader.member fuel depth' text = .ok r

namespace Deepens

variable {fuel depth depth' : Nat} {first : Bool} {text : List Char}

theorem value_succ (deepens : Deepens fuel) {r : Json × List Char} (le : depth ≤ depth')
    (h : Reader.value (fuel + 1) depth text = .ok r) :
    Reader.value (fuel + 1) depth' text = .ok r := by
  revert h
  rw [Reader.value, Reader.value]
  rcases skipBlanks text with _ | ⟨c, cs⟩
  · exact id
  -- Only lists and objects depend on the levels.
  refine ite_eq_ok_of id (ite_eq_ok_of id (ite_eq_ok_of id (ite_eq_ok_of id (ite_eq_ok_of id
    (ite_eq_ok_of id (ite_eq_ok_of ?list (ite_eq_ok_of ?object id)))))))
  case list =>
    intro h
    split at h
    · cases h
    · rename_i deep
      rw [if_neg (by omega)]
      split at h
      · rename_i read
        rw [deepens.items (by omega) read]
        exact h
      · cases h
  case object =>
    intro h
    split at h
    · cases h
    · rename_i deep
      rw [if_neg (by omega)]
      split at h
      · rename_i read
        rw [deepens.members (by omega) read]
        exact h
      · cases h

/-- An item and those after it. -/
theorem item (deepens : Deepens fuel) {r : List Json × List Char} (le : depth ≤ depth')
    (h : (match Reader.value fuel depth text with
      | .error e => .error e
      | .ok (v, rest) =>
        match Reader.items fuel depth false rest with
        | .error e => .error e
        | .ok (vs, rest) => .ok (v :: vs, rest) : Step (List Json)) = .ok r) :
    (match Reader.value fuel depth' text with
      | .error e => .error e
      | .ok (v, rest) =>
        match Reader.items fuel depth' false rest with
        | .error e => .error e
        | .ok (vs, rest) => .ok (v :: vs, rest) : Step (List Json)) = .ok r := by
  split at h
  · cases h
  · rename_i read
    rw [deepens.value le read]
    split at h
    · cases h
    · rename_i more
      simp only [deepens.items le more]
      exact h

theorem items_succ (deepens : Deepens fuel) {r : List Json × List Char} (le : depth ≤ depth')
    (h : Reader.items (fuel + 1) depth first text = .ok r) :
    Reader.items (fuel + 1) depth' first text = .ok r := by
  revert h
  rw [Reader.items, Reader.items]
  rcases skipBlanks text with _ | ⟨c, cs⟩
  · exact id
  refine ite_eq_ok_of id (ite_eq_ok_of (deepens.item le) (ite_eq_ok_of ?_ id))
  rcases skipBlanks cs with _ | ⟨d, ds⟩
  · exact id
  · exact ite_eq_ok_of id (deepens.item le)

theorem members_succ (deepens : Deepens fuel) {r : List (String × Json) × List Char}
    (le : depth ≤ depth') (h : Reader.members (fuel + 1) depth first text = .ok r) :
    Reader.members (fuel + 1) depth' first text = .ok r := by
  revert h
  rw [Reader.members, Reader.members]
  rcases skipBlanks text with _ | ⟨c, cs⟩
  · exact id
  refine ite_eq_ok_of id (ite_eq_ok_of (ite_eq_ok_of (deepens.member le) id) (ite_eq_ok_of ?_ id))
  rcases skipBlanks cs with _ | ⟨d, ds⟩
  · exact id
  · exact ite_eq_ok_of (deepens.member le) id

theorem member_succ (deepens : Deepens fuel) {r : List (String × Json) × List Char}
    (le : depth ≤ depth') (h : Reader.member (fuel + 1) depth text = .ok r) :
    Reader.member (fuel + 1) depth' text = .ok r := by
  revert h
  rw [Reader.member, Reader.member]
  rcases Reader.string text with e | ⟨k, rest⟩
  · exact id
  simp only
  rcases skipBlanks rest with _ | ⟨c, cs⟩
  · exact id
  refine ite_eq_ok_of (fun h => ?_) id
  split at h
  · cases h
  · rename_i read
    rw [deepens.value le read]
    split at h
    · cases h
    · rename_i more
      simp only [deepens.members le more]
      exact h

end Deepens

theorem deepens (fuel : Nat) : Deepens fuel := by
  induction fuel with
  | zero =>
    constructor
    · intro _ _ _ _ _ h; rw [Reader.value] at h; cases h
    · intro _ _ _ _ _ _ h; rw [Reader.items] at h; cases h
    · intro _ _ _ _ _ _ h; rw [Reader.members] at h; cases h
    · intro _ _ _ _ _ h; rw [Reader.member] at h; cases h
  | succ fuel ih => exact ⟨ih.value_succ, ih.items_succ, ih.members_succ, ih.member_succ⟩

/-- The text of a document that nests too deep may not be read, and is not read as another one. -/
theorem eq_of_document_laidOut (l : Layout) {depth : Nat} {v w : Json} (legible : v.Legible depth)
    (free : v.floatFree = true) {blanks : List Char} (h : ∀ c ∈ blanks, isBlank c = true)
    (read : document (laidOut l 0 v ++ blanks) = .ok w) : w = v := by
  have stops : Stops blanks := by
    have all := stops_append h stops_nil
    rwa [List.append_nil] at all
  have enough : (laidOut l 0 v).length ≤ 4 * (laidOut l 0 v ++ blanks).length + 3 := by
    rw [List.length_append]
    omega
  have whole := value_laidOut l v _ 0 (legible.mono (Nat.le_max_left depth nestingLimit)) free
    enough stops
  rw [document, steps] at read
  split at read
  · cases read
  · rename_i w' rest hw
    have deeper := (deepens _).value (Nat.le_max_right depth nestingLimit) hw
    rw [whole] at deeper
    split at read
    · cases read
    · rw [← Except.ok.inj read]
      exact (Prod.mk.inj (Except.ok.inj deeper)).1.symm

end Reader

/-- If the canonical text of a plain document is read, then as the document. -/
theorem Plain.eq_of_parse_canonical {depth : Nat} {v w : Json} (plain : v.Plain depth)
    (read : parse v.canonical = .ok w) : w = v := by
  have blank : ∀ c ∈ ['\n'], Reader.isBlank c = true := List.forall_mem_singleton.2 rfl
  rw [parse, canonical, String.toList_ofList, prettyChars_eq_laidOut] at read
  rcases hd : Reader.document (laidOut .indented 0 v ++ ['\n']) with stop | w' <;>
    rw [hd] at read
  · cases read
  · rw [← Except.ok.inj read]
    exact Reader.eq_of_document_laidOut .indented plain.legible plain.free blank hd

end Json

end WorkspaceLint
