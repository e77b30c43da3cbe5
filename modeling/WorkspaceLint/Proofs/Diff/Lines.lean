import Mathlib.Data.List.Basic
import WorkspaceLint.Diff.Unified

/-!
# Lines

A text is the sequence of its lines, each with the break at its end; only the last one may lack it.
So texts that end with a break are put together line by line (`lines_append`), and lines that were
put together are found again (`lines_join`).
-/

namespace WorkspaceLint

namespace Diff

/-! ## Characters -/

theorem flatten_linesFrom (line cs : List Char) :
    (linesFrom line cs).flatten = line.reverse ++ cs := by
  induction cs generalizing line with
  | nil =>
    rw [linesFrom]
    split
    · rename_i empty
      rw [List.isEmpty_iff.1 empty]
      rfl
    · simp
  | cons c cs ih =>
    rw [linesFrom]
    split
    · rename_i same
      rw [List.flatten_cons, ih, same]
      simp
    · rw [ih]
      simp

/-- After a break the next line starts. -/
theorem linesFrom_append_break (line cs more : List Char) :
    linesFrom line (cs ++ '\n' :: more) = linesFrom line (cs ++ ['\n']) ++ linesFrom [] more := by
  induction cs generalizing line with
  | nil => simp [linesFrom]
  | cons c cs ih =>
    rw [List.cons_append, List.cons_append, linesFrom, linesFrom, ih, ih]
    split <;> rfl

theorem linesFrom_break {cs : List Char} (unbroken : '\n' ∉ cs) (line : List Char) :
    linesFrom line (cs ++ ['\n']) = [line.reverse ++ cs ++ ['\n']] := by
  induction cs generalizing line with
  | nil => simp [linesFrom]
  | cons c cs ih =>
    obtain ⟨other, later⟩ := not_or.1 fun member => unbroken (List.mem_cons.2 member)
    rw [List.cons_append, linesFrom, if_neg (Ne.symm other), ih later]
    simp

/-- Only the last line lacks its break. -/
theorem mem_linesFrom {line cs : List Char} (unbroken : '\n' ∉ line) {l : List Char}
    (h : l ∈ linesFrom line cs) :
    (∃ body, '\n' ∉ body ∧ l = body ++ ['\n']) ∨
      '\n' ∉ l ∧ l ≠ [] ∧ l <:+ line.reverse ++ cs := by
  induction cs generalizing line with
  | nil =>
    rw [linesFrom] at h
    split at h
    · cases h
    · rename_i nonempty
      rw [List.mem_singleton.1 h, List.append_nil]
      refine .inr ⟨fun member => unbroken (List.mem_reverse.1 member), ?_, List.suffix_rfl⟩
      rwa [Ne, List.reverse_eq_nil_iff, ← List.isEmpty_iff]
  | cons c cs ih =>
    rw [linesFrom] at h
    split at h
    · rcases List.mem_cons.1 h with rfl | later
      · refine .inl ⟨line.reverse, fun member => unbroken (List.mem_reverse.1 member), ?_⟩
        rw [List.reverse_cons]
      · refine (ih List.not_mem_nil later).imp_right fun ⟨alone, full, last⟩ => ⟨alone, full, ?_⟩
        exact last.trans ⟨line.reverse ++ [c], by simp⟩
    · rename_i other
      have unbroken' : '\n' ∉ c :: line := by
        rw [List.mem_cons, not_or]
        exact ⟨Ne.symm other, unbroken⟩
      refine (ih unbroken' h).imp_right fun ⟨alone, full, last⟩ => ⟨alone, full, ?_⟩
      rwa [List.reverse_cons, List.append_assoc, List.singleton_append] at last

/-! ## Texts -/

/-- A line with its break. -/
def IsLine (l : String) : Prop := ∃ body : List Char, '\n' ∉ body ∧ l.toList = body ++ ['\n']

/-- A text in which every line has its break. -/
def Whole (s : String) : Prop := s = "" ∨ s.toList.getLast? = some '\n'

theorem join_lines (s : String) : String.join (lines s) = s := by
  rw [← String.toList_inj, String.toList_join, lines, List.flatMap_map]
  simp only [String.toList_ofList, List.flatMap_id']
  rw [flatten_linesFrom]
  rfl

theorem IsLine.lines {l : String} (h : IsLine l) : lines l = [l] := by
  obtain ⟨body, unbroken, chars⟩ := h
  rw [Diff.lines, chars, linesFrom_break unbroken, List.map_singleton, List.reverse_nil,
    List.nil_append, ← chars, String.ofList_toList]

theorem IsLine.ends {l : String} (h : IsLine l) : l.toList.getLast? = some '\n' := by
  obtain ⟨body, -, chars⟩ := h
  rw [chars, List.getLast?_concat]

theorem IsLine.whole {l : String} (h : IsLine l) : Whole l := .inr h.ends

theorem isLine_append_break {s : String} (unbroken : '\n' ∉ s.toList) : IsLine (s ++ "\n") :=
  ⟨s.toList, unbroken, by rw [String.toList_append]; rfl⟩

/-- Only the last line may lack its break. -/
theorem isLine_or_unbroken {s l : String} (h : l ∈ lines s) : IsLine l ∨ '\n' ∉ l.toList := by
  obtain ⟨cs, member, rfl⟩ := List.mem_map.1 h
  rw [IsLine, String.toList_ofList]
  exact (mem_linesFrom List.not_mem_nil member).imp_right And.left

theorem lines_append {s : String} (h : Whole s) (t : String) :
    lines (s ++ t) = lines s ++ lines t := by
  rcases h with rfl | ends
  · rw [String.empty_append]
    rfl
  · obtain ⟨cs, chars⟩ := List.getLast?_eq_some_iff.1 ends
    rw [lines, lines, lines, ← List.map_append, String.toList_append, chars, List.append_assoc,
      List.singleton_append, linesFrom_append_break]

theorem whole_empty : Whole "" := .inl rfl

theorem whole_append_break (s : String) : Whole (s ++ "\n") := by
  refine .inr ?_
  rw [String.toList_append]
  exact List.getLast?_concat

theorem whole_append {s t : String} (h : Whole s) (h' : Whole t) : Whole (s ++ t) := by
  rcases h' with rfl | ends
  · rwa [String.append_empty]
  · refine .inr ?_
    rw [String.toList_append, List.getLast?_append, ends]
    rfl

theorem whole_join {ss : List String} (h : ∀ s ∈ ss, Whole s) : Whole (String.join ss) := by
  induction ss with
  | nil => exact whole_empty
  | cons s ss ih =>
    obtain ⟨first, later⟩ := List.forall_mem_cons.1 h
    rw [String.join_cons]
    exact whole_append first (ih later)

theorem lines_join {ss : List String} (h : ∀ s ∈ ss, Whole s) :
    lines (String.join ss) = ss.flatMap lines := by
  induction ss with
  | nil => rfl
  | cons s ss ih =>
    obtain ⟨first, later⟩ := List.forall_mem_cons.1 h
    rw [String.join_cons, lines_append first, ih later, List.flatMap_cons]

/-- Lines that were put together are found again. -/
theorem lines_join_of_isLine {ls : List String} (h : ∀ l ∈ ls, IsLine l) :
    lines (String.join ls) = ls := by
  rw [lines_join fun l hl => (h l hl).whole]
  induction ls with
  | nil => rfl
  | cons l ls ih =>
    obtain ⟨first, later⟩ := List.forall_mem_cons.1 h
    rw [List.flatMap_cons, first.lines, ih later, List.singleton_append]

/-- In a text that ends with a break every line has its break. -/
theorem Whole.isLine {s l : String} (h : Whole s) (member : l ∈ lines s) : IsLine l := by
  rcases h with rfl | ends
  · cases member
  · obtain ⟨cs, from_, rfl⟩ := List.mem_map.1 member
    rw [IsLine, String.toList_ofList]
    refine (mem_linesFrom List.not_mem_nil from_).resolve_right fun ⟨alone, full, last⟩ => ?_
    obtain ⟨front, whole⟩ := last
    rw [List.reverse_nil, List.nil_append] at whole
    rw [← whole, List.getLast?_append_of_ne_nil _ full] at ends
    exact alone (List.mem_of_getLast? ends)

end Diff

end WorkspaceLint
