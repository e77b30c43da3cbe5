import WorkspaceLint.Proofs.Report.Fences

/-!
# Marks of a diff

Every line of a diff starts with a mark, and only that of a shared line is a blank
(`diffLine_of_mem_lines_text`).  So a diff never opens a block of a report, and what closes one is a
line of the expected text that has a fence (`DiffLine.fence_of_closesBlock`).
-/

namespace WorkspaceLint

namespace Diff

open Report (endLine opensBlock closesBlock Unfenced)

/-! ## Lines of a hunk -/

/-- A line of one side with its mark. -/
inductive HunkLine (s : Sides) : String → Prop where
  | removed {l : String} (there : l ∈ s.old) : HunkLine s ("-" ++ l)
  | added {l : String} (there : l ∈ s.new) : HunkLine s ("+" ++ l)
  | shared {l : String} (there : l ∈ s.new) : HunkLine s (" " ++ l)

theorem mem_of_mem_slice {ls : List String} {start length : Nat} {l : String}
    (h : l ∈ slice ls start length) : l ∈ ls :=
  List.mem_of_mem_drop (List.mem_of_mem_take h)

section

variable {s : Sides} {l : String}

theorem hunkLine_of_shared {start length : Nat}
    (h : l ∈ marked " " (slice s.new start length)) : HunkLine s l := by
  obtain ⟨x, there, rfl⟩ := List.mem_map.1 h
  exact .shared (mem_of_mem_slice there)

theorem hunkLine_of_mem_editLines {e : Edit} (h : l ∈ editLines s e) : HunkLine s l := by
  rcases List.mem_append.1 h with old | new
  · obtain ⟨x, there, rfl⟩ := List.mem_map.1 old
    exact .removed (mem_of_mem_slice there)
  · obtain ⟨x, there, rfl⟩ := List.mem_map.1 new
    exact .added (mem_of_mem_slice there)

theorem hunkLine_of_mem_hunkBody {e : Edit} {es : List Edit} (h : l ∈ (hunkBody s e es).1) :
    HunkLine s l := by
  have own {e : Edit} {finish : Nat} (h : l ∈ editLines s e ++ contextAfter s e finish) :
      HunkLine s l := by
    rcases List.mem_append.1 h with edit | context
    · exact hunkLine_of_mem_editLines edit
    · exact hunkLine_of_shared context
  induction es generalizing e with
  | nil => exact own h
  | cons f es ih =>
    rw [hunkBody] at h
    split at h
    · rcases List.mem_append.1 h with here | later
      · exact own here
      · exact ih later
    · exact own h

end

/-! ## Lines of a diff -/

/-- The characters that lines of a diff start with, apart from the blank of a shared line.  Notes
start with `f` or a backslash, and a shared line that is empty is written as its break. -/
def marks : List Char := ['f', '-', '+', '@', '\\', '\n']

/-- A line of a diff to the lines `new`. -/
inductive DiffLine (new : List String) : String → Prop where
  | marked {c : Char} {l : String} (known : c ∈ marks) (first : l.toList.head? = some c) :
    DiffLine new l
  | shared {l : String} (there : l ∈ new) : DiffLine new (endLine (" " ++ l))

theorem IsLine.lead {l : String} (h : IsLine l) {mark : String} (unbroken : '\n' ∉ mark.toList) :
    IsLine (mark ++ l) := by
  obtain ⟨body, rest, chars⟩ := h
  refine ⟨mark.toList ++ body, ?_, by rw [String.toList_append, chars, List.append_assoc]⟩
  rw [List.mem_append, not_or]
  exact ⟨unbroken, rest⟩

/-- A line is written as it is with a break, or as its break, and a note may follow it. -/
theorem lines_lineText {l : String} (shape : IsLine l ∨ '\n' ∉ l.toList) :
    Whole (lineText l) ∧ ∀ k ∈ lines (lineText l),
      k = "\n" ∨ k = endLine l ∨ k = "\\ No newline at end of file\n" := by
  unfold lineText
  split
  · have only : lines "\n" = ["\n"] := by decide
    rw [only]
    exact ⟨.inr rfl, List.forall_mem_singleton.2 (.inl rfl)⟩
  rcases shape with line | unbroken
  · rw [if_pos line.ends, line.lines, endLine, if_pos line.ends]
    exact ⟨line.whole, List.forall_mem_singleton.2 (.inr (.inl rfl))⟩
  · have ends : ¬ l.toList.getLast? = some '\n' := fun same => unbroken (List.mem_of_getLast? same)
    have note : lines "\\ No newline at end of file\n" = ["\\ No newline at end of file\n"] := by
      decide
    have text : l ++ "\n\\ No newline at end of file\n" =
        l ++ "\n" ++ "\\ No newline at end of file\n" := by
      rw [String.append_assoc]
      rfl
    have line := isLine_append_break unbroken
    rw [if_neg ends, text, lines_append line.whole, line.lines, note, endLine, if_neg ends]
    refine ⟨whole_append line.whole (.inr rfl), ?_⟩
    simp

theorem HunkLine.shape {s : Sides} {l : String} (h : HunkLine s l)
    (old : ∀ x ∈ s.old, IsLine x ∨ '\n' ∉ x.toList)
    (new : ∀ x ∈ s.new, IsLine x ∨ '\n' ∉ x.toList) : IsLine l ∨ '\n' ∉ l.toList := by
  have lead {mark x : String} (first : '\n' ∉ mark.toList) (h : IsLine x ∨ '\n' ∉ x.toList) :
      IsLine (mark ++ x) ∨ '\n' ∉ (mark ++ x).toList := by
    refine h.imp (·.lead first) fun rest => ?_
    rw [String.toList_append, List.mem_append, not_or]
    exact ⟨first, rest⟩
  cases h with
  | removed there => exact lead (by decide) (old _ there)
  | added there => exact lead (by decide) (new _ there)
  | shared there => exact lead (by decide) (new _ there)

theorem HunkLine.diffLine {s : Sides} {l : String} (h : HunkLine s l) :
    DiffLine s.new (endLine l) := by
  have marked {c : Char} {x : String} (known : c ∈ marks) :
      DiffLine s.new (endLine (String.singleton c ++ x)) := by
    refine .marked known ?_
    unfold endLine
    split <;> simp
  cases h with
  | removed there => exact marked (c := '-') (by decide)
  | added there => exact marked (c := '+') (by decide)
  | shared there => exact .shared there

theorem break_not_mem_rangeText (start length : Nat) : '\n' ∉ (rangeText start length).toList := by
  unfold rangeText
  simp only
  split
  · exact Report.break_not_mem_decimal _
  · simp only [String.toList_append, List.mem_append, not_or]
    exact ⟨⟨Report.break_not_mem_decimal _, by decide⟩, Report.break_not_mem_decimal _⟩

theorem isLine_rangeLine (oldStart oldLength newStart newLength : Nat) :
    IsLine ("@@ -" ++ rangeText oldStart oldLength ++ " +" ++ rangeText newStart newLength ++
      " @@\n") := by
  have text : " @@\n" = " @@" ++ "\n" := rfl
  rw [text, ← String.append_assoc]
  refine isLine_append_break ?_
  simp only [String.toList_append, List.mem_append, not_or]
  exact ⟨⟨⟨⟨by decide, break_not_mem_rangeText _ _⟩, by decide⟩, break_not_mem_rangeText _ _⟩,
    by decide⟩

section

variable {s : Sides} (old : ∀ x ∈ s.old, IsLine x ∨ '\n' ∉ x.toList)
  (new : ∀ x ∈ s.new, IsLine x ∨ '\n' ∉ x.toList)

include old new

theorem lines_hunkLines {body : List String} (hunk : ∀ l ∈ body, HunkLine s l) :
    Whole (String.join (body.map lineText)) ∧
      ∀ k ∈ lines (String.join (body.map lineText)), DiffLine s.new k := by
  have own (l : String) (member : l ∈ body) := lines_lineText ((hunk l member).shape old new)
  have whole : ∀ text ∈ body.map lineText, Whole text :=
    List.forall_mem_map.2 fun l member => (own l member).1
  refine ⟨whole_join whole, fun k member => ?_⟩
  rw [lines_join whole] at member
  obtain ⟨text, there, inside⟩ := List.mem_flatMap.1 member
  obtain ⟨l, given, rfl⟩ := List.mem_map.1 there
  rcases (own l given).2 k inside with rfl | rfl | rfl
  · exact .marked (c := '\n') (by decide) rfl
  · exact (hunk l given).diffLine
  · exact .marked (c := '\\') (by decide) (by simp)

theorem lines_hunks (fuel : Nat) (es : List Edit) :
    Whole (hunks s fuel es) ∧ ∀ l ∈ lines (hunks s fuel es), DiffLine s.new l := by
  induction fuel generalizing es with
  | zero => exact ⟨whole_empty, nofun⟩
  | succ fuel ih =>
    cases es with
    | nil => exact ⟨whole_empty, nofun⟩
    | cons e rest =>
      have inside (l : String) (h : l ∈ (hunkBody s e rest).1) := hunkLine_of_mem_hunkBody h
      rw [hunks]
      rcases hb : hunkBody s e rest with ⟨body, ⟨oldEnd, newEnd⟩, left⟩
      rw [hb] at inside
      obtain ⟨wholeRest, later⟩ := ih left
      obtain ⟨whole, own⟩ := lines_hunkLines old new (List.forall_mem_append.2
        ⟨fun l member => hunkLine_of_shared member, inside⟩)
      have range := isLine_rangeLine (e.oldStart - contextLines)
        (oldEnd - (e.oldStart - contextLines)) (e.newStart - contextLines)
        (newEnd - (e.newStart - contextLines))
      refine ⟨whole_append (whole_append range.whole whole) wholeRest, ?_⟩
      rw [lines_append (whole_append range.whole whole), lines_append range.whole, range.lines]
      refine List.forall_mem_append.2 ⟨List.forall_mem_append.2 ⟨?_, own⟩, later⟩
      exact List.forall_mem_singleton.2 (.marked (c := '@') (by decide) (by simp))

end

theorem lines_unified (old new : String) :
    (unified old new).toList.getLast? = some '\n' ∧
      ∀ l ∈ lines (unified old new), DiffLine (lines new) l := by
  let s : Sides := ⟨lines old, lines new⟩
  let es := edits 0 0 none (ranges s.old s.new)
  obtain ⟨whole, hunks⟩ := lines_hunks (s := s) (fun x => isLine_or_unbroken)
    (fun x => isLine_or_unbroken) es.length es
  have head : lines "--- original\n+++ modified\n" = ["--- original\n", "+++ modified\n"] := by
    decide +kernel
  have names : Whole "--- original\n+++ modified\n" := .inr (by decide +kernel)
  have text : unified old new =
    "--- original\n+++ modified\n" ++ Diff.hunks s es.length es := rfl
  rw [text, lines_append names, head]
  refine ⟨(whole_append names whole).resolve_left fun empty => ?_, ?_⟩
  · have chars := congrArg String.toList empty
    simp at chars
  · refine List.forall_mem_append.2 ⟨List.forall_mem_cons.2 ⟨?_, List.forall_mem_singleton.2 ?_⟩,
      hunks⟩
    · exact .marked (c := '-') (by decide) (by simp)
    · exact .marked (c := '+') (by decide) (by simp)

/-- A note on a file that is missing, or should be, comes first. -/
theorem text_eq (expected actual : Option String) :
    ∃ note, text expected actual = note ++ unified (actual.getD "") (expected.getD "") ∧
      (note = "" ∨ IsLine note ∧ note.toList.head? = some 'f') := by
  have missing : IsLine "file does not exist\n" ∧
      "file does not exist\n".toList.head? = some 'f' :=
    ⟨⟨"file does not exist".toList, by decide +kernel, by decide +kernel⟩, by decide +kernel⟩
  have surplus : IsLine "file should not exist\n" ∧
      "file should not exist\n".toList.head? = some 'f' :=
    ⟨⟨"file should not exist".toList, by decide +kernel, by decide +kernel⟩, by decide +kernel⟩
  cases expected with
  | none =>
    cases actual with
    | none => exact ⟨_, rfl, .inl rfl⟩
    | some actual => exact ⟨_, rfl, .inr surplus⟩
  | some expected =>
    cases actual with
    | none => exact ⟨_, rfl, .inr missing⟩
    | some actual => exact ⟨_, rfl, .inl rfl⟩

/-- A diff ends with a break, and each of its lines is a line of the expected text after a blank or
has another mark. -/
theorem lines_text (expected actual : Option String) :
    (text expected actual).toList.getLast? = some '\n' ∧
      ∀ l ∈ lines (text expected actual), DiffLine (lines (expected.getD "")) l := by
  obtain ⟨ends, own⟩ := lines_unified (actual.getD "") (expected.getD "")
  obtain ⟨note, eq, rfl | ⟨line, first⟩⟩ := text_eq expected actual
  · rw [eq, String.empty_append]
    exact ⟨ends, own⟩
  · rw [eq, lines_append line.whole, line.lines, String.toList_append, List.getLast?_append, ends,
      Option.some_or, List.singleton_append]
    exact ⟨rfl, List.forall_mem_cons.2 ⟨.marked (by decide) first, own⟩⟩

/-! ## Fences in a diff -/

theorem head_endLine_blank (x : String) : (endLine (" " ++ x)).toList.head? = some ' ' := by
  unfold Report.endLine
  split <;> simp

theorem DiffLine.not_opensBlock {new : List String} {l : String} (h : DiffLine new l) :
    opensBlock l = false := by
  refine Bool.eq_false_iff.2 fun opens => ?_
  have tick := Report.head_of_opensBlock opens
  cases h with
  | marked known first =>
    obtain rfl := Option.some.inj (first.symm.trans tick)
    exact absurd known (by decide)
  | shared there =>
    rw [head_endLine_blank] at tick
    exact absurd (Option.some.inj tick) (by decide)

/-- What closes a block is a line of the expected text that has a fence. -/
theorem DiffLine.exists_of_closesBlock {new : List String} {l : String} (h : DiffLine new l)
    (closes : closesBlock l = true) : ∃ x ∈ new, l = endLine (" " ++ x) ∧ ¬ Unfenced x.toList := by
  cases h with
  | @marked c l known first =>
    obtain ⟨rest, chars⟩ := List.head?_eq_some_iff.1 first
    have plain : Unfenced l.toList := by
      rw [chars]
      refine Report.unfenced_cons ?_ ?_ rest <;> rintro rfl <;> exact absurd known (by decide)
    rw [plain.not_closesBlock] at closes
    cases closes
  | @shared x there =>
    refine ⟨x, there, rfl, fun plain => ?_⟩
    have blank : Unfenced (" " ++ x).toList := by
      rw [String.toList_append]
      exact plain.cons_blank
    rw [blank.endLine.not_closesBlock] at closes
    cases closes

end Diff

end WorkspaceLint
