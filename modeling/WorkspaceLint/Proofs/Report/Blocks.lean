import WorkspaceLint.Proofs.Report.Fences
import WorkspaceLint.Proofs.Report.Groups

/-!
# Blocks of a report in Markdown

A reader of Markdown goes through a text line by line: a fence with the word `diff` opens a block,
and the next line with a fence alone closes it.  Every opening line is either read as one or stands
inside a block (`countP_opensBlock`), so the blocks of a report are its long messages exactly when
no line outside of them opens a block and no line inside of them closes one
(`blocks_markdown_iff`).
-/

namespace WorkspaceLint

/-- A finding without its long message. -/
def FindingRecord.brief (f : FindingRecord) : FindingRecord := { f with longMessage := none }

namespace Report

/-! ## Reading blocks -/

/-- The blocks in lines, after those of a block that is open.  The end of the lines closes it. -/
def readBlocks : Option (List String) → List String → List (List String)
  | none, [] => []
  | some body, [] => [body]
  | none, l :: ls => if opensBlock l then readBlocks (some []) ls else readBlocks none ls
  | some body, l :: ls =>
    if closesBlock l then body :: readBlocks none ls else readBlocks (some (body ++ [l])) ls

/-- The contents of the blocks of a text. -/
def blocks (text : String) : List String := (readBlocks none (Diff.lines text)).map String.join

/-- Every opening line is read as one, or it stands inside a block. -/
theorem countP_opensBlock (state : Option (List String)) (ls : List String) :
    ls.countP opensBlock + state.elim 0 (fun body => body.countP opensBlock + 1) =
      (readBlocks state ls).length + (readBlocks state ls).flatten.countP opensBlock := by
  induction ls generalizing state with
  | nil =>
    cases state with
    | none => rfl
    | some body => simp [readBlocks, Nat.add_comm]
  | cons l ls ih =>
    cases state with
    | none =>
      have shut := ih none
      have opened := ih (some [])
      simp only [Option.elim, List.countP_nil] at shut opened ⊢
      rw [readBlocks, List.countP_cons]
      by_cases opens : opensBlock l = true
      · rw [if_pos opens, if_pos opens]
        omega
      · rw [if_neg opens, if_neg opens]
        omega
    | some body =>
      have shut := ih none
      have longer := ih (some (body ++ [l]))
      simp only [Option.elim, List.countP_append, List.countP_singleton] at shut longer ⊢
      rw [readBlocks, List.countP_cons]
      by_cases closes : closesBlock l = true
      · have opens : ¬ opensBlock l = true := fun opens => by
          rw [not_closesBlock_of_opensBlock opens] at closes
          cases closes
        rw [if_pos closes, if_neg opens, List.length_cons, List.flatten_cons, List.countP_append]
        omega
      · rw [if_neg closes]
        omega

theorem mem_of_mem_readBlocks {state : Option (List String)} {ls body : List String} {l : String}
    (block : body ∈ readBlocks state ls) (member : l ∈ body) :
    l ∈ ls ∨ ∃ front, state = some front ∧ l ∈ front := by
  induction ls generalizing state with
  | nil =>
    cases state with
    | none => cases block
    | some front =>
      rw [readBlocks, List.mem_singleton] at block
      exact .inr ⟨front, rfl, block ▸ member⟩
  | cons m ls ih =>
    cases state with
    | none =>
      rw [readBlocks] at block
      split at block
      · rcases ih block with later | ⟨front, same, inside⟩
        · exact .inl (List.mem_cons_of_mem m later)
        · rw [← Option.some.inj same] at inside
          cases inside
      · rcases ih block with later | ⟨front, same, -⟩
        · exact .inl (List.mem_cons_of_mem m later)
        · cases same
    | some front =>
      rw [readBlocks] at block
      split at block
      · rcases List.mem_cons.1 block with rfl | block
        · exact .inr ⟨body, rfl, member⟩
        · rcases ih block with later | ⟨front, same, -⟩
          · exact .inl (List.mem_cons_of_mem m later)
          · cases same
      · rcases ih block with later | ⟨longer, same, inside⟩
        · exact .inl (List.mem_cons_of_mem m later)
        · rw [← Option.some.inj same] at inside
          rcases List.mem_append.1 inside with before | here
          · exact .inr ⟨front, rfl, before⟩
          · exact .inl (List.mem_singleton.1 here ▸ List.mem_cons_self)

/-! ## Parts -/

/-- Lines outside of blocks, and the lines of the block that may follow them. -/
structure Part where
  outside : List String
  block : Option (List String)

/-- The lines of a part, with fences around the block. -/
def Part.lines (p : Part) : List String :=
  p.outside ++ (p.block.map fun body => fenceOpen :: (body ++ [fenceClose])).getD []

theorem readBlocks_outside {outside : List String} (quiet : ∀ l ∈ outside, opensBlock l = false)
    (ls : List String) : readBlocks none (outside ++ ls) = readBlocks none ls := by
  induction outside with
  | nil => rfl
  | cons l outside ih =>
    obtain ⟨first, later⟩ := List.forall_mem_cons.1 quiet
    rw [List.cons_append, readBlocks, if_neg (Bool.eq_false_iff.1 first), ih later]

/-- A block ends with the first line that closes it. -/
theorem readBlocks_body (front body ls : List String) :
    ∃ rest, readBlocks (some front) (body ++ fenceClose :: ls) =
        (front ++ body.takeWhile (!closesBlock ·)) :: rest ∧
      ((∀ l ∈ body, closesBlock l = false) → rest = readBlocks none ls) := by
  induction body generalizing front with
  | nil =>
    have closes : closesBlock fenceClose = true := by decide
    refine ⟨readBlocks none ls, ?_, fun _ => rfl⟩
    rw [List.nil_append, readBlocks, if_pos closes, List.takeWhile_nil, List.append_nil]
  | cons l body ih =>
    rw [List.cons_append, readBlocks]
    by_cases closes : closesBlock l = true
    · refine ⟨readBlocks none (body ++ fenceClose :: ls), ?_, fun shut => ?_⟩
      · rw [if_pos closes, List.takeWhile_cons_of_neg (by simp [closes]), List.append_nil]
      · rw [shut l List.mem_cons_self] at closes
        cases closes
    · obtain ⟨rest, read, later⟩ := ih (front ++ [l])
      refine ⟨rest, ?_, fun shut => later (List.forall_mem_cons.1 shut).2⟩
      rw [if_neg closes, read, List.takeWhile_cons_of_pos (by simp [closes]), List.append_assoc,
        List.singleton_append]

theorem readBlocks_fenced (body ls : List String) :
    ∃ rest, readBlocks none (fenceOpen :: (body ++ [fenceClose]) ++ ls) =
        body.takeWhile (!closesBlock ·) :: rest ∧
      ((∀ l ∈ body, closesBlock l = false) → rest = readBlocks none ls) := by
  have opens : opensBlock fenceOpen = true := by decide
  obtain ⟨rest, read, later⟩ := readBlocks_body [] body ls
  refine ⟨rest, ?_, later⟩
  rw [List.cons_append, readBlocks, if_pos opens, List.append_assoc, List.singleton_append, read,
    List.nil_append]

theorem countP_lines (parts : List Part) :
    (parts.flatMap Part.lines).countP opensBlock =
      (parts.flatMap Part.outside).countP opensBlock + (parts.filterMap Part.block).length +
        (parts.filterMap Part.block).flatten.countP opensBlock := by
  have opens : opensBlock fenceOpen = true := by decide
  have shut : opensBlock fenceClose = false := by decide
  induction parts with
  | nil => rfl
  | cons p parts ih =>
    obtain ⟨outside, block⟩ := p
    rw [List.flatMap_cons, List.flatMap_cons, List.countP_append, List.countP_append, ih]
    cases block with
    | none =>
      have same : (Part.mk outside none).lines = outside := List.append_nil outside
      rw [same, List.filterMap_cons_none rfl]
      dsimp only
      omega
    | some body =>
      have inside : (Part.mk outside (some body)).lines.countP opensBlock =
          outside.countP opensBlock + (body.countP opensBlock + 1) := by
        simp [Part.lines, List.countP_append, opens, shut]
      have first : (Part.mk outside (some body)).block = some body := rfl
      rw [inside, List.filterMap_cons_some first, List.length_cons, List.flatten_cons,
        List.countP_append]
      dsimp only
      omega

/-- The blocks of parts are read, each as it is, exactly when no line outside opens a block and no
line inside closes one.  Here no line inside may open one. -/
theorem readBlocks_parts_iff {parts : List Part}
    (noOpen : ∀ body ∈ parts.filterMap Part.block, ∀ l ∈ body, opensBlock l = false) :
    readBlocks none (parts.flatMap Part.lines) = parts.filterMap Part.block ↔
      (∀ l ∈ parts.flatMap Part.outside, opensBlock l = false) ∧
      ∀ body ∈ parts.filterMap Part.block, ∀ l ∈ body, closesBlock l = false := by
  have inside : (parts.filterMap Part.block).flatten.countP opensBlock = 0 := by
    refine List.countP_eq_zero.2 fun l member => ?_
    obtain ⟨body, block, there⟩ := List.mem_flatten.1 member
    exact Bool.eq_false_iff.1 (noOpen body block l there)
  -- With as many blocks as there are fences, no other line was read as an opening one.
  have outside (read : readBlocks none (parts.flatMap Part.lines) = parts.filterMap Part.block) :
      ∀ l ∈ parts.flatMap Part.outside, opensBlock l = false := by
    have count := countP_opensBlock none (parts.flatMap Part.lines)
    rw [read, countP_lines, inside, Option.elim] at count
    intro l member
    exact Bool.eq_false_iff.2 (List.countP_eq_zero.1 (by omega) l member)
  suffices quiet : (∀ l ∈ parts.flatMap Part.outside, opensBlock l = false) →
      (readBlocks none (parts.flatMap Part.lines) = parts.filterMap Part.block ↔
        ∀ body ∈ parts.filterMap Part.block, ∀ l ∈ body, closesBlock l = false) from
    ⟨fun read => ⟨outside read, (quiet (outside read)).1 read⟩,
      fun ⟨unopened, unclosed⟩ => (quiet unopened).2 unclosed⟩
  clear outside inside noOpen
  induction parts with
  | nil => exact fun _ => ⟨fun _ => nofun, fun _ => rfl⟩
  | cons p parts ih =>
    obtain ⟨lines, block⟩ := p
    intro quiet
    rw [List.flatMap_cons, List.forall_mem_append] at quiet
    obtain ⟨here, later⟩ := quiet
    rw [List.flatMap_cons, Part.lines, List.append_assoc, readBlocks_outside here]
    cases block with
    | none =>
      rw [List.filterMap_cons_none rfl]
      exact ih later
    | some body =>
      obtain ⟨rest, read, shut⟩ := readBlocks_fenced body (parts.flatMap Part.lines)
      have first : (Part.mk lines (some body)).block = some body := rfl
      have taken : body.takeWhile (!closesBlock ·) = body ↔ ∀ l ∈ body, closesBlock l = false := by
        rw [List.takeWhile_eq_self_iff]
        simp
      rw [Option.map_some, Option.getD_some, read, List.filterMap_cons_some first,
        List.cons.injEq, List.forall_mem_cons, taken]
      refine and_congr_right fun unclosed => ?_
      rw [shut unclosed]
      exact ih later

/-! ## The parts of a report -/

/-- The section of a finding in front of its long message. -/
def sectionHead (number : Nat) (f : FindingRecord) : String :=
  "### " ++ Decimal.text number ++ ". " ++ f.message ++ "\n\n" ++
    "- Rule: `" ++ f.rule ++ "`\n" ++
    "- Severity: `" ++ f.severity.label ++ "`\n" ++
    "- File: `" ++ f.file.text ++ "`\n" ++
    "- Fix: " ++ fixStatus f ++ "\n"

/-- The parts of a section. -/
def sectionParts (number : Nat) (f : FindingRecord) : List Part :=
  let blank := f.longMessage.elim [] fun _ => ["\n"]
  [⟨Diff.lines (sectionHead number f) ++ blank,
      f.longMessage.map fun long => Diff.lines (endLine long)⟩,
    ⟨["\n"], none⟩]

/-- The parts of the sections from the given number on. -/
def findingParts (number : Nat) : List FindingRecord → List Part
  | [] => []
  | f :: fs => sectionParts number f ++ findingParts (number + 1) fs

/-- What comes before the sections. -/
def opening (r : Report) : String :=
  markdownHead r ++ "## Findings\n\n" ++ if r.findings.isEmpty then "_No findings._\n" else ""

/-- What comes after the sections. -/
def closing (r : Report) : String :=
  if r.failures.isEmpty then ""
  else "## Rule failures\n\n" ++ String.join (r.failures.map markdownFailure)

/-- The parts of a report. -/
def parts (r : Report) : List Part :=
  ⟨Diff.lines (opening r), none⟩ ::
    (findingParts 1 r.findings ++ [⟨Diff.lines (closing r), none⟩])

theorem whole_endLine (s : String) : Diff.Whole (endLine s) := by
  unfold endLine
  split
  · rename_i ends
    exact .inr ends
  · exact Diff.whole_append_break s

theorem lines_markdownFinding (number : Nat) (f : FindingRecord) :
    Diff.Whole (markdownFinding number f) ∧
      Diff.lines (markdownFinding number f) = (sectionParts number f).flatMap Part.lines := by
  have head : Diff.Whole (sectionHead number f) := Diff.whole_append_break _
  refine ⟨Diff.whole_append_break _, ?_⟩
  have last : Diff.lines "\n" = ["\n"] := by decide
  cases shown : f.longMessage with
  | none =>
    have text : markdownFinding number f = sectionHead number f ++ "\n" := by
      unfold markdownFinding
      rw [shown]
      exact congrArg (· ++ "\n") String.append_empty
    rw [text, Diff.lines_append head, last]
    simp [sectionParts, Part.lines, shown]
  | some long =>
    have text : markdownFinding number f =
        sectionHead number f ++ ("\n" ++ fenceOpen ++ endLine long ++ fenceClose) ++ "\n" := by
      unfold markdownFinding
      rw [shown]
      rfl
    have fence : Diff.Whole ("\n" ++ fenceOpen) := Diff.whole_append (.inr rfl) (.inr rfl)
    have front : Diff.lines ("\n" ++ fenceOpen) = ["\n", fenceOpen] := by decide
    have back : Diff.lines fenceClose = [fenceClose] := by decide
    have block := Diff.whole_append (Diff.whole_append fence (whole_endLine long))
      (t := fenceClose) (.inr rfl)
    rw [text, Diff.lines_append (Diff.whole_append head block), Diff.lines_append head,
      Diff.lines_append (Diff.whole_append fence (whole_endLine long)), Diff.lines_append fence,
      front, back, last]
    simp [sectionParts, Part.lines, shown]

theorem lines_markdownFindings (number : Nat) (fs : List FindingRecord) :
    Diff.Whole (markdownFindings number fs) ∧
      Diff.lines (markdownFindings number fs) = (findingParts number fs).flatMap Part.lines := by
  induction fs generalizing number with
  | nil => exact ⟨Diff.whole_empty, rfl⟩
  | cons f fs ih =>
    obtain ⟨whole, own⟩ := lines_markdownFinding number f
    obtain ⟨later, rest⟩ := ih (number + 1)
    refine ⟨Diff.whole_append whole later, ?_⟩
    rw [markdownFindings, Diff.lines_append whole, own, rest, findingParts, List.flatMap_append]

theorem whole_opening (r : Report) : Diff.Whole (opening r) := by
  refine Diff.whole_append (.inr ?_) ?_
  · rw [String.toList_append, List.getLast?_append]
    rfl
  · split
    · exact .inr rfl
    · exact Diff.whole_empty

theorem whole_closing (r : Report) : Diff.Whole (closing r) := by
  unfold closing
  split
  · exact Diff.whole_empty
  · refine Diff.whole_append (.inr rfl) (Diff.whole_join (List.forall_mem_map.2 fun f _ => ?_))
    exact Diff.whole_append_break _

/-- The lines of a report are those of its parts. -/
theorem lines_markdown (r : Report) : Diff.lines r.markdown = r.parts.flatMap Part.lines := by
  obtain ⟨whole, findings⟩ := lines_markdownFindings 1 r.findings
  have text : r.markdown = opening r ++ markdownFindings 1 r.findings ++ closing r := rfl
  rw [text, Diff.lines_append (Diff.whole_append (whole_opening r) whole),
    Diff.lines_append (whole_opening r), findings]
  simp [parts, Part.lines]

theorem whole_markdown (r : Report) : Diff.Whole r.markdown :=
  Diff.whole_append (Diff.whole_append (whole_opening r) (lines_markdownFindings 1 r.findings).1)
    (whole_closing r)

theorem blocks_parts (r : Report) :
    r.parts.filterMap Part.block =
      (r.findings.filterMap (·.longMessage)).map fun long => Diff.lines (endLine long) := by
  have findings (number : Nat) (fs : List FindingRecord) :
      (findingParts number fs).filterMap Part.block =
        (fs.filterMap (·.longMessage)).map fun long => Diff.lines (endLine long) := by
    induction fs generalizing number with
    | nil => rfl
    | cons f fs ih =>
      rw [findingParts, List.filterMap_append, ih]
      cases shown : f.longMessage <;> simp [sectionParts, shown]
  simp [parts, findings]

/-! ## Reports without long messages -/

/-- A report without the long messages of its findings. -/
def brief (r : Report) : Report := { r with findings := r.findings.map FindingRecord.brief }

/-- Without its long messages a report has the lines that stand outside of its blocks. -/
theorem forall_lines_brief_iff (r : Report) :
    (∀ l ∈ Diff.lines r.brief.markdown, opensBlock l = false) ↔
      ∀ l ∈ r.parts.flatMap Part.outside, opensBlock l = false := by
  have findings (number : Nat) (fs : List FindingRecord) :
      (∀ l ∈ (findingParts number (fs.map FindingRecord.brief)).flatMap Part.lines,
          opensBlock l = false) ↔
        ∀ l ∈ (findingParts number fs).flatMap Part.outside, opensBlock l = false := by
    induction fs generalizing number with
    | nil => rfl
    | cons f fs ih =>
      have head : sectionHead number f.brief = sectionHead number f := rfl
      have none : f.brief.longMessage = none := rfl
      have own : (∀ l ∈ (sectionParts number f.brief).flatMap Part.lines, opensBlock l = false) ↔
          ∀ l ∈ (sectionParts number f).flatMap Part.outside, opensBlock l = false := by
        cases shown : f.longMessage <;> simp [sectionParts, Part.lines, head, none, shown]
      rw [List.map_cons, findingParts, findingParts, List.flatMap_append, List.flatMap_append,
        List.forall_mem_append, List.forall_mem_append, own, ih]
  have front : opening r.brief = opening r := by
    unfold opening brief
    rw [List.isEmpty_map]
    rfl
  have back : closing r.brief = closing r := rfl
  have all : r.brief.findings = r.findings.map FindingRecord.brief := rfl
  rw [lines_markdown, parts, parts, front, back, all]
  simp only [List.flatMap_cons, List.flatMap_append, List.forall_mem_append, findings]
  simp [Part.lines]

/-! ## Texts without breaks -/

/-- Whether none of the texts that the line of a failure shows has a break. -/
structure OneLineFailure (f : FailureRecord) : Prop where
  rule : '\n' ∉ f.rule.toList
  message : '\n' ∉ f.message.toList
  packageDir : ∀ dir, f.packageDir = some dir → '\n' ∉ dir.text.toList

/-- Whether no text that a report shows outside of its blocks has a break. -/
structure Unbroken (r : Report) : Prop where
  reasons : ∀ reason ∈ r.verdict.reasons, '\n' ∉ reason.toList
  findings : ∀ f ∈ r.findings, OneLine f
  failures : ∀ f ∈ r.failures, OneLineFailure f

theorem break_not_mem_reasons (s : Summary) :
    ∀ reason ∈ (judge s).reasons, '\n' ∉ reason.toList := by
  have counted (n : Nat) {text : String} (h : '\n' ∉ text.toList) :
      '\n' ∉ (Decimal.text n ++ text).toList := by
    rw [String.toList_append, List.mem_append, not_or]
    exact ⟨break_not_mem_decimal n, h⟩
  refine List.forall_mem_append.2 ⟨?_, ?_⟩ <;> split
  · exact List.forall_mem_singleton.2 (counted _ (by decide))
  · exact List.forall_mem_nil _
  · exact List.forall_mem_singleton.2 (counted _ (by decide))
  · exact List.forall_mem_nil _

theorem scan_join {ss : List String} (h : ∀ s ∈ ss, scan true s.toList = some true) :
    scan true (String.join ss).toList = some true := by
  induction ss with
  | nil => rfl
  | cons s ss ih =>
    obtain ⟨first, later⟩ := List.forall_mem_cons.1 h
    rw [String.join_cons, String.toList_append, scan_append, first, Option.bind_some, ih later]

theorem scan_markdownHead {r : Report} (h : ∀ reason ∈ r.verdict.reasons, '\n' ∉ reason.toList) :
    scan true (markdownHead r).toList = some true := by
  have status : scan false r.verdict.status.label.toList = some false := by
    cases r.verdict.status <;> rfl
  have mode : scan false r.mode.label.toList = some false := by
    cases r.mode <;> rfl
  have reasons : scan true (String.join
      (r.verdict.reasons.map fun reason => "- Reason: " ++ reason ++ "\n")).toList = some true := by
    refine scan_join (List.forall_mem_map.2 fun reason member => ?_)
    simp [scan_append, scan, scan_unbroken (h reason member)]
  unfold markdownHead
  generalize String.join _ = given at reasons ⊢
  simp [scan_append, scan, scan_decimal, status, mode, reasons]

theorem break_not_mem_fixStatus {f : FindingRecord} (h : OneLine f) :
    '\n' ∉ (fixStatus f).toList := by
  unfold fixStatus
  split
  · decide
  split
  · rename_i e failed
    simp only [String.toList_append, List.mem_append, not_or]
    exact ⟨⟨by decide, h.fixError e failed⟩, by decide⟩
  · split <;> decide

theorem scan_markdownFinding {f : FindingRecord} (h : OneLine f) (number : Nat) :
    scan true (markdownFinding number f.brief).toList = some true := by
  have text : markdownFinding number f.brief = sectionHead number f ++ "" ++ "\n" := rfl
  have severity : scan false f.severity.label.toList = some false := by
    cases f.severity <;> rfl
  rw [text]
  unfold sectionHead
  simp [scan_append, scan, scan_decimal, scan_unbroken h.message, scan_unbroken h.rule,
    scan_unbroken h.file, scan_unbroken (break_not_mem_fixStatus h), severity]

theorem scan_markdownFindings {fs : List FindingRecord} (h : ∀ f ∈ fs, OneLine f) (number : Nat) :
    scan true (markdownFindings number (fs.map FindingRecord.brief)).toList = some true := by
  induction fs generalizing number with
  | nil => rfl
  | cons f fs ih =>
    obtain ⟨first, later⟩ := List.forall_mem_cons.1 h
    rw [List.map_cons, markdownFindings, String.toList_append, scan_append,
      scan_markdownFinding first, Option.bind_some, ih later]

theorem scan_markdownFailure {f : FailureRecord} (h : OneLineFailure f) :
    scan true (markdownFailure f).toList = some true := by
  have kind : scan false f.kind.label.toList = some false := by
    cases f.kind <;> rfl
  unfold markdownFailure
  cases place : f.packageDir with
  | none => simp [scan_append, scan, scan_unbroken h.rule, scan_unbroken h.message, kind]
  | some path =>
    simp [scan_append, scan, scan_unbroken h.rule, scan_unbroken h.message, kind,
      scan_unbroken (h.packageDir path place)]

/-- When nothing that is shown has a break, no line outside of the blocks opens one. -/
theorem Unbroken.not_opensBlock {r : Report} (h : Unbroken r) :
    ∀ l ∈ Diff.lines r.brief.markdown, opensBlock l = false := by
  have title : scan true "## Findings\n\n".toList = some true := by decide +kernel
  have front : scan true (opening r.brief).toList = some true := by
    rw [opening, String.toList_append, String.toList_append, scan_append, scan_append,
      scan_markdownHead (r := r.brief) h.reasons, Option.bind_some, title, Option.bind_some]
    split <;> rfl
  have findings : scan true (markdownFindings 1 r.brief.findings).toList = some true :=
    scan_markdownFindings h.findings 1
  have back : scan true (closing r.brief).toList = some true := by
    have heading : scan true "## Rule failures\n\n".toList = some true := by decide +kernel
    unfold closing
    split
    · rfl
    · rw [String.toList_append, scan_append, heading, Option.bind_some]
      exact scan_join (List.forall_mem_map.2 fun f member =>
        scan_markdownFailure (h.failures f member))
  have text : r.brief.markdown =
    opening r.brief ++ markdownFindings 1 r.brief.findings ++ closing r.brief := rfl
  have read : scan true r.brief.markdown.toList = some true := by
    rw [text, String.toList_append, String.toList_append, scan_append, scan_append, front,
      Option.bind_some, findings, Option.bind_some, back]
  refine fun l member => (unfenced_of_scan ?_ l member).not_opensBlock
  rw [read]
  rfl

/-! ## The blocks of a report -/

/-- A reader finds the long messages of a report, and nothing else, exactly when no other line opens
a block and none of their own lines closes one.  Here every long message ends with a break, and none
of its lines opens a block. -/
theorem blocks_markdown_iff {r : Report}
    (ends : ∀ long ∈ r.findings.filterMap (·.longMessage), long.toList.getLast? = some '\n')
    (shut : ∀ long ∈ r.findings.filterMap (·.longMessage),
      ∀ l ∈ Diff.lines long, opensBlock l = false) :
    blocks r.markdown = r.findings.filterMap (·.longMessage) ↔
      (∀ l ∈ Diff.lines r.brief.markdown, opensBlock l = false) ∧
      ∀ long ∈ r.findings.filterMap (·.longMessage),
        ∀ l ∈ Diff.lines long, closesBlock l = false := by
  have same : r.parts.filterMap Part.block =
      (r.findings.filterMap (·.longMessage)).map Diff.lines := by
    rw [blocks_parts]
    refine List.map_congr_left fun long member => ?_
    rw [endLine, if_pos (ends long member)]
  -- Blocks are the same when their lines are, since every line has its break.
  have texts : blocks r.markdown = r.findings.filterMap (·.longMessage) ↔
      readBlocks none (r.parts.flatMap Part.lines) = r.parts.filterMap Part.block := by
    rw [blocks, lines_markdown, same]
    constructor
    · intro read
      rw [← read, List.map_map]
      refine (List.map_id _).symm.trans (List.map_congr_left fun body block => ?_)
      refine (Diff.lines_join_of_isLine fun l member => ?_).symm
      rcases mem_of_mem_readBlocks block member with there | ⟨_, nothing, -⟩
      · rw [← lines_markdown] at there
        exact (whole_markdown r).isLine there
      · cases nothing
    · intro read
      rw [read, List.map_map]
      exact (List.map_congr_left fun long _ => Diff.join_lines long).trans (List.map_id _)
  have unopened : ∀ body ∈ r.parts.filterMap Part.block, ∀ l ∈ body, opensBlock l = false := by
    rw [same]
    exact List.forall_mem_map.2 shut
  rw [texts, readBlocks_parts_iff unopened, forall_lines_brief_iff, same, List.forall_mem_map]

end Report

end WorkspaceLint
