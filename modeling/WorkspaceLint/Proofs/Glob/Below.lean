import Mathlib.Data.List.TakeWhile
import WorkspaceLint.Proofs.Glob.Rooted

/-!
# What a pattern below a root stands for

Whatever a root is spelled like, a pattern that is put behind it keeps its own meaning: it can be
read exactly when it can be read alone (`valid_iff_rooted`), and it accepts the paths that start
with the text of the root and go on with a text that it accepts (`accepts_rooted_iff`).
-/

namespace WorkspaceLint

namespace DirGlob

/-! ## Slashes at the end of a pattern -/

theorem mem_of_toBracket_isSome {cs : List Char} :
    (toBracket cs).isSome = true ↔ ']' ∈ cs := by
  induction cs with
  | nil => simp [toBracket]
  | cons c cs ih =>
    rw [toBracket, List.mem_cons]
    split
    · rename_i bracket
      simp [bracket]
    · rename_i other
      rw [Option.isSome_map, ih, or_iff_right (Ne.symm other)]

/-- A class that can be read in front of a slash at the end can be read without it. -/
theorem charClass_isSome_of_concat_slash {cs : List Char}
    (h : (charClass (cs ++ ['/'])).isSome = true) : (charClass cs).isSome = true := by
  obtain ⟨⟨t, left⟩, read⟩ := Option.isSome_iff_exists.1 h
  obtain ⟨c, tail, body, found, shape⟩ := charClass_eq_some_iff.1 read
  have closed : ']' ∈ tail := mem_of_toBracket_isSome.1 (by rw [found]; rfl)
  obtain ⟨tail', rfl⟩ | none : (∃ tail', tail = tail' ++ ['/']) ∨ tail = [] := by
    rcases List.eq_nil_or_concat tail with none | ⟨front, d, rfl⟩
    · exact .inr none
    · rw [List.concat_eq_append] at shape ⊢
      refine .inl ⟨front, ?_⟩
      have last : (cs ++ ['/']).getLast? = some d := by
        rcases shape with ⟨same, -⟩ | ⟨same, -⟩ <;> rw [same]
        · rw [← List.cons_append, ← List.cons_append, List.getLast?_concat]
        · rw [← List.cons_append, List.getLast?_concat]
      rw [List.getLast?_concat] at last
      rw [Option.some.inj last]
  · have closed' : ']' ∈ tail' := by simpa using closed
    obtain ⟨⟨body', rest'⟩, found'⟩ :=
      Option.isSome_iff_exists.1 (mem_of_toBracket_isSome.2 closed')
    rcases shape with ⟨same, -⟩ | ⟨same, other, -⟩
    · have front : cs = '!' :: c :: tail' := List.append_cancel_right (by simpa using same)
      rw [charClass_eq_some_iff.2 ⟨c, tail', body', found', .inl ⟨front, rfl⟩⟩]
      rfl
    · have front : cs = c :: tail' := List.append_cancel_right (by simpa using same)
      rw [charClass_eq_some_iff.2 ⟨c, tail', body', found', .inr ⟨front, other, rfl⟩⟩]
      rfl
  · rw [none] at closed
    cases closed

/-- Whether a text can be read as a pattern behind the given character. -/
def Readable (before : Option Char) (cs : List Char) : Prop := ∃ g, Reads before cs g

section

variable {before : Option Char} {c : Char} {cs : List Char}

theorem readable_nil (before : Option Char) : Readable before [] := ⟨[], .nil⟩

theorem readable_one_iff : Readable before ('?' :: cs) ↔ Readable (some '?') cs := by
  simp [Readable, reads_one_iff]

theorem readable_run_iff (single : cs.head? ≠ some '*') :
    Readable before ('*' :: cs) ↔ Readable (some '*') cs := by
  simp [Readable, reads_run_iff single]

theorem readable_stars_iff :
    Readable before ('*' :: '*' :: cs) ↔ (before = none ∨ before = some '/') ∧
      (cs = [] ∨ ∃ rest, cs = '/' :: rest ∧ Readable (some '/') rest) := by
  unfold Readable
  simp only [reads_stars_iff, exists_and_left]
  refine and_congr_right fun _ => ⟨?_, ?_⟩
  · rintro ⟨g, ⟨none, -⟩ | ⟨rest, text, ts, read, -⟩⟩
    · exact .inl none
    · exact .inr ⟨rest, text, ts, read⟩
  · rintro (none | ⟨rest, text, ts, read⟩)
    · exact ⟨[.dirs], .inl ⟨none, rfl⟩⟩
    · exact ⟨.dirs :: ts, .inr ⟨rest, text, ts, read, rfl⟩⟩

theorem readable_class_iff : Readable before ('[' :: cs) ↔
    ∃ t left, charClass cs = some (t, left) ∧ Readable (some ']') left := by
  unfold Readable
  simp only [reads_class_iff]
  constructor
  · rintro ⟨g, t, left, ts, found, read, -⟩
    exact ⟨t, left, found, ts, read⟩
  · rintro ⟨t, left, found, ts, read⟩
    exact ⟨t :: ts, t, left, ts, found, read, rfl⟩

theorem readable_literal_iff (notOne : c ≠ '?') (notRun : c ≠ '*') (notClass : c ≠ '[') :
    Readable before (c :: cs) ↔ Readable (some c) cs := by
  simp [Readable, reads_literal_iff notOne notRun notClass]

end

/-- A pattern can be read with a slash at its end exactly when it can be read without it. -/
theorem readable_concat_slash_iff {before : Option Char} (cs : List Char) :
    Readable before (cs ++ ['/']) ↔ Readable before cs := by
  induction hn : cs.length using Nat.strongRecOn generalizing before cs with
  | ind n ih =>
  subst hn
  have shorter {before : Option Char} {left : List Char} (less : left.length < cs.length) :
      Readable before (left ++ ['/']) ↔ Readable before left := ih _ less left rfl
  rcases cs with _ | ⟨c, cs⟩
  · refine iff_of_true ?_ (readable_nil before)
    exact (readable_literal_iff (by decide) (by decide) (by decide)).2 (readable_nil _)
  have next {before : Option Char} : Readable before (cs ++ ['/']) ↔ Readable before cs :=
    shorter (Nat.lt_succ_self _)
  rw [List.cons_append]
  by_cases one : c = '?'
  · subst one
    rw [readable_one_iff, readable_one_iff, next]
  by_cases star : c = '*'
  · subst star
    rcases cs with _ | ⟨d, cs⟩
    · rw [readable_run_iff (by decide), readable_run_iff (by decide), next]
    by_cases twice : d = '*'
    · subst twice
      rw [List.cons_append, readable_stars_iff, readable_stars_iff]
      refine and_congr_right fun _ => ?_
      rcases cs with _ | ⟨e, cs⟩
      · exact iff_of_true (.inr ⟨[], rfl, readable_nil _⟩) (.inl rfl)
      · have later : Readable (some '/') (cs ++ ['/']) ↔ Readable (some '/') cs :=
          shorter (by simp only [List.length_cons]; omega)
        simp [later]
    · rw [readable_run_iff (by simpa using twice), readable_run_iff (by simpa using twice), next]
  by_cases bracket : c = '['
  · subst bracket
    rw [readable_class_iff, readable_class_iff]
    rcases found : charClass cs with _ | ⟨t, left⟩
    · have none : charClass (cs ++ ['/']) = none := by
        rw [← Option.not_isSome_iff_eq_none] at found ⊢
        exact fun h => found (charClass_isSome_of_concat_slash h)
      simp [none]
    · obtain ⟨⟨read, -, parts⟩, -⟩ := exists_of_charClass found
      have fits : left.length < ('[' :: cs).length := by
        rw [parts, List.length_cons, List.length_append]
        omega
      have later : Readable (some ']') (left ++ ['/']) ↔ Readable (some ']') left := shorter fits
      simp [charClass_append found, later]
  · rw [readable_literal_iff one star bracket, readable_literal_iff one star bracket, next]

theorem exists_trimSlashes (cs : List Char) :
    ∃ n, cs = trimSlashes cs ++ List.replicate n '/' := by
  refine ⟨(cs.reverse.takeWhile (· = '/')).length, ?_⟩
  have slashes : cs.reverse.takeWhile (· = '/') =
      List.replicate (cs.reverse.takeWhile (· = '/')).length '/' :=
    List.eq_replicate_iff.2 ⟨rfl, fun c member => by simpa using List.mem_takeWhile_imp member⟩
  have whole := congrArg List.reverse
    (List.takeWhile_append_dropWhile (p := (· = '/')) (l := cs.reverse))
  rw [List.reverse_append, List.reverse_reverse, slashes, List.reverse_replicate] at whole
  exact whole.symm

theorem readable_trimSlashes_iff {before : Option Char} {cs : List Char} :
    Readable before (trimSlashes cs) ↔ Readable before cs := by
  have more (n : Nat) : Readable before (trimSlashes cs ++ List.replicate n '/') ↔
      Readable before (trimSlashes cs) := by
    induction n with
    | zero => rw [List.replicate_zero, List.append_nil]
    | succ n ih => rw [List.replicate_succ', ← List.append_assoc, readable_concat_slash_iff, ih]
  obtain ⟨n, whole⟩ := exists_trimSlashes cs
  rw [← more n, ← whole]

/-! ## Behind a root -/

/-- The text in front of what lies below a directory: its path, and a slash unless it ends with
one. -/
def lead (root : Path) : List Char :=
  if root.text.toList.getLast? = some '/' then root.text.toList else root.text.toList ++ ['/']

theorem exists_lead (root : Path) : ∃ front, lead root = front ++ ['/'] := by
  unfold lead
  split
  · rename_i slash
    exact List.getLast?_eq_some_iff.1 slash
  · exact ⟨_, rfl⟩

theorem rootedChars_eq (root : Path) (pattern : List Char) :
    rootedChars root.text.toList pattern = escape (lead root) ++ trimSlashes pattern := by
  unfold rootedChars lead
  simp only [getLast?_escape_eq_slash_iff]
  split
  · rfl
  · rw [escape_append, List.append_assoc]
    rfl

/-- The place behind a slash and the start of a pattern are alike. -/
theorem reads_afterSlash_iff {cs : List Char} {g : DirGlob} :
    Reads (some '/') cs g ↔ Reads none cs g := by
  refine ⟨fun h => ?_, Reads.afterSlash⟩
  cases h with
  | nil => exact .nil
  | one rest => exact .one rest
  | run single rest => exact .run single rest
  | lastDirs => exact .lastDirs (.inl rfl)
  | dirs _ rest => exact .dirs (.inl rfl) rest
  | oneOf read rest => exact .oneOf read rest
  | literal notOne notRun notClass rest => exact .literal notOne notRun notClass rest

/-- Behind an escaped text and a slash a pattern is read as it is read alone. -/
theorem reads_escape_slash_iff {before : Option Char} {text rest : List Char} {g : DirGlob} :
    Reads before (escape text ++ '/' :: rest) g ↔
      ∃ ts, Reads none rest ts ∧ g = escaped text ++ .literal '/' :: ts := by
  induction text generalizing before g with
  | nil =>
    show Reads before ('/' :: rest) g ↔ ∃ ts, Reads none rest ts ∧ g = .literal '/' :: ts
    rw [reads_literal_iff (by decide) (by decide) (by decide)]
    exact exists_congr fun ts => and_congr_left' reads_afterSlash_iff
  | cons c text ih =>
    have first : escape (c :: text) = escapeChar c ++ escape text := rfl
    have token : escaped (c :: text) = escapedToken c :: escaped text := rfl
    have onward (after : Option Char) :
        (∃ us, Reads after (escape text ++ '/' :: rest) us ∧ g = escapedToken c :: us) ↔
          ∃ ts, Reads none rest ts ∧ g = escapedToken c :: escaped text ++ .literal '/' :: ts := by
      simp only [ih]
      constructor
      · rintro ⟨us, ⟨ts, read, rfl⟩, same⟩
        exact ⟨ts, read, same⟩
      · rintro ⟨ts, read, same⟩
        exact ⟨_, ⟨ts, read, rfl⟩, same⟩
    rw [first, token, List.append_assoc]
    by_cases special : isMeta c = true
    · have class' := charClass_escaped special (escape text ++ '/' :: rest)
      rw [escapeChar, if_pos special]
      show Reads before ('[' :: c :: ']' :: (escape text ++ '/' :: rest)) g ↔ _
      rw [reads_class_iff, ← onward (some ']'), escapedToken, if_pos special]
      simp [class']
    · have plain : c ≠ '?' ∧ c ≠ '*' ∧ c ≠ '[' := by
        refine ⟨?_, ?_, ?_⟩ <;> rintro rfl <;> exact special rfl
      rw [escapeChar, if_neg special, List.singleton_append,
        reads_literal_iff plain.1 plain.2.1 plain.2.2, ← onward (some c), escapedToken,
        if_neg special]

/-- A pattern behind a root is read as it is read alone. -/
theorem parse_rooted_eq_ok_iff {root : Path} {pattern : String} {g : DirGlob} :
    parse (rooted root.text pattern) = .ok g ↔
      ∃ ts, Reads none (trimSlashes pattern.toList) ts ∧ g = escaped (lead root) ++ ts := by
  obtain ⟨front, leads⟩ := exists_lead root
  have text : escape (lead root) ++ trimSlashes pattern.toList =
      escape front ++ '/' :: trimSlashes pattern.toList := by
    rw [leads, escape_append, List.append_assoc]
    rfl
  have tokens : escaped (lead root) = escaped front ++ [.literal '/'] := by
    rw [leads]
    exact List.map_append
  rw [rooted, parse_eq_ok_iff, rootedChars_eq, text, reads_escape_slash_iff, tokens]
  simp only [List.append_assoc, List.singleton_append]

/-- Whether a pattern can be read. -/
def Valid (pattern : String) : Prop := ∃ g, parse pattern = .ok g

instance (pattern : String) : Decidable (Valid pattern) :=
  match h : parse pattern with
  | .ok g => isTrue ⟨g, h⟩
  | .error _ => isFalse fun ⟨_, same⟩ => nomatch h.symm.trans same

/-- A pattern can be read behind a root when it can be read alone. -/
theorem valid_iff_rooted (root : Path) {pattern : String} :
    Valid pattern ↔ ∃ g, parse (rooted root.text pattern) = .ok g := by
  have alone : Valid pattern ↔ Readable none pattern.toList := by
    have read {g : DirGlob} :
        parse (String.ofList pattern.toList) = .ok g ↔ Reads none pattern.toList g :=
      parse_eq_ok_iff
    simp only [Valid, Readable, ← read, String.ofList_toList]
  rw [alone, ← readable_trimSlashes_iff]
  simp only [parse_rooted_eq_ok_iff]
  constructor
  · rintro ⟨ts, read⟩
    exact ⟨_, ts, read, rfl⟩
  · rintro ⟨g, ts, read, -⟩
    exact ⟨ts, read⟩

/-- A pattern stands for a directory below a root: behind the text of the root, the pattern without
the slashes at its end accepts the rest of its path. -/
def Covers (root : Path) (pattern : String) (dir : Path) : Prop :=
  ∃ g rest, parse (String.ofList (trimSlashes pattern.toList)) = .ok g ∧
    dir.text.toList = lead root ++ rest ∧ Accepts g rest

/-- A pattern behind a root accepts the paths of the directories that it stands for. -/
theorem accepts_rooted_iff {root : Path} {pattern : String} {g : DirGlob}
    (read : parse (rooted root.text pattern) = .ok g) {dir : Path} :
    accepts g dir.text.toList = true ↔ Covers root pattern dir := by
  obtain ⟨ts, alone, rfl⟩ := parse_rooted_eq_ok_iff.1 read
  have only {ts' : DirGlob} : parse (String.ofList (trimSlashes pattern.toList)) = .ok ts' ↔
      ts = ts' := by
    rw [parse_eq_ok_iff.2 alone, Except.ok.injEq]
  rw [accepts_iff, accepts_escaped_append_iff]
  simp only [Covers, only, exists_and_left, exists_eq_left']

end DirGlob

end WorkspaceLint
