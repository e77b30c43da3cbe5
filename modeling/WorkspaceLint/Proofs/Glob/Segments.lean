import Mathlib.Data.List.Basic
import WorkspaceLint.Glob.Directory
import WorkspaceLint.Proofs.Path.Names

/-!
# Patterns segment by segment

A pattern for directories can be read and matched segment by segment.  `Reads` says what a pattern
is read as, one rule for each thing that the reader can come upon; the segments of a pattern that
are readable on their own make up the whole (`reads_intercalate`).  `Matches` says when segments
match the names of a path, and the whole accepts the text of the path exactly then
(`accepts_glue_iff`).
-/

namespace WorkspaceLint

namespace DirGlob

/-! ## Classes and stars -/

theorem toBracket_eq {cs body rest : List Char} (h : toBracket cs = some (body, rest)) :
    cs = body ++ ']' :: rest := by
  induction cs generalizing body with
  | nil => cases h
  | cons c cs ih =>
    rw [toBracket] at h
    split at h
    · rename_i bracket
      obtain ⟨rfl, rfl⟩ := Prod.mk.inj (Option.some.inj h)
      rw [bracket]
      rfl
    · obtain ⟨⟨body', rest'⟩, later, same⟩ := Option.map_eq_some_iff.1 h
      obtain ⟨rfl, rfl⟩ := Prod.mk.inj same
      rw [ih later]
      rfl

theorem toBracket_append {cs body rest : List Char} (h : toBracket cs = some (body, rest))
    (more : List Char) : toBracket (cs ++ more) = some (body, rest ++ more) := by
  induction cs generalizing body with
  | nil => cases h
  | cons c cs ih =>
    rw [toBracket] at h
    rw [List.cons_append, toBracket]
    split at h
    · rename_i bracket
      obtain ⟨rfl, rfl⟩ := Prod.mk.inj (Option.some.inj h)
      rw [if_pos bracket]
    · rename_i other
      obtain ⟨⟨body', rest'⟩, later, same⟩ := Option.map_eq_some_iff.1 h
      obtain ⟨rfl, rfl⟩ := Prod.mk.inj same
      rw [if_neg other, ih later]
      rfl

/-- A class is negated when it starts with `!`, and its first character is taken as it is. -/
theorem charClass_eq_some_iff {cs rest : List Char} {t : Token} :
    charClass cs = some (t, rest) ↔ ∃ c tail body, toBracket tail = some (body, rest) ∧
      (cs = '!' :: c :: tail ∧ t = .oneOf true (classRanges (c :: body)) ∨
        cs = c :: tail ∧ c ≠ '!' ∧ t = .oneOf false (classRanges (c :: body))) := by
  unfold charClass
  split
  · rename_i c tail
    simp only [Option.map_eq_some_iff, Prod.mk.injEq]
    constructor
    · rintro ⟨⟨body, rest'⟩, found, rfl, rfl⟩
      exact ⟨c, tail, body, found, .inl ⟨rfl, rfl⟩⟩
    · rintro ⟨c', tail', body, found, ⟨same, rfl⟩ | ⟨same, other, -⟩⟩
      · obtain ⟨rfl, rfl⟩ := List.cons.inj (List.cons.inj same).2
        exact ⟨(body, rest), found, rfl, rfl⟩
      · exact absurd (List.cons.inj same).1.symm other
  · refine ⟨nofun, ?_⟩
    rintro ⟨c, tail, body, -, ⟨same, -⟩ | ⟨same, other, -⟩⟩
    · cases (List.cons.inj same).2
    · exact absurd (List.cons.inj same).1.symm other
  · rename_i c tail first second
    simp only [Option.map_eq_some_iff, Prod.mk.injEq]
    constructor
    · rintro ⟨⟨body, rest'⟩, found, rfl, rfl⟩
      refine ⟨c, tail, body, found, .inr ⟨rfl, ?_, rfl⟩⟩
      rintro rfl
      rcases tail with _ | ⟨d, tail⟩
      · cases found
      · exact first d tail rfl rfl
    · rintro ⟨c', tail', body, found, ⟨same, -⟩ | ⟨same, -, rfl⟩⟩
      · obtain ⟨rfl, rfl⟩ := List.cons.inj same
        exact absurd rfl (first c' tail' · rfl)
      · obtain ⟨rfl, rfl⟩ := List.cons.inj same
        exact ⟨(body, rest), found, rfl, rfl⟩
  · refine ⟨nofun, ?_⟩
    rintro ⟨c, tail, body, -, ⟨same, -⟩ | ⟨same, -⟩⟩ <;> cases same

/-- A class ends inside of the text that it was read from, whatever follows. -/
theorem charClass_append {cs rest : List Char} {t : Token} (h : charClass cs = some (t, rest))
    (more : List Char) : charClass (cs ++ more) = some (t, rest ++ more) := by
  obtain ⟨c, tail, body, found, shape⟩ := charClass_eq_some_iff.1 h
  refine charClass_eq_some_iff.2 ⟨c, tail ++ more, body, toBracket_append found more, ?_⟩
  rcases shape with ⟨rfl, token⟩ | ⟨rfl, other, token⟩
  · exact .inl ⟨rfl, token⟩
  · exact .inr ⟨rfl, other, token⟩

theorem exists_of_charClass {cs rest : List Char} {t : Token} (h : charClass cs = some (t, rest)) :
    (∃ read, read ≠ [] ∧ cs = read ++ rest) ∧ ∃ negated ranges, t = .oneOf negated ranges := by
  obtain ⟨c, tail, body, found, shape⟩ := charClass_eq_some_iff.1 h
  have whole := toBracket_eq found
  rcases shape with ⟨rfl, token⟩ | ⟨rfl, -, token⟩
  · exact ⟨⟨'!' :: c :: body ++ [']'], by simp, by simp [whole]⟩, _, _, token⟩
  · exact ⟨⟨c :: body ++ [']'], by simp, by simp [whole]⟩, _, _, token⟩

theorem stars_eq (cs : List Char) :
    cs = List.replicate (stars cs).1 '*' ++ (stars cs).2 ∧ (stars cs).2.head? ≠ some '*' := by
  induction cs with
  | nil => exact ⟨rfl, nofun⟩
  | cons c cs ih =>
    rw [stars]
    by_cases star : c = '*'
    · simp only [if_pos star, List.replicate_succ, List.cons_append]
      exact ⟨by rw [star, ← ih.1], ih.2⟩
    · simp only [if_neg star]
      exact ⟨rfl, by simpa using star⟩

/-! ## Reading -/

/-- What the text of a pattern is read as, with the character in front of it. -/
inductive Reads : Option Char → List Char → DirGlob → Prop where
  | nil {before : Option Char} : Reads before [] []
  | one {before : Option Char} {cs : List Char} {g : DirGlob} (rest : Reads (some '?') cs g) :
      Reads before ('?' :: cs) (.one :: g)
  | run {before : Option Char} {cs : List Char} {g : DirGlob} (single : cs.head? ≠ some '*')
      (rest : Reads (some '*') cs g) : Reads before ('*' :: cs) (.run :: g)
  | lastDirs {before : Option Char} (start : before = none ∨ before = some '/') :
      Reads before ['*', '*'] [.dirs]
  | dirs {before : Option Char} {cs : List Char} {g : DirGlob}
      (start : before = none ∨ before = some '/') (rest : Reads (some '/') cs g) :
      Reads before ('*' :: '*' :: '/' :: cs) (.dirs :: g)
  | oneOf {before : Option Char} {cs left : List Char} {t : Token} {g : DirGlob}
      (read : charClass cs = some (t, left)) (rest : Reads (some ']') left g) :
      Reads before ('[' :: cs) (t :: g)
  | literal {before : Option Char} {c : Char} {cs : List Char} {g : DirGlob} (notOne : c ≠ '?')
      (notRun : c ≠ '*') (notClass : c ≠ '[') (rest : Reads (some c) cs g) :
      Reads before (c :: cs) (.literal c :: g)

theorem map_cons_eq_ok_iff {ε : Type} {r : Except ε DirGlob} {t : Token} {g : DirGlob} :
    r.map (t :: ·) = .ok g ↔ ∃ ts, r = .ok ts ∧ g = t :: ts := by
  rcases r with e | ts
  · exact ⟨nofun, fun ⟨_, h, _⟩ => nomatch h⟩
  · exact ⟨fun h => ⟨ts, rfl, (Except.ok.inj h).symm⟩,
      fun ⟨_, h, same⟩ => by rw [same, ← Except.ok.inj h]; rfl⟩

section

variable {before : Option Char} {c : Char} {cs : List Char} {g : DirGlob}

theorem reads_nil_iff : Reads before [] g ↔ g = [] :=
  ⟨fun h => by cases h; rfl, fun h => h ▸ .nil⟩

theorem reads_one_iff :
    Reads before ('?' :: cs) g ↔ ∃ ts, Reads (some '?') cs ts ∧ g = .one :: ts := by
  constructor
  · intro h
    cases h with
    | one rest => exact ⟨_, rest, rfl⟩
    | literal notOne => exact absurd rfl notOne
  · rintro ⟨ts, rest, rfl⟩
    exact .one rest

theorem reads_run_iff (single : cs.head? ≠ some '*') :
    Reads before ('*' :: cs) g ↔ ∃ ts, Reads (some '*') cs ts ∧ g = .run :: ts := by
  constructor
  · intro h
    cases h with
    | run _ rest => exact ⟨_, rest, rfl⟩
    | lastDirs => exact absurd rfl single
    | dirs => exact absurd rfl single
    | literal _ notRun => exact absurd rfl notRun
  · rintro ⟨ts, rest, rfl⟩
    exact .run single rest

/-- Two stars stand at the start of a segment and fill it. -/
theorem reads_stars_iff :
    Reads before ('*' :: '*' :: cs) g ↔ (before = none ∨ before = some '/') ∧
      (cs = [] ∧ g = [.dirs] ∨
        ∃ rest ts, cs = '/' :: rest ∧ Reads (some '/') rest ts ∧ g = .dirs :: ts) := by
  constructor
  · intro h
    cases h with
    | run single => exact absurd rfl single
    | lastDirs start => exact ⟨start, .inl ⟨rfl, rfl⟩⟩
    | dirs start rest => exact ⟨start, .inr ⟨_, _, rfl, rest, rfl⟩⟩
    | literal _ notRun => exact absurd rfl notRun
  · rintro ⟨start, ⟨rfl, rfl⟩ | ⟨rest, ts, rfl, read, rfl⟩⟩
    · exact .lastDirs start
    · exact .dirs start read

theorem reads_class_iff :
    Reads before ('[' :: cs) g ↔ ∃ t left ts, charClass cs = some (t, left) ∧
      Reads (some ']') left ts ∧ g = t :: ts := by
  constructor
  · intro h
    cases h with
    | oneOf read rest => exact ⟨_, _, _, read, rest, rfl⟩
    | literal _ _ notClass => exact absurd rfl notClass
  · rintro ⟨t, left, ts, read, rest, rfl⟩
    exact .oneOf read rest

theorem reads_literal_iff (notOne : c ≠ '?') (notRun : c ≠ '*') (notClass : c ≠ '[') :
    Reads before (c :: cs) g ↔ ∃ ts, Reads (some c) cs ts ∧ g = .literal c :: ts := by
  constructor
  · intro h
    cases h with
    | literal _ _ _ rest => exact ⟨_, rest, rfl⟩
    | one => exact absurd rfl notOne
    | run | lastDirs | dirs => exact absurd rfl notRun
    | oneOf => exact absurd rfl notClass
  · rintro ⟨ts, rest, rfl⟩
    exact .literal notOne notRun notClass rest

/-- The reader gives what a pattern is read as. -/
theorem readFrom_eq_ok_iff {fuel position : Nat} (enough : cs.length < fuel) :
    readFrom fuel position before cs = .ok g ↔ Reads before cs g := by
  induction fuel generalizing position before cs g with
  | zero => omega
  | succ fuel ih =>
    have next {position : Nat} {before : Option Char} {left : List Char} {t : Token} {g : DirGlob}
        (shorter : left.length < fuel) :
        (readFrom fuel position before left).map (t :: ·) = .ok g ↔
          ∃ ts, Reads before left ts ∧ g = t :: ts := by
      rw [map_cons_eq_ok_iff]
      exact exists_congr fun ts => and_congr_left' (ih shorter)
    rcases cs with _ | ⟨c, cs⟩
    · rw [reads_nil_iff]
      exact ⟨fun h => (Except.ok.inj h).symm, fun h => h ▸ rfl⟩
    rw [List.length_cons] at enough
    rw [readFrom]
    by_cases one : c = '?'
    · subst one
      rw [if_pos rfl, next (by omega), reads_one_iff]
    by_cases star : c = '*'
    · subst star
      rw [if_neg one, if_pos rfl]
      obtain ⟨whole, stop⟩ := stars_eq cs
      rcases hs : stars cs with ⟨_ | _ | n, rest⟩ <;> rw [hs] at whole stop
      · obtain rfl : cs = rest := whole
        have shorter : cs.length < fuel := by omega
        exact (next shorter).trans (reads_run_iff stop).symm
      · obtain rfl : cs = '*' :: rest := whole
        rw [List.length_cons] at enough
        rw [reads_stars_iff]
        by_cases start : before = none ∨ before = some '/'
        · rcases rest with _ | ⟨d, rest⟩
          · simp [start, eq_comm]
          · rw [List.length_cons] at enough
            by_cases slash : d = '/'
            · subst slash
              have shorter : rest.length < fuel := by omega
              simpa [start] using next shorter
            · simp only [if_pos start]
              simp [slash]
        · simp [start]
      · obtain rfl : cs = '*' :: '*' :: (List.replicate n '*' ++ rest) := whole
        simp [reads_stars_iff]
    by_cases bracket : c = '['
    · subst bracket
      rw [if_neg one, if_neg star, if_pos rfl, reads_class_iff]
      rcases hc : charClass cs with _ | ⟨t, left⟩
      · simp
      · obtain ⟨⟨read, some, parts⟩, -⟩ := exists_of_charClass hc
        have length := congrArg List.length parts
        rw [List.length_append] at length
        have shorter := List.length_pos_iff.2 some
        have fits : left.length < fuel := by omega
        simpa using next fits
    rw [if_neg one, if_neg star, if_neg bracket, next (by omega),
      reads_literal_iff one star bracket]

end

theorem parse_eq_ok_iff {cs : List Char} {g : DirGlob} :
    parse (String.ofList cs) = .ok g ↔ Reads none cs g := by
  unfold parse
  rw [String.toList_ofList]
  exact readFrom_eq_ok_iff (Nat.lt_succ_self _)

/-- The start of a pattern and the place behind a slash are alike. -/
theorem Reads.afterSlash {cs : List Char} {g : DirGlob} (h : Reads none cs g) :
    Reads (some '/') cs g := by
  cases h with
  | nil => exact .nil
  | one rest => exact .one rest
  | run single rest => exact .run single rest
  | lastDirs => exact .lastDirs (.inr rfl)
  | dirs _ rest => exact .dirs (.inr rfl) rest
  | oneOf read rest => exact .oneOf read rest
  | literal notOne notRun notClass rest => exact .literal notOne notRun notClass rest

/-! ## Segments -/

/-- Whether a token can stand in a segment: it takes no slash. -/
def Token.Inner : Token → Prop
  | .literal c => c ≠ '/'
  | .dirs => False
  | _ => True

theorem Reads.inner_of_after {c : Char} {cs : List Char} {g : DirGlob} (h : Reads (some c) cs g)
    (inside : c ≠ '/') (cases : cs = ['*', '*'] ∧ g = [.dirs] ∨ ∀ t ∈ g, t.Inner) :
    ∀ t ∈ g, t.Inner := by
  rcases cases with ⟨rfl, rfl⟩ | inner
  · cases h with
    | lastDirs start => simp [inside] at start
  · exact inner

/-- A segment is `**`, or no part of it reaches over a slash. -/
theorem Reads.cases_of_segment {before : Option Char} {cs : List Char} {g : DirGlob}
    (h : Reads before cs g) (noSlash : '/' ∉ cs) :
    cs = ['*', '*'] ∧ g = [.dirs] ∨ ∀ t ∈ g, t.Inner := by
  induction h with
  | nil => exact .inr nofun
  | one rest ih =>
    have later := fun h => noSlash (List.mem_cons_of_mem _ h)
    exact .inr (List.forall_mem_cons.2 ⟨trivial, rest.inner_of_after (by decide) (ih later)⟩)
  | run single rest ih =>
    have later := fun h => noSlash (List.mem_cons_of_mem _ h)
    exact .inr (List.forall_mem_cons.2 ⟨trivial, rest.inner_of_after (by decide) (ih later)⟩)
  | lastDirs start => exact .inl ⟨rfl, rfl⟩
  | dirs => simp at noSlash
  | oneOf read rest ih =>
    obtain ⟨⟨text, -, parts⟩, negated, ranges, rfl⟩ := exists_of_charClass read
    have later := fun h => noSlash (List.mem_cons_of_mem _ (parts ▸ List.mem_append_right text h))
    exact .inr (List.forall_mem_cons.2 ⟨trivial, rest.inner_of_after (by decide) (ih later)⟩)
  | @literal before c cs g notOne notRun notClass rest ih =>
    obtain ⟨here, later⟩ := not_or.1 fun h => noSlash (List.mem_cons.2 h)
    exact .inr (List.forall_mem_cons.2
      ⟨Ne.symm here, rest.inner_of_after (Ne.symm here) (ih later)⟩)

theorem Reads.ne_nil {before : Option Char} {cs : List Char} {g : DirGlob} (h : Reads before cs g)
    (some : cs ≠ []) : g ≠ [] := by
  cases h with
  | nil => exact absurd rfl some
  | _ => exact List.cons_ne_nil _ _

/-- A segment of characters, classes and runs is read as it is, also in front of a slash. -/
theorem Reads.append_slash {before : Option Char} {cs rest : List Char} {g more : DirGlob}
    (h : Reads before cs g) (inner : ∀ t ∈ g, t.Inner) (h' : Reads (some '/') rest more) :
    Reads before (cs ++ '/' :: rest) (g ++ .literal '/' :: more) := by
  induction h with
  | nil => exact .literal (by decide) (by decide) (by decide) h'
  | one _ ih => exact .one (ih (List.forall_mem_cons.1 inner).2)
  | @run before cs g single _ ih =>
    refine .run ?_ (ih (List.forall_mem_cons.1 inner).2)
    rcases cs with _ | ⟨c, cs⟩
    · exact fun same => absurd (Option.some.inj same) (by decide)
    · exact single
  | lastDirs => exact absurd (inner .dirs (List.mem_singleton_self _)) id
  | dirs => exact absurd (inner .dirs List.mem_cons_self) id
  | oneOf read _ ih =>
    exact .oneOf (charClass_append read _) (ih (List.forall_mem_cons.1 inner).2)
  | literal notOne notRun notClass _ ih =>
    exact .literal notOne notRun notClass (ih (List.forall_mem_cons.1 inner).2)

/-- The pattern of segments that are put together with slashes. -/
def glue : List DirGlob → DirGlob
  | [] => []
  | [g] => g
  | g :: g' :: gs => (if g = [.dirs] then g else g ++ [.literal '/']) ++ glue (g' :: gs)

/-- The segments of a pattern, each read on its own. -/
def ReadEach (segs : List (List Char)) (gs : List DirGlob) : Prop :=
  List.Forall₂ (fun seg g => '/' ∉ seg ∧ seg ≠ [] ∧ Reads none seg g) segs gs

/-- Readable segments make up a readable pattern. -/
theorem reads_intercalate {before : Option Char} (start : before = none ∨ before = some '/')
    {segs : List (List Char)} {gs : List DirGlob} (each : ReadEach segs gs) :
    Reads before (['/'].intercalate segs) (glue gs) := by
  induction each generalizing before with
  | nil => exact .nil
  | @cons seg g segs gs first rest ih =>
    obtain ⟨noSlash, -, read⟩ := first
    have here : Reads before seg g := by
      rcases start with rfl | rfl
      · exact read
      · exact read.afterSlash
    cases rest with
    | nil => simpa [List.intercalate, glue] using here
    | @cons seg' g' segs gs first' rest' =>
      have text : ['/'].intercalate (seg :: seg' :: segs) =
          seg ++ '/' :: ['/'].intercalate (seg' :: segs) := by
        simp [List.intercalate]
      rw [text, glue]
      rcases read.cases_of_segment noSlash with ⟨rfl, rfl⟩ | inner
      · rw [if_pos rfl]
        exact .dirs start (ih (.inr rfl))
      · have other : g ≠ [.dirs] := by
          rintro rfl
          exact inner .dirs (List.mem_singleton_self _)
        rw [if_neg other, List.append_assoc]
        exact here.append_slash inner (ih (.inr rfl))

/-! ## Matching -/

/-- When segments match names, one after the other; `**` stands for any names, and for at least one
when nothing follows it. -/
inductive Matches : List DirGlob → List String → Prop where
  | nil : Matches [] []
  | name {g : DirGlob} {gs : List DirGlob} {s : String} {names : List String}
      (inner : ∀ t ∈ g, t.Inner) (accepted : Accepts g s.toList) (rest : Matches gs names) :
      Matches (g :: gs) (s :: names)
  /-- No directory. -/
  | none {g : DirGlob} {gs : List DirGlob} {names : List String} (rest : Matches (g :: gs) names) :
      Matches ([.dirs] :: g :: gs) names
  /-- One directory more. -/
  | more {gs : List DirGlob} {s : String} {names : List String}
      (rest : Matches ([.dirs] :: gs) names) : Matches ([.dirs] :: gs) (s :: names)
  | last {s : String} : Matches [[.dirs]] [s]

/-- The text of names with slashes between them. -/
def joined (names : List String) : List Char := ['/'].intercalate (names.map String.toList)

theorem joined_cons {s : String} {names : List String} (some : names ≠ []) :
    joined (s :: names) = s.toList ++ '/' :: joined names := by
  obtain ⟨t, rest, rfl⟩ := List.exists_cons_of_ne_nil some
  simp [joined, List.intercalate]

theorem joined_singleton (s : String) : joined [s] = s.toList := by
  simp [joined, List.intercalate]

/-- What inner tokens accept has no slash. -/
theorem slash_not_mem_of_accepts {g : DirGlob} {text : List Char} (inner : ∀ t ∈ g, t.Inner)
    (h : Accepts g text) : '/' ∉ text := by
  induction h with
  | nil => exact List.not_mem_nil
  | @single t ts c cs takes rest ih =>
    obtain ⟨first, later⟩ := List.forall_mem_cons.1 inner
    refine fun member => (List.mem_cons.1 member).elim (fun slash => ?_) (ih later)
    cases t with
    | literal d =>
      rw [Token.takes, decide_eq_true_eq] at takes
      exact first (takes.symm.trans slash.symm)
    | one => simp [Token.takes, ← slash] at takes
    | oneOf negated ranges => simp [Token.takes, ← slash] at takes
    | run => cases takes
    | dirs => cases takes
  | run plain rest ih =>
    obtain ⟨-, later⟩ := List.forall_mem_cons.1 inner
    refine fun member => (List.mem_append.1 member).elim (fun taken => ?_) (ih later)
    exact plain _ taken rfl
  | noDirs | dirs | allDirs => exact absurd (inner .dirs List.mem_cons_self) id

/-- Inner tokens accept a part of a text, and those after them the rest. -/
theorem accepts_append_iff {g ts : DirGlob} {text : List Char} (inner : ∀ t ∈ g, t.Inner) :
    Accepts (g ++ ts) text ↔
      ∃ taken left, text = taken ++ left ∧ Accepts g taken ∧ Accepts ts left := by
  induction g generalizing text with
  | nil =>
    constructor
    · intro h
      exact ⟨[], text, rfl, .nil, h⟩
    · rintro ⟨taken, left, rfl, none, rest⟩
      cases none
      exact rest
  | cons t g ih =>
    obtain ⟨first, later⟩ := List.forall_mem_cons.1 inner
    constructor
    · intro h
      cases h with
      | @single _ _ c cs takes rest =>
        obtain ⟨taken, left, rfl, front, back⟩ := (ih later).1 rest
        exact ⟨c :: taken, left, rfl, .single takes front, back⟩
      | @run _ taken left plain rest =>
        obtain ⟨taken', left', rfl, front, back⟩ := (ih later).1 rest
        exact ⟨taken ++ taken', left', by rw [List.append_assoc], .run plain front, back⟩
      | noDirs | dirs | allDirs => exact absurd first id
    · rintro ⟨taken, left, rfl, front, back⟩
      cases front with
      | single takes rest => exact .single takes ((ih later).2 ⟨_, left, rfl, rest, back⟩)
      | run plain rest =>
        rw [List.append_assoc]
        exact .run plain ((ih later).2 ⟨_, left, rfl, rest, back⟩)
      | noDirs | dirs | allDirs => exact absurd first id

/-- What is read as one segment: `**`, or tokens that take no slash. -/
def Segment (g : DirGlob) : Prop := g = [.dirs] ∨ g ≠ [] ∧ ∀ t ∈ g, t.Inner

theorem segments_of_readEach {segs : List (List Char)} {gs : List DirGlob}
    (each : ReadEach segs gs) : ∀ g ∈ gs, Segment g := by
  induction each with
  | nil => exact nofun
  | cons first rest ih =>
    obtain ⟨noSlash, nonempty, read⟩ := first
    refine List.forall_mem_cons.2 ⟨?_, ih⟩
    rcases read.cases_of_segment noSlash with ⟨-, same⟩ | inner
    · exact .inl same
    · exact .inr ⟨read.ne_nil nonempty, inner⟩

theorem matches_nil_right {gs : List DirGlob} (h : Matches gs []) : gs = [] := by
  generalize hn : ([] : List String) = names at h
  induction h with
  | nil => rfl
  | name | more | last => cases hn
  | none rest ih => exact absurd (ih hn) (List.cons_ne_nil _ _)

theorem matches_lastDirs {names : List String} (some : names ≠ []) : Matches [[.dirs]] names := by
  induction names with
  | nil => exact absurd rfl some
  | cons s names ih =>
    rcases names with _ | ⟨t, rest⟩
    · exact .last
    · exact .more (ih (List.cons_ne_nil t rest))

theorem matches_dirs_append {gs : List DirGlob} {names : List String} (front : List String)
    (h : Matches ([.dirs] :: gs) names) : Matches ([.dirs] :: gs) (front ++ names) := by
  induction front with
  | nil => exact h
  | cons s front ih => exact .more ih

/-- `**` in front of other segments stands for the names before those that they match. -/
theorem matches_dirs_cons_iff {g : DirGlob} {gs : List DirGlob} {names : List String} :
    Matches ([.dirs] :: g :: gs) names ↔
      ∃ front back, names = front ++ back ∧ Matches (g :: gs) back := by
  constructor
  · intro h
    generalize hg : ([.dirs] : DirGlob) :: g :: gs = all at h
    induction h with
    | nil => cases hg
    | name inner =>
      obtain ⟨rfl, -⟩ := List.cons.inj hg
      exact absurd (inner .dirs (List.mem_singleton_self _)) id
    | @none g' gs' names rest ih =>
      obtain ⟨-, same⟩ := List.cons.inj hg
      exact ⟨[], names, rfl, same ▸ rest⟩
    | @more gs' s names rest ih =>
      obtain ⟨front, back, rfl, back_matches⟩ := ih hg
      exact ⟨s :: front, back, rfl, back_matches⟩
    | last => cases (List.cons.inj hg).2
  · rintro ⟨front, back, rfl, h⟩
    exact matches_dirs_append front (.none h)

theorem append_slash_inj {a b x y : List Char} (ha : '/' ∉ a) (hb : '/' ∉ b)
    (h : a ++ '/' :: x = b ++ '/' :: y) : a = b ∧ x = y := by
  induction a generalizing b with
  | nil =>
    rcases b with _ | ⟨c, b⟩
    · exact ⟨rfl, (List.cons.inj h).2⟩
    · exact absurd (List.mem_cons.2 (.inl (List.cons.inj h).1)) hb
  | cons c a ih =>
    rcases b with _ | ⟨d, b⟩
    · exact absurd (List.mem_cons.2 (.inl (List.cons.inj h).1.symm)) ha
    · obtain ⟨rfl, rest⟩ := List.cons.inj h
      obtain ⟨rfl, rfl⟩ := ih (fun h => ha (List.mem_cons_of_mem _ h))
        (fun h => hb (List.mem_cons_of_mem _ h)) rest
      exact ⟨rfl, rfl⟩

theorem intercalate_splitSlashes (cs : List Char) :
    ['/'].intercalate (Path.splitSlashes cs) = cs := by
  induction cs with
  | nil => rfl
  | cons c cs ih =>
    obtain ⟨seg, segs, eq⟩ := List.exists_cons_of_ne_nil (Path.splitSlashes_ne_nil cs)
    rw [eq] at ih
    by_cases slash : c = '/'
    · rw [Path.splitSlashes, if_pos slash, eq, slash]
      simpa [List.intercalate] using ih
    · rw [Path.splitSlashes_cons_of_ne slash eq]
      rcases segs with _ | ⟨seg', segs⟩
      · simpa [List.intercalate] using ih
      · simpa [List.intercalate] using ih

theorem splitSlashes_joined {names : List String} (h : Path.AreNames names) (some : names ≠ []) :
    Path.splitSlashes (joined names) = names.map String.toList := by
  refine Path.splitSlashes_intercalate (by simpa using some) fun seg hseg => ?_
  obtain ⟨s, hs, rfl⟩ := List.mem_map.1 hseg
  exact (h s hs).noSlash

/-- A slash in the text of names divides the names. -/
theorem exists_of_joined_eq {names : List String} (h : Path.AreNames names) (some : names ≠ [])
    {taken left : List Char} (whole : joined names = taken ++ '/' :: left) :
    ∃ front back, names = front ++ back ∧ back ≠ [] ∧ left = joined back := by
  have parts := splitSlashes_joined h some
  rw [whole, Path.splitSlashes_append] at parts
  obtain ⟨front, back, rfl, -, later⟩ := List.map_eq_append_iff.1 parts.symm
  refine ⟨front, back, rfl, ?_, ?_⟩
  · rintro rfl
    exact Path.splitSlashes_ne_nil left later.symm
  · rw [joined, later, intercalate_splitSlashes]

theorem intercalate_append {segs more : List (List Char)} (some : segs ≠ []) (some' : more ≠ []) :
    ['/'].intercalate (segs ++ more) = ['/'].intercalate segs ++ '/' :: ['/'].intercalate more := by
  obtain ⟨next, rest, rfl⟩ := List.exists_cons_of_ne_nil some'
  induction segs with
  | nil => exact absurd rfl some
  | cons seg segs ih =>
    rcases segs with _ | ⟨seg', segs⟩
    · simp [List.intercalate]
    · have later := ih (List.cons_ne_nil seg' segs)
      simp only [List.intercalate, List.cons_append, List.intersperse_cons_cons, List.flatten_cons,
        List.append_assoc] at later ⊢
      rw [later]

theorem joined_append {names more : List String} (some : names ≠ []) (some' : more ≠ []) :
    joined (names ++ more) = joined names ++ '/' :: joined more := by
  rw [joined, List.map_append, intercalate_append (by simpa using some) (by simpa using some')]
  rfl

theorem glue_dirs_cons (g : DirGlob) (gs : List DirGlob) :
    glue ([.dirs] :: g :: gs) = .dirs :: glue (g :: gs) := by
  rw [glue, if_pos rfl]
  rfl

theorem glue_inner_cons {g : DirGlob} (inner : ∀ t ∈ g, t.Inner) (g' : DirGlob)
    (gs : List DirGlob) : glue (g :: g' :: gs) = g ++ .literal '/' :: glue (g' :: gs) := by
  have other : g ≠ [.dirs] := by
    rintro rfl
    exact inner .dirs (List.mem_singleton_self _)
  rw [glue, if_neg other, List.append_assoc]
  rfl

theorem accepts_slash_cons_iff {ts : DirGlob} {text : List Char} :
    Accepts (.literal '/' :: ts) text ↔ ∃ left, text = '/' :: left ∧ Accepts ts left := by
  constructor
  · intro h
    cases h with
    | @single _ _ c cs takes rest =>
      rw [Token.takes, decide_eq_true_eq] at takes
      exact ⟨cs, by rw [takes], rest⟩
  · rintro ⟨left, rfl, rest⟩
    exact .single rfl rest

theorem accepts_dirs_cons_iff {ts : DirGlob} {text : List Char} :
    Accepts (.dirs :: ts) text ↔ Accepts ts text ∨
      (∃ taken left, text = taken ++ '/' :: left ∧ Accepts ts left) ∨ Accepts ts [] := by
  constructor
  · intro h
    cases h with
    | noDirs rest => exact .inl rest
    | @dirs _ taken left rest => exact .inr (.inl ⟨taken, left, rfl, rest⟩)
    | allDirs rest => exact .inr (.inr rest)
    | single takes => cases takes
  · rintro (rest | ⟨taken, left, rfl, rest⟩ | rest)
    · exact .noDirs rest
    · exact .dirs rest
    · exact .allDirs rest

/-- A segment that takes no slash matches one name. -/
theorem matches_inner_cons_iff {g : DirGlob} (inner : ∀ t ∈ g, t.Inner) {gs : List DirGlob}
    {names : List String} :
    Matches (g :: gs) names ↔
      ∃ s rest, names = s :: rest ∧ Accepts g s.toList ∧ Matches gs rest := by
  constructor
  · intro h
    cases h with
    | name _ accepted rest => exact ⟨_, _, rfl, accepted, rest⟩
    | none | more | last => exact absurd (inner .dirs (List.mem_singleton_self _)) id
  · rintro ⟨s, rest, rfl, accepted, matched⟩
    exact .name inner accepted matched

/-- Tokens that accept nothing and take no slash accept every name: they are runs. -/
theorem accepts_name_of_accepts_nil {g : DirGlob} (inner : ∀ t ∈ g, t.Inner) (tokens : g ≠ [])
    (accepted : Accepts g []) {s : String} (name : Path.IsName s) : Accepts g s.toList := by
  obtain ⟨t, ts, rfl⟩ := List.exists_cons_of_ne_nil tokens
  generalize ht : ([] : List Char) = text at accepted
  cases accepted with
  | single => cases ht
  | @run _ taken left _ rest =>
    obtain ⟨-, rfl⟩ := List.append_eq_nil_iff.1 ht.symm
    have whole : Accepts (.run :: ts) (s.toList ++ []) :=
      .run (fun c hc same => name.noSlash (same ▸ hc)) rest
    rwa [List.append_nil] at whole
  | noDirs | dirs | allDirs => exact absurd (inner .dirs List.mem_cons_self) id

/-- When segments accept nothing as well, they match the last of any names. -/
theorem matches_of_accepts_nil {gs : List DirGlob} (h : ∀ g ∈ gs, Segment g) (nonempty : gs ≠ [])
    (accepted : Accepts (glue gs) []) {names : List String} (hn : Path.AreNames names)
    (some : names ≠ []) : Matches ([.dirs] :: gs) names := by
  induction gs with
  | nil => exact absurd rfl nonempty
  | cons g gs ih =>
    obtain ⟨first, later⟩ := List.forall_mem_cons.1 h
    rcases first with rfl | ⟨tokens, inner⟩ <;> rcases gs with _ | ⟨g', gs⟩
    · exact .none (matches_lastDirs some)
    · rw [glue_dirs_cons] at accepted
      refine .none (ih later (List.cons_ne_nil g' gs) ?_)
      rcases accepts_dirs_cons_iff.1 accepted with rest | ⟨taken, left, whole, -⟩ | rest
      · exact rest
      · simp at whole
      · exact rest
    · obtain ⟨front, s, rfl⟩ := (List.eq_nil_or_concat names).resolve_left some
      rw [List.concat_eq_append] at hn ⊢
      have name := hn s (List.mem_append_right _ (List.mem_singleton_self s))
      have last := accepts_name_of_accepts_nil inner tokens accepted name
      exact matches_dirs_append front (.none (.name inner last .nil))
    · rw [glue_inner_cons inner, accepts_append_iff inner] at accepted
      obtain ⟨taken, left, whole, -, back⟩ := accepted
      obtain ⟨left', rfl, -⟩ := accepts_slash_cons_iff.1 back
      simp at whole

/-- Tokens that take no slash accept the text of one name alone. -/
theorem accepts_inner_iff {g : DirGlob} (inner : ∀ t ∈ g, t.Inner) {s : String}
    {rest : List String} : Accepts g (joined (s :: rest)) ↔ rest = [] ∧ Accepts g s.toList := by
  rcases rest with _ | ⟨t, rest⟩
  · rw [joined_singleton]
    exact ⟨fun h => ⟨rfl, h⟩, fun h => h.2⟩
  · rw [joined_cons (List.cons_ne_nil t rest)]
    constructor
    · intro accepted
      exact absurd (by simp) (slash_not_mem_of_accepts inner accepted)
    · rintro ⟨none, -⟩
      cases none

/-- In front of a slash they accept the first name of several. -/
theorem accepts_inner_slash_iff {g ts : DirGlob} (inner : ∀ t ∈ g, t.Inner) {s : String}
    (name : Path.IsName s) {rest : List String} :
    Accepts (g ++ .literal '/' :: ts) (joined (s :: rest)) ↔
      rest ≠ [] ∧ Accepts g s.toList ∧ Accepts ts (joined rest) := by
  rw [accepts_append_iff inner]
  constructor
  · rintro ⟨taken, left, whole, front, slash⟩
    obtain ⟨left, rfl, back⟩ := accepts_slash_cons_iff.1 slash
    rcases rest with _ | ⟨t, rest⟩
    · rw [joined_singleton] at whole
      exact absurd (by rw [whole]; simp) name.noSlash
    · rw [joined_cons (List.cons_ne_nil t rest)] at whole
      obtain ⟨rfl, rfl⟩ :=
        append_slash_inj name.noSlash (slash_not_mem_of_accepts inner front) whole
      exact ⟨List.cons_ne_nil t rest, front, back⟩
  · rintro ⟨some, front, back⟩
    exact ⟨s.toList, '/' :: joined rest, joined_cons some, front,
      accepts_slash_cons_iff.2 ⟨_, rfl, back⟩⟩

/-- A pattern accepts the text of names when its segments match them. -/
theorem accepts_glue_iff {gs : List DirGlob} (h : ∀ g ∈ gs, Segment g) (nonempty : gs ≠ [])
    {names : List String} (hn : Path.AreNames names) (some : names ≠ []) :
    Accepts (glue gs) (joined names) ↔ Matches gs names := by
  induction gs generalizing names with
  | nil => exact absurd rfl nonempty
  | cons g gs ih =>
    obtain ⟨first, later⟩ := List.forall_mem_cons.1 h
    obtain ⟨s, rest, rfl⟩ := List.exists_cons_of_ne_nil some
    obtain ⟨hs, hrest⟩ := List.forall_mem_cons.1 hn
    rcases gs with _ | ⟨g', gs⟩
    · rcases first with rfl | ⟨-, inner⟩
      · exact ⟨fun _ => matches_lastDirs some, fun _ => .allDirs .nil⟩
      · rw [glue, accepts_inner_iff inner, matches_inner_cons_iff inner]
        constructor
        · rintro ⟨rfl, accepted⟩
          exact ⟨s, [], rfl, accepted, .nil⟩
        · rintro ⟨_, _, same, accepted, none⟩
          obtain ⟨rfl, rfl⟩ := List.cons.inj same
          cases none
          exact ⟨rfl, accepted⟩
    have ih' := fun names => @ih later (List.cons_ne_nil g' gs) names
    have some_of_matches {names : List String} (matched : Matches (g' :: gs) names) :
        names ≠ [] := by
      rintro rfl
      exact List.cons_ne_nil _ _ (matches_nil_right matched)
    rcases first with rfl | ⟨-, inner⟩
    · rw [glue_dirs_cons, matches_dirs_cons_iff, accepts_dirs_cons_iff]
      constructor
      · rintro (rest | ⟨taken, left, whole, rest⟩ | rest)
        · exact ⟨[], _, rfl, (ih' _ hn some).1 rest⟩
        · obtain ⟨front, back, same, some', rfl⟩ := exists_of_joined_eq hn some whole
          rw [same] at hn
          exact ⟨front, back, same, (ih' back (Path.areNames_append.1 hn).2 some').1 rest⟩
        · exact matches_dirs_cons_iff.1
            (matches_of_accepts_nil later (List.cons_ne_nil g' gs) rest hn some)
      · rintro ⟨front, back, same, matched⟩
        rw [same] at hn ⊢
        have some' := some_of_matches matched
        have accepted := (ih' back (Path.areNames_append.1 hn).2 some').2 matched
        rcases front with _ | ⟨s, front⟩
        · exact .inl accepted
        · exact .inr (.inl ⟨_, _, joined_append (List.cons_ne_nil s front) some', accepted⟩)
    · rw [glue_inner_cons inner, accepts_inner_slash_iff inner hs, matches_inner_cons_iff inner]
      constructor
      · rintro ⟨some', front, back⟩
        exact ⟨s, rest, rfl, front, (ih' rest hrest some').1 back⟩
      · rintro ⟨_, _, same, front, matched⟩
        obtain ⟨rfl, rfl⟩ := List.cons.inj same
        have some' := some_of_matches matched
        exact ⟨some', front, (ih' rest hrest some').2 matched⟩

end DirGlob

end WorkspaceLint
