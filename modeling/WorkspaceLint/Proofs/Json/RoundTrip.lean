import WorkspaceLint.Proofs.Json.Layout
import WorkspaceLint.Proofs.Json.Legible

/-!
# Reading what was written

A legible document without floating-point numbers is given back when its written form is read, be it
compact or indented: `value_laidOut` reads any layout.  Two consequences carry the theory of rules:
a document can be read again after it was written (`parse_canonical`), and comparing compact texts
is comparing documents (`compact_inj`).
-/

namespace WorkspaceLint

/-! ## Numerals -/

namespace Decimal

theorem isDigit_digitChar {d : Nat} (h : d < 10) : isDigit (digitChar d) = true := by
  rw [isDigit, digitValue_digitChar h]
  rfl

theorem eq_zero_of_digitChar {d : Nat} (h : d < 10) (isZero : digitChar d = '0') : d = 0 := by
  revert d
  decide

theorem isDigit_of_mem_digitsOnto {fuel n : Nat} {acc : List Char}
    (h : ∀ c ∈ acc, isDigit c = true) : ∀ c ∈ digitsOnto fuel n acc, isDigit c = true := by
  induction fuel generalizing n acc with
  | zero => exact h
  | succ fuel ih =>
    unfold digitsOnto
    split
    · rename_i small
      exact List.forall_mem_cons.2 ⟨isDigit_digitChar small, h⟩
    · exact ih (List.forall_mem_cons.2 ⟨isDigit_digitChar (Nat.mod_lt n (by decide)), h⟩)

theorem isDigit_of_mem_digits {n : Nat} : ∀ c ∈ digits n, isDigit c = true :=
  isDigit_of_mem_digitsOnto (List.forall_mem_nil _)

/-- Only the numeral of zero starts with the digit zero. -/
theorem digitsOnto_head {fuel n : Nat} (h : n < fuel) (acc : List Char) :
    ∃ d ds, digitsOnto fuel n acc = digitChar d :: ds ∧ d < 10 ∧ (d = 0 → n = 0 ∧ ds = acc) := by
  induction fuel generalizing n acc with
  | zero => omega
  | succ fuel ih =>
    unfold digitsOnto
    split
    · rename_i small
      exact ⟨n, acc, rfl, small, fun zero => ⟨zero, rfl⟩⟩
    · obtain ⟨d, ds, eq, small, zero⟩ := ih (n := n / 10) (by omega) (digitChar (n % 10) :: acc)
      refine ⟨d, ds, eq, small, fun isZero => ?_⟩
      have := (zero isZero).1
      omega

theorem valueFrom_ge (acc : Nat) (cs : List Char) : acc ≤ valueFrom acc cs := by
  induction cs generalizing acc with
  | nil => exact Nat.le_refl acc
  | cons c cs ih =>
    have step : acc ≤ 10 * acc + (digitValue? c).getD 0 := by omega
    exact Nat.le_trans step (ih _)

end Decimal

namespace Json

namespace Reader

/-! ## Blanks and the ends of numbers -/

/-- Whether a text cannot go on with a number. -/
def Stops (cs : List Char) : Prop :=
  ∀ c, cs.head? = some c → Decimal.isDigit c = false ∧ c ≠ '.' ∧ c ≠ 'e' ∧ c ≠ 'E'

theorem stops_nil : Stops [] := nofun

theorem stops_of_blank {c : Char} (blank : isBlank c = true) (cs : List Char) :
    Stops (c :: cs) := by
  intro d hd
  obtain rfl := Option.some.inj hd
  simp only [isBlank, Bool.or_eq_true, decide_eq_true_eq] at blank
  rcases blank with ((rfl | rfl) | rfl) | rfl <;> decide

theorem skipBlanks_append {blanks : List Char} (h : ∀ c ∈ blanks, isBlank c = true)
    (cs : List Char) : skipBlanks (blanks ++ cs) = skipBlanks cs := by
  induction blanks with
  | nil => rfl
  | cons c blanks ih =>
    obtain ⟨blank, later⟩ := List.forall_mem_cons.1 h
    rw [List.cons_append, skipBlanks, if_pos blank, ih later]

theorem skipBlanks_cons {c : Char} (h : isBlank c = false) (cs : List Char) :
    skipBlanks (c :: cs) = c :: cs := by
  rw [skipBlanks, h]
  rfl

theorem stops_append {blanks : List Char} (h : ∀ c ∈ blanks, isBlank c = true) {cs : List Char}
    (stops : Stops cs) : Stops (blanks ++ cs) := by
  cases blanks with
  | nil => exact stops
  | cons c blanks => exact stops_of_blank (h c List.mem_cons_self) _

/-! ## Strings -/

theorem hex4?_hexDigit {n : Nat} (h : n < 32) :
    hex4? '0' '0' (hexDigit (n / 16)) (hexDigit (n % 16)) = some n := by
  revert n
  decide

/-- An escape of one letter stands for its character. -/
theorem stringChars_shortEscape {e c : Char} (short : shortEscape? e = some c) (cs : List Char) :
    stringChars ('\\' :: e :: cs) = consStep c (stringChars cs) := by
  have letter : e ≠ 'u' := by
    rintro rfl
    cases short
  rw [stringChars.eq_def]
  simp [letter, short]

theorem stringChars_escapeChar (c : Char) (cs : List Char) :
    stringChars (escapeChar c ++ cs) = consStep c (stringChars cs) := by
  unfold escapeChar
  split
  · rename_i same
    rw [same]
    exact stringChars_shortEscape rfl cs
  split
  · rename_i same
    rw [same]
    exact stringChars_shortEscape rfl cs
  split
  · rename_i same
    rw [same]
    exact stringChars_shortEscape rfl cs
  split
  · rename_i same
    rw [same]
    exact stringChars_shortEscape rfl cs
  split
  · rename_i same
    rw [same]
    exact stringChars_shortEscape rfl cs
  split
  · rename_i same
    rw [same]
    exact stringChars_shortEscape rfl cs
  split
  · rename_i same
    rw [same]
    exact stringChars_shortEscape rfl cs
  split
  · rename_i control
    have low : isLowSurrogate c.toNat = false := by
      simp only [isLowSurrogate, Bool.and_eq_false_iff, decide_eq_false_iff_not]
      omega
    have high : isHighSurrogate c.toNat = false := by
      simp only [isHighSurrogate, Bool.and_eq_false_iff, decide_eq_false_iff_not]
      omega
    simp only [List.cons_append, List.nil_append]
    rw [stringChars.eq_def]
    simp [hex4?_hexDigit control, low, high]
  · rename_i quote backslash _ _ _ _ _ control
    rw [List.singleton_append, stringChars.eq_def]
    simp [quote, backslash, control]

theorem stringChars_escape (cs rest : List Char) :
    stringChars (escape cs ++ '"' :: rest) = .ok (cs, rest) := by
  induction cs with
  | nil =>
    show stringChars ('"' :: rest) = _
    rw [stringChars.eq_def]
    rfl
  | cons c cs ih =>
    have first : escape (c :: cs) = escapeChar c ++ escape cs := rfl
    rw [first, List.append_assoc, stringChars_escapeChar, ih]
    rfl

theorem string_quoted (s : String) (rest : List Char) :
    string (escape s.toList ++ '"' :: rest) = .ok (s, rest) := by
  rw [string, stringChars_escape]
  simp

/-! ## Numbers -/

theorem splitDigits_append {ds rest : List Char} (digits : ∀ c ∈ ds, Decimal.isDigit c = true)
    (stops : Stops rest) : splitDigits (ds ++ rest) = (ds, rest) := by
  induction ds with
  | nil =>
    cases rest with
    | nil => rfl
    | cons c rest =>
      rw [List.nil_append, splitDigits, (stops c rfl).1]
      rfl
  | cons d ds ih =>
    obtain ⟨digit, later⟩ := List.forall_mem_cons.1 digits
    rw [List.cons_append, splitDigits, if_pos digit, ih later]

/-- All digits of a number that fits are taken. -/
theorem extend_eq {s : Nat} (ds : List Char) (h : Decimal.valueFrom s ds ≤ maxSignificand) :
    extend s ds = (Decimal.valueFrom s ds, ds.length, true) := by
  induction ds generalizing s with
  | nil => rfl
  | cons d ds ih =>
    rw [Decimal.valueFrom] at h ⊢
    have fits := Nat.le_trans (Decimal.valueFrom_ge _ ds) h
    rw [extend]
    simp only [Nat.mul_comm s 10]
    rw [if_neg (Nat.not_lt.2 fits), ih h]
    rfl

theorem number_digits (negative : Bool) {n : Nat} (fits : n ≤ maxSignificand) {rest : List Char}
    (stops : Stops rest) :
    number negative (Decimal.digits n ++ rest) = .ok (integerNumber negative n, rest) := by
  obtain ⟨d, ds, eq, small, zero⟩ := Decimal.digitsOnto_head (Nat.lt_succ_self n) []
  have eq : Decimal.digits n = Decimal.digitChar d :: ds := eq
  have value : Decimal.valueFrom 0 (Decimal.digits n) = n := Decimal.value_digits n
  have taken := extend_eq (s := 0) (Decimal.digits n) (by rw [value]; exact fits)
  have split := splitDigits_append (Decimal.isDigit_of_mem_digits (n := n)) stops
  have leading : ¬ (Decimal.digitChar d = '0' ∧ ds ≠ []) := by
    rintro ⟨isZero, more⟩
    exact more (zero (Decimal.eq_zero_of_digitChar small isZero)).2
  unfold number
  rw [split, eq]
  simp only
  rw [if_neg leading, ← eq, taken, value]
  simp only
  cases rest with
  | nil => rfl
  | cons c rest =>
    obtain ⟨-, point, small, capital⟩ := stops c rfl
    split
    · rename_i same
      exact absurd (List.cons.inj same).1 point
    · rename_i c' rest' _ same
      obtain ⟨rfl, rfl⟩ := List.cons.inj same
      rw [if_neg (not_or.2 ⟨small, capital⟩)]
      rfl
    · rename_i same
      cases same

/-- The numeral of a legible integer is read back. -/
theorem number_integerChars {n : Int} (legible : (JsonNumber.integer n).Legible)
    {rest : List Char} (stops : Stops rest) :
    signedNumber (Decimal.integerChars n ++ rest) = .ok (.integer n, rest) := by
  obtain ⟨low, high⟩ := legible
  cases n with
  | ofNat n =>
    obtain ⟨d, ds, eq, small, -⟩ := Decimal.digitsOnto_head (Nat.lt_succ_self n) []
    have eq : Decimal.digits n = Decimal.digitChar d :: ds := eq
    have unsigned : Decimal.digitChar d ≠ '-' := by
      have digit := Decimal.isDigit_digitChar small
      rintro same
      rw [same] at digit
      cases digit
    have read := number_digits false (Int.ofNat_le.1 high) stops
    rw [Decimal.integerChars, signedNumber.eq_def, eq, List.cons_append]
    rw [eq, List.cons_append] at read
    split
    · rename_i same
      exact absurd (List.cons.inj same).1 unsigned
    · rw [read]
      rfl
  | negSucc n =>
    have fits : n + 1 ≤ maxSignificand := by
      unfold maxSignificand
      omega
    rw [Decimal.integerChars, List.cons_append, signedNumber, number_digits true fits stops,
      integerNumber, if_pos rfl, if_neg (by omega)]
    rfl

/-! ## Reading a layout -/

theorem value_append_blanks (fuel depth : Nat) {blanks : List Char}
    (h : ∀ c ∈ blanks, isBlank c = true) (text : List Char) :
    value fuel depth (blanks ++ text) = value fuel depth text := by
  cases fuel with
  | zero => rw [value, value]
  | succ fuel => rw [value, value, skipBlanks_append h]

/-- A written document starts with a character that is neither a blank nor a closing bracket. -/
theorem exists_head_laidOut (l : Layout) (level : Nat) (v : Json) (free : v.floatFree = true) :
    ∃ c cs, laidOut l level v = c :: cs ∧ isBlank c = false ∧ c ≠ ']' := by
  cases v with
  | null => exact ⟨'n', _, by rw [laidOut]; rfl, rfl, by decide⟩
  | bool b =>
    cases b with
    | true => exact ⟨'t', _, by rw [laidOut]; rfl, rfl, by decide⟩
    | false => exact ⟨'f', _, by rw [laidOut]; rfl, rfl, by decide⟩
  | string s => exact ⟨'"', _, by rw [laidOut]; rfl, rfl, by decide⟩
  | array items =>
    cases items with
    | nil => exact ⟨'[', _, by rw [laidOut], rfl, by decide⟩
    | cons v vs => exact ⟨'[', _, by rw [laidOut], rfl, by decide⟩
  | object ms =>
    cases ms with
    | nil => exact ⟨'{', _, by rw [laidOut], rfl, by decide⟩
    | cons m ms => exact ⟨'{', _, by rw [laidOut], rfl, by decide⟩
  | number n =>
    cases n with
    | float x => cases free
    | integer n =>
      rw [laidOut, numberChars]
      cases n with
      | negSucc n => exact ⟨'-', _, rfl, rfl, by decide⟩
      | ofNat n =>
        obtain ⟨d, ds, eq, small, -⟩ := Decimal.digitsOnto_head (Nat.lt_succ_self n) []
        refine ⟨Decimal.digitChar d, ds, eq, ?_⟩
        clear eq
        revert d
        decide

theorem word_append {α : Type} (result : α) (es rest : List Char) :
    word result es (es ++ rest) = .ok (result, rest) := by
  induction es with
  | nil => rfl
  | cons e es ih =>
    rw [List.cons_append, word, if_pos rfl, ih]

/-- What closes a list of items or members: blanks and a bracket. -/
structure Closes (bracket : Char) (close : List Char) (rest : List Char) : Prop where
  skip : skipBlanks close = bracket :: rest
  stops : Stops close

theorem closes_gap (l : Layout) (level : Nat) (bracket : Char) (notBlank : isBlank bracket = false)
    (stops : Stops [bracket]) (rest : List Char) :
    Closes bracket (l.gap level ++ bracket :: rest) rest where
  skip := by rw [skipBlanks_append (l.isBlank_of_mem_gap level), skipBlanks_cons notBlank]
  stops := stops_append (l.isBlank_of_mem_gap level) fun c hc => stops c hc

theorem stops_moreItems (l : Layout) (level : Nat) (vs : List Json) {close : List Char}
    (stops : Stops close) : Stops (moreItems l level vs ++ close) := by
  cases vs with
  | nil => rwa [moreItems, List.nil_append]
  | cons v vs =>
    rw [moreItems, List.cons_append]
    intro c hc
    obtain rfl := Option.some.inj hc
    decide

theorem stops_moreMembers (l : Layout) (level : Nat) (ms : List (String × Json))
    {close : List Char} (stops : Stops close) : Stops (moreMembers l level ms ++ close) := by
  cases ms with
  | nil => rwa [moreMembers, List.nil_append]
  | cons m ms =>
    rw [moreMembers, List.cons_append]
    intro c hc
    obtain rfl := Option.some.inj hc
    decide

/-- A number with a sign is read where a document is expected. -/
theorem value_number {fuel depth : Nat} {c : Char} {cs rest : List Char} {n : JsonNumber}
    (starts : c = '-' ∨ Decimal.isDigit c = true) (h : signedNumber (c :: cs) = .ok (n, rest)) :
    value (fuel + 1) depth (c :: cs) = .ok (.number n, rest) := by
  rcases starts with rfl | digit
  · rw [signedNumber] at h
    rw [value, skipBlanks_cons rfl]
    simp [h]
  · have not {d : Char} (other : Decimal.isDigit d = false) : c ≠ d := by
      rintro rfl
      rw [digit] at other
      cases other
    have blank : isBlank c = false := by
      simp [isBlank, not (d := ' ') rfl, not (d := '\n') rfl, not (d := '\t') rfl,
        not (d := '\r') rfl]
    have unsigned : signedNumber (c :: cs) = number false (c :: cs) := by
      rw [signedNumber.eq_def]
      split
      · rename_i same
        exact absurd (List.cons.inj same).1 (not rfl)
      · rfl
    rw [unsigned] at h
    rw [value, skipBlanks_cons blank]
    simp [not (d := 'n') rfl, not (d := 't') rfl, not (d := 'f') rfl, not (d := '-') rfl, digit, h]

theorem value_integer {fuel depth : Nat} {n : Int} (legible : (JsonNumber.integer n).Legible)
    {rest : List Char} (stops : Stops rest) :
    value (fuel + 1) depth (Decimal.integerChars n ++ rest) =
      .ok (.number (.integer n), rest) := by
  have read := number_integerChars legible stops
  cases n with
  | negSucc n => exact value_number (.inl rfl) read
  | ofNat n =>
    obtain ⟨d, ds, eq, small, -⟩ := Decimal.digitsOnto_head (Nat.lt_succ_self n) []
    have eq : Decimal.integerChars (.ofNat n) = Decimal.digitChar d :: ds := eq
    rw [eq] at read ⊢
    exact value_number (.inr (Decimal.isDigit_digitChar small)) read

theorem value_quote {fuel depth : Nat} {cs rest : List Char} {s : String}
    (h : string cs = .ok (s, rest)) :
    value (fuel + 1) depth ('"' :: cs) = .ok (.string s, rest) := by
  have other : Decimal.isDigit '"' = false := rfl
  rw [value, skipBlanks_cons rfl]
  simp [other, h]

theorem value_bracket {fuel depth : Nat} {cs rest : List Char} {vs : List Json}
    (deep : 1 < depth) (h : items fuel (depth - 1) true cs = .ok (vs, rest)) :
    value (fuel + 1) depth ('[' :: cs) = .ok (.array vs, rest) := by
  have other : Decimal.isDigit '[' = false := rfl
  rw [value, skipBlanks_cons rfl]
  simp [other, Nat.not_le.2 deep, h]

theorem value_brace {fuel depth : Nat} {cs rest : List Char} {ms : List (String × Json)}
    (deep : 1 < depth) (h : members fuel (depth - 1) true cs = .ok (ms, rest)) :
    value (fuel + 1) depth ('{' :: cs) = .ok (.object (Members.ofList ms), rest) := by
  have other : Decimal.isDigit '{' = false := rfl
  rw [value, skipBlanks_cons rfl]
  simp [other, Nat.not_le.2 deep, h]

theorem items_first {fuel depth : Nat} {text rest rest' : List Char} {c : Char} {cs : List Char}
    {v : Json} {vs : List Json} (head : skipBlanks text = c :: cs) (notEnd : c ≠ ']')
    (first : value fuel depth (c :: cs) = .ok (v, rest))
    (more : items fuel depth false rest = .ok (vs, rest')) :
    items (fuel + 1) depth true text = .ok (v :: vs, rest') := by
  rw [items, head]
  simp [notEnd, first, more]

theorem items_more {fuel depth : Nat} {text rest rest' : List Char} {c : Char} {cs : List Char}
    {v : Json} {vs : List Json} (head : skipBlanks text = c :: cs) (notEnd : c ≠ ']')
    (first : value fuel depth (c :: cs) = .ok (v, rest))
    (more : items fuel depth false rest = .ok (vs, rest')) :
    items (fuel + 1) depth false (',' :: text) = .ok (v :: vs, rest') := by
  rw [items, skipBlanks_cons rfl]
  simp [head, notEnd, first, more]

theorem members_first {fuel depth : Nat} (text : List Char) {rest' cs : List Char}
    {ms : List (String × Json)} (head : skipBlanks text = '"' :: cs)
    (first : member fuel depth cs = .ok (ms, rest')) :
    members (fuel + 1) depth true text = .ok (ms, rest') := by
  rw [members, head]
  simp [first]

theorem members_more {fuel depth : Nat} (text : List Char) {rest' cs : List Char}
    {ms : List (String × Json)} (head : skipBlanks text = '"' :: cs)
    (first : member fuel depth cs = .ok (ms, rest')) :
    members (fuel + 1) depth false (',' :: text) = .ok (ms, rest') := by
  rw [members, skipBlanks_cons rfl]
  simp [head, first]

theorem member_cons {fuel depth : Nat} {k : String} {text rest rest' : List Char} {v : Json}
    {ms : List (String × Json)} (first : value fuel depth text = .ok (v, rest))
    (more : members fuel depth false rest = .ok (ms, rest')) :
    member (fuel + 1) depth (escape k.toList ++ '"' :: ':' :: text) =
      .ok ((k, v) :: ms, rest') := by
  rw [member, string_quoted]
  simp only
  rw [skipBlanks_cons rfl]
  simp [first, more]

mutual

/-- A legible document without floating-point numbers is read from any layout. -/
theorem value_laidOut (l : Layout) : (v : Json) → (fuel level : Nat) → {depth : Nat} →
    {rest : List Char} → v.Legible depth → v.floatFree = true →
    (laidOut l level v).length ≤ fuel → Stops rest →
    value (fuel + 1) depth (laidOut l level v ++ rest) = .ok (v, rest)
  | .null, fuel, level, depth, rest, _, _, _, _ => by
    rw [laidOut, value]
    exact word_append Json.null ['u', 'l', 'l'] rest
  | .bool true, fuel, level, depth, rest, _, _, _, _ => by
    rw [laidOut, value]
    exact word_append (Json.bool true) ['r', 'u', 'e'] rest
  | .bool false, fuel, level, depth, rest, _, _, _, _ => by
    rw [laidOut, value]
    exact word_append (Json.bool false) ['a', 'l', 's', 'e'] rest
  | .number (.float x), fuel, level, depth, rest, _, free, _, _ => by cases free
  | .number (.integer n), fuel, level, depth, rest, legible, _, _, stops => by
    rw [laidOut]
    exact value_integer legible stops
  | .string s, fuel, level, depth, rest, _, _, _, _ => by
    rw [laidOut, quoted, List.cons_append, List.append_assoc]
    exact value_quote (string_quoted s rest)
  | .array [], fuel, level, depth, rest, legible, _, enough, _ => by
    rw [laidOut] at enough ⊢
    obtain ⟨fuel, rfl⟩ := Nat.exists_eq_add_of_le' (Nat.le_trans (by decide : 1 ≤ 2) enough)
    refine value_bracket legible.1 ?_
    show items (fuel + 1) (depth - 1) true (']' :: rest) = _
    rw [items, skipBlanks_cons rfl]
    rfl
  | .array (v :: vs), fuel, level, depth, rest, legible, free, enough, stops => by
    obtain ⟨deep, legibleFirst, legibleMore⟩ := legible
    obtain ⟨freeFirst, freeMore⟩ := Bool.and_eq_true_iff.1 free
    rw [laidOut] at enough ⊢
    simp only [List.length_cons, List.length_append] at enough
    obtain ⟨fuel, rfl⟩ : ∃ f, fuel = f + 2 := ⟨fuel - 2, by omega⟩
    have close := closes_gap l level ']' rfl (by intro c hc; cases hc; decide) rest
    have more := items_moreItems l vs fuel (level + 1) legibleMore freeMore
      (by omega) close
    have first := value_laidOut l v fuel (level + 1) legibleFirst freeFirst
      (by omega) (stops_moreItems l (level + 1) vs close.stops)
    obtain ⟨c, cs, head, blank, notEnd⟩ := exists_head_laidOut l (level + 1) v freeFirst
    have all : items (fuel + 2) (depth - 1) true (l.gap (level + 1) ++ (laidOut l (level + 1) v ++
        (moreItems l (level + 1) vs ++ (l.gap level ++ ']' :: rest)))) = .ok (v :: vs, rest) := by
      rw [head, List.cons_append] at first ⊢
      refine items_first ?_ notEnd first more
      rw [skipBlanks_append (l.isBlank_of_mem_gap _), skipBlanks_cons blank]
    simpa using value_bracket deep all
  | .object [], fuel, level, depth, rest, legible, _, enough, _ => by
    rw [laidOut] at enough ⊢
    obtain ⟨fuel, rfl⟩ := Nat.exists_eq_add_of_le' (Nat.le_trans (by decide : 1 ≤ 2) enough)
    show _ = Except.ok (object (Members.ofList []), rest)
    refine value_brace legible.1 ?_
    show members (fuel + 1) (depth - 1) true ('}' :: rest) = _
    rw [members, skipBlanks_cons rfl]
    rfl
  | .object ((k, v) :: ms), fuel, level, depth, rest, legible, free, enough, stops => by
    obtain ⟨deep, nodup, legibleFirst, legibleMore⟩ := legible
    obtain ⟨freeFirst, freeMore⟩ := Bool.and_eq_true_iff.1 free
    rw [laidOut] at enough ⊢
    simp only [List.length_cons, List.length_append] at enough
    obtain ⟨fuel, rfl⟩ : ∃ f, fuel = f + 3 := ⟨fuel - 3, by omega⟩
    have close := closes_gap l level '}' rfl (by intro c hc; cases hc; decide) rest
    have more := members_moreMembers l ms fuel (level + 1) legibleMore freeMore
      (by omega) close
    have first := value_laidOut l v fuel (level + 1) legibleFirst freeFirst
      (by omega) (stops_moreMembers l (level + 1) ms close.stops)
    rw [← value_append_blanks _ _ l.isBlank_of_mem_afterColon] at first
    have all := members_first (l.gap (level + 1) ++ quoted k ++ ':' :: (l.afterColon ++
      (laidOut l (level + 1) v ++ (moreMembers l (level + 1) ms ++ (l.gap level ++ '}' :: rest)))))
      (by
        rw [List.append_assoc, skipBlanks_append (l.isBlank_of_mem_gap _), quoted,
          List.cons_append, skipBlanks_cons rfl])
      (by simpa using member_cons (k := k) first more)
    simpa [Members.ofList_eq_self nodup] using value_brace deep all

/-- The items after the first one are read up to the end of their list. -/
theorem items_moreItems (l : Layout) : (vs : List Json) → (fuel level : Nat) → {depth : Nat} →
    {close rest : List Char} → LegibleItems depth vs → itemsFloatFree vs = true →
    (moreItems l level vs).length ≤ fuel → Closes ']' close rest →
    items (fuel + 1) depth false (moreItems l level vs ++ close) = .ok (vs, rest)
  | [], fuel, level, depth, close, rest, _, _, _, closes => by
    rw [moreItems, List.nil_append, items, closes.skip]
    rfl
  | v :: vs, fuel, level, depth, close, rest, legible, free, enough, closes => by
    obtain ⟨legibleFirst, legibleMore⟩ := legible
    obtain ⟨freeFirst, freeMore⟩ := Bool.and_eq_true_iff.1 free
    rw [moreItems] at enough ⊢
    simp only [List.length_cons, List.length_append] at enough
    obtain ⟨fuel, rfl⟩ : ∃ f, fuel = f + 1 := ⟨fuel - 1, by omega⟩
    have more := items_moreItems l vs fuel level legibleMore freeMore
      (by omega) closes
    have first := value_laidOut l v fuel level legibleFirst freeFirst
      (by omega) (stops_moreItems l level vs closes.stops)
    obtain ⟨c, cs, head, blank, notEnd⟩ := exists_head_laidOut l level v freeFirst
    rw [head, List.cons_append] at first
    rw [List.cons_append, List.append_assoc, List.append_assoc, head, List.cons_append]
    refine items_more ?_ notEnd first more
    rw [skipBlanks_append (l.isBlank_of_mem_gap _), skipBlanks_cons blank]

/-- The members after the first one are read up to the end of their object. -/
theorem members_moreMembers (l : Layout) : (ms : List (String × Json)) →
    (fuel level : Nat) → {depth : Nat} → {close rest : List Char} → LegibleMembers depth ms →
    membersFloatFree ms = true → (moreMembers l level ms).length ≤ fuel →
    Closes '}' close rest →
    members (fuel + 1) depth false (moreMembers l level ms ++ close) = .ok (ms, rest)
  | [], fuel, level, depth, close, rest, _, _, _, closes => by
    rw [moreMembers, List.nil_append, members, closes.skip]
    rfl
  | (k, v) :: ms, fuel, level, depth, close, rest, legible, free, enough, closes => by
    obtain ⟨legibleFirst, legibleMore⟩ := legible
    obtain ⟨freeFirst, freeMore⟩ := Bool.and_eq_true_iff.1 free
    rw [moreMembers] at enough ⊢
    simp only [List.length_cons, List.length_append] at enough
    obtain ⟨fuel, rfl⟩ : ∃ f, fuel = f + 2 := ⟨fuel - 2, by omega⟩
    have more := members_moreMembers l ms fuel level legibleMore freeMore
      (by omega) closes
    have first := value_laidOut l v fuel level legibleFirst freeFirst
      (by omega) (stops_moreMembers l level ms closes.stops)
    rw [← value_append_blanks _ _ l.isBlank_of_mem_afterColon] at first
    have all := members_more (l.gap level ++ quoted k ++ ':' :: (l.afterColon ++
      (laidOut l level v ++ (moreMembers l level ms ++ close))))
      (by
        rw [List.append_assoc, skipBlanks_append (l.isBlank_of_mem_gap _), quoted,
          List.cons_append, skipBlanks_cons rfl])
      (by simpa using member_cons (k := k) first more)
    simpa using all

end

theorem document_laidOut (l : Layout) {v : Json} (legible : v.Legible nestingLimit)
    (free : v.floatFree = true) {blanks : List Char} (h : ∀ c ∈ blanks, isBlank c = true) :
    document (laidOut l 0 v ++ blanks) = .ok v := by
  have ends : skipBlanks blanks = [] := by
    have all := skipBlanks_append h []
    rwa [List.append_nil] at all
  have stops : Stops blanks := by
    have all := stops_append h stops_nil
    rwa [List.append_nil] at all
  have enough : (laidOut l 0 v).length ≤ 4 * (laidOut l 0 v ++ blanks).length + 3 := by
    rw [List.length_append]
    omega
  have read := value_laidOut l v _ 0 legible free enough stops
  rw [document, steps, read]
  simp only [finish, ends]

end Reader

/-! ## Texts -/

/-- A document is read back from its canonical text. -/
theorem parse_canonical {v : Json} (legible : v.Legible Reader.nestingLimit)
    (free : v.floatFree = true) : parse v.canonical = .ok v := by
  have blank : ∀ c ∈ ['\n'], Reader.isBlank c = true := List.forall_mem_singleton.2 rfl
  have read := Reader.document_laidOut .indented legible free blank
  rw [parse, canonical, String.toList_ofList, prettyChars_eq_laidOut, read]
  rfl

/-- A document is read back from its compact text. -/
theorem parse_compact {v : Json} (legible : v.Legible Reader.nestingLimit)
    (free : v.floatFree = true) : parse v.compact = .ok v := by
  have blank : ∀ c ∈ ([] : List Char), Reader.isBlank c = true := List.forall_mem_nil _
  have read := Reader.document_laidOut .compact legible free blank
  rw [List.append_nil] at read
  rw [parse, compact, String.toList_ofList, compactChars_eq_laidOut 0, read]
  rfl

/-- Documents with the same compact text are the same. -/
theorem compact_inj {v w : Json} (legible : v.Legible Reader.nestingLimit)
    (free : v.floatFree = true) (legible' : w.Legible Reader.nestingLimit)
    (free' : w.floatFree = true) : v.compact = w.compact ↔ v = w := by
  refine ⟨fun same => ?_, congrArg compact⟩
  have read := parse_compact legible free
  rw [same, parse_compact legible' free'] at read
  exact (Except.ok.inj read).symm

end Json

end WorkspaceLint
