import Mathlib.Data.List.Forall2
import WorkspaceLint.Json.Decoder
import WorkspaceLint.Proofs.Json.RoundTrip

/-!
# Typed reading of what was written

A decoder *reads* a value from a document when it gives the value for the written form of the
document in any layout (`Reads`).  A record is read from the members of those of its fields that
were written, in their order, when the others need not be there (`Fills`).
-/

namespace WorkspaceLint

namespace Json

namespace Decoder

open Reader (isBlank skipBlanks skipBlanks_append skipBlanks_cons Stops Closes)

/-- Reading the written form of a document gives a value, whatever the layout is. -/
structure Reads {α : Type} (read : List Char → Except Failure (α × List Char)) (v : Json) (a : α) :
    Prop where
  free : v.floatFree = true
  text : ∀ (l : Layout) (level : Nat) (blanks rest : List Char),
    (∀ c ∈ blanks, isBlank c = true) → Stops rest →
      read (blanks ++ (laidOut l level v ++ rest)) = .ok (a, rest)

/-! ## Scalars -/

section

variable {α β : Type} {d : Decoder α} {depth : Nat} {v : Json} {a : α}

theorem laidOut_string_append (l : Layout) (level : Nat) (s : String) (rest : List Char) :
    laidOut l level (.string s) ++ rest = '"' :: (escape s.toList ++ '"' :: rest) := by
  rw [laidOut, quoted, List.cons_append, List.append_assoc, List.singleton_append]

theorem skipBlanks_string {blanks : List Char} (blank : ∀ c ∈ blanks, isBlank c = true)
    (l : Layout) (level : Nat) (s : String) (rest : List Char) :
    skipBlanks (blanks ++ (laidOut l level (.string s) ++ rest)) =
      '"' :: (escape s.toList ++ '"' :: rest) := by
  rw [skipBlanks_append blank, laidOut_string_append, skipBlanks_cons rfl]

theorem reads_string (expected : String) (depth : Nat) (s : String) :
    Reads ((string expected).read depth) (.string s) s where
  free := rfl
  text l level blanks rest blank _ := by
    simp only [string, skipBlanks_string blank]
    rw [Reader.string_quoted]
    rfl

theorem reads_bool (depth : Nat) (b : Bool) : Reads (bool.read depth) (.bool b) b where
  free := rfl
  text l level blanks rest blank _ := by
    have start : skipBlanks (blanks ++ (laidOut l level (.bool b) ++ rest)) =
        boolChars b ++ rest := by
      rw [skipBlanks_append blank, laidOut]
      cases b <;> exact skipBlanks_cons rfl _
    simp only [bool, start]
    cases b
    · exact congrArg Step.typed (Reader.word_append false ['a', 'l', 's', 'e'] rest)
    · exact congrArg Step.typed (Reader.word_append true ['r', 'u', 'e'] rest)

theorem isBlank_digitChar {k : Nat} (small : k < 10) : isBlank (Decimal.digitChar k) = false := by
  revert k
  decide

theorem reads_natural (depth : Nat) {n : Nat} (fits : n ≤ Reader.maxSignificand) :
    Reads (natural.read depth) (.ofNat n) n where
  free := rfl
  text l level blanks rest blank stops := by
    obtain ⟨k, ds, digits, small, -⟩ := Decimal.digitsOnto_head (Nat.lt_succ_self n) []
    have digits : Decimal.digits n = Decimal.digitChar k :: ds := digits
    have digit := Decimal.isDigit_digitChar small
    have legible : (JsonNumber.integer n).Legible := ⟨by omega, by exact_mod_cast fits⟩
    have read := Reader.number_integerChars legible stops
    have form : laidOut l level (.ofNat n) = Decimal.digitChar k :: ds := by
      rw [ofNat, laidOut]
      exact digits
    have notBlank := isBlank_digitChar small
    rw [show Decimal.integerChars (n : Int) = Decimal.digitChar k :: ds from digits,
      List.cons_append] at read
    simp only [natural, form, List.cons_append, skipBlanks_append blank, skipBlanks_cons notBlank,
      if_pos (Or.inr digit), read]
    rfl

/-- A value that is made of another one is read where that one is. -/
theorem Reads.refine {f : α → Except Mismatch β} {b : β} (h : Reads (d.read depth) v a)
    (made : f a = .ok b) : Reads ((d.refine f).read depth) v b where
  free := h.free
  text l level blanks rest blank stops := by
    show (d.read depth _ >>= _) = _
    rw [h.text l level blanks rest blank stops]
    simp only [bind, Except.bind, made]

theorem Reads.map (h : Reads (d.read depth) v a) (f : α → β) :
    Reads ((d.map f).read depth) v (f a) := h.refine rfl

theorem reads_choice {table : List (String × α)} {name : String} (depth : Nat)
    (known : table.lookup name = some a) :
    Reads ((choice table).read depth) (.string name) a where
  free := rfl
  text l level blanks rest blank stops := by
    have chosen : choose table name = .ok a := by rw [choose, known]
    have read := ((reads_string "variant identifier" depth name).refine chosen).text l level [] rest
      (List.forall_mem_nil _) stops
    rw [List.nil_append, laidOut_string_append] at read
    simp only [choice, skipBlanks_string blank, if_true]
    exact read

/-- A string that may be missing is read when it is there. -/
theorem Reads.optional {s : String} (h : Reads (d.read depth) (.string s) a) :
    Reads (d.optional.read depth) (.string s) (some a) where
  free := rfl
  text l level blanks rest blank stops := by
    have read := h.text l level [] rest (List.forall_mem_nil _) stops
    rw [List.nil_append, laidOut_string_append] at read
    simp only [Decoder.optional, skipBlanks_string blank]
    show Except.map _ (d.read depth _) = _
    rw [read]
    rfl

end

/-! ## Lists -/

theorem ne_nil_of_closes {bracket : Char} {close rest : List Char}
    (closes : Closes bracket close rest) : close ≠ [] := by
  rintro rfl
  cases closes.skip

/-- What stands in a written list from an item on; `first` says that it is the first one. -/
def itemsFrom (l : Layout) (level : Nat) (first : Bool) : List Json → List Char
  | [] => []
  | v :: vs =>
    (if first then [] else [',']) ++ (l.gap level ++ (laidOut l level v ++ moreItems l level vs))

section

variable {α : Type} {l : Layout} {level fuel depth : Nat} {first : Bool} {v : Json} {vs : List Json}
  {close rest : List Char}

theorem itemsFrom_false (l : Layout) (level : Nat) (vs : List Json) :
    itemsFrom l level false vs = moreItems l level vs := by
  cases vs with
  | nil => rw [itemsFrom, moreItems]
  | cons v vs => simp [itemsFrom, moreItems]

/-- There are at most as many items as characters, and one for the bracket that closes them. -/
theorem length_le_itemsFrom (l : Layout) (level : Nat) (first : Bool) (vs : List Json) :
    vs.length ≤ (itemsFrom l level first vs).length + 1 := by
  have more (vs : List Json) : vs.length ≤ (moreItems l level vs).length := by
    induction vs with
    | nil => exact Nat.zero_le _
    | cons v vs ih =>
      rw [moreItems]
      simp only [List.length_cons, List.length_append]
      omega
  cases vs with
  | nil => exact Nat.zero_le _
  | cons v vs =>
    have later := more vs
    rw [itemsFrom]
    simp only [List.length_cons, List.length_append]
    omega

theorem exists_laidOut_array (l : Layout) (level : Nat) (vs : List Json) (rest : List Char) :
    ∃ close, laidOut l level (.array vs) ++ rest =
        '[' :: (itemsFrom l (level + 1) true vs ++ close) ∧ Closes ']' close rest := by
  cases vs with
  | nil =>
    refine ⟨']' :: rest, by rw [laidOut, itemsFrom]; rfl, skipBlanks_cons rfl rest, ?_⟩
    intro c hc
    obtain rfl := Option.some.inj hc
    decide
  | cons v vs =>
    refine ⟨_, ?_, Reader.closes_gap l level ']' rfl (by intro c hc; cases hc; decide) rest⟩
    rw [laidOut, itemsFrom]
    simp

theorem nextItem_itemsFrom (free : v.floatFree = true) (vs : List Json) (close : List Char) :
    nextItem first (itemsFrom l level first (v :: vs) ++ close) =
      .ok (true, laidOut l level v ++ (moreItems l level vs ++ close)) := by
  obtain ⟨c, cs, head, blank, notEnd⟩ := Reader.exists_head_laidOut l level v free
  have start : skipBlanks (l.gap level ++ (laidOut l level v ++ (moreItems l level vs ++ close))) =
      c :: (cs ++ (moreItems l level vs ++ close)) := by
    rw [skipBlanks_append (l.isBlank_of_mem_gap level), head, List.cons_append,
      skipBlanks_cons blank]
  rw [itemsFrom, List.append_assoc, List.append_assoc, List.append_assoc, nextItem]
  cases first with
  | true =>
    rw [if_pos rfl, List.nil_append, start]
    simp only [if_neg notEnd, if_true]
    rw [head, List.cons_append]
  | false =>
    rw [if_neg Bool.false_ne_true, List.singleton_append, skipBlanks_cons rfl]
    simp only [start, if_neg notEnd, Bool.false_eq_true, if_false, if_true]
    rw [head, List.cons_append]
    rfl

theorem nextItem_close (closes : Closes ']' close rest) :
    nextItem first close = .ok (false, ']' :: rest) := by
  simp only [nextItem, closes.skip, if_true]

theorem readItems_itemsFrom {item : List Char → Except Failure (α × List Char)} {as : List α}
    (each : List.Forall₂ (Reads item) vs as) (enough : vs.length < fuel)
    (closes : Closes ']' close rest) :
    readItems item fuel first (itemsFrom l level first vs ++ close) = .ok (as, ']' :: rest) := by
  induction each generalizing fuel first with
  | nil =>
    obtain ⟨fuel, rfl⟩ := Nat.exists_eq_succ_of_ne_zero (Nat.ne_of_gt enough)
    rw [itemsFrom, List.nil_append, readItems, nextItem_close closes]
    rfl
  | @cons v a vs as head _ ih =>
    obtain ⟨fuel, rfl⟩ := Nat.exists_eq_succ_of_ne_zero (Nat.ne_of_gt (Nat.zero_lt_of_lt enough))
    have read := head.text l level [] _ (List.forall_mem_nil _)
      (Reader.stops_moreItems l level vs closes.stops)
    have more : readItems item fuel false (itemsFrom l level false vs ++ close) =
        .ok (as, ']' :: rest) := ih (Nat.lt_of_succ_lt_succ enough)
    rw [itemsFrom_false] at more
    rw [List.nil_append] at read
    rw [readItems, nextItem_itemsFrom head.free]
    show (item _ >>= _) = _
    rw [read]
    show (readItems item fuel false _ >>= _) = _
    rw [more]
    rfl

/-- The end of a bracket behind its contents. -/
theorem close_ok (b : Bracket) (notBlank : isBlank b.close = false) (a : α) (rest : List Char) :
    Decoder.close b (.ok (a, b.close :: rest)) = .ok (a, rest) := by
  simp only [Decoder.close, closing, skipBlanks_cons notBlank, if_true]

/-- A list is read when each of its items is. -/
theorem Reads.list {d : Decoder α} {as : List α} (deep : 1 < depth)
    (each : List.Forall₂ (Reads (d.read (depth - 1))) vs as) :
    Reads (d.list.read depth) (.array vs) as where
  free := by
    rw [floatFree]
    induction each with
    | nil => rfl
    | cons head _ ih => rw [itemsFloatFree, head.free, ih, Bool.true_and]
  text l level blanks rest blank _ := by
    obtain ⟨close, form, closes⟩ := exists_laidOut_array l level vs rest
    have enough : vs.length < (itemsFrom l (level + 1) true vs ++ close).length + 1 := by
      have items := length_le_itemsFrom l (level + 1) true vs
      have nonempty := List.length_pos_iff.2 (ne_nil_of_closes closes)
      rw [List.length_append]
      omega
    have read : readItems (d.read (depth - 1)) _ true (itemsFrom l (level + 1) true vs ++ close) =
        .ok (as, ']' :: rest) := readItems_itemsFrom each enough closes
    simp only [Decoder.list, form, skipBlanks_append blank, skipBlanks_cons (c := '[') rfl,
      if_neg (Nat.not_le.2 deep), read]
    exact close_ok .list rfl as rest

end

/-! ## Records -/

/-- What stands in a written object from a member on; `first` says that it is the first one. -/
def membersFrom (l : Layout) (level : Nat) (first : Bool) : Members → List Char
  | [] => []
  | (k, v) :: ms =>
    (if first then [] else [',']) ++ (l.gap level ++ (quoted k ++ ':' :: (l.afterColon ++
      (laidOut l level v ++ moreMembers l level ms))))

/-- A record is read from members of its fields in their order, those that were not written being
optional. -/
inductive Fills {ρ : Type} (depth : Nat) : List (Field ρ) → ρ → Members → ρ → Prop where
  | nil {a : ρ} : Fills depth [] a [] a
  | skip {f : Field ρ} {fs : List (Field ρ)} {a b : ρ} {ms : Members} (free : f.required = false)
      (later : Fills depth fs a ms b) : Fills depth (f :: fs) a ms b
  | member {f : Field ρ} {fs : List (Field ρ)} {a b : ρ} {v : Json} {set : ρ → ρ} {ms : Members}
      (reads : Reads (f.read depth) v set) (later : Fills depth fs (set a) ms b) :
      Fills depth (f :: fs) a ((f.key, v) :: ms) b

section

variable {ρ : Type} {r : Record ρ} {l : Layout} {level fuel depth : Nat} {first : Bool}
  {v : Json} {ms : Members} {close rest : List Char} {key : String}

theorem membersFrom_false (l : Layout) (level : Nat) (ms : Members) :
    membersFrom l level false ms = moreMembers l level ms := by
  cases ms with
  | nil => rw [membersFrom, moreMembers]
  | cons m ms => simp [membersFrom, moreMembers]

theorem length_le_membersFrom (l : Layout) (level : Nat) (first : Bool) (ms : Members) :
    ms.length ≤ (membersFrom l level first ms).length := by
  have more (ms : Members) : ms.length ≤ (moreMembers l level ms).length := by
    induction ms with
    | nil => exact Nat.zero_le _
    | cons m ms ih =>
      rw [moreMembers]
      simp only [List.length_cons, List.length_append]
      omega
  cases ms with
  | nil => exact Nat.zero_le _
  | cons m ms =>
    have later := more ms
    rw [membersFrom]
    simp only [List.length_cons, List.length_append]
    omega

theorem exists_laidOut_object (l : Layout) (level : Nat) (ms : Members) (rest : List Char) :
    ∃ close, laidOut l level (.object ms) ++ rest =
        '{' :: (membersFrom l (level + 1) true ms ++ close) ∧ Closes '}' close rest := by
  cases ms with
  | nil =>
    refine ⟨'}' :: rest, by rw [laidOut, membersFrom]; rfl, skipBlanks_cons rfl rest, ?_⟩
    intro c hc
    obtain rfl := Option.some.inj hc
    decide
  | cons m ms =>
    refine ⟨_, ?_, Reader.closes_gap l level '}' rfl (by intro c hc; cases hc; decide) rest⟩
    rw [laidOut, membersFrom]
    simp

theorem nextKey_membersFrom (key : String) (v : Json) (ms : Members) (close : List Char) :
    nextKey first (membersFrom l level first ((key, v) :: ms) ++ close) =
      .ok (true, escape key.toList ++ '"' :: ':' :: (l.afterColon ++
        (laidOut l level v ++ (moreMembers l level ms ++ close)))) := by
  have start : skipBlanks (l.gap level ++ (quoted key ++ ':' :: (l.afterColon ++
        (laidOut l level v ++ (moreMembers l level ms ++ close))))) =
      '"' :: (escape key.toList ++ '"' :: ':' :: (l.afterColon ++
        (laidOut l level v ++ (moreMembers l level ms ++ close)))) := by
    rw [skipBlanks_append (l.isBlank_of_mem_gap level), quoted, List.cons_append,
      skipBlanks_cons rfl, List.append_assoc, List.singleton_append]
  have shape : membersFrom l level first ((key, v) :: ms) ++ close =
      (if first then [] else [',']) ++ (l.gap level ++ (quoted key ++ ':' :: (l.afterColon ++
        (laidOut l level v ++ (moreMembers l level ms ++ close))))) := by
    simp [membersFrom]
  rw [shape, nextKey]
  cases first with
  | true =>
    rw [if_pos rfl, List.nil_append, start]
    rfl
  | false =>
    rw [if_neg Bool.false_ne_true, List.singleton_append, skipBlanks_cons rfl]
    simp only [start, Bool.false_eq_true, if_false, if_true]
    rfl

theorem nextKey_close (closes : Closes '}' close rest) :
    nextKey first close = .ok (false, '}' :: rest) := by
  simp only [nextKey, closes.skip, if_true]

theorem find?_key {before fs : List (Field ρ)} {f : Field ρ}
    (distinct : (r.fields.map (·.key)).Nodup) (whole : r.fields = before ++ f :: fs) :
    r.find? f.key = some f ∧ f.key ∉ before.map (·.key) := by
  rw [whole, List.map_append, List.map_cons] at distinct
  have new : f.key ∉ before.map (·.key) := fun old =>
    (List.nodup_append.1 distinct).2.2 f.key old f.key List.mem_cons_self rfl
  refine ⟨?_, new⟩
  have none : before.find? (fun g => decide (g.key = f.key)) = none :=
    List.find?_eq_none.2 fun g member same =>
      new (of_decide_eq_true same ▸ List.mem_map_of_mem member)
  rw [Record.find?, whole, List.find?_append, none, Option.none_or, List.find?_cons_of_pos]
  exact decide_eq_true rfl

/-- Reading the members that fill some fields gives the record, when the fields before were read. -/
theorem Fills.readMembers {fs : List (Field ρ)} {a b : ρ} (h : Fills depth fs a ms b)
    (distinct : (r.fields.map (·.key)).Nodup) {before : List (Field ρ)}
    (whole : r.fields = before ++ fs) {seen : List String}
    (known : ∀ f ∈ before, f.required = true → f.key ∈ seen)
    (among : ∀ key ∈ seen, key ∈ before.map (·.key)) (enough : ms.length < fuel)
    (closes : Closes '}' close rest) :
    r.readMembers depth fuel first a seen (membersFrom l level first ms ++ close) =
      .ok (b, '}' :: rest) := by
  obtain ⟨fuel, rfl⟩ := Nat.exists_eq_succ_of_ne_zero (Nat.ne_of_gt (Nat.zero_lt_of_lt enough))
  induction h generalizing before seen first fuel with
  | nil =>
    have complete : r.missing? seen = none := by
      rw [Record.missing?, List.find?_eq_none.2, Option.map_none]
      intro f member absent
      rw [whole, List.append_nil] at member
      simp only [Bool.and_eq_true, Bool.not_eq_true', ← Bool.not_eq_true] at absent
      exact absent.2 (List.contains_iff_mem.2 (known f member absent.1))
    rw [membersFrom, List.nil_append, Record.readMembers, nextKey_close closes]
    simp only [bind, Except.bind, Record.complete, complete]
  | @skip f fs a b ms free _ ih =>
    have whole' : r.fields = before ++ [f] ++ fs := by rw [whole, List.append_cons]
    refine ih whole' ?_ ?_ fuel enough
    · refine List.forall_mem_append.2 ⟨known, List.forall_mem_singleton.2 fun required => ?_⟩
      rw [free] at required
      cases required
    · intro key old
      rw [List.map_append]
      exact List.mem_append_left _ (among key old)
  | @member f fs a b v set ms reads _ ih =>
    obtain ⟨found, new⟩ := find?_key distinct whole
    have unseen : seen.contains f.key = false := by
      rw [← Bool.not_eq_true, List.contains_iff_mem]
      exact fun old => new (among f.key old)
    have read := reads.text l level l.afterColon _ l.isBlank_of_mem_afterColon
      (Reader.stops_moreMembers l level ms closes.stops)
    obtain ⟨fuel, rfl⟩ := Nat.exists_eq_succ_of_ne_zero
      (Nat.ne_of_gt (Nat.zero_lt_of_lt (Nat.lt_of_succ_lt_succ enough)))
    have known' : ∀ g ∈ before ++ [f], g.required = true → g.key ∈ f.key :: seen :=
      List.forall_mem_append.2
        ⟨fun g member required => List.mem_cons_of_mem _ (known g member required),
          List.forall_mem_singleton.2 fun _ => List.mem_cons_self⟩
    have among' : ∀ key ∈ f.key :: seen, key ∈ (before ++ [f]).map (·.key) := by
      rw [List.map_append]
      exact List.forall_mem_cons.2 ⟨List.mem_append_right _ (List.mem_singleton_self _),
        fun key old => List.mem_append_left _ (among key old)⟩
    have whole' : r.fields = before ++ [f] ++ fs := by rw [whole, List.append_cons]
    have more : r.readMembers depth (fuel + 1) false (set a) (f.key :: seen)
        (membersFrom l level false ms ++ close) = .ok (b, '}' :: rest) :=
      ih whole' known' among' fuel (Nat.lt_of_succ_lt_succ enough)
    rw [membersFrom_false] at more
    rw [Record.readMembers, nextKey_membersFrom]
    show (Step.typed (Reader.string _) >>= _) = _
    rw [Reader.string_quoted]
    simp only [bind, Except.bind, Step.typed, Except.mapError, found, unseen, Bool.false_eq_true,
      if_false]
    show (f.read depth _ >>= _) = _
    rw [read]
    exact more

theorem Fills.free {fs : List (Field ρ)} {a b : ρ} (h : Fills depth fs a ms b) :
    (Json.object ms).floatFree = true := by
  rw [floatFree]
  induction h with
  | nil => rfl
  | skip _ _ ih => exact ih
  | member reads _ ih => rw [membersFloatFree, reads.free, ih, Bool.true_and]

/-- A record is read from the members that fill its fields. -/
theorem reads_record {a : ρ} (distinct : (r.fields.map (·.key)).Nodup) (deep : 1 < depth)
    (filled : Fills (depth - 1) r.fields r.blank ms a) :
    Reads (r.decoder.read depth) (.object ms) a where
  free := filled.free
  text l level blanks rest blank _ := by
    obtain ⟨close, form, closes⟩ := exists_laidOut_object l level ms rest
    have enough : ms.length < (membersFrom l (level + 1) true ms ++ close).length + 1 := by
      have members := length_le_membersFrom l (level + 1) true ms
      rw [List.length_append]
      omega
    have read : r.readMembers (depth - 1) _ true r.blank []
        (membersFrom l (level + 1) true ms ++ close) = .ok (a, '}' :: rest) :=
      filled.readMembers distinct (List.nil_append _).symm (List.forall_mem_nil _)
        (List.forall_mem_nil _) enough closes
    simp only [Record.decoder, form, skipBlanks_append blank, skipBlanks_cons (c := '{') rfl,
      if_true, if_neg (Nat.not_le.2 deep), read]
    exact close_ok .object rfl a rest

theorem Fills.field {α : Type} {d : Decoder α} {set : α → ρ → ρ} {fs : List (Field ρ)} {a b : ρ}
    {x : α} (required : Bool) (reads : Reads (d.read depth) v x)
    (later : Fills depth fs (set x a) ms b) :
    Fills depth (Decoder.field key required d set :: fs) a ((key, v) :: ms) b := by
  have whole : Reads ((Decoder.field key required d set).read depth) v (set x) := by
    refine ⟨reads.free, fun l level blanks rest blank stops => ?_⟩
    show Except.map _ (d.read depth _) = _
    rw [reads.text l level blanks rest blank stops]
    rfl
  exact .member whole later

end

/-! ## Whole texts -/

/-- What is read from a document is read from its canonical text. -/
theorem Reads.ofText_canonical {α : Type} {d : Decoder α} {v : Json} {a : α}
    (h : Reads (d.read Reader.nestingLimit) v a) : d.ofText v.canonical = .ok a := by
  have read := h.text .indented 0 [] ['\n'] (List.forall_mem_nil _) (Reader.stops_of_blank rfl [])
  rw [List.nil_append] at read
  rw [ofText, canonical, String.toList_ofList, prettyChars_eq_laidOut]
  show Except.mapError _ (d.read _ _ >>= _) = _
  rw [read]
  rfl

end Decoder

end Json

end WorkspaceLint
