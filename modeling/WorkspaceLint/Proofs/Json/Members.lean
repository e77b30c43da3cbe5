import WorkspaceLint.Json.Basic

/-!
# Members of objects

What is found under a key after an insertion, and what insertions keep: that keys differ, and
whatever all values have in common.  Members whose keys differ are determined by their look-ups and
order, and reading them one after the other gives them back.
-/

namespace WorkspaceLint

namespace Members

/-! ## Look-ups and insertions -/

theorem get?_insert (key other : String) (value : Json) (ms : Members) :
    get? other (insert key value ms) = if key = other then some value else get? other ms := by
  induction ms with
  | nil => rfl
  | cons m ms ih =>
    obtain ⟨k, v⟩ := m
    unfold insert
    by_cases found : k = key
    · subst found
      rw [if_pos rfl]
      unfold get?
      split <;> rfl
    · rw [if_neg found]
      unfold get?
      rw [ih]
      by_cases here : k = other
      · rw [if_pos here, if_pos here, if_neg fun same => found (here.trans same.symm)]
      · rw [if_neg here, if_neg here]

theorem get?_eq_none_iff {key : String} {ms : Members} : get? key ms = none ↔ key ∉ keys ms := by
  induction ms with
  | nil => simp [get?, keys]
  | cons m ms ih =>
    obtain ⟨k, v⟩ := m
    unfold get?
    split
    · rename_i same
      simp [keys, same]
    · rename_i other
      rw [ih]
      simp [keys, Ne.symm other]

/-- Values are replaced under their keys. -/
theorem get?_mapValues (key : String) (f : String × Json → Json) (ms : Members) :
    get? key (ms.map fun m => (m.1, f m)) = (get? key ms).map fun v => f (key, v) := by
  induction ms with
  | nil => rfl
  | cons m ms ih =>
    obtain ⟨k, v⟩ := m
    rw [List.map_cons, get?, get?]
    by_cases same : k = key
    · subst same
      rw [if_pos rfl, if_pos rfl]
      rfl
    · rw [if_neg same, if_neg same, ih]

theorem keys_mapValues (f : String × Json → Json) (ms : Members) :
    keys (ms.map fun m => (m.1, f m)) = keys ms := by
  simp [keys]

theorem mem_of_get? {key : String} {value : Json} {ms : Members}
    (h : get? key ms = some value) : (key, value) ∈ ms := by
  induction ms with
  | nil => cases h
  | cons m ms ih =>
    obtain ⟨k, v⟩ := m
    unfold get? at h
    split at h
    · rename_i same
      rw [same, Option.some.inj h]
      exact List.mem_cons_self
    · exact List.mem_cons_of_mem _ (ih h)

/-- Where keys differ, a member is what its key gives. -/
theorem get?_of_mem {key : String} {value : Json} {ms : Members} (nodup : (keys ms).Nodup)
    (h : (key, value) ∈ ms) : get? key ms = some value := by
  induction ms with
  | nil => cases h
  | cons m ms ih =>
    obtain ⟨k, v⟩ := m
    obtain ⟨new, later⟩ := List.nodup_cons.1 nodup
    unfold get?
    rcases List.mem_cons.1 h with same | member
    · rw [(Prod.mk.inj same).1, if_pos rfl, (Prod.mk.inj same).2]
    · have known : key ∈ keys ms := List.mem_map.2 ⟨_, member, rfl⟩
      have other : k ≠ key := fun same => new (by rwa [same])
      rw [if_neg other]
      exact ih later member

/-- Where keys differ, members are their keys with what these give. -/
theorem eq_map_keys {ms : Members} (nodup : (keys ms).Nodup) :
    ms = (keys ms).map fun key => (key, (get? key ms).getD .null) := by
  rw [keys, List.map_map]
  refine ((List.map_congr_left fun m member => ?_).trans (List.map_id ms)).symm
  rw [Function.comp_apply, get?_of_mem nodup member]
  rfl

/-- Members are determined by their keys, in order, and by what these give. -/
theorem eq_of_get? {ms ms' : Members} (nodup : (keys ms).Nodup) (same : keys ms = keys ms')
    (agree : ∀ key, get? key ms = get? key ms') : ms = ms' := by
  calc
    ms = (keys ms).map fun key => (key, (get? key ms).getD .null) := eq_map_keys nodup
    _ = (keys ms').map fun key => (key, (get? key ms').getD .null) := by simp only [same, agree]
    _ = ms' := (eq_map_keys (same ▸ nodup)).symm

/-- The later of two values stays. -/
theorem insert_insert (key : String) (value later : Json) (ms : Members) :
    insert key later (insert key value ms) = insert key later ms := by
  induction ms with
  | nil => simp only [insert, if_true]
  | cons m ms ih =>
    obtain ⟨k, v⟩ := m
    by_cases here : k = key
    · simp only [insert, if_pos here]
    · simp only [insert, if_neg here, ih]

theorem mem_insert {key : String} {value : Json} {ms : Members} {m : String × Json}
    (h : m ∈ insert key value ms) : m = (key, value) ∨ m ∈ ms := by
  induction ms with
  | nil => exact .inl (List.mem_singleton.1 h)
  | cons m' ms ih =>
    obtain ⟨k, v⟩ := m'
    unfold insert at h
    split at h
    · rename_i same
      rcases List.mem_cons.1 h with rfl | later
      · exact .inl (by rw [same])
      · exact .inr (List.mem_cons_of_mem _ later)
    · rcases List.mem_cons.1 h with rfl | later
      · exact .inr List.mem_cons_self
      · exact (ih later).imp_right (List.mem_cons_of_mem _)

theorem mem_keys_insert {key other : String} {value : Json} {ms : Members} :
    other ∈ keys (insert key value ms) ↔ other = key ∨ other ∈ keys ms := by
  rw [← Decidable.not_iff_not, ← get?_eq_none_iff, get?_insert, not_or, ← get?_eq_none_iff]
  split
  · rename_i same
    simp [same]
  · rename_i different
    exact ⟨fun h => ⟨Ne.symm different, h⟩, And.right⟩

theorem nodup_keys_insert {key : String} {value : Json} {ms : Members} (h : (keys ms).Nodup) :
    (keys (insert key value ms)).Nodup := by
  induction ms with
  | nil => simp [insert, keys]
  | cons m ms ih =>
    obtain ⟨k, v⟩ := m
    obtain ⟨new, later⟩ := List.nodup_cons.1 h
    unfold insert
    split
    · exact h
    · rename_i other
      refine List.nodup_cons.2 ⟨fun member => ?_, ih later⟩
      rcases mem_keys_insert.1 member with same | member
      · exact other same
      · exact new member

/-- Where keys differ, setting the value of a key that is there replaces it. -/
theorem insert_eq_mapValues {key : String} {value : Json} {ms : Members} (nodup : (keys ms).Nodup)
    (there : key ∈ keys ms) :
    insert key value ms = ms.map fun m => (m.1, if m.1 = key then value else m.2) := by
  induction ms with
  | nil => cases there
  | cons m ms ih =>
    obtain ⟨k, v⟩ := m
    obtain ⟨new, later⟩ := List.nodup_cons.1 nodup
    rw [insert, List.map_cons]
    by_cases same : k = key
    · subst same
      have kept : (ms.map fun m => (m.1, if m.1 = k then value else m.2)) = ms := by
        refine (List.map_congr_left fun m member => ?_).trans (List.map_id ms)
        have other : m.1 ≠ k := fun same => new (List.mem_map.2 ⟨m, member, same⟩)
        rw [if_neg other]
        rfl
      rw [if_pos rfl, kept]
      simp
    · have rest : key ∈ keys ms := (List.mem_cons.1 there).resolve_left (Ne.symm same)
      rw [if_neg same, ih later rest]
      simp [same]

/-- `ms'` is `ms` with a key set: in place if the key is there, and else at the end. -/
structure SetTo (key : String) (value : Json) (ms ms' : Members) : Prop where
  found : get? key ms' = some value
  others : ms'.filter (fun m => m.1 ≠ key) = ms.filter (fun m => m.1 ≠ key)
  order : keys ms' = if key ∈ keys ms then keys ms else keys ms ++ [key]

theorem setTo_insert (key : String) (value : Json) (ms : Members) :
    SetTo key value ms (insert key value ms) := by
  refine ⟨by rw [get?_insert, if_pos rfl], ?_, ?_⟩
  · induction ms with
    | nil => simp [insert]
    | cons m ms ih =>
      unfold insert
      split
      · rename_i same
        simp [same]
      · rw [List.filter_cons, List.filter_cons, ih]
  · induction ms with
    | nil => rfl
    | cons m ms ih =>
      obtain ⟨k, v⟩ := m
      unfold insert
      split
      · rename_i same
        simp [keys, same]
      · rename_i other
        have moved : keys ((k, v) :: insert key value ms) = k :: keys (insert key value ms) := rfl
        have first : keys ((k, v) :: ms) = k :: keys ms := rfl
        rw [moved, ih, first]
        by_cases there : key ∈ keys ms
        · rw [if_pos there, if_pos (List.mem_cons_of_mem k there)]
        · rw [if_neg there, if_neg (by simp [Ne.symm other, there])]
          rfl

/-- What all values and the new one have, all values after an insertion have. -/
theorem forall_mem_insert {P : Json → Prop} {key : String} {value : Json} {ms : Members}
    (new : P value) (h : ∀ m ∈ ms, P m.2) : ∀ m ∈ insert key value ms, P m.2 := by
  intro m member
  rcases mem_insert member with rfl | member
  · exact new
  · exact h m member

/-! ## Members that were read -/

theorem nodup_keys_ofList (ms : List (String × Json)) : (keys (ofList ms)).Nodup := by
  unfold ofList
  have start : (keys ([] : Members)).Nodup := List.nodup_nil
  revert start
  generalize ([] : Members) = acc
  induction ms generalizing acc with
  | nil => exact id
  | cons m ms ih => exact fun start => ih _ (nodup_keys_insert start)

theorem forall_mem_ofList {P : Json → Prop} {ms : List (String × Json)} (h : ∀ m ∈ ms, P m.2) :
    ∀ m ∈ ofList ms, P m.2 := by
  unfold ofList
  have start : ∀ m ∈ ([] : Members), P m.2 := nofun
  revert start
  generalize ([] : Members) = acc
  induction ms generalizing acc with
  | nil => exact id
  | cons m ms ih =>
    exact fun start => ih (fun m' member => h m' (List.mem_cons_of_mem _ member)) _
      (forall_mem_insert (h m List.mem_cons_self) start)

/-- Members with different keys are what reading them one after the other gives. -/
theorem ofList_eq_self {ms : Members} (h : (keys ms).Nodup) : ofList ms = ms := by
  have insert_new : ∀ (acc : Members) (m : String × Json), m.1 ∉ keys acc →
      insert m.1 m.2 acc = acc ++ [m] := by
    intro acc m new
    induction acc with
    | nil => rfl
    | cons m' acc ih =>
      obtain ⟨k, v⟩ := m'
      have other : k ≠ m.1 := fun same => new (by rw [← same]; exact List.mem_cons_self)
      have later : m.1 ∉ keys acc := fun member => new (List.mem_cons_of_mem _ member)
      rw [insert, if_neg other, ih later, List.cons_append]
  have onto : ∀ (acc : Members), (keys (acc ++ ms)).Nodup →
      ms.foldl (fun acc m => insert m.1 m.2 acc) acc = acc ++ ms := by
    clear h
    induction ms with
    | nil => intro acc _; exact (List.append_nil acc).symm
    | cons m ms ih =>
      intro acc nodup
      have new : m.1 ∉ keys acc := by
        rw [keys, List.map_append, List.map_cons, List.nodup_append] at nodup
        exact fun member => nodup.2.2 m.1 member m.1 List.mem_cons_self rfl
      rw [List.foldl_cons, insert_new acc m new, ih (acc ++ [m]) (by simpa using nodup)]
      simp
  exact onto [] h

end Members

end WorkspaceLint
