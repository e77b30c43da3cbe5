import WorkspaceLint.Proofs.Json.Plain
import WorkspaceLint.Manifest

/-!
# Changing the blocks of a manifest

`Manifest.mapBlocks` changes every block of dependencies of a manifest and leaves everything else as
it is: the name, the patterns of the workspace, the order of the members.  Setting the key of one
block is a special case (`insert_eq_mapBlocks`), so what fixers do one block after the other can be
said at once.
-/

namespace WorkspaceLint

namespace DependencyKind

@[simp] theorem ofKey?_key (kind : DependencyKind) : ofKey? kind.key = some kind := by
  cases kind <;> decide

theorem key_of_ofKey? {key : String} {kind : DependencyKind} (h : ofKey? key = some kind) :
    kind.key = key := by simpa using List.find?_some h

theorem mem_all (kind : DependencyKind) : kind ∈ all := by cases kind <;> decide

end DependencyKind

namespace Manifest

variable {f g : DependencyKind → Members → Members} {m : Manifest}

/-- The value of a member where blocks are changed. -/
def changedValue (f : DependencyKind → Members → Members) (e : String × Json) : Json :=
  match DependencyKind.ofKey? e.1, e.2 with
  | some kind, .object block => .object (f kind block)
  | _, v => v

/-- The manifest with every block changed. -/
def mapBlocks (f : DependencyKind → Members → Members) (m : Manifest) : Manifest :=
  ⟨m.members.map fun e => (e.1, changedValue f e)⟩

theorem get?_mapBlocks (key : String) :
    Members.get? key (m.mapBlocks f).members =
      (Members.get? key m.members).map fun v => changedValue f (key, v) :=
  Members.get?_mapValues key (changedValue f) m.members

/-- What is under no key of a block stays. -/
theorem get?_mapBlocks_of_ofKey? {key : String} (h : DependencyKind.ofKey? key = none) :
    Members.get? key (m.mapBlocks f).members = Members.get? key m.members := by
  have same : (fun v => changedValue f (key, v)) = id := by
    funext v
    simp [changedValue, h]
  rw [get?_mapBlocks, same, Option.map_id, id]

theorem block?_mapBlocks (kind : DependencyKind) :
    (m.mapBlocks f).block? kind = (m.block? kind).map (f kind) := by
  unfold block?
  rw [get?_mapBlocks]
  rcases Members.get? kind.key m.members with _ | v
  · rfl
  · cases v <;> simp [changedValue, Json.asObject?]

@[simp] theorem name?_mapBlocks (f : DependencyKind → Members → Members) (m : Manifest) :
    (m.mapBlocks f).name? = m.name? := by
  have notBlock : DependencyKind.ofKey? "name" = none := by decide
  rw [name?, get?_mapBlocks_of_ofKey? notBlock]
  rfl

theorem get?_mapBlocks_workspaces :
    (m.mapBlocks f).toJson.get? "workspaces" = m.toJson.get? "workspaces" :=
  get?_mapBlocks_of_ofKey? (by decide)

@[simp] theorem workspaceGlobs_mapBlocks (f : DependencyKind → Members → Members) (m : Manifest) :
    workspaceGlobs (m.mapBlocks f).toJson = workspaceGlobs m.toJson := by
  rw [workspaceGlobs, get?_mapBlocks_workspaces]
  rfl

theorem mapBlocks_mapBlocks :
    (m.mapBlocks f).mapBlocks g = m.mapBlocks fun kind block => g kind (f kind block) := by
  unfold mapBlocks
  rw [List.map_map]
  congr 2
  funext ⟨key, v⟩
  simp only [Function.comp_apply, changedValue]
  rcases DependencyKind.ofKey? key with _ | kind
  · rfl
  · cases v <;> rfl

theorem block?_of_mem (nodup : (Members.keys m.members).Nodup) {kind : DependencyKind}
    {block : Members} (h : (kind.key, .object block) ∈ m.members) : m.block? kind = some block := by
  rw [block?, Members.get?_of_mem nodup h]
  rfl

theorem get?_of_block? {kind : DependencyKind} {block : Members}
    (there : m.block? kind = some block) :
    Members.get? kind.key m.members = some (.object block) := by
  obtain ⟨v, value, object⟩ := Option.bind_eq_some_iff.1 there
  cases v with
  | object own => rw [value, Option.some.inj object]
  | null | bool _ | number _ | string _ | array _ => cases object

/-- Changes that agree on the blocks of a manifest give the same manifest. -/
theorem mapBlocks_congr (nodup : (Members.keys m.members).Nodup)
    (h : ∀ kind block, m.block? kind = some block → f kind block = g kind block) :
    m.mapBlocks f = m.mapBlocks g := by
  unfold mapBlocks
  congr 1
  refine List.map_congr_left fun e member => ?_
  obtain ⟨key, v⟩ := e
  unfold changedValue
  rcases hk : DependencyKind.ofKey? key with _ | kind
  · rfl
  · obtain rfl := DependencyKind.key_of_ofKey? hk
    cases v with
    | object block => simp only [h kind block (block?_of_mem nodup member)]
    | null | bool _ | number _ | string _ | array _ => rfl

theorem mapBlocks_id (m : Manifest) : (m.mapBlocks fun _ block => block) = m := by
  have same : ∀ e : String × Json, (e.1, changedValue (fun _ block => block) e) = e := by
    rintro ⟨key, v⟩
    unfold changedValue
    rcases DependencyKind.ofKey? key with _ | kind
    · rfl
    · cases v <;> rfl
  unfold mapBlocks
  simp only [same, List.map_id']

/-- A manifest stays as it is exactly when all of its blocks do. -/
theorem mapBlocks_eq_self_iff (nodup : (Members.keys m.members).Nodup) :
    m.mapBlocks f = m ↔ ∀ kind block, m.block? kind = some block → f kind block = block := by
  constructor
  · intro same kind block there
    have changed := block?_mapBlocks (f := f) (m := m) kind
    rw [same, there] at changed
    exact (Option.some.inj changed).symm
  · intro h
    exact (mapBlocks_congr nodup h).trans m.mapBlocks_id

/-- Changes to blocks of the given kinds only. -/
def only (kinds : List DependencyKind) (f : DependencyKind → Members → Members)
    (kind : DependencyKind) (block : Members) : Members :=
  if kind ∈ kinds then f kind block else block

theorem only_all : only DependencyKind.all f = f := by
  funext kind block
  rw [only, if_pos (DependencyKind.mem_all kind)]

/-- Setting the key of a block changes this block. -/
theorem insert_eq_mapBlocks (nodup : (Members.keys m.members).Nodup) {kind : DependencyKind}
    {block : Members} (there : m.block? kind = some block) :
    Manifest.mk (Members.insert kind.key (.object (f kind block)) m.members) =
      m.mapBlocks (only [kind] f) := by
  have found := get?_of_block? there
  have present : kind.key ∈ Members.keys m.members :=
    List.mem_map.2 ⟨_, Members.mem_of_get? found, rfl⟩
  unfold mapBlocks
  rw [Members.insert_eq_mapValues nodup present]
  congr 1
  refine List.map_congr_left fun e member => ?_
  obtain ⟨key, v⟩ := e
  by_cases same : key = kind.key
  · subst same
    have value : v = .object block := by
      rw [Members.get?_of_mem nodup member] at found
      exact Option.some.inj found
    simp [changedValue, value, only]
  · rw [if_neg same]
    unfold changedValue
    rcases hk : DependencyKind.ofKey? key with _ | other
    · rfl
    · have different : other ≠ kind := by
        rintro rfl
        exact same (DependencyKind.key_of_ofKey? hk).symm
      cases v <;> simp [only, different]

theorem only_only {kind : DependencyKind} {kinds : List DependencyKind} (new : kind ∉ kinds) :
    (m.mapBlocks (only [kind] f)).mapBlocks (only kinds f) =
      m.mapBlocks (only (kind :: kinds) f) := by
  rw [mapBlocks_mapBlocks]
  congr 1
  funext other block
  by_cases same : other = kind
  · subst same
    simp [only, new]
  · simp [only, same]

/-! ## Plain manifests -/

/-- A manifest that is read back as it was written. -/
def Plain (m : Manifest) : Prop := m.toJson.Plain Json.Reader.nestingLimit

/-- A block of a manifest that is read back as it was written. -/
def PlainBlock (block : Members) : Prop := (Json.object block).Plain (Json.Reader.nestingLimit - 1)

theorem Plain.nodup (h : m.Plain) : (Members.keys m.members).Nodup := Json.Plain.nodup_keys h

theorem Plain.block (h : m.Plain) {kind : DependencyKind} {block : Members}
    (there : m.block? kind = some block) : PlainBlock block :=
  Json.Plain.get? h (get?_of_block? there)

theorem Plain.mapBlocks (h : m.Plain)
    (keeps : ∀ kind block, m.block? kind = some block → PlainBlock (f kind block)) :
    (m.mapBlocks f).Plain := by
  refine Json.Plain.mapValues h fun e member => ?_
  obtain ⟨key, v⟩ := e
  have plain : v.Plain (Json.Reader.nestingLimit - 1) := (Json.plain_object_iff.1 h).2.2 _ member
  unfold changedValue
  rcases hk : DependencyKind.ofKey? key with _ | kind
  · exact plain
  · obtain rfl := DependencyKind.key_of_ofKey? hk
    cases v with
    | object block => exact keeps kind block (block?_of_mem h.nodup member)
    | null | bool _ | number _ | string _ | array _ => exact plain

end Manifest

end WorkspaceLint
