import SchemaSampler.Proofs.Value.Collection
import SchemaSampler.Proofs.Value.Members
import SchemaSampler.Value.Merge

namespace SchemaSampler

/-!
# Renaming — what does not depend on the identities of functions

A function is only ever compared with other functions, so nothing that is done with values can
tell them from their images under a one-to-one renaming of identities.  The equality of values,
the building of collections and merging all commute with `Value.rename`.
-/

/-- A one-to-one change of identities. -/
structure Renaming where
  /-- The new identity for an old one. -/
  apply : Identity → Identity
  /-- No two identities become one. -/
  injective : ∀ i j, apply i = apply j → i = j

/-- The change of identities that changes none. -/
def Renaming.refl : Renaming := ⟨fun i => i, fun _ _ same => same⟩

/-- A renaming that keeps all identities is the one that does nothing. -/
theorem Renaming.eq_refl {ρ : Renaming} (keeps : ∀ i, ρ.apply i = i) : ρ = .refl := by
  obtain ⟨apply, _⟩ := ρ
  obtain rfl : apply = fun i => i := funext keeps
  rfl

namespace Value

mutual

/-- The value with the identities of all functions in it changed. -/
def rename (ρ : Renaming) : Value → Value
  | function ⟨identity, .constant result, guards⟩ =>
    function ⟨ρ.apply identity, .constant (rename ρ result), guards⟩
  | function ⟨identity, .external which, guards⟩ =>
    function ⟨ρ.apply identity, .external which, guards⟩
  | array items => array (renameAll ρ items)
  | object members => object (renameMembers ρ members)
  | map entries => map (renameEntries ρ entries)
  | set elements => set (renameAll ρ elements)
  | promise settled => promise (rename ρ settled)
  | undefined => undefined
  | null => null
  | bool b => bool b
  | number x => number x
  | bigint n => bigint n
  | string s => string s
  | date t => date t
  | symbol s => symbol s

/-- The same for lists of values. -/
def renameAll (ρ : Renaming) : List Value → List Value
  | [] => []
  | v :: rest => rename ρ v :: renameAll ρ rest

/-- The same for the members of an object. -/
def renameMembers (ρ : Renaming) : List (String × Value) → List (String × Value)
  | [] => []
  | (key, v) :: rest => (key, rename ρ v) :: renameMembers ρ rest

/-- The same for the entries of a map. -/
def renameEntries (ρ : Renaming) : List (Value × Value) → List (Value × Value)
  | [] => []
  | (key, v) :: rest => (rename ρ key, rename ρ v) :: renameEntries ρ rest

end

/-- The cases of a value as `rename` tells them apart: what a function answers is either fixed, and
    then renamed with it, or comes from outside. -/
@[elab_as_elim]
theorem casesByRename {motive : Value → Prop} (undefined : motive .undefined) (null : motive .null)
    (bool : ∀ b, motive (.bool b)) (number : ∀ x, motive (.number x))
    (bigint : ∀ n, motive (.bigint n)) (string : ∀ s, motive (.string s))
    (date : ∀ t, motive (.date t)) (symbol : ∀ s, motive (.symbol s))
    (array : ∀ items, motive (.array items)) (object : ∀ members, motive (.object members))
    (map : ∀ entries, motive (.map entries)) (set : ∀ elements, motive (.set elements))
    (constant : ∀ identity result guards,
      motive (.function ⟨identity, .constant result, guards⟩))
    (external : ∀ identity which guards,
      motive (.function ⟨identity, .external which, guards⟩))
    (promise : ∀ settled, motive (.promise settled)) : ∀ v, motive v
  | .undefined => undefined
  | .null => null
  | .bool b => bool b
  | .number x => number x
  | .bigint n => bigint n
  | .string s => string s
  | .date t => date t
  | .symbol s => symbol s
  | .array items => array items
  | .object members => object members
  | .map entries => map entries
  | .set elements => set elements
  | .function ⟨identity, .constant result, guards⟩ => constant identity result guards
  | .function ⟨identity, .external which, guards⟩ => external identity which guards
  | .promise settled => promise settled

variable (ρ : Renaming)

/-! ### Lists -/

/-- The elements of a list are renamed one by one. -/
theorem renameAll_eq_map (items : List Value) : renameAll ρ items = items.map (rename ρ) := by
  induction items with
  | nil => rfl
  | cons v rest ih => rw [renameAll, ih, List.map_cons]

/-- The members of an object keep their names. -/
theorem renameMembers_eq_map (members : List (String × Value)) :
    renameMembers ρ members = members.map fun m => (m.1, rename ρ m.2) := by
  induction members with
  | nil => rfl
  | cons m rest ih => rw [renameMembers, ih, List.map_cons]

/-- Keys and values of a map are renamed, entry by entry. -/
theorem renameEntries_eq_map (entries : List (Value × Value)) :
    renameEntries ρ entries = entries.map fun e => (rename ρ e.1, rename ρ e.2) := by
  induction entries with
  | nil => rfl
  | cons e rest ih => rw [renameEntries, ih, List.map_cons]

/-! ### No change -/

mutual

/-- The change that changes no identity leaves every value as it is. -/
theorem rename_refl : (v : Value) → rename .refl v = v
  | function ⟨_, .constant result, _⟩ => by rw [rename, rename_refl result]; rfl
  | function ⟨_, .external _, _⟩ => by rw [rename]; rfl
  | array items => by rw [rename, renameAll_refl items]
  | object members => by rw [rename, renameMembers_refl members]
  | map entries => by rw [rename, renameEntries_refl entries]
  | set elements => by rw [rename, renameAll_refl elements]
  | promise settled => by rw [rename, rename_refl settled]
  | undefined | null | bool _ | number _ | bigint _ | string _ | date _ | symbol _ => by rw [rename]

/-- The same for the elements of a list. -/
theorem renameAll_refl : (items : List Value) → renameAll .refl items = items
  | [] => rfl
  | v :: rest => by rw [renameAll, rename_refl v, renameAll_refl rest]

/-- The same for the members of an object. -/
theorem renameMembers_refl :
    (members : List (String × Value)) → renameMembers .refl members = members
  | [] => rfl
  | (key, v) :: rest => by rw [renameMembers, rename_refl v, renameMembers_refl rest]

/-- The same for the entries of a map. -/
theorem renameEntries_refl :
    (entries : List (Value × Value)) → renameEntries .refl entries = entries
  | [] => rfl
  | (key, v) :: rest => by
    rw [renameEntries, rename_refl key, rename_refl v, renameEntries_refl rest]

end

/-! ### Kinds -/

/-- A renaming leaves the kind of a value as it is. -/
@[simp] theorem typeName_rename (v : Value) : (rename ρ v).typeName = v.typeName := by
  cases v using casesByRename <;> simp [rename, typeName]

@[simp] theorem asString?_rename (v : Value) : (rename ρ v).asString? = v.asString? := by
  cases v using casesByRename <;> simp [rename, asString?]

@[simp] theorem asNumber?_rename (v : Value) : (rename ρ v).asNumber? = v.asNumber? := by
  cases v using casesByRename <;> simp [rename, asNumber?]

@[simp] theorem isUndefined_rename (v : Value) : (rename ρ v).isUndefined = v.isUndefined := by
  cases v using casesByRename <;> simp [rename, isUndefined]

@[simp] theorem size?_rename (v : Value) : (rename ρ v).size? = v.size? := by
  cases v using casesByRename <;>
    simp [rename, size?, renameAll_eq_map, renameMembers_eq_map, renameEntries_eq_map]

/-- A renamed value is an object if the value is. -/
theorem asObject?_rename (v : Value) :
    (rename ρ v).asObject? = v.asObject?.map (renameMembers ρ) := by
  cases v using casesByRename <;> simp [rename, asObject?]

/-- A renamed value is an array if the value is. -/
theorem asArray?_rename (v : Value) : (rename ρ v).asArray? = v.asArray?.map (renameAll ρ) := by
  cases v using casesByRename <;> simp [rename, asArray?]

/-! ### Equality -/

/-- A renaming is injective, so it tells identities apart as they were. -/
theorem identity_beq_rename (i j : Identity) : (ρ.apply i == ρ.apply j) = (i == j) := by
  rw [Bool.eq_iff_iff, beq_iff_eq, beq_iff_eq]
  exact ⟨ρ.injective i j, fun h => by rw [h]⟩

mutual

/-- A renaming keeps equal values equal and different ones different. -/
theorem same_rename : (a b : Value) → same (rename ρ a) (rename ρ b) = same a b
  | function ⟨_, .constant _, _⟩, b | function ⟨_, .external _, _⟩, b => by
    cases b using casesByRename <;> simp only [rename, same, identity_beq_rename]
  | array as, b => by
    cases b using casesByRename <;> simp only [rename, same, sameAll_rename as _]
  | set as, b => by
    cases b using casesByRename <;> simp only [rename, same, sameAll_rename as _]
  | object as, b => by
    cases b using casesByRename <;> simp only [rename, same, sameMembers_rename as _]
  | map as, b => by
    cases b using casesByRename <;> simp only [rename, same, sameEntries_rename as _]
  | promise a, b => by
    cases b using casesByRename <;> simp only [rename, same, same_rename a _]
  | undefined, b | null, b | bool _, b | number _, b | bigint _, b | string _, b | date _, b
  | symbol _, b => by
    cases b using casesByRename <;> simp only [rename, same]

/-- The same for elements. -/
theorem sameAll_rename : (as bs : List Value) →
    sameAll (renameAll ρ as) (renameAll ρ bs) = sameAll as bs
  | [], bs => by cases bs <;> simp only [renameAll, sameAll]
  | a :: as, bs => by
    cases bs <;> simp only [renameAll, sameAll, same_rename a _, sameAll_rename as _]

/-- The same for members. -/
theorem sameMembers_rename : (as bs : List (String × Value)) →
    sameMembers (renameMembers ρ as) (renameMembers ρ bs) = sameMembers as bs
  | [], bs => by cases bs <;> simp only [renameMembers, sameMembers]
  | (k, a) :: as, bs => by
    rcases bs with _ | ⟨⟨l, b⟩, bs⟩ <;>
      simp only [renameMembers, sameMembers, same_rename a _, sameMembers_rename as _]

/-- The same for entries. -/
theorem sameEntries_rename : (as bs : List (Value × Value)) →
    sameEntries (renameEntries ρ as) (renameEntries ρ bs) = sameEntries as bs
  | [], bs => by cases bs <;> simp only [renameEntries, sameEntries]
  | (k, a) :: as, bs => by
    rcases bs with _ | ⟨⟨l, b⟩, bs⟩ <;>
      simp only [renameEntries, sameEntries, same_rename k _, same_rename a _,
        sameEntries_rename as _]

end

/-- Renamed values are equal if the values are. -/
@[simp] theorem beq_rename (a b : Value) : (rename ρ a == rename ρ b) = (a == b) :=
  same_rename ρ a b

/-! ### Collections -/

/-- An element is there already if the renamed one is. -/
theorem addElement_rename (elements : List Value) (item : Value) :
    addElement (renameAll ρ elements) (rename ρ item) = renameAll ρ (addElement elements item) := by
  unfold addElement
  have same_any : (renameAll ρ elements).any (· == rename ρ item) = elements.any (· == item) := by
    rw [renameAll_eq_map, List.any_map]
    exact congrArg elements.any (funext fun e => beq_rename ρ e item)
  rw [same_any]
  split
  · rfl
  · rw [renameAll_eq_map, renameAll_eq_map, List.map_append, List.map_singleton]

/-- Merging equal elements commutes with renaming. -/
theorem elementsOf_rename (items : List Value) :
    elementsOf (renameAll ρ items) = renameAll ρ (elementsOf items) := by
  induction items using List.reverseRecOn with
  | nil => rfl
  | append_singleton items item ih =>
    have split : renameAll ρ (items ++ [item]) = renameAll ρ items ++ [rename ρ item] := by
      simp [renameAll_eq_map]
    rw [split, elementsOf_concat, ih, addElement_rename, elementsOf_concat]

/-- The set of renamed items is the renamed set. -/
theorem setOfItems_rename (items : List Value) :
    setOfItems (renameAll ρ items) = rename ρ (setOfItems items) := by
  rw [setOfItems_eq, setOfItems_eq, elementsOf_rename, rename]

/-- A key is there already if the renamed one is. -/
theorem putEntry_rename (key value : Value) (entries : List (Value × Value)) :
    putEntry (rename ρ key) (rename ρ value) (renameEntries ρ entries) =
      renameEntries ρ (putEntry key value entries) := by
  induction entries with
  | nil => rfl
  | cons e rest ih =>
    obtain ⟨k, v⟩ := e
    rw [renameEntries, putEntry, putEntry, beq_rename]
    split
    · rfl
    · rw [ih]
      rfl

/-- Merging entries of equal keys commutes with renaming. -/
theorem entriesOf_rename (pairs : List (Value × Value)) :
    entriesOf (renameEntries ρ pairs) = renameEntries ρ (entriesOf pairs) := by
  induction pairs using List.reverseRecOn with
  | nil => rfl
  | append_singleton pairs p ih =>
    have split : renameEntries ρ (pairs ++ [p]) =
        renameEntries ρ pairs ++ [(rename ρ p.1, rename ρ p.2)] := by
      simp [renameEntries_eq_map]
    rw [split, entriesOf_concat, ih, putEntry_rename, entriesOf_concat]

/-- The map of renamed pairs is the renamed map. -/
theorem mapOfPairs_rename (pairs : List (Value × Value)) :
    mapOfPairs (renameEntries ρ pairs) = rename ρ (mapOfPairs pairs) := by
  rw [mapOfPairs_eq, mapOfPairs_eq, entriesOf_rename, rename]

/-- A member is put in its place by its name. -/
theorem insertMember_rename (key : String) (v : Value) (members : List (String × Value)) :
    insertMember key (rename ρ v) (renameMembers ρ members) =
      renameMembers ρ (insertMember key v members) := by
  induction members with
  | nil => rfl
  | cons m rest ih =>
    obtain ⟨k, w⟩ := m
    rw [renameMembers, insertMember, insertMember]
    split
    · rfl
    · split
      · rfl
      · rw [ih]
        rfl

/-- The same for several members. -/
theorem insertAll_rename (members sorted : List (String × Value)) :
    insertAll (renameMembers ρ members) (renameMembers ρ sorted) =
      renameMembers ρ (insertAll members sorted) := by
  induction members generalizing sorted with
  | nil => rfl
  | cons m rest ih =>
    rw [renameMembers, insertAll_cons, insertMember_rename, ih, insertAll_cons]

/-- The object of renamed members is the renamed object. -/
theorem objectOf_rename (members : List (String × Value)) :
    objectOf (renameMembers ρ members) = rename ρ (objectOf members) := by
  rw [objectOf, objectOf, rename, sortMembers_eq_insertAll, sortMembers_eq_insertAll]
  exact congrArg object (insertAll_rename ρ members [])

/-- Members are found by their names. -/
theorem findMember?_rename (key : String) (members : List (String × Value)) :
    findMember? key (renameMembers ρ members) = (findMember? key members).map (rename ρ) := by
  induction members with
  | nil => rfl
  | cons m rest ih =>
    obtain ⟨k, v⟩ := m
    rw [renameMembers, findMember?, findMember?]
    split
    · rfl
    · exact ih

/-! ### Merging -/

/-- Values that are not both objects nor both arrays merge when they are equal. -/
theorem merge_eq_of_ne {a b : Value} (objects : ∀ l r, a = object l → b ≠ object r)
    (arrays : ∀ l r, a = array l → b ≠ array r) :
    merge a b = if a == b then some a else none := by
  unfold merge
  split
  · exact absurd rfl (objects _ _ rfl)
  · exact absurd rfl (arrays _ _ rfl)
  · rfl

/-- Values that are not both objects nor both arrays merge alike after a renaming. -/
theorem merge_rename_of_ne {a b : Value} (objects : ∀ l r, a = object l → b ≠ object r)
    (arrays : ∀ l r, a = array l → b ≠ array r) :
    merge (rename ρ a) (rename ρ b) = (merge a b).map (rename ρ) := by
  have kind : ∀ v : Value, (∀ l, rename ρ v = object l → ∃ r, v = object r) ∧
      ∀ l, rename ρ v = array l → ∃ r, v = array r := by
    intro v
    cases v using casesByRename <;> simp [rename]
  rw [merge_eq_of_ne objects arrays, merge_eq_of_ne, beq_rename]
  · split <;> rfl
  · intro l r ha hb
    obtain ⟨l', rfl⟩ := (kind a).1 l ha
    obtain ⟨r', rfl⟩ := (kind b).1 r hb
    exact objects l' r' rfl rfl
  · intro l r ha hb
    obtain ⟨l', rfl⟩ := (kind a).2 l ha
    obtain ⟨r', rfl⟩ := (kind b).2 r hb
    exact arrays l' r' rfl rfl

mutual

/-- Renamed values merge to the renamed result. -/
theorem merge_rename : (b a : Value) →
    merge (rename ρ a) (rename ρ b) = (merge a b).map (rename ρ)
  | b, a => by
    by_cases objects : ∃ l r, a = object l ∧ b = object r
    · obtain ⟨left, right, rfl, rfl⟩ := objects
      simp only [rename, merge, mergeMembers_rename right left, Option.map_map]
      rfl
    · by_cases arrays : ∃ l r, a = array l ∧ b = array r
      · obtain ⟨left, right, rfl, rfl⟩ := arrays
        simp only [rename, merge, mergeAll_rename right left, Option.map_map]
        rfl
      · exact merge_rename_of_ne ρ (fun l r ha hb => objects ⟨l, r, ha, hb⟩)
          fun l r ha hb => arrays ⟨l, r, ha, hb⟩

/-- The same for the members of objects. -/
theorem mergeMembers_rename : (right left : List (String × Value)) →
    mergeMembers (renameMembers ρ left) (renameMembers ρ right) =
      (mergeMembers left right).map (renameMembers ρ)
  | [], left => rfl
  | (key, v) :: rest, left => by
    simp only [renameMembers, mergeMembers, findMember?_rename]
    cases findMember? key left with
    | none =>
      simp only [Option.map_none]
      show mergeMembers (insertMember key (rename ρ v) (renameMembers ρ left)) _ = _
      rw [insertMember_rename, mergeMembers_rename rest]
      rfl
    | some existing =>
      simp only [Option.map_some, merge_rename v existing]
      cases merge existing v with
      | none => rfl
      | some merged =>
        show mergeMembers (insertMember key (rename ρ merged) (renameMembers ρ left)) _ = _
        rw [insertMember_rename, mergeMembers_rename rest]
        rfl

/-- The same for the elements of arrays. -/
theorem mergeAll_rename : (right left : List Value) →
    mergeAll (renameAll ρ left) (renameAll ρ right) = (mergeAll left right).map (renameAll ρ)
  | [], left => by cases left <;> rfl
  | b :: right, left => by
    cases left with
    | nil => rfl
    | cons a left =>
      simp only [renameAll, mergeAll, merge_rename b a, mergeAll_rename right left]
      cases merge a b with
      | none => rfl
      | some head => cases mergeAll left right <;> rfl

end

end Value

end SchemaSampler
