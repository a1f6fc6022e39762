import SchemaSampler.Proofs.Value.Collection
import SchemaSampler.Proofs.Value.Members

namespace SchemaSampler.Value

/-!
# Sorted values — the members of every object inside ascend by key

The members of an object are sorted by key and no key comes twice.  A value is sorted if this holds
of it and of all the values that it is made of (`Sorted`).  Building objects, sets and maps of
sorted values gives sorted ones.
-/

/-- The values that a value is made of. -/
def parts : Value → List Value
  | array items | set items => items
  | object members => members.map Prod.snd
  | map entries => entries.map Prod.fst ++ entries.map Prod.snd
  | function ⟨_, .constant result, _⟩ => [result]
  | promise settled => [settled]
  | _ => []

/-- The members of every object in a value are sorted by key. -/
inductive Sorted : Value → Prop where
  /-- A value is sorted if its members are, and all its parts. -/
  | intro {v : Value} (members : ∀ ms, v = object ms → SortedMembers ms)
      (parts : ∀ p ∈ v.parts, Sorted p) : Sorted v

variable {v : Value} {items : List Value} {members : List (String × Value)}
  {entries : List (Value × Value)} {f : Callable Value} {key : String}

/-- A value that is no object and has no parts. -/
theorem sorted_atom (no_object : ∀ ms, v ≠ object ms) (no_parts : v.parts = []) : v.Sorted :=
  .intro (fun ms same => absurd same (no_object ms))
    fun _ member => absurd (no_parts ▸ member) List.not_mem_nil

theorem sorted_undefined : Sorted undefined := sorted_atom nofun rfl

theorem sorted_null : Sorted null := sorted_atom nofun rfl

theorem sorted_bool (b : Bool) : Sorted (bool b) := sorted_atom nofun rfl

theorem sorted_string (s : String) : Sorted (string s) := sorted_atom nofun rfl

/-- The parts of a sorted value are sorted. -/
theorem Sorted.part {p : Value} (h : v.Sorted) (member : p ∈ v.parts) : p.Sorted := by
  cases h with
  | intro _ each => exact each p member

/-- An array is sorted if its elements are. -/
theorem sorted_array : Sorted (array items) ↔ ∀ i ∈ items, i.Sorted :=
  ⟨fun h _ => h.part, fun each => .intro nofun each⟩

/-- A set is sorted if its elements are, whatever their order is. -/
theorem sorted_set : Sorted (set items) ↔ ∀ i ∈ items, i.Sorted :=
  ⟨fun h _ => h.part, fun each => .intro nofun each⟩

/-- An object is sorted if its keys come in order, each once, and its members are sorted. -/
theorem sorted_object :
    Sorted (object members) ↔ SortedMembers members ∧ ∀ m ∈ members, m.2.Sorted := by
  constructor
  · rintro (⟨sorted, each⟩)
    exact ⟨sorted members rfl, fun m member => each m.2 (List.mem_map_of_mem member)⟩
  · rintro ⟨sorted, each⟩
    refine .intro ?_ fun p member => ?_
    · rintro _ ⟨⟩
      exact sorted
    · obtain ⟨m, there, rfl⟩ := List.mem_map.mp member
      exact each m there

/-- A map is sorted if its keys and values are. -/
theorem sorted_map : Sorted (map entries) ↔ ∀ e ∈ entries, e.1.Sorted ∧ e.2.Sorted := by
  constructor
  · intro h e member
    exact ⟨h.part (List.mem_append_left _ (List.mem_map_of_mem member)),
      h.part (List.mem_append_right _ (List.mem_map_of_mem member))⟩
  · intro each
    refine .intro nofun fun p member => ?_
    rcases List.mem_append.mp member with member | member
    · obtain ⟨e, there, rfl⟩ := List.mem_map.mp member
      exact (each e there).1
    · obtain ⟨e, there, rfl⟩ := List.mem_map.mp member
      exact (each e there).2

/-- A promise is sorted if what it is settled with is. -/
theorem sorted_promise : Sorted (promise v) ↔ v.Sorted :=
  ⟨fun h => h.part List.mem_cons_self, fun h => .intro nofun fun _ member =>
    List.mem_singleton.mp member ▸ h⟩

/-- Guards and identity do not matter. -/
theorem sorted_function_congr {f g : Callable Value} (same : f.behaviour = g.behaviour) :
    Sorted (function f) ↔ Sorted (function g) := by
  have alike : (function f).parts = (function g).parts := by
    obtain ⟨_, behaviour, _⟩ := f
    obtain ⟨_, _, _⟩ := g
    obtain rfl := same
    cases behaviour <;> rfl
  constructor
  · exact fun h => .intro nofun fun p member => h.part (alike ▸ member)
  · exact fun h => .intro nofun fun p member => h.part (alike ▸ member)

/-! ### Look-up and building -/

/-- A member that a sorted object has is sorted. -/
theorem Sorted.found (h : Sorted (object members)) (there : findMember? key members = some v) :
    v.Sorted :=
  (sorted_object.mp h).2 _ (mem_of_findMember? there)

/-- The object of sorted members. -/
theorem sorted_objectOf (each : ∀ m ∈ members, m.2.Sorted) : Sorted (objectOf members) := by
  refine sorted_object.mpr ⟨sorted_sortMembers members, fun m member => ?_⟩
  rcases mem_insertAll (sortMembers_eq_insertAll members ▸ member) with member | member
  · exact each m member
  · cases member

/-- Merging equal elements leaves elements that were there before. -/
theorem sorted_setOfItems (each : ∀ i ∈ items, i.Sorted) : Sorted (setOfItems items) :=
  sorted_set.mpr fun i member => each i (mem_of_mem_elementsOf member)

/-- Merging entries of equal keys leaves keys and values that were there before. -/
theorem sorted_mapOfPairs (each : ∀ e ∈ entries, e.1.Sorted ∧ e.2.Sorted) :
    Sorted (mapOfPairs entries) := by
  refine sorted_map.mpr fun e member => ?_
  obtain ⟨⟨v, from_key⟩, k, from_value⟩ := mem_of_mem_entriesOf member
  exact ⟨(each _ from_key).1, (each _ from_value).2⟩

end SchemaSampler.Value
