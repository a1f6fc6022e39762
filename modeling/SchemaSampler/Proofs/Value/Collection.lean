import Mathlib.Data.List.Induction
import SchemaSampler.Value.Collection

namespace SchemaSampler.Value

/-!
# Laws of collections — sets and maps are built once

The lists inside a set or a map are described by what no two of their elements do: an earlier one
never equals a later one (`DistinctElements`, `DistinctKeys`).  Lists of this kind are what building
yields, and building leaves them as they are.  Proofs take the last item off a list, which is the
one that was added or put last (`elementsOf_concat`, `entriesOf_concat`).
-/

/-! ### Sets -/

/-- No element equals a later one. -/
def DistinctElements (elements : List Value) : Prop :=
  elements.Pairwise fun a b => (a == b) = false

/-- The elements of the set of a list of items. -/
def elementsOf (items : List Value) : List Value := items.foldl addElement []

theorem setOfItems_eq (items : List Value) : setOfItems items = set (elementsOf items) := rfl

theorem addElement_of_new {elements : List Value} {item : Value}
    (h : ∀ e ∈ elements, (e == item) = false) : addElement elements item = elements ++ [item] := by
  rw [addElement, if_neg]
  intro found
  obtain ⟨e, member, equal⟩ := List.any_eq_true.mp found
  rw [h e member] at equal
  cases equal

theorem distinct_addElement {elements : List Value} (h : DistinctElements elements)
    (item : Value) : DistinctElements (addElement elements item) := by
  unfold addElement
  split
  · exact h
  · rename_i new
    refine List.pairwise_append.mpr ⟨h, List.pairwise_singleton _ _, fun e member x hx => ?_⟩
    obtain rfl := List.mem_singleton.mp hx
    rw [← Bool.not_eq_true]
    intro equal
    exact new (List.any_eq_true.mpr ⟨e, member, equal⟩)

theorem mem_addElement {elements : List Value} {item e : Value}
    (h : e ∈ addElement elements item) : e ∈ elements ∨ e = item := by
  unfold addElement at h
  split at h
  · exact .inl h
  · rcases List.mem_append.mp h with h | h
    · exact .inl h
    · exact .inr (List.mem_singleton.mp h)

theorem length_addElement_le (elements : List Value) (item : Value) :
    (addElement elements item).length ≤ elements.length + 1 := by
  unfold addElement
  split <;> simp

/-- The last item is added to the set of the others. -/
theorem elementsOf_concat (items : List Value) (item : Value) :
    elementsOf (items ++ [item]) = addElement (elementsOf items) item := by
  rw [elementsOf, List.foldl_append]
  rfl

/-- The elements of a set are distinct. -/
theorem distinct_elementsOf (items : List Value) : DistinctElements (elementsOf items) := by
  induction items using List.reverseRecOn with
  | nil => exact .nil
  | append_singleton items item ih =>
    rw [elementsOf_concat]
    exact distinct_addElement ih item

/-- The elements of a set are among the items it was made of. -/
theorem mem_of_mem_elementsOf {items : List Value} {e : Value} (h : e ∈ elementsOf items) :
    e ∈ items := by
  induction items using List.reverseRecOn with
  | nil => cases h
  | append_singleton items item ih =>
    rw [elementsOf_concat] at h
    rcases mem_addElement h with member | rfl
    · exact List.mem_append_left _ (ih member)
    · simp

/-- A set has at most as many elements as it was made of. -/
theorem length_elementsOf_le (items : List Value) : (elementsOf items).length ≤ items.length := by
  induction items using List.reverseRecOn with
  | nil => exact Nat.le_refl 0
  | append_singleton items item ih =>
    rw [elementsOf_concat, List.length_append, List.length_singleton]
    exact Nat.le_trans (length_addElement_le _ item) (Nat.succ_le_succ ih)

/-- Building a set of distinct items keeps them all. -/
theorem elementsOf_of_distinct {items : List Value} (h : DistinctElements items) :
    elementsOf items = items := by
  induction items using List.reverseRecOn with
  | nil => rfl
  | append_singleton items item ih =>
    obtain ⟨others, -, new⟩ := List.pairwise_append.mp h
    rw [elementsOf_concat, ih others, addElement_of_new fun e member => new e member item (by simp)]

/-! ### Maps -/

/-- No key equals a later one. -/
def DistinctKeys (entries : List (Value × Value)) : Prop :=
  entries.Pairwise fun a b => (a.1 == b.1) = false

/-- Puts entries in turn. -/
def putAll (pairs entries : List (Value × Value)) : List (Value × Value) :=
  pairs.foldl (fun entries (k, v) => putEntry k v entries) entries

/-- The entries of the map of a list of pairs. -/
def entriesOf (pairs : List (Value × Value)) : List (Value × Value) := putAll pairs []

theorem mapOfPairs_eq (pairs : List (Value × Value)) : mapOfPairs pairs = map (entriesOf pairs) :=
  rfl

/-- An entry after one was put is an earlier one, up to its value, or the one put. -/
theorem mem_putEntry {key value : Value} {entries : List (Value × Value)} {e : Value × Value}
    (h : e ∈ putEntry key value entries) :
    e ∈ entries ∨ e = (key, value) ∨ (e.2 = value ∧ ∃ v, (e.1, v) ∈ entries) := by
  induction entries with
  | nil =>
    rw [putEntry, List.mem_singleton] at h
    exact .inr (.inl h)
  | cons head rest ih =>
    obtain ⟨k, v⟩ := head
    unfold putEntry at h
    split at h
    · rcases List.mem_cons.mp h with rfl | member
      · exact .inr (.inr ⟨rfl, v, by simp⟩)
      · exact .inl (by simp [member])
    · rcases List.mem_cons.mp h with rfl | member
      · exact .inl (by simp)
      · rcases ih member with member | rfl | ⟨hv, old, member⟩
        · exact .inl (by simp [member])
        · exact .inr (.inl rfl)
        · exact .inr (.inr ⟨hv, old, by simp [member]⟩)

/-- The key of an entry after one was put is an earlier key or the one put. -/
theorem key_of_mem_putEntry {key value : Value} {entries : List (Value × Value)}
    {e : Value × Value} (h : e ∈ putEntry key value entries) :
    (∃ v, (e.1, v) ∈ entries) ∨ (e.1 = key ∧ ∀ old ∈ entries, (old.1 == key) = false) := by
  induction entries with
  | nil =>
    rw [putEntry, List.mem_singleton] at h
    subst h
    exact .inr ⟨rfl, by simp⟩
  | cons head rest ih =>
    obtain ⟨k, v⟩ := head
    unfold putEntry at h
    split at h
    · rcases List.mem_cons.mp h with rfl | member
      · exact .inl ⟨v, by simp⟩
      · exact .inl ⟨e.2, by simp [member]⟩
    · rename_i differs
      rcases List.mem_cons.mp h with rfl | member
      · exact .inl ⟨v, by simp⟩
      · rcases ih member with ⟨old, member⟩ | ⟨rfl, new⟩
        · exact .inl ⟨old, by simp [member]⟩
        · refine .inr ⟨rfl, fun old member => ?_⟩
          rcases List.mem_cons.mp member with rfl | member
          · exact Bool.not_eq_true _ ▸ differs
          · exact new old member

theorem distinct_putEntry {entries : List (Value × Value)} (h : DistinctKeys entries)
    (key value : Value) : DistinctKeys (putEntry key value entries) := by
  induction entries with
  | nil => exact List.pairwise_singleton _ _
  | cons head rest ih =>
    obtain ⟨k, v⟩ := head
    obtain ⟨first, others⟩ := List.pairwise_cons.mp h
    unfold putEntry
    split
    · exact List.pairwise_cons.mpr ⟨first, others⟩
    · rename_i differs
      refine List.pairwise_cons.mpr ⟨fun e member => ?_, ih others⟩
      rcases key_of_mem_putEntry member with ⟨old, member⟩ | ⟨same, _⟩
      · exact first (e.1, old) member
      · rw [same]
        exact Bool.not_eq_true _ ▸ differs

/-- The value of the last pair is put into the map of the others. -/
theorem entriesOf_concat (pairs : List (Value × Value)) (p : Value × Value) :
    entriesOf (pairs ++ [p]) = putEntry p.1 p.2 (entriesOf pairs) := by
  rw [entriesOf, putAll, List.foldl_append]
  rfl

/-- The keys of a map are distinct. -/
theorem distinct_entriesOf (pairs : List (Value × Value)) : DistinctKeys (entriesOf pairs) := by
  induction pairs using List.reverseRecOn with
  | nil => exact .nil
  | append_singleton pairs p ih =>
    rw [entriesOf_concat]
    exact distinct_putEntry ih p.1 p.2

/-- Keys and values of a map are among those it was made of. -/
theorem mem_of_mem_entriesOf {pairs : List (Value × Value)} {e : Value × Value}
    (h : e ∈ entriesOf pairs) : (∃ v, (e.1, v) ∈ pairs) ∧ ∃ k, (k, e.2) ∈ pairs := by
  induction pairs using List.reverseRecOn generalizing e with
  | nil => cases h
  | append_singleton pairs p ih =>
    rw [entriesOf_concat] at h
    rcases mem_putEntry h with member | rfl | ⟨value, old, member⟩
    · obtain ⟨⟨v, key⟩, k, value⟩ := ih member
      exact ⟨⟨v, List.mem_append_left _ key⟩, k, List.mem_append_left _ value⟩
    · exact ⟨⟨p.2, by simp⟩, p.1, by simp⟩
    · obtain ⟨⟨v, key⟩, -⟩ := ih member
      exact ⟨⟨v, List.mem_append_left _ key⟩, p.1, by simp [value]⟩

theorem putEntry_of_new {key value : Value} {entries : List (Value × Value)}
    (h : ∀ e ∈ entries, (e.1 == key) = false) :
    putEntry key value entries = entries ++ [(key, value)] := by
  induction entries with
  | nil => rfl
  | cons head rest ih =>
    obtain ⟨k, v⟩ := head
    rw [putEntry, if_neg (by rw [h (k, v) (by simp)]; exact Bool.false_ne_true),
      ih fun e member => h e (by simp [member])]
    rfl

/-- Building a map of pairs with distinct keys keeps them all. -/
theorem entriesOf_of_distinct {pairs : List (Value × Value)} (h : DistinctKeys pairs) :
    entriesOf pairs = pairs := by
  induction pairs using List.reverseRecOn with
  | nil => rfl
  | append_singleton pairs p ih =>
    obtain ⟨others, -, new⟩ := List.pairwise_append.mp h
    rw [entriesOf_concat, ih others, putEntry_of_new fun e member => new e member p (by simp)]

end SchemaSampler.Value
