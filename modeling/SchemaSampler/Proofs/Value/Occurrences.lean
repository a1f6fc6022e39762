import SchemaSampler.Proofs.Value.Congruence

namespace SchemaSampler.Value

/-!
# Occurrences — what collections keep of the lists they are built of

* `elementsOf_eq` — the elements of a set are the first occurrences along the list of items.
* `keys_entriesOf` — the keys of a map are the elements of the set of the keys, so each stands where
  it came first and is spelled as there.
* `lastValue?_of_mem` — the value under a key is the one that was given last for it.

Both ways of building look at the list collected so far only.  That it stands for everything that
came before is due to equality being an equivalence: what equals an earlier item equals the element
which stands for that item.
-/

/-- The items of a list that equal no item before them. -/
def firstOccurrences (items : List Value) : List Value :=
  (items.zipIdx.filter fun p => !(items.take p.2).any (· == p.1)).map Prod.fst

/-- The value of the last pair with a key. -/
def lastValue? (key : Value) (pairs : List (Value × Value)) : Option Value :=
  (pairs.reverse.find? (·.1 == key)).map Prod.snd

variable {items : List Value} {pairs entries : List (Value × Value)} {key v : Value}

/-! ### The last item of a list -/

theorem firstOccurrences_concat (items : List Value) (item : Value) :
    firstOccurrences (items ++ [item]) =
      if items.any (· == item) then firstOccurrences items
      else firstOccurrences items ++ [item] := by
  have earlier : (items.zipIdx.filter fun p => !((items ++ [item]).take p.2).any (· == p.1)) =
      items.zipIdx.filter fun p => !(items.take p.2).any (· == p.1) := by
    refine List.filter_congr fun p member => ?_
    have inside : p.2 < items.length := List.snd_lt_of_mem_zipIdx member
    rw [List.take_append_of_le_length inside.le]
  unfold firstOccurrences
  rw [List.zipIdx_append, List.filter_append, earlier]
  by_cases old : items.any (· == item) <;> simp [old]

theorem lastValue?_concat (key : Value) (pairs : List (Value × Value)) (p : Value × Value) :
    lastValue? key (pairs ++ [p]) = if p.1 == key then some p.2 else lastValue? key pairs := by
  unfold lastValue?
  rw [List.reverse_append, List.reverse_singleton, List.singleton_append, List.find?_cons]
  by_cases same : p.1 == key <;> simp [same]

/-! ### Sets -/

/-- Each item has an element that stands for it. -/
theorem exists_element {item : Value} (member : item ∈ items) :
    ∃ e ∈ elementsOf items, (e == item) = true := by
  induction items using List.reverseRecOn with
  | nil => cases member
  | append_singleton items last ih =>
    rw [elementsOf_concat, addElement]
    rcases List.mem_append.mp member with member | member
    · obtain ⟨e, there, equal⟩ := ih member
      refine ⟨e, ?_, equal⟩
      split
      · exact there
      · exact List.mem_append_left _ there
    · obtain rfl := List.mem_singleton.mp member
      split
      · rename_i found
        exact List.any_eq_true.mp found
      · exact ⟨item, by simp, beq_self item⟩

/-- A value occurs among the elements when it occurs among the items. -/
theorem any_elementsOf (items : List Value) (v : Value) :
    (elementsOf items).any (· == v) = items.any (· == v) := by
  rw [Bool.eq_iff_iff, List.any_eq_true, List.any_eq_true]
  constructor
  · rintro ⟨e, member, equal⟩
    exact ⟨e, mem_of_mem_elementsOf member, equal⟩
  · rintro ⟨item, member, equal⟩
    obtain ⟨e, there, stands⟩ := exists_element member
    exact ⟨e, there, beq_trans stands equal⟩

/-- A set keeps the first occurrences. -/
theorem elementsOf_eq (items : List Value) : elementsOf items = firstOccurrences items := by
  induction items using List.reverseRecOn with
  | nil => rfl
  | append_singleton items item ih =>
    rw [elementsOf_concat, firstOccurrences_concat, addElement, any_elementsOf, ih]

/-! ### Maps -/

/-- To put a value under a key adds the key to the set of keys. -/
theorem keys_putEntry (key value : Value) (entries : List (Value × Value)) :
    (putEntry key value entries).map Prod.fst = addElement (entries.map Prod.fst) key := by
  induction entries with
  | nil => rfl
  | cons head rest ih =>
    obtain ⟨k, v⟩ := head
    rw [putEntry, addElement, List.map_cons, List.any_cons]
    by_cases same : k == key
    · simp [same]
    · rw [if_neg same, List.map_cons, ih, addElement]
      simp only [same, Bool.false_or]
      split <;> simp

/-- The keys of a map are the set of the keys of its pairs. -/
theorem keys_entriesOf (pairs : List (Value × Value)) :
    (entriesOf pairs).map Prod.fst = elementsOf (pairs.map Prod.fst) := by
  induction pairs using List.reverseRecOn with
  | nil => rfl
  | append_singleton pairs p ih =>
    rw [entriesOf_concat, keys_putEntry, ih, List.map_append, List.map_singleton, elementsOf_concat]

/-- The entries after a value was put under a key: the one under this key has the value, and the
    others are as before. -/
theorem value_of_mem_putEntry (distinct : DistinctKeys entries) {e : Value × Value}
    (member : e ∈ putEntry key v entries) :
    (e.1 == key) = true ∧ e.2 = v ∨ (e.1 == key) = false ∧ e ∈ entries := by
  induction entries with
  | nil =>
    obtain rfl := List.mem_singleton.mp member
    exact .inl ⟨beq_self key, rfl⟩
  | cons head rest ih =>
    obtain ⟨k, old⟩ := head
    obtain ⟨first, others⟩ := List.pairwise_cons.mp distinct
    rw [putEntry] at member
    by_cases same : (k == key) = true
    · rw [if_pos same] at member
      rcases List.mem_cons.mp member with rfl | member
      · exact .inl ⟨same, rfl⟩
      · -- A second key equal to the one given would equal the first.
        refine .inr ⟨?_, List.mem_cons_of_mem _ member⟩
        rw [beq_comm, ← beq_congr same (beq_self e.1)]
        exact first e member
    · rw [if_neg same] at member
      rcases List.mem_cons.mp member with rfl | member
      · exact .inr ⟨by simpa using same, by simp⟩
      · rcases ih others member with put | ⟨differs, member⟩
        · exact .inl put
        · exact .inr ⟨differs, List.mem_cons_of_mem _ member⟩

/-- The value under a key is the last one given for it. -/
theorem lastValue?_of_mem {e : Value × Value} (member : e ∈ entriesOf pairs) :
    lastValue? e.1 pairs = some e.2 := by
  induction pairs using List.reverseRecOn with
  | nil => cases member
  | append_singleton pairs p ih =>
    rw [entriesOf_concat] at member
    rw [lastValue?_concat]
    rcases value_of_mem_putEntry (distinct_entriesOf pairs) member with
      ⟨same, value⟩ | ⟨differs, member⟩
    · rw [if_pos (beq_symm same), value]
    · rw [beq_comm, differs, ih member]
      rfl

/-! ### Collections -/

/-- **What comes first gives the place, what comes last the value.**  A map has one entry for each
    key of its pairs: where the key came first, spelled as there, with the value that came last for
    it.  A set has one element for each item, where it came first.  Either, taken as the list to
    build of, gives itself again.  Two numbers are one key when they compare equal, as the zeros do,
    and also when both are NaN. -/
theorem collections_keep_occurrences :
    (∀ pairs, ∃ entries, mapOfPairs pairs = map entries ∧ DistinctKeys entries ∧
      entries.map Prod.fst = firstOccurrences (pairs.map Prod.fst) ∧
      (∀ e ∈ entries, e.1 ∈ pairs.map Prod.fst ∧ lastValue? e.1 pairs = some e.2) ∧
      (∀ p ∈ pairs, ∃ e ∈ entries, (e.1 == p.1) = true) ∧
      mapOfPairs entries = map entries) ∧
    (∀ items, ∃ elements, setOfItems items = set elements ∧ DistinctElements elements ∧
      elements = firstOccurrences items ∧ setOfItems elements = set elements) ∧
    (∀ x y : Float, ((x == y) = true ∨ x.isNaN = true ∧ y.isNaN = true) → ∀ v w,
      mapOfPairs [(number x, v), (number y, w)] = map [(number x, w)] ∧
        setOfItems [number x, number y] = set [number x]) ∧
    ((0 : Float) == -0) = true := by
  refine ⟨fun pairs => ?_, fun items => ?_, fun x y equal v w => ?_, by decide⟩
  · have keys := keys_entriesOf pairs
    refine ⟨entriesOf pairs, rfl, distinct_entriesOf pairs, by rw [keys, elementsOf_eq], ?_, ?_, ?_⟩
    · intro e member
      refine ⟨mem_of_mem_elementsOf ?_, lastValue?_of_mem member⟩
      rw [← keys]
      exact List.mem_map_of_mem member
    · intro p member
      obtain ⟨k, there, equal⟩ := exists_element (List.mem_map_of_mem (f := Prod.fst) member)
      rw [← keys] at there
      obtain ⟨e, entry, rfl⟩ := List.mem_map.mp there
      exact ⟨e, entry, equal⟩
    · rw [mapOfPairs_eq, entriesOf_of_distinct (distinct_entriesOf pairs)]
  · refine ⟨elementsOf items, rfl, distinct_elementsOf items, elementsOf_eq items, ?_⟩
    rw [setOfItems_eq, elementsOf_of_distinct (distinct_elementsOf items)]
  · have same : (number x == number y) = true := by
      refine beq_iff_equal.mpr (.number ?_)
      rw [Binary64.same, Bool.or_eq_true, Bool.and_eq_true]
      exact equal
    exact ⟨by simp [mapOfPairs, putEntry, same], by simp [setOfItems, addElement, same]⟩

/-- A zero that is written again under the other sign stays as it was spelled first, with the value
    that came last. -/
theorem collections_keep_occurrences_zeros :
    ((0 : Float) == -0) = true ∧
      mapOfPairs [(number 0, null), (number (-0), bool true)] = map [(number 0, bool true)] ∧
      lastValue? (number 0) [(number 0, null), (number (-0), bool true)] = some (bool true) := by
  obtain ⟨maps, -, numbers, zeros⟩ := collections_keep_occurrences
  obtain ⟨entries, built, -, -, values, -⟩ := maps [(number 0, null), (number (-0), bool true)]
  have merged := (numbers 0 (-0) (.inl zeros) null (bool true)).1
  obtain rfl : entries = [(number 0, bool true)] := by
    rw [built] at merged
    exact Value.map.inj merged
  exact ⟨zeros, merged, (values (number 0, bool true) (by simp)).2⟩

end SchemaSampler.Value
