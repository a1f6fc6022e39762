import SchemaSampler.Proofs.Value.Collection
import SchemaSampler.Proofs.Value.Equality
import SchemaSampler.Proofs.Value.Renaming

namespace SchemaSampler.Value

/-!
# Operations respect equality — equal values go in, equal values come out

What is asked of a value has one answer for equal values (`typeName_congr`, `findMember?_congr`),
and what is built of equal values is equal: the set of equal items (`setOfItems_congr`), the map of
equal pairs, the object of equal members, and what two values merge to (`merge_congr`).
-/

/-- Values or none, of which both are there and equal or none is there. -/
abbrev EqualOption : Option Value → Option Value → Prop :=
  Option.Rel fun a b => (a == b) = true

variable {a a' b b' v w : Value}

/-! ### Questions -/

/-- Equal values are of one kind. -/
theorem typeName_congr (h : (a == b) = true) : a.typeName = b.typeName := by
  cases beq_iff_equal.mp h with
  | number equal => rw [typeName, typeName, (Binary64.same_iff.mp equal).1]
  | _ => rfl

/-- **Equality of values is an equivalence**, however deep they are nested, and equal values are of
    one kind. -/
theorem equality_equivalence :
    Equivalence (fun a b : Value => (a == b) = true) ∧
      ∀ a b : Value, (a == b) = true → a.typeName = b.typeName := by
  refine ⟨⟨beq_self, ?_, ?_⟩, fun a b h => typeName_congr h⟩
  · intro a b h
    exact beq_symm h
  · intro a b c h h'
    exact beq_trans h h'

/-- A promise of a map, under NaN a set of a zero: the sign of the zero does not matter. -/
theorem equality_equivalence_nested :
    let v (zero : Float) : Value := promise (map [(number Binary64.nan, set [number zero])])
    (v 0 == v (-0)) = true ∧ (v (-0) == v 0) = true ∧ (v (-0) == v (-0)) = true ∧
      (v 0).typeName = (v (-0)).typeName := by
  intro v
  have zeros : (number 0 == number (-0)) = true := beq_iff_equal.mpr (.number (by decide))
  have elements : (set [number 0] == set [number (-0)]) = true :=
    beq_iff_equal.mpr (.set (.cons zeros .nil))
  have equal : (v 0 == v (-0)) = true :=
    beq_iff_equal.mpr (.promise (beq_iff_equal.mpr (.map (.cons ⟨beq_self _, elements⟩ .nil))))
  obtain ⟨equivalence, kind⟩ := equality_equivalence
  have turned := equivalence.symm equal
  exact ⟨equal, turned, equivalence.trans turned equal, kind _ _ equal⟩

/-- Equal values are both absent or neither is. -/
theorem isUndefined_congr (h : (a == b) = true) : a.isUndefined = b.isUndefined := by
  cases beq_iff_equal.mp h <;> rfl

/-- Equal values are the same text or no texts. -/
theorem asString?_congr (h : (a == b) = true) : a.asString? = b.asString? := by
  cases beq_iff_equal.mp h <;> rfl

/-- Both are not a number, or neither is. -/
theorem isNaN_congr (h : (a == b) = true) :
    a.asNumber?.any Float.isNaN = b.asNumber?.any Float.isNaN := by
  cases beq_iff_equal.mp h with
  | number equal => exact (Binary64.same_iff.mp equal).1
  | _ => rfl

/-! ### Sets -/

section Sets

variable {items items' elements elements' : List Value}

/-- Equal values occur in equal lists alike. -/
theorem any_beq_congr (equal : EqualAll elements elements') (h : (v == w) = true) :
    elements.any (· == v) = elements'.any (· == w) := by
  induction equal with
  | nil => rfl
  | cons head _ ih => rw [List.any_cons, List.any_cons, beq_congr head h, ih]

/-- Of equal elements both are there already or neither is. -/
theorem addElement_congr (equal : EqualAll elements elements') (h : (v == w) = true) :
    EqualAll (addElement elements v) (addElement elements' w) := by
  unfold addElement
  rw [any_beq_congr equal h]
  split
  · exact equal
  · exact List.rel_append equal (.cons h .nil)

/-- Equal lists of elements make equal sets. -/
theorem elementsOf_congr (equal : EqualAll items items') :
    EqualAll (elementsOf items) (elementsOf items') := by
  refine List.rel_foldl ?_ .nil equal
  intro elements elements' collected v w h
  exact addElement_congr collected h

/-- The sets of equal items are equal. -/
theorem setOfItems_congr (equal : EqualAll items items') :
    (setOfItems items == setOfItems items') = true :=
  beq_iff_equal.mpr (.set (elementsOf_congr equal))

end Sets

/-! ### Maps -/

section Maps

variable {pairs pairs' entries entries' : List (Value × Value)}

/-- Of equal keys both are there already or neither is. -/
theorem putEntry_congr (equal : EqualEntries entries entries') (key : (a == a') = true)
    (value : (v == w) = true) : EqualEntries (putEntry a v entries) (putEntry a' w entries') := by
  induction equal with
  | nil => exact .cons ⟨key, value⟩ .nil
  | @cons e f entries entries' head rest ih =>
    rw [putEntry, putEntry, beq_congr head.1 key]
    -- An equal key stays as it is spelled, in both lists.
    split
    · exact .cons ⟨head.1, value⟩ rest
    · exact .cons head ih

/-- Equal lists of pairs make equal maps. -/
theorem entriesOf_congr (equal : EqualEntries pairs pairs') :
    EqualEntries (entriesOf pairs) (entriesOf pairs') := by
  refine List.rel_foldl ?_ .nil equal
  intro entries entries' collected p q h
  exact putEntry_congr collected h.1 h.2

/-- The maps of equal pairs are equal. -/
theorem mapOfPairs_congr (equal : EqualEntries pairs pairs') :
    (mapOfPairs pairs == mapOfPairs pairs') = true :=
  beq_iff_equal.mpr (.map (entriesOf_congr equal))

end Maps

/-! ### Objects -/

section Objects

variable {members members' sorted sorted' : List (String × Value)}

/-- Equal values under one name are put in the same place. -/
theorem insertMember_congr (key : String) (equal : EqualMembers members members')
    (h : (v == w) = true) :
    EqualMembers (insertMember key v members) (insertMember key w members') := by
  induction equal with
  | nil => exact .cons ⟨rfl, h⟩ .nil
  | @cons m n members members' head rest ih =>
    obtain ⟨k, x⟩ := m
    obtain ⟨l, y⟩ := n
    obtain ⟨rfl, equal⟩ : k = l ∧ (x == y) = true := head
    rw [insertMember, insertMember]
    split
    · exact .cons ⟨rfl, h⟩ (.cons ⟨rfl, equal⟩ rest)
    · split
      · exact .cons ⟨rfl, h⟩ rest
      · exact .cons ⟨rfl, equal⟩ ih

/-- The same for several members. -/
theorem insertAll_congr (equal : EqualMembers members members')
    (h : EqualMembers sorted sorted') :
    EqualMembers (insertAll members sorted) (insertAll members' sorted') := by
  refine List.rel_foldl ?_ h equal
  intro out out' collected m n same
  show EqualMembers (insertMember m.1 m.2 out) (insertMember n.1 n.2 out')
  rw [← same.1]
  exact insertMember_congr m.1 collected same.2

/-- The objects of equal members are equal. -/
theorem objectOf_congr (equal : EqualMembers members members') :
    (objectOf members == objectOf members') = true := by
  rw [objectOf, objectOf, sortMembers_eq_insertAll, sortMembers_eq_insertAll]
  exact beq_iff_equal.mpr (.object (insertAll_congr equal .nil))

/-- Equal objects have equal members under a name. -/
theorem findMember?_congr (key : String) (equal : EqualMembers members members') :
    EqualOption (findMember? key members) (findMember? key members') := by
  induction equal with
  | nil => exact .none
  | @cons m n members members' head rest ih =>
    rw [findMember?, findMember?, ← head.1]
    split
    · exact .some head.2
    · exact ih

end Objects

/-! ### Merging -/

/-- Values that are not both objects nor both arrays merge alike with equal ones. -/
theorem merge_congr_of_ne (ha : (a == a') = true) (hb : (b == b') = true)
    (objects : ∀ l r, a = object l → b ≠ object r) (arrays : ∀ l r, a = array l → b ≠ array r) :
    EqualOption (merge a b) (merge a' b') := by
  rw [merge_eq_of_ne objects arrays, merge_eq_of_ne, ← beq_congr ha hb]
  · split
    · exact .some ha
    · exact .none
  · rintro l r rfl rfl
    cases beq_iff_equal.mp ha
    cases beq_iff_equal.mp hb
    exact objects _ _ rfl rfl
  · rintro l r rfl rfl
    cases beq_iff_equal.mp ha
    cases beq_iff_equal.mp hb
    exact arrays _ _ rfl rfl

mutual

/-- Equal values merge to equal results. -/
theorem merge_congr : (b : Value) → ∀ {b' a a' : Value}, (a == a') = true → (b == b') = true →
    EqualOption (merge a b) (merge a' b')
  | b, b', a, a', ha, hb => by
    -- Two objects and two arrays merge by their contents, all others only if they are equal.
    by_cases objects : ∃ l r, a = object l ∧ b = object r
    · obtain ⟨left, right, rfl, rfl⟩ := objects
      cases beq_iff_equal.mp ha with
      | object left_equal =>
        cases beq_iff_equal.mp hb with
        | object right_equal =>
          rw [merge, merge]
          exact rel_map (mergeMembers_congr right left_equal right_equal)
            fun _ _ equal => beq_iff_equal.mpr (.object equal)
    · by_cases arrays : ∃ l r, a = array l ∧ b = array r
      · obtain ⟨left, right, rfl, rfl⟩ := arrays
        cases beq_iff_equal.mp ha with
        | array left_equal =>
          cases beq_iff_equal.mp hb with
          | array right_equal =>
            rw [merge, merge]
            exact rel_map (mergeAll_congr right left_equal right_equal)
              fun _ _ equal => beq_iff_equal.mpr (.array equal)
      · exact merge_congr_of_ne ha hb (fun l r hl hr => objects ⟨l, r, hl, hr⟩)
          fun l r hl hr => arrays ⟨l, r, hl, hr⟩

/-- Equal members merge to equal ones, by recursion on the right side. -/
theorem mergeMembers_congr : (right : List (String × Value)) →
    ∀ {right' left left' : List (String × Value)}, EqualMembers left left' →
      EqualMembers right right' →
      Option.Rel EqualMembers (mergeMembers left right) (mergeMembers left' right')
  | [], _, _, _, left_equal, .nil => .some left_equal
  | (key, v) :: rest, _, left, left', left_equal, .cons head rest_equal => by
    rename_i n rest'
    obtain ⟨key', w⟩ := n
    obtain ⟨rfl, equal⟩ : key = key' ∧ (v == w) = true := head
    have go_on {x y : Value} (merged : (x == y) = true) :
        Option.Rel EqualMembers (mergeMembers (insertMember key x left) rest)
          (mergeMembers (insertMember key y left') rest') :=
      mergeMembers_congr rest (insertMember_congr key left_equal merged) rest_equal
    -- A member that both sides have is merged before it is entered.
    have found := findMember?_congr key left_equal
    rw [mergeMembers, mergeMembers]
    generalize findMember? key left = x at found
    generalize findMember? key left' = y at found
    cases found with
    | none => exact go_on equal
    | some existing =>
      exact rel_bind (merge_congr v existing equal) fun _ _ merged => go_on merged

/-- Equal elements merge to equal ones, by recursion on the right side. -/
theorem mergeAll_congr : (right : List Value) →
    ∀ {right' left left' : List Value}, EqualAll left left' → EqualAll right right' →
      Option.Rel EqualAll (mergeAll left right) (mergeAll left' right')
  | [], _, _, _, left_equal, .nil => by
    cases left_equal with
    | nil => exact .some .nil
    | cons _ _ => exact .none
  | b :: right, _, _, _, left_equal, .cons head right_equal => by
    cases left_equal with
    | nil => exact .none
    | cons first left_equal =>
      rw [mergeAll, mergeAll]
      exact rel_bind (merge_congr b first head) fun _ _ merged =>
        rel_bind (mergeAll_congr right left_equal right_equal) fun _ _ rest =>
          .some (.cons merged rest)

end

end SchemaSampler.Value
