import SchemaSampler.Proofs.Binary64.Accuracy
import SchemaSampler.Proofs.Lists
import SchemaSampler.Proofs.Value.Equality
import SchemaSampler.Value.Document

namespace SchemaSampler

/-!
# Documents — which values have one, and what comes back from it

A value has a document exactly if it is `Writable`: built of the kinds that JSON knows, but for
absent members of objects.  The document keeps all of it except these members (`withoutAbsent`),
and one value at any depth that cannot be written leaves the whole value without a document.

* `Value.eq_of_toJson?` — what has a document is writable, and comes back without absent members.
* `Value.isSome_toJson?` — what is writable has a document.
* `Value.toJson?_iff` — both, and that the value of a document comes back as it is.
-/

/-- A number of a document is an integer of at most 64 bits or a finite floating-point number. -/
def JsonNumber.Finite : JsonNumber → Prop
  | int n => -2 ^ 63 ≤ n ∧ n < 2 ^ 64
  | float x => x.isFinite = true

/-- All numbers of a document are finite. -/
inductive Json.Finite : Json → Prop where
  | null : Finite null
  | bool (b : Bool) : Finite (bool b)
  | number {n : JsonNumber} (h : n.Finite) : Finite (number n)
  | string (s : String) : Finite (string s)
  | array {items : List Json} (each : ∀ d ∈ items, Finite d) : Finite (array items)
  | object {members : List (String × Json)} (each : ∀ m ∈ members, Finite m.2) :
    Finite (object members)

namespace Value

/-- A value is built of the kinds that JSON knows, with finite numbers only.  Members of objects may
    be absent as well. -/
inductive Writable : Value → Prop where
  | null : Writable null
  | bool (b : Bool) : Writable (bool b)
  | number {x : Float} (finite : x.isFinite = true) : Writable (number x)
  | string (s : String) : Writable (string s)
  | array {items : List Value} (each : ∀ v ∈ items, Writable v) : Writable (array items)
  | object {members : List (String × Value)}
    (each : ∀ m ∈ members, m.2 ≠ undefined → Writable m.2) : Writable (object members)

mutual

/-- The value without absent members, at every depth of arrays and objects. -/
def withoutAbsent : Value → Value
  | array items => array (itemsWithoutAbsent items)
  | object members => object (membersWithoutAbsent members)
  | v => v

/-- The same for the items of an array, of which none is left out. -/
def itemsWithoutAbsent : List Value → List Value
  | [] => []
  | v :: rest => withoutAbsent v :: itemsWithoutAbsent rest

/-- The same for the members of an object. -/
def membersWithoutAbsent : List (String × Value) → List (String × Value)
  | [] => []
  | (key, v) :: rest =>
    if v.isUndefined then membersWithoutAbsent rest
    else (key, withoutAbsent v) :: membersWithoutAbsent rest

end

/-! ### Arrays and objects as lists -/

/-- The members of an object that are not absent. -/
def presentMembers (members : List (String × Value)) : List (String × Value) :=
  members.filter fun m => !m.2.isUndefined

theorem mem_presentMembers {members : List (String × Value)} {m : String × Value} :
    m ∈ presentMembers members ↔ m ∈ members ∧ m.2 ≠ undefined := by
  rw [presentMembers, List.mem_filter]
  cases m.2 <;> simp [isUndefined]

theorem itemsWithoutAbsent_eq (items : List Value) :
    itemsWithoutAbsent items = items.map withoutAbsent := by
  induction items with
  | nil => rfl
  | cons v rest ih => rw [itemsWithoutAbsent, ih, List.map_cons]

theorem membersWithoutAbsent_eq (members : List (String × Value)) :
    membersWithoutAbsent members =
      (presentMembers members).map fun m => (m.1, m.2.withoutAbsent) := by
  induction members with
  | nil => rfl
  | cons m rest ih =>
    obtain ⟨key, v⟩ := m
    unfold membersWithoutAbsent
    by_cases absent : v.isUndefined = true
    · simp [absent, ih, presentMembers]
    · simp [absent, ih, presentMembers]

theorem itemsToJson?_eq (items : List Value) : itemsToJson? items = items.mapM toJson? := by
  induction items with
  | nil => rfl
  | cons v rest ih =>
    rw [itemsToJson?, ih, List.mapM_cons]
    rfl

theorem membersToJson?_eq (members : List (String × Value)) :
    membersToJson? members =
      (presentMembers members).mapM fun m => (toJson? m.2).map (Prod.mk m.1) := by
  induction members with
  | nil => rfl
  | cons m rest ih =>
    obtain ⟨key, v⟩ := m
    unfold membersToJson?
    by_cases absent : v.isUndefined = true
    · simp [absent, ih, presentMembers]
    · simp only [absent, ih, presentMembers, List.filter_cons, Bool.not_false, if_true,
        List.mapM_cons, Bool.false_eq_true, if_false]
      cases toJson? v <;> rfl

theorem ofJsonItems_eq (items : List Json) : ofJsonItems items = items.map ofJson := by
  induction items with
  | nil => rfl
  | cons d rest ih => rw [ofJsonItems, ih, List.map_cons]

theorem ofJsonMembers_eq (members : List (String × Json)) :
    ofJsonMembers members = members.map fun m => (m.1, ofJson m.2) := by
  induction members with
  | nil => rfl
  | cons m rest ih => rw [ofJsonMembers, ih, List.map_cons]

/-- **Induction over arrays and objects.** A property holds of all values if it passes from the items
    of an array and the members of an object to the whole, and holds of what is neither. -/
@[elab_as_elim]
theorem nesting_induction {motive : Value → Prop}
    (array : ∀ items, (∀ v ∈ items, motive v) → motive (array items))
    (object : ∀ members, (∀ m ∈ members, motive m.2) → motive (object members))
    (flat : ∀ v, v.depth = 0 → motive v) (v : Value) : motive v := by
  cases v with
  | array items => exact array items fun v member => nesting_induction array object flat v
  | object members => exact object members fun m member => nesting_induction array object flat m.2
  | _ => exact flat _ rfl
termination_by sizeOf v
decreasing_by
  · have := List.sizeOf_lt_of_mem member
    simp only [Value.array.sizeOf_spec]
    omega
  · have := sizeOf_snd_lt member
    simp only [Value.object.sizeOf_spec]
    omega

/-! ### From values to documents and back -/

/-- What has a document is writable, and what comes back from the document is the value without
    absent members. -/
theorem eq_of_toJson? {v : Value} {d : Json} (h : toJson? v = some d) :
    v.Writable ∧ ofJson d = v.withoutAbsent := by
  induction v using nesting_induction generalizing d with
  | array items ih =>
    rw [toJson?, itemsToJson?_eq] at h
    obtain ⟨ds, run, rfl⟩ := Option.map_eq_some_iff.mp h
    have each := mapM_eq_some_iff.mp run
    refine ⟨.array fun v member => ?_, ?_⟩
    · obtain ⟨d, -, written⟩ := exists_of_mem_left each member
      exact (ih v member written).1
    · have same : ds.map ofJson = items.map withoutAbsent :=
        map_eq_map (forall₂_of_mem_left each fun v d member written => (ih v member written).2)
      rw [ofJson, withoutAbsent, ofJsonItems_eq, itemsWithoutAbsent_eq, same]
  | object members ih =>
    -- Absent members are left out on both sides before anything is written.
    rw [toJson?, membersToJson?_eq] at h
    obtain ⟨ds, run, rfl⟩ := Option.map_eq_some_iff.mp h
    have each := mapM_eq_some_iff.mp run
    refine ⟨.object fun m member there => ?_, ?_⟩
    · obtain ⟨_, -, written⟩ := exists_of_mem_left each (mem_presentMembers.mpr ⟨member, there⟩)
      obtain ⟨d, written, -⟩ := Option.map_eq_some_iff.mp written
      exact (ih m member written).1
    · have same : (ds.map fun m => (m.1, ofJson m.2)) =
          (presentMembers members).map fun m => (m.1, m.2.withoutAbsent) := by
        refine map_eq_map (forall₂_of_mem_left each fun m p member written => ?_)
        obtain ⟨d, value_written, rfl⟩ := Option.map_eq_some_iff.mp written
        rw [(ih m (mem_presentMembers.mp member).1 value_written).2]
      rw [ofJson, withoutAbsent, ofJsonMembers_eq, membersWithoutAbsent_eq, same]
  | flat v shallow =>
    cases v with
    | array items => cases shallow
    | object members => cases shallow
    | null =>
      cases h
      exact ⟨.null, rfl⟩
    | bool b =>
      cases h
      exact ⟨.bool b, rfl⟩
    | string s =>
      cases h
      exact ⟨.string s, rfl⟩
    | number x =>
      -- Only a finite number is written, and as the float that it is.
      rw [toJson?] at h
      split at h
      · rename_i finite
        cases h
        exact ⟨.number finite, rfl⟩
      · cases h
    | _ => cases h

/-- What is writable has a document. -/
theorem isSome_toJson? {v : Value} (h : v.Writable) : (toJson? v).isSome = true := by
  induction h with
  | null | bool | string => rfl
  | number finite => simp [toJson?, finite]
  | array _ ih =>
    rw [toJson?, itemsToJson?_eq, Option.isSome_map]
    exact isSome_mapM ih
  | object _ ih =>
    rw [toJson?, membersToJson?_eq, Option.isSome_map]
    refine isSome_mapM fun m member => ?_
    obtain ⟨member, there⟩ := mem_presentMembers.mp member
    rw [Option.isSome_map]
    exact ih m member there

/-! ### From documents to values and back -/

/-- No document is the absent value. -/
theorem isUndefined_ofJson (d : Json) : (ofJson d).isUndefined = false := by
  cases d <;> rfl

/-- The numbers of a document whose numbers are finite stay finite as values, also the integers that
    are rounded. -/
theorem isFinite_toFloat {n : JsonNumber} (h : n.Finite) : n.toFloat.isFinite = true := by
  cases n with
  | int n =>
    -- An integer of 64 bits is far from the largest float, however it is rounded.
    obtain ⟨least, most⟩ := h
    show (Binary64.ofInt n).isFinite = true
    apply Binary64.isFinite_ofInt
    omega
  | float x => exact h

/-- The value of a document is writable and has no absent members. -/
theorem writable_ofJson {d : Json} (h : d.Finite) :
    (ofJson d).Writable ∧ (ofJson d).withoutAbsent = ofJson d := by
  induction h with
  | null => exact ⟨.null, rfl⟩
  | bool b => exact ⟨.bool b, rfl⟩
  | number h => exact ⟨.number (isFinite_toFloat h), rfl⟩
  | string s => exact ⟨.string s, rfl⟩
  | @array items _ ih =>
    rw [ofJson, ofJsonItems_eq]
    constructor
    · refine .array fun v member => ?_
      obtain ⟨d, there, rfl⟩ := List.mem_map.mp member
      exact (ih d there).1
    · rw [withoutAbsent, itemsWithoutAbsent_eq, List.map_map]
      exact congrArg array (List.map_congr_left fun d there => (ih d there).2)
  | @object members _ ih =>
    rw [ofJson, ofJsonMembers_eq]
    constructor
    · refine .object fun m member _ => ?_
      obtain ⟨m, there, rfl⟩ := List.mem_map.mp member
      exact (ih m there).1
    · -- All members are there, so that none is left out.
      have present : presentMembers (members.map fun m => (m.1, ofJson m.2)) =
          members.map fun m => (m.1, ofJson m.2) := by
        refine List.filter_eq_self.mpr fun m member => ?_
        obtain ⟨m, _, rfl⟩ := List.mem_map.mp member
        simp [isUndefined_ofJson]
      rw [withoutAbsent, membersWithoutAbsent_eq, present, List.map_map]
      refine congrArg object (List.map_congr_left fun m there => ?_)
      show (m.1, (ofJson m.2).withoutAbsent) = (m.1, ofJson m.2)
      rw [(ih m there).2]

/-- **Documents of values.** A value has a document exactly if it is built of the empty value, truth
    values, finite numbers, texts, arrays and objects, but for absent members of objects; and what
    comes back from its document is the value without these members.  The value of every document
    with finite numbers has a document, from which the same value comes back. -/
theorem toJson?_iff :
    (∀ v : Value, (toJson? v).isSome = true ↔ v.Writable) ∧
      (∀ (v : Value) (d : Json), toJson? v = some d → ofJson d = v.withoutAbsent) ∧
      ∀ j : Json, j.Finite → ∃ d, toJson? (ofJson j) = some d ∧ ofJson d = ofJson j := by
  refine ⟨fun v => ⟨fun has => ?_, isSome_toJson?⟩, fun v d written => (eq_of_toJson? written).2,
    fun j finite => ?_⟩
  · obtain ⟨d, written⟩ := Option.isSome_iff_exists.mp has
    exact (eq_of_toJson? written).1
  · obtain ⟨writable, whole⟩ := writable_ofJson finite
    obtain ⟨d, written⟩ := Option.isSome_iff_exists.mp (isSome_toJson? writable)
    exact ⟨d, written, (eq_of_toJson? written).2.trans whole⟩

/-- A negative zero and two absent members at different depths: the document keeps the first and
    drops the others.  The largest integer of a document comes back rounded, and then stays. -/
theorem toJson?_iff_nested :
    let v : Value := .object [("gone", .undefined),
      ("kept", .array [.number (-0.0), .object [("gone", .undefined), ("kept", .null)]])]
    let d : Json := .object [("kept", .array [.number (.float (-0.0)), .object [("kept", .null)]])]
    let j : Json := .array [.number (.int (2 ^ 64 - 1))]
    toJson? v = some d ∧ ofJson d = .object
        [("kept", .array [.number (-0.0), .object [("kept", .null)]])] ∧
      ∃ d', toJson? (ofJson j) = some d' ∧ ofJson d' = ofJson j := by
  intro v d j
  have written : toJson? v = some d := rfl
  refine ⟨written, (toJson?_iff.2.1 v d written).trans rfl, toJson?_iff.2.2 j ?_⟩
  exact .array fun d there => List.mem_singleton.mp there ▸ .number ⟨by norm_num, by norm_num⟩

end Value

end SchemaSampler
