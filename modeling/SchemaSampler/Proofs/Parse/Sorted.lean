import SchemaSampler.Proofs.Parse.Idempotence
import SchemaSampler.Proofs.Value.Merge

namespace SchemaSampler

open Parsed

/-!
# Sorted results — what is made of sorted values is sorted

Objects that a test builds are sorted by key, and all other results are made of the values that
were tested and of those that the schema brings along.  So a test of a sorted value has a sorted
result if what the schema brings along is sorted (`Schema.parseWithin_sorted`).
-/

/-- The values that a shape brings along are sorted, and its functions make sorted values of sorted
    ones. -/
def Shape.BringsSorted {σ : Type} : Shape σ → Prop
  | .default _ v | .caught _ v => v.Sorted
  | .effects _ (.transform f) => ∀ v w : Value, v.Sorted → f v = .ok w → w.Sorted
  | .effects _ (.preprocess f) => ∀ v : Value, v.Sorted → (f v).Sorted
  | _ => True

/-- The tests against a schema have sorted results for sorted values. -/
def Recur.KeepsSorted (recur : Recur) (s : Schema) : Prop :=
  ∀ site (v w : Value), v.Sorted → recur site s v = some (.ok w) → w.Sorted

section Level

variable {recur : Recur} {site : Site} {v w : Value}

/-- What is entered for declared members are the results for them. -/
theorem mem_declaredResult {fields : List (String × Schema)} {input start : List (String × Value)}
    {ws : List Value} {m : String × Value} (h : m ∈ declaredResult fields input ws start) :
    m ∈ start ∨ m.2 ∈ ws := by
  induction fields generalizing ws start with
  | nil => exact .inl h
  | cons field rest ih =>
    cases ws with
    | nil => exact .inl h
    | cons w ws =>
      rw [declaredResult_cons] at h
      rcases ih h with entered | member
      · rw [enter_accepted] at entered
        split at entered
        · rcases mem_insertMember entered with rfl | before
          · exact .inr List.mem_cons_self
          · exact .inl before
        · exact .inl entered
      · exact .inr (List.mem_cons_of_mem w member)

theorem sorted_object_objectResult {fields : List (String × Schema)} {unknownKeys : UnknownKeys}
    {input : List (String × Value)} {ws : List Value} (given : Value.Sorted (.object input))
    (results : ∀ w ∈ ws, w.Sorted) :
    Value.Sorted (.object (objectResult fields unknownKeys input ws)) := by
  refine Value.sorted_object.mpr ⟨sorted_objectResult, fun m member => ?_⟩
  have declared : m ∈ declaredResult fields input ws [] → m.2.Sorted := fun there =>
    results m.2 ((mem_declaredResult there).resolve_left List.not_mem_nil)
  -- Members that pass through are those of the object that was tested.
  rw [objectResult_eq] at member
  cases unknownKeys with
  | strip => exact declared member
  | strict => exact declared member
  | passthrough =>
    rcases mem_insertAll member with extra | there
    · exact (Value.sorted_object.mp given).2 m (List.mem_of_mem_filter extra)
    · exact declared there

/-- The value of a declared member, or the absent value. -/
theorem sorted_fieldInput {input : List (String × Value)} (given : Value.Sorted (.object input))
    (name : String) : (fieldInput input name).Sorted := by
  rw [fieldInput]
  cases there : findMember? name input with
  | none => exact Value.sorted_undefined
  | some v => exact given.found there

/-- A scalar schema gives back the value or a text. -/
theorem Shape.step_scalar_sorted {definitions : Definitions} {id : SchemaId} {shape : Shape Schema}
    (scalar : shape.Scalar) (given : v.Sorted)
    (h : shape.step definitions recur site id v = some (.ok w)) : w.Sorted := by
  cases shape <;> try exact scalar.elim
  case string checks =>
    simp only [Shape.step, Option.pure_def] at h
    split at h
    · rw [Option.some.injEq, ofProblems_eq_ok_iff] at h
      rw [h.2]
      exact Value.sorted_string _
    · cases h
  all_goals
    rw [(Shape.step_scalar scalar trivial h).1]
    exact given

theorem parseEffect_sorted {inner : Schema} {effect : Effect}
    (brings : (Shape.effects inner effect).BringsSorted) (inside : recur.KeepsSorted inner)
    (given : v.Sorted) (h : parseEffect recur site inner effect v = some (.ok w)) : w.Sorted := by
  cases effect with
  | refinement check reason =>
    exact inside _ _ _ given (parseRefinement_ok h).1
  | transform f =>
    obtain ⟨result, returns, h⟩ := exists_of_bind_ok (by rintro _ ⟨⟩) h
    simp only at h
    cases mapped : f result with
    | error reason => rw [mapped] at h; cases h
    | ok made =>
      rw [mapped] at h
      cases h
      exact brings result _ (inside _ _ _ given returns) mapped
  | preprocess f => exact inside _ _ _ (brings v given) h

/-- One level of a test has a sorted result when the tests of the schemas it asks have. -/
theorem Shape.step_sorted {definitions : Definitions} {id : SchemaId} {shape : Shape Schema}
    (reports : recur.Reports) (brings : shape.BringsSorted)
    (keeps : ∀ t, shape.Asks definitions t → recur.KeepsSorted t) (given : v.Sorted)
    (h : shape.step definitions recur site id v = some (.ok w)) : w.Sorted := by
  by_cases scalar : shape.Scalar
  · exact Shape.step_scalar_sorted scalar given h
  -- All other shapes put the results for inner schemas together.
  have inside : ∀ t ∈ shape.children, recur.KeepsSorted t := fun t member => keeps t (.inl member)
  cases shape <;> try exact absurd trivial scalar
  case promise inner =>
    obtain ⟨settled, result, rfl, rfl, returns⟩ := step_promise_ok h
    exact Value.sorted_promise.mpr
      (inside inner (by simp [children]) _ _ _ (Value.sorted_promise.mp given) returns)
  all_goals simp only [Shape.step] at h
  case array item bounds =>
    split at h
    · obtain ⟨_, ws, each, rfl⟩ := parseCollection_ok reports h
      refine Value.sorted_array.mpr fun w member => ?_
      obtain ⟨v, hv, i, returns⟩ := exists_of_mem_right each member
      exact inside item (by simp [children]) _ _ _ (Value.sorted_array.mp given v hv) returns
    · cases h
  case set item bounds =>
    split at h
    · obtain ⟨_, ws, each, rfl⟩ := parseCollection_ok reports h
      refine Value.sorted_setOfItems fun w member => ?_
      obtain ⟨v, hv, i, returns⟩ := exists_of_mem_right each member
      exact inside item (by simp [children]) _ _ _ (Value.sorted_set.mp given v hv) returns
    · cases h
  case object fields unknownKeys =>
    split at h
    · obtain ⟨_, ws, each, rfl⟩ := parseObject_ok reports h
      refine sorted_object_objectResult given fun w member => ?_
      obtain ⟨field, declared, returns⟩ := exists_of_mem_right each member
      exact inside field.2 (List.mem_map_of_mem declared) _ _ _
        (sorted_fieldInput given field.1) returns
    · cases h
  case tuple slots rest =>
    split at h
    · obtain ⟨schemas, ws, hslots, each, rfl⟩ := parseTuple_ok reports h
      refine Value.sorted_array.mpr fun w member => ?_
      obtain ⟨p, hp, i, returns⟩ := exists_of_mem_right each member
      obtain ⟨among, hv⟩ := List.of_mem_zip hp
      exact inside p.1 (mem_of_tupleSlots? hslots among) _ _ _
        (Value.sorted_array.mp given p.2 hv) returns
    · cases h
  case record key value =>
    split at h
    · obtain ⟨ms, each, rfl⟩ := parseRecord_ok reports h
      refine Value.sorted_objectOf fun m' member => ?_
      obtain ⟨m, hm, -, returns⟩ := exists_of_mem_right each member
      exact inside value (by simp [children]) _ _ _ ((Value.sorted_object.mp given).2 m hm) returns
    · cases h
  case map key value =>
    split at h
    · obtain ⟨pairs, each, rfl⟩ := parseMap_ok reports h
      refine Value.sorted_mapOfPairs fun e' member => ?_
      obtain ⟨e, he, i, from_key, from_value⟩ := exists_of_mem_right each member
      obtain ⟨hk, hv⟩ := Value.sorted_map.mp given e he
      exact ⟨inside key (by simp [children]) _ _ _ hk from_key,
        inside value (by simp [children]) _ _ _ hv from_value⟩
    · cases h
  case union options =>
    obtain ⟨option, member, returns⟩ := firstAccepted_ok h
    exact inside option member _ _ _ given returns
  case discriminatedUnion discriminator options =>
    split at h
    · obtain ⟨option, selected, returns⟩ := parseTagged_ok h
      exact inside option selected.mem _ _ _ given returns
    · cases h
  case intersection left right =>
    obtain ⟨l, hl, h⟩ := Option.bind_eq_some_iff.mp h
    obtain ⟨r, hr, h⟩ := Option.bind_eq_some_iff.mp h
    obtain ⟨a, b, rfl, rfl, merges⟩ := intersect_ok (Option.some.inj h)
    exact Value.sorted_of_merge (inside left (by simp [children]) _ _ _ given hl)
      (inside right (by simp [children]) _ _ _ given hr) merges
  case function arguments result =>
    split at h
    · cases h
      -- The wrapped function behaves as the one that was tested.
      refine (Value.sorted_function_congr ?_).mp given
      rfl
    · cases h
  case «lazy» name =>
    split at h
    · rename_i t named
      exact keeps t (.inr ⟨name, rfl, named⟩) _ _ _ given h
    · cases h
  case optional inner =>
    split at h
    · cases h
      exact Value.sorted_undefined
    · exact inside inner (by simp [children]) _ _ _ given h
  case nullable inner =>
    split at h
    · cases h
      exact Value.sorted_null
    · exact inside inner (by simp [children]) _ _ _ given h
  case default inner value =>
    split at h
    · exact inside inner (by simp [children]) _ _ _ brings h
    · exact inside inner (by simp [children]) _ _ _ given h
  case caught inner fallback =>
    obtain ⟨out, returns, h⟩ := Option.bind_eq_some_iff.mp h
    cases out with
    | error found =>
      cases h
      exact brings
    | ok result =>
      cases h
      exact inside inner (by simp [children]) _ _ _ given returns
  case effects inner effect =>
    exact parseEffect_sorted brings (inside inner (by simp [children])) given h
  case pipeline first second =>
    obtain ⟨result, returns, h⟩ := exists_of_bind_ok (by rintro _ ⟨⟩) h
    exact inside second (by simp [children]) _ _ _
      (inside first (by simp [children]) _ _ _ given returns) h
  case branded inner _ | readonly inner =>
    exact inside inner (by simp [children]) _ _ _ given h

end Level

namespace Schema

variable {definitions : Definitions} {s : Schema}

/-- A test of a sorted value has a sorted result. -/
theorem parseWithin_sorted (depth : Nat) (brings : s.Throughout definitions Shape.BringsSorted) :
    Recur.KeepsSorted (parseWithin definitions depth) s := by
  induction depth generalizing s with
  | zero => exact fun _ _ _ _ h => nomatch h
  | succ depth ih =>
    obtain ⟨id, shape⟩ := s
    intro site v w given h
    exact Shape.step_sorted (parseWithin_reports definitions depth) brings.here
      (fun t asked => ih (brings.asked asked)) given h

end Schema

end SchemaSampler
