import SchemaSampler.Proofs.Parse.Depth
import SchemaSampler.Proofs.Parse.Renaming
import SchemaSampler.Proofs.Schema.NumberCheck
import SchemaSampler.Proofs.Value.Congruence

namespace SchemaSampler

/-!
# Tests of equal values — no schema tells them apart

Sets and maps drop a value when an equal one is there, which does no harm as long as a test says the
same to both.  It does, unless the schema has a function from outside in it, or makes new functions
of those that it accepts (`Shape.Structural`).

* `Shape.step_congr` — one level says the same to equal values if the tests of inner schemas do:
  the step, with one case for each form of schema.
* `Schema.parseWithin_congr` — so does a test within any depth.
* `Schema.parse_congr` — two tests of equal values that came to an end, within whatever depths and
  at whatever places of the same path, have equal results or find the same issues.
-/

/-- A shape whose test only looks at a value: no function from outside is part of it, and it makes
    no function of its own. -/
def Shape.Structural {σ : Type} : Shape σ → Prop
  | .effects _ _ | .custom _ _ | .function _ _ => False
  | _ => True

/-! ### Outcomes -/

namespace Parsed

/-- Outcomes with equal results or with the same issues. -/
inductive Agree : Parsed → Parsed → Prop where
  /-- Both values were accepted. -/
  | ok {v w : Value} (equal : (v == w) = true) : Agree (.ok v) (.ok w)
  /-- Both values were refused. -/
  | error (found : List Issue) : Agree (.error found) (.error found)

variable {v w : Value} {site site' : Site} {out out' : Parsed} {parts parts' : List Parsed}

/-- Outcomes that agree have the same issues. -/
theorem Agree.issues (h : Agree out out') : out.issues = out'.issues := by
  cases h <;> rfl

/-- At places with one path, one problem makes one refusal. -/
theorem refuse_agree (place : site.path = site'.path) (p : Problem) :
    Agree (refuse site p) (refuse site' p) := by
  rw [refuse, refuse, place]
  exact .error _

/-- Equal values are of one kind, so they are refused alike for another. -/
theorem mismatch_agree (place : site.path = site'.path) (expected : String)
    (equal : (v == w) = true) : Agree (mismatch site expected v) (mismatch site' expected w) := by
  rw [mismatch, mismatch, Value.typeName_congr equal]
  exact refuse_agree place _

/-- Equal results agree unless the same issues stand in their way. -/
theorem finish_agree {found found' : List Issue} (equal : (v == w) = true)
    (same : found = found') : Agree (finish v found) (finish w found') := by
  subst same
  unfold finish
  split
  · exact .ok equal
  · exact .error found

/-- The same problems of equal values make outcomes that agree. -/
theorem ofProblems_agree (place : site.path = site'.path) (equal : (v == w) = true)
    (problems : List Problem) : Agree (ofProblems site v problems) (ofProblems site' w problems) := by
  rw [ofProblems, ofProblems, place]
  exact finish_agree equal rfl

/-- Equal values are accepted alike as they are. -/
theorem check_agree (place : site.path = site'.path) (expected : String) (equal : (v == w) = true)
    {accepted accepted' : Bool} (same : accepted = accepted') :
    Agree (check site expected v accepted) (check site' expected w accepted') := by
  subst same
  cases accepted
  · exact mismatch_agree place expected equal
  · exact .ok equal

/-- A value that meets a condition is accepted as it is, and all others are refused alike. -/
theorem ite_agree (place : site.path = site'.path) (equal : (v == w) = true) {c c' : Bool}
    (same : c = c') (p : Problem) :
    Agree (if c then .ok v else refuse site p) (if c' then .ok w else refuse site' p) := by
  subst same
  split
  · exact .ok equal
  · exact refuse_agree place p

/-- Of parts that agree the results are equal, one by one. -/
theorem results_agree (h : List.Forall₂ Agree parts parts') :
    Value.EqualAll (parts.filterMap result?) (parts'.filterMap result?) := by
  induction h with
  | nil => exact .nil
  | cons head _ ih =>
    cases head with
    | ok equal => exact .cons equal ih
    | error found => exact ih

/-- Of parts that agree the issues are the same. -/
theorem issues_agree (h : List.Forall₂ Agree parts parts') :
    parts.flatMap issues = parts'.flatMap issues := by
  induction h with
  | nil => rfl
  | cons head _ ih => rw [List.flatMap_cons, List.flatMap_cons, head.issues, ih]

/-- An intersection of sides that agree merges equal values. -/
theorem intersect_agree (place : site.path = site'.path) {l l' r r' : Parsed} (hl : Agree l l')
    (hr : Agree r r') : Agree (intersect site l r) (intersect site' l' r') := by
  cases hl with
  | error found =>
    simp only [intersect, hr.issues]
    exact .error _
  | @ok a a' equal =>
    cases hr with
    | error found => exact .error _
    | @ok b b' equal' =>
      have merged := Value.merge_congr b equal equal'
      simp only [intersect]
      generalize a.merge b = m at merged
      generalize a'.merge b' = m' at merged
      cases merged with
      | none => exact refuse_agree place _
      | some equal => exact .ok equal

end Parsed

/-! ### Members and entries -/

/-- Outcomes for a declared member of two equal objects. -/
structure FieldOutcome.Agree (f g : FieldOutcome) : Prop where
  /-- The name is the same. -/
  name : f.name = g.name
  /-- Both objects have the member or both lack it. -/
  present : f.present = g.present
  /-- The schema says the same to it. -/
  outcome : Parsed.Agree f.outcome g.outcome

/-- Outcomes for a member of two equal records. -/
inductive MemberAgree : Except (List Issue) (String × Value) →
    Except (List Issue) (String × Value) → Prop where
  | ok (name : String) {v w : Value} (equal : (v == w) = true) :
      MemberAgree (.ok (name, v)) (.ok (name, w))
  | error (found : List Issue) : MemberAgree (.error found) (.error found)

section Members

open Parsed

variable {site site' : Site} {input input' output output' : List (String × Value)}

/-- Entering equal results under one name keeps the outputs equal. -/
theorem enter_agree {f g : FieldOutcome} (h : f.Agree g)
    (equal : Value.EqualMembers output output') :
    Value.EqualMembers (FieldOutcome.enter output f) (FieldOutcome.enter output' g) := by
  obtain ⟨name, present, outcome⟩ := f
  obtain ⟨name', present', outcome'⟩ := g
  obtain ⟨rfl, rfl, agree⟩ := h
  unfold FieldOutcome.enter
  cases agree with
  | ok result =>
    simp only [Value.isUndefined_congr result]
    split
    · exact Value.insertMember_congr _ equal result
    · exact equal
  | error found => exact equal

/-- So does entering all of them. -/
theorem foldl_enter_agree {parts parts' : List FieldOutcome}
    (h : List.Forall₂ FieldOutcome.Agree parts parts') (equal : Value.EqualMembers output output') :
    Value.EqualMembers (parts.foldl FieldOutcome.enter output)
      (parts'.foldl FieldOutcome.enter output') := by
  induction h generalizing output output' with
  | nil => exact equal
  | cons head _ ih => exact ih (enter_agree head equal)

/-- Members that agree have the same issues. -/
theorem field_issues_agree {parts parts' : List FieldOutcome}
    (h : List.Forall₂ FieldOutcome.Agree parts parts') :
    (parts.flatMap fun f => f.outcome.issues) = parts'.flatMap fun f => f.outcome.issues := by
  induction h with
  | nil => rfl
  | cons head _ ih => rw [List.flatMap_cons, List.flatMap_cons, head.outcome.issues, ih]

/-- Equal objects have equal members beyond the declared ones. -/
theorem undeclared_congr (fields : List (String × Schema))
    (equal : Value.EqualMembers input input') :
    Value.EqualMembers (undeclared fields input) (undeclared fields input') := by
  induction equal with
  | nil => exact .nil
  | @cons m n input input' head _ ih =>
    obtain ⟨key, v⟩ := m
    obtain ⟨key', w⟩ := n
    obtain ⟨rfl, equal⟩ : key = key' ∧ (v == w) = true := head
    simp only [undeclared, List.filter_cons] at ih ⊢
    cases fields.any (·.1 == key) with
    | true => exact ih
    | false => exact .cons ⟨rfl, equal⟩ ih

/-- The outcome for an object depends on those for its members and on the members that are not
    declared. -/
theorem objectOutcome_agree (place : site.path = site'.path) {fields : List (String × Schema)}
    {unknownKeys : UnknownKeys} {parts parts' : List FieldOutcome}
    (equal : Value.EqualMembers input input')
    (h : List.Forall₂ FieldOutcome.Agree parts parts') :
    Agree (objectOutcome site fields unknownKeys input parts)
      (objectOutcome site' fields unknownKeys input' parts') := by
  have output := foldl_enter_agree h .nil
  have extra := undeclared_congr fields equal
  have found := field_issues_agree h
  cases unknownKeys with
  | strip => exact finish_agree (Value.beq_iff_equal.mpr (.object output)) found
  | strict =>
    refine finish_agree (Value.beq_iff_equal.mpr (.object output)) ?_
    rw [found, place]
    congr 1
    -- An undeclared member is reported by its key alone.
    generalize undeclared fields input = ms at extra
    generalize undeclared fields input' = ms' at extra
    induction extra with
    | nil => rfl
    | cons head _ ih => simp only [List.map_cons, ih, head.1]
  | passthrough =>
    exact finish_agree (Value.beq_iff_equal.mpr (.object (Value.insertAll_congr extra output))) found

/-- A key and a value that agree make members that agree. -/
theorem recordMember_agree (place : site.path = site'.path) {k k' v v' : Parsed}
    (hk : Agree k k') (hv : Agree v v') :
    MemberAgree (recordMember site k v) (recordMember site' k' v') := by
  cases hk with
  | error found =>
    simp only [recordMember, hv.issues]
    exact .error _
  | @ok key key' equal =>
    have kind := Value.typeName_congr equal
    cases Value.beq_iff_equal.mp equal with
    -- A key has to come out as a text; the issue for all others names its type.
    | string name =>
      cases hv with
      | ok value => exact .ok name value
      | error found => exact .error found
    | _ =>
      simp only [recordMember, place, kind, hv.issues]
      exact .error _

/-- Members that agree make records that agree. -/
theorem recordOutcome_agree {parts parts' : List (Except (List Issue) (String × Value))}
    (h : List.Forall₂ MemberAgree parts parts') :
    Agree (recordOutcome parts) (recordOutcome parts') := by
  refine finish_agree (Value.objectOf_congr ?_) ?_
  · induction h with
    | nil => exact .nil
    | cons head _ ih =>
      cases head with
      | ok name equal => exact .cons ⟨rfl, equal⟩ ih
      | error found => exact ih
  · induction h with
    | nil => rfl
    | cons head _ ih =>
      rw [List.flatMap_cons, List.flatMap_cons, ih]
      cases head <;> rfl

/-- Entries that agree make maps that agree. -/
theorem mapOutcome_agree {parts parts' : List (Parsed × Parsed)}
    (h : List.Forall₂ (fun a b => Agree a.1 b.1 ∧ Agree a.2 b.2) parts parts') :
    Agree (mapOutcome parts) (mapOutcome parts') := by
  refine finish_agree (Value.mapOfPairs_congr ?_) ?_
  · induction h with
    | nil => exact .nil
    | @cons a b as bs head _ ih =>
      obtain ⟨k, v⟩ := a
      obtain ⟨k', v'⟩ := b
      obtain ⟨hk, hv⟩ := head
      cases hk with
      | error found => exact ih
      | ok key =>
        cases hv with
        | error found => exact ih
        | ok value => exact .cons ⟨key, value⟩ ih
  · induction h with
    | nil => rfl
    | @cons a b as bs head _ ih =>
      obtain ⟨k, v⟩ := a
      obtain ⟨k', v'⟩ := b
      obtain ⟨hk, hv⟩ := head
      simp only [List.flatMap_cons, ih, hk.issues, hv.issues]

end Members

/-! ### One level -/

/-- Tests against a schema say the same to equal values, at places of the same path. -/
def Recur.Respects (recur : Recur) (s : Schema) : Prop :=
  ∀ site site' : Site, site.path = site'.path → ∀ v w : Value, (v == w) = true →
    Option.Rel Parsed.Agree (recur site s v) (recur site' s w)

/-- Equal values to be tested against one schema, whose tests say the same to them. -/
structure Recur.Matched (recur : Recur) (p q : Schema × Value) : Prop where
  schema : p.1 = q.1
  equal : (p.2 == q.2) = true
  respects : recur.Respects p.1

section Level

open Parsed

variable {recur : Recur} {site site' : Site} {v w : Value} (place : site.path = site'.path)

/-- A step from places with one path leads to places with one path. -/
theorem path_step (place : site.path = site'.path) (step : Step) :
    Site.path (step :: site) = Site.path (step :: site') := by
  rw [Site.path_cons, Site.path_cons, place]

include place

/-- Elements are tested position by position. -/
theorem parseItems_congr {items items' : List (Schema × Value)}
    (matched : List.Forall₂ recur.Matched items items') :
    Option.Rel (List.Forall₂ Agree) (parseItems recur site items)
      (parseItems recur site' items') := by
  rw [parseItems_eq, parseItems_eq]
  refine rel_mapM ((forall₂_zipIdx_both matched 0).imp ?_)
  rintro ⟨⟨s, v⟩, i⟩ ⟨⟨t, w⟩, j⟩ ⟨⟨schema, equal, respects⟩, position⟩
  obtain rfl : s = t := schema
  obtain rfl : i = j := position
  exact respects _ _ (path_step place _) v w equal

/-- A collection is counted by its elements, of which equal ones have as many, and `build` makes
    equal collections of equal results. -/
theorem parseCollection_congr {c : Collection} {item : Schema} {bounds : SizeBounds}
    {items items' : List Value} {build : List Value → Value} (respects : recur.Respects item)
    (equal : Value.EqualAll items items')
    (builds : ∀ vs ws, Value.EqualAll vs ws → (build vs == build ws) = true) :
    Option.Rel Agree (parseCollection recur site c item bounds items build)
      (parseCollection recur site' c item bounds items' build) := by
  have matched : List.Forall₂ recur.Matched (items.map fun v => (item, v))
      (items'.map fun v => (item, v)) := by
    rw [List.forall₂_map_left_iff, List.forall₂_map_right_iff]
    exact equal.imp fun _ _ equal => ⟨rfl, equal, respects⟩
  unfold parseCollection
  refine rel_bind (parseItems_congr place matched) fun parts parts' agree => .some ?_
  refine finish_agree (builds _ _ (results_agree agree)) ?_
  rw [place, equal.length_eq, issues_agree agree]

/-- Equal arrays have as many elements, so a tuple gives them the same slots. -/
theorem parseTuple_congr {slots : List Schema} {rest : Option Schema} {items items' : List Value}
    (respects : ∀ t ∈ slots ++ rest.toList, recur.Respects t)
    (equal : Value.EqualAll items items') :
    Option.Rel Agree (parseTuple recur site slots rest items)
      (parseTuple recur site' slots rest items') := by
  unfold parseTuple
  rw [equal.length_eq]
  cases hslots : tupleSlots? slots rest items'.length with
  | none => exact .some (refuse_agree place _)
  | some schemas =>
    have matched : List.Forall₂ recur.Matched (schemas.zip items) (schemas.zip items') :=
      forall₂_zip_right equal fun t member _ _ equal =>
        ⟨rfl, equal, respects t (mem_of_tupleSlots? hslots member)⟩
    refine rel_bind (parseItems_congr place matched) fun parts parts' agree => .some ?_
    exact finish_agree (Value.beq_iff_equal.mpr (.array (results_agree agree))) (issues_agree agree)

/-- A declared member is there in both objects or in neither. -/
theorem parseField_congr {field : String × Schema} {input input' : List (String × Value)}
    (respects : recur.Respects field.2) (equal : Value.EqualMembers input input') :
    Option.Rel FieldOutcome.Agree (parseField recur site input field)
      (parseField recur site' input' field) := by
  have found := Value.findMember?_congr field.1 equal
  unfold parseField
  generalize findMember? field.1 input = m at found
  generalize findMember? field.1 input' = m' at found
  -- A member is there in both objects, or it is tested as the absent value in both.
  have asked : (m.getD .undefined == m'.getD .undefined) = true ∧ m.isSome = m'.isSome := by
    cases found with
    | none => exact ⟨Value.beq_self _, rfl⟩
    | some equal => exact ⟨equal, rfl⟩
  exact rel_bind (respects _ _ (path_step place _) _ _ asked.1) fun _ _ agree =>
    .some ⟨rfl, asked.2, agree⟩

/-- The declared members are tested one by one, and the others follow the rule for them. -/
theorem parseObject_congr {fields : List (String × Schema)} {unknownKeys : UnknownKeys}
    {input input' : List (String × Value)} (respects : ∀ field ∈ fields, recur.Respects field.2)
    (equal : Value.EqualMembers input input') :
    Option.Rel Agree (parseObject recur site fields unknownKeys input)
      (parseObject recur site' fields unknownKeys input') := by
  rw [parseObject_eq, parseObject_eq]
  have run := rel_mapM (List.forall₂_same.mpr fun field member =>
    parseField_congr place (respects field member) equal)
  exact rel_map run fun _ _ agree => objectOutcome_agree place equal agree

/-- The members of equal objects have the same keys. -/
theorem parseRecord_congr {key value : Schema} {input input' : List (String × Value)}
    (hkey : recur.Respects key) (hvalue : recur.Respects value)
    (equal : Value.EqualMembers input input') :
    Option.Rel Agree (parseRecord recur site key value input)
      (parseRecord recur site' key value input') := by
  rw [parseRecord_eq, parseRecord_eq]
  refine rel_map (rel_mapM (equal.imp ?_)) fun _ _ agree => recordOutcome_agree agree
  rintro ⟨name, v⟩ ⟨name', w⟩ ⟨same, equal⟩
  obtain rfl : name = name' := same
  have here := path_step place (.key name)
  unfold parseMember
  exact rel_bind (hkey _ _ (path_step here _) _ _ (Value.beq_self _)) fun _ _ key =>
    rel_bind (hvalue _ _ (path_step here _) _ _ equal) fun _ _ value =>
      .some (recordMember_agree here key value)

/-- The keys of equal maps need not be the same, but they are equal. -/
theorem parseMap_congr {key value : Schema} {entries entries' : List (Value × Value)}
    (hkey : recur.Respects key) (hvalue : recur.Respects value)
    (equal : Value.EqualEntries entries entries') :
    Option.Rel Agree (parseMap recur site key value entries)
      (parseMap recur site' key value entries') := by
  rw [parseMap_eq, parseMap_eq]
  refine rel_map (rel_mapM ((forall₂_zipIdx_both equal 0).imp ?_)) fun _ _ agree =>
    mapOutcome_agree agree
  rintro ⟨⟨k, v⟩, i⟩ ⟨⟨k', v'⟩, j⟩ ⟨⟨equal_key, equal_value⟩, position⟩
  obtain rfl : i = j := position
  have here := path_step place (.index i)
  unfold parseEntry
  exact rel_bind (hkey _ _ (path_step here _) _ _ equal_key) fun _ _ key =>
    rel_bind (hvalue _ _ (path_step here _) _ _ equal_value) fun _ _ value => .some ⟨key, value⟩

/-- The first option that accepts one value is the first that accepts the other. -/
theorem firstAccepted_congr {options : List Schema} (respects : ∀ t ∈ options, recur.Respects t)
    (equal : (v == w) = true) :
    Option.Rel Agree (firstAccepted recur site v options)
      (firstAccepted recur site' w options) := by
  induction options with
  | nil => exact .some (refuse_agree place _)
  | cons option rest ih =>
    refine rel_bind (respects option (by simp) _ _ place v w equal) fun _ _ agree => ?_
    cases agree with
    | ok result => exact .some (.ok result)
    | error found => exact ih fun t member => respects t (by simp [member])

/-- Equal objects bear the same tag, so they are tested against the same option. -/
theorem parseTagged_congr {discriminator : String} {options : List Schema}
    {input input' : List (String × Value)} (respects : ∀ t ∈ options, recur.Respects t)
    (equal : Value.EqualMembers input input') :
    Option.Rel Agree (parseTagged recur site discriminator options input)
      (parseTagged recur site' discriminator options input') := by
  have unknown := refuse_agree (path_step place (.key discriminator)) .unknownTag
  unfold parseTagged
  cases tagTable discriminator options with
  | error fault => exact .some (refuse_agree place _)
  | ok table =>
    simp only
    have found := Value.findMember?_congr discriminator equal
    generalize findMember? discriminator input = m at found
    generalize findMember? discriminator input' = m' at found
    cases found with
    | none => exact .some unknown
    | some equal_tag =>
      cases Value.beq_iff_equal.mp equal_tag with
      | string tag =>
        simp only
        cases hoption : (findMember? tag table).bind (options[·]?) with
        | none => exact .some unknown
        | some option =>
          obtain ⟨position, _, selected⟩ := Option.bind_eq_some_iff.mp hoption
          exact respects option (List.mem_of_getElem? selected) _ _ place _ _
            (Value.beq_iff_equal.mpr (.object equal))
      | _ => exact .some unknown

/-- The test of a scalar shape says the same to equal values. -/
theorem step_scalar_congr {definitions : Definitions} {id : SchemaId} {shape : Shape Schema}
    (scalar : shape.Scalar) (structural : shape.Structural) (equal : (v == w) = true) :
    Option.Rel Agree (shape.step definitions recur site id v)
      (shape.step definitions recur site' id w) := by
  have kinds := Value.beq_iff_equal.mp equal
  have refused (expected : String) :
      Option.Rel Agree (some (mismatch site expected v)) (some (mismatch site' expected w)) :=
    .some (mismatch_agree place expected equal)
  cases shape <;> (try exact scalar.elim) <;> simp only [Shape.step]
  case string checks =>
    cases kinds with
    | string s => exact .some (ofProblems_agree place (Value.beq_self _) _)
    | _ => exact refused _
  case number checks =>
    cases kinds with
    | @number x y same =>
      -- NaN equals NaN only, and is refused; other equal numbers compare alike.
      have alike := (Binary64.same_iff.mp same).1
      simp only [← alike]
      cases nan : x.isNaN with
      | true => exact refused _
      | false =>
        have checked : checks.filterMap (·.violation? x) = checks.filterMap (·.violation? y) :=
          List.filterMap_congr fun check _ => check.violation?_eq_of_same nan same
        rw [checked]
        exact .some (ofProblems_agree place equal _)
    | _ => exact refused _
  case bigint checks =>
    cases kinds with
    | bigint n => exact parseBigint_rel fun problems => ofProblems_agree place equal problems
    | _ => exact refused _
  case date checks =>
    cases kinds with
    | date t => exact .some (ofProblems_agree place equal _)
    | _ => exact refused _
  case boolean | null | symbol =>
    exact .some (check_agree place _ equal (by cases kinds <;> rfl))
  case undefined | void => exact .some (check_agree place _ equal (Value.isUndefined_congr equal))
  case nan => exact .some (check_agree place _ equal (Value.isNaN_congr equal))
  case any | unknown => exact .some (.ok equal)
  case never => exact refused _
  case literal expected =>
    exact .some (ite_agree place equal (Value.beq_congr equal (Value.beq_self _)) _)
  case enumeration members =>
    exact .some (ite_agree place equal (by rw [Value.asString?_congr equal]) _)
  case nativeEnum members =>
    have found : members.any (·.2 == v) = members.any (·.2 == w) :=
      congrArg members.any (funext fun m => Value.beq_congr (Value.beq_self m.2) equal)
    exact .some (ite_agree place equal found _)
  case custom => exact structural.elim

/-- Equal promises are settled with equal values. -/
theorem step_promise_congr {definitions : Definitions} {id : SchemaId} {inner : Schema}
    (respects : recur.Respects inner) (equal : (v == w) = true) :
    Option.Rel Agree ((Shape.promise inner).step definitions recur site id v)
      ((Shape.promise inner).step definitions recur site' id w) := by
  cases Value.beq_iff_equal.mp equal with
  | promise settled =>
    refine rel_bind (respects _ _ place _ _ settled) fun _ _ agree => ?_
    cases agree with
    | ok result => exact .some (.ok (Value.beq_iff_equal.mpr (.promise result)))
    | error found => exact .some (.error found)
  | _ => exact .some (mismatch_agree place _ equal)

/-- Of equal values both are absent, and the declared value stands in for both, or neither is. -/
theorem step_default_congr {definitions : Definitions} {id : SchemaId} {inner : Schema}
    {value : Value} (respects : recur.Respects inner) (equal : (v == w) = true) :
    Option.Rel Agree ((Shape.default inner value).step definitions recur site id v)
      ((Shape.default inner value).step definitions recur site' id w) := by
  have tested := respects _ _ place v w equal
  cases Value.beq_iff_equal.mp equal with
  | undefined => exact respects _ _ place _ _ (Value.beq_self value)
  | _ => exact tested

/-- A fallback stands in for both of two equal values, or for neither. -/
theorem step_caught_congr {definitions : Definitions} {id : SchemaId} {inner : Schema}
    {fallback : Value} (respects : recur.Respects inner) (equal : (v == w) = true) :
    Option.Rel Agree ((Shape.caught inner fallback).step definitions recur site id v)
      ((Shape.caught inner fallback).step definitions recur site' id w) := by
  refine rel_bind (respects _ _ place v w equal) fun _ _ agree => ?_
  cases agree with
  | ok result => exact .some (.ok result)
  | error found => exact .some (.ok (Value.beq_self fallback))

/-- The second stage of a pipeline tests the two results, which are equal but need not be the
    same. -/
theorem step_pipeline_congr {definitions : Definitions} {id : SchemaId} {first second : Schema}
    (before : recur.Respects first) (after : recur.Respects second) (equal : (v == w) = true) :
    Option.Rel Agree ((Shape.pipeline first second).step definitions recur site id v)
      ((Shape.pipeline first second).step definitions recur site' id w) := by
  refine rel_bind (before _ _ (path_step place (.branch 0)) v w equal) fun _ _ agree => ?_
  cases agree with
  | ok result => exact after _ _ (path_step place (.branch 1)) _ _ result
  | error found => exact .some (.error found)

/-- One level of a test says the same to equal values when the tests of inner schemas do. -/
theorem Shape.step_congr {definitions : Definitions} {id : SchemaId} {shape : Shape Schema}
    (structural : shape.Structural) (equal : (v == w) = true)
    (respects : ∀ t, shape.Asks definitions t → recur.Respects t) :
    Option.Rel Agree (shape.step definitions recur site id v)
      (shape.step definitions recur site' id w) := by
  by_cases scalar : shape.Scalar
  · exact step_scalar_congr place scalar structural equal
  have child : ∀ t ∈ shape.children, recur.Respects t := fun t member => respects t (.inl member)
  have kinds := Value.beq_iff_equal.mp equal
  have refused (expected : String) :
      Option.Rel Agree (some (mismatch site expected v)) (some (mismatch site' expected w)) :=
    .some (mismatch_agree place expected equal)
  cases shape <;> try exact absurd trivial scalar
  case array item bounds =>
    cases kinds with
    | array items =>
      exact parseCollection_congr place (child item (by simp [children])) items
        fun _ _ built => Value.beq_iff_equal.mpr (.array built)
    | _ => exact refused _
  case set item bounds =>
    cases kinds with
    | set items =>
      exact parseCollection_congr place (child item (by simp [children])) items
        fun _ _ built => Value.setOfItems_congr built
    | _ => exact refused _
  case object fields unknownKeys =>
    cases kinds with
    | object members =>
      exact parseObject_congr place (fun field member => child _ (List.mem_map_of_mem member))
        members
    | _ => exact refused _
  case tuple slots rest =>
    cases kinds with
    | array items => exact parseTuple_congr place child items
    | _ => exact refused _
  case record key value =>
    cases kinds with
    | object members =>
      exact parseRecord_congr place (child key (by simp [children]))
        (child value (by simp [children])) members
    | _ => exact refused _
  case map key value =>
    cases kinds with
    | map entries =>
      exact parseMap_congr place (child key (by simp [children]))
        (child value (by simp [children])) entries
    | _ => exact refused _
  case union options => exact firstAccepted_congr place child equal
  case discriminatedUnion discriminator options =>
    cases kinds with
    | object members => exact parseTagged_congr place child members
    | _ => exact refused _
  case intersection left right =>
    have first := child left (by simp [children]) _ _ (path_step place (.branch 0)) v w equal
    have second := child right (by simp [children]) _ _ (path_step place (.branch 1)) v w equal
    exact rel_bind first fun _ _ hl => rel_bind second fun _ _ hr =>
      .some (intersect_agree place hl hr)
  case promise inner => exact step_promise_congr place (child inner (by simp [children])) equal
  case «lazy» name =>
    simp only [Shape.step]
    split
    · rename_i t named
      exact respects t (.inr ⟨name, rfl, named⟩) _ _ place v w equal
    · exact refused _
  case optional inner =>
    have tested := child inner (by simp [children]) _ _ place v w equal
    cases kinds with
    | undefined => exact .some (.ok equal)
    | _ => exact tested
  case nullable inner =>
    have tested := child inner (by simp [children]) _ _ place v w equal
    cases kinds with
    | null => exact .some (.ok equal)
    | _ => exact tested
  case default inner value =>
    exact step_default_congr place (child inner (by simp [children])) equal
  case caught inner fallback =>
    exact step_caught_congr place (child inner (by simp [children])) equal
  case pipeline first second =>
    exact step_pipeline_congr place (child first (by simp [children]))
      (child second (by simp [children])) equal
  case branded inner _ | readonly inner =>
    exact child inner (by simp [children]) _ _ place v w equal
  case function | effects => exact structural.elim

end Level

/-! ### All levels -/

namespace Schema

variable {definitions : Definitions} {s : Schema}

/-- Tests of equal values say the same, within any depth: the depth decides alike for both whether
    they come to an end. -/
theorem parseWithin_congr (depth : Nat) (structural : s.Throughout definitions Shape.Structural) :
    Recur.Respects (parseWithin definitions depth) s := by
  induction depth generalizing s with
  | zero => exact fun _ _ _ _ _ _ => .none
  | succ depth ih =>
    obtain ⟨id, shape⟩ := s
    intro site site' place v w equal
    exact Shape.step_congr place structural.here equal fun t asked => ih (structural.asked asked)

/-- **Equal values are not told apart.**  Two tests of equal values that came to an end both accepted,
    with equal results, or both refused, with the same issues. -/
theorem parse_congr {depth depth' : Nat} {site site' : Site} (place : site.path = site'.path)
    (structural : s.Throughout definitions Shape.Structural) {v w : Value}
    (equal : (v == w) = true) {result result' : Except ParseError Value}
    (ends : s.parse definitions depth site v = some result)
    (ends' : s.parse definitions depth' site' w = some result') :
    (∃ a b, result = .ok a ∧ result' = .ok b ∧ (a == b) = true) ∨
      ∃ found, result = .error found ∧ result' = .error found := by
  obtain ⟨out, returns, rfl⟩ := Option.map_eq_some_iff.mp ends
  obtain ⟨out', returns', rfl⟩ := Option.map_eq_some_iff.mp ends'
  -- Both tests end alike within the greater of the two depths.
  have agree := parseWithin_congr (max depth depth') structural site site' place v w equal
  rw [parseWithin_mono (Nat.le_max_left _ _) returns,
    parseWithin_mono (Nat.le_max_right _ _) returns'] at agree
  cases agree with
  | some agree =>
    cases agree with
    | @ok a b result => exact .inl ⟨a, b, rfl, rfl, result⟩
    | error found => exact .inr ⟨_, rfl, rfl⟩

/-- A set of the one zero and a set of the other are both accepted, and the results are equal. -/
theorem parse_congr_zeros :
    let s : Schema := .node 1 (.set (.node 0 (.number [.min 0 true])) ⟨some 1, none⟩)
    ∃ a b, s.parse (fun _ => none) 2 [] (.set [.number 0]) = some (.ok a) ∧
      s.parse (fun _ => none) 3 [.branch 0] (.set [.number (-0)]) = some (.ok b) ∧
        (a == b) = true := by
  intro s
  have structural : s.Throughout (fun _ => none) Shape.Structural := by
    refine Everywhere.throughout (.node 1 trivial fun t child => ?_) (by simp)
    obtain rfl := List.mem_singleton.mp child
    exact .node 0 trivial fun t child => absurd child List.not_mem_nil
  have zeros : (Value.number 0 == .number (-0)) = true :=
    Value.beq_iff_equal.mpr (.number (by decide))
  have equal : (Value.set [.number 0] == Value.set [.number (-0)]) = true :=
    Value.beq_iff_equal.mpr (.set (.cons zeros .nil))
  have first : s.parse (fun _ => none) 2 [] (.set [.number 0]) =
      some (.ok (.set [.number 0])) := by
    rfl
  have second : s.parse (fun _ => none) 3 [.branch 0] (.set [.number (-0)]) =
      some (.ok (.set [.number (-0)])) := by
    rfl
  have place : Site.path [] = Site.path [.branch 0] := rfl
  rcases parse_congr place structural equal first second with
    ⟨a, b, ha, hb, result⟩ | ⟨_, refused, _⟩
  · exact ⟨a, b, first.trans (congrArg some ha), second.trans (congrArg some hb), result⟩
  · cases refused

end Schema

end SchemaSampler
