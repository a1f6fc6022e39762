import Mathlib.Data.List.Nodup
import SchemaSampler.Proofs.Parse.ObjectIntersection
import SchemaSampler.Proofs.Parse.Refusal
import SchemaSampler.Proofs.Value.Sorted

namespace SchemaSampler

/-!
# Policies of objects — undeclared members and the order of declaration

The three policies for undeclared members test the declared ones alike, so their tests end with the
same outcomes for the fields and differ only in what they make of these and of the other members
(`Parsed.objectOutcome_strict_iff`, `Parsed.objectOutcome_passthrough`).  Fields that are declared in
another order have the same outcomes in that order.  If their names differ, the results are entered
under different keys, in any order (`foldl_enter_perm`), and only the issues show the order
(`Parsed.objectOutcome_perm`).

`Schema.parse_object_policies` puts this together for tests of whole values.
-/

/-- The same result, or the same issues in another order. -/
inductive SameButOrder : Except ParseError Value → Except ParseError Value → Prop where
  | ok (w : Value) : SameButOrder (.ok w) (.ok w)
  | error {e e' : ParseError} (same : e.issues.Perm e'.issues) : SameButOrder (.error e) (.error e')

/-- The members of a value that no field declares.  Only objects have members. -/
def Value.undeclaredMembers (fields : List (String × Schema)) : Value → List (String × Value)
  | .object input => input.filter fun m => m.1 ∉ fields.map Prod.fst
  | _ => []

/-! ### The order of declaration -/

section Orders

variable {fields fields' : List (String × Schema)} {parts parts' : List FieldOutcome}
  {input : List (String × Value)}

theorem undeclared_eq (fields : List (String × Schema)) (input : List (String × Value)) :
    undeclared fields input = (Value.object input).undeclaredMembers fields := by
  refine List.filter_congr fun m _ => ?_
  rw [Bool.eq_iff_iff, decide_eq_true_iff, Bool.not_eq_true', ← Bool.not_eq_true]
  simp [List.mem_map]

theorem undeclared_perm (perm : fields.Perm fields') (input : List (String × Value)) :
    undeclared fields input = undeclared fields' input := by
  rw [undeclared_eq, undeclared_eq]
  refine List.filter_congr fun m _ => decide_eq_decide.mpr (not_congr ?_)
  exact (perm.map Prod.fst).mem_iff

/-- Results under different names can change places. -/
theorem FieldOutcome.enter_comm {f g : FieldOutcome} (differ : f.name ≠ g.name)
    (output : List (String × Value)) : enter (enter output f) g = enter (enter output g) f := by
  unfold enter
  -- Only if both are entered does the order show, in two insertions under different keys.
  cases f.outcome with
  | error _ => rfl
  | ok v =>
    cases g.outcome with
    | error _ => rfl
    | ok w =>
      simp only
      split <;> split
      · exact insertMember_comm differ.symm w v output
      all_goals rfl

/-- Results under different names can be entered in any order. -/
theorem foldl_enter_perm (perm : parts.Perm parts')
    (distinct : (parts.map FieldOutcome.name).Nodup) (start : List (String × Value)) :
    parts.foldl FieldOutcome.enter start = parts'.foldl FieldOutcome.enter start := by
  refine perm.foldl_eq' (fun f hf g hg output => ?_) start
  by_cases same : f.name = g.name
  · rw [List.inj_on_of_nodup_map distinct hf hg same]
  · exact FieldOutcome.enter_comm same output

end Orders

/-! ### Outcomes -/

namespace Parsed

variable {site : Site} {fields fields' : List (String × Schema)} {parts parts' : List FieldOutcome}
  {input : List (String × Value)} {w w' : Value}

/-- An outcome as that of a test of a whole value. -/
def reported : Parsed → Except ParseError Value := Except.mapError .ofIssues

theorem reported_eq_ok_iff {out : Parsed} : out.reported = .ok w ↔ out = .ok w := by
  cases out <;> simp [reported, Except.mapError]

/-- Issues in another order are reported in that order. -/
theorem sameButOrder_finish {found found' : List Issue} (perm : found.Perm found') (w : Value) :
    SameButOrder (finish w found).reported (finish w found').reported := by
  cases found with
  | nil =>
    rw [List.nil_perm.mp perm]
    exact .ok w
  | cons issue rest =>
    cases found' with
    | nil => exact absurd perm.symm (by simp)
    | cons issue' rest' => exact .error perm

/-- The strict policy only refuses undeclared members. -/
theorem objectOutcome_strict_iff :
    objectOutcome site fields .strict input parts = .ok w ↔
      objectOutcome site fields .strip input parts = .ok w ∧ undeclared fields input = [] := by
  rw [objectOutcome_accepted_iff, objectOutcome_accepted_iff]
  simp only [admitsUndeclared, reduceCtorEq, false_implies, true_and, forall_const]
  tauto

/-- Passing undeclared members on neither refuses a value nor lets it through. -/
theorem objectOutcome_passthrough_accepts_iff :
    (∃ w, objectOutcome site fields .passthrough input parts = .ok w) ↔
      ∃ w, objectOutcome site fields .strip input parts = .ok w := by
  simp [objectOutcome_accepted_iff, admitsUndeclared]

/-- Undeclared members that are passed on stand next to the results for the declared ones. -/
theorem objectOutcome_passthrough (sorted : SortedMembers input)
    (names : parts.map FieldOutcome.name = fields.map Prod.fst)
    (stripped : objectOutcome site fields .strip input parts = .ok w)
    (passed : objectOutcome site fields .passthrough input parts = .ok w') :
    ∃ members output, w = .object members ∧ w' = .object output ∧ SortedMembers output ∧
      output.Perm (members ++ undeclared fields input) := by
  obtain ⟨-, -, rfl⟩ := objectOutcome_accepted_iff.mp stripped
  obtain ⟨-, -, rfl⟩ := objectOutcome_accepted_iff.mp passed
  have entered : SortedMembers (parts.foldl FieldOutcome.enter []) := sorted_foldl_enter .nil parts
  have others : SortedMembers (undeclared fields input) := List.Pairwise.filter _ sorted
  refine ⟨_, _, rfl, rfl, sorted_insertAll entered _, insertAll_perm ?_ others.distinct⟩
  -- An undeclared key that a result stands under would be the name of a field.
  intro m undeclared
  refine findMember?_eq_none fun m' member same => ?_
  obtain ⟨f, hf, name⟩ := (name_mem_of_foldl_enter member).resolve_left List.not_mem_nil
  have declared : m.1 ∈ fields.map Prod.fst := by
    rw [← names, ← same, ← name]
    exact List.mem_map_of_mem hf
  exact findMember?_undeclared declared input m undeclared rfl

/-- Fields in another order make the same of a value, but for the order of issues. -/
theorem objectOutcome_perm (unknownKeys : UnknownKeys) (perm : fields.Perm fields')
    (same : parts.Perm parts') (distinct : (parts.map FieldOutcome.name).Nodup) :
    SameButOrder (objectOutcome site fields unknownKeys input parts).reported
      (objectOutcome site fields' unknownKeys input parts').reported := by
  have found := same.flatMap_right fun f => f.outcome.issues
  unfold objectOutcome
  rw [foldl_enter_perm same distinct, undeclared_perm perm]
  cases unknownKeys with
  | strip | passthrough => exact sameButOrder_finish found _
  | strict =>
    -- Undeclared keys are reported behind the issues of the fields, in the order of the object.
    exact sameButOrder_finish (found.append_right _) _

end Parsed

/-! ### Whole values -/

open Parsed

namespace Schema

variable {definitions : Definitions} {depth : Nat} {site : Site} {v : Value}
  {fields fields' : List (String × Schema)} {unknownKeys unknownKeys' : UnknownKeys}

theorem parse_eq_map (s : Schema) :
    parse definitions depth site s v = (parseWithin definitions depth site s v).map reported := by
  refine congrArg (Option.map · _) (funext fun out => ?_)
  cases out <;> rfl

/-- Two object schemas are related in what they say to a value if they are in what they make of the
    outcomes for the fields, and in their refusals of other values. -/
theorem rel_parse_object {R : Except ParseError Value → Except ParseError Value → Prop}
    (refused : ∀ e, R (.error e) (.error e))
    (runs : ∀ (recur : Recur) input, v = .object input →
      Option.Rel (fun parts parts' => R (objectOutcome site fields unknownKeys input parts).reported
          (objectOutcome site fields' unknownKeys' input parts').reported)
        (fields.mapM (parseField recur site input)) (fields'.mapM (parseField recur site input)))
    (i j : SchemaId) :
    Option.Rel R (parse definitions depth site (.node i (.object fields unknownKeys)) v)
      (parse definitions depth site (.node j (.object fields' unknownKeys')) v) := by
  cases depth with
  | zero => exact .none
  | succ depth =>
    by_cases object : ∃ input, v = .object input
    · obtain ⟨input, rfl⟩ := object
      rw [parse_eq_map, parse_eq_map]
      show Option.Rel R ((parseObject (parseWithin definitions depth) site fields unknownKeys
        input).map _) ((parseObject (parseWithin definitions depth) site fields' unknownKeys'
        input).map _)
      rw [parseObject_eq, parseObject_eq, Option.map_map, Option.map_map]
      exact rel_map (runs _ input rfl) fun _ _ related => related
    · -- Values of other kinds are refused before any field is tested.
      cases v
      case object input => exact absurd ⟨input, rfl⟩ object
      all_goals exact .some (refused _)

/-- Two policies for the same fields start from the same outcomes. -/
theorem rel_parse_policies {R : Except ParseError Value → Except ParseError Value → Prop}
    (refused : ∀ e, R (.error e) (.error e))
    (step : ∀ input parts, v = .object input →
      parts.map FieldOutcome.name = fields.map Prod.fst →
      R (objectOutcome site fields unknownKeys input parts).reported
        (objectOutcome site fields unknownKeys' input parts).reported) (i j : SchemaId) :
    Option.Rel R (parse definitions depth site (.node i (.object fields unknownKeys)) v)
      (parse definitions depth site (.node j (.object fields unknownKeys')) v) := by
  refine rel_parse_object refused (fun recur input there => ?_) i j
  cases run : fields.mapM (parseField recur site input) with
  | none => exact .none
  | some parts => exact .some (step input parts there (map_name_of_parseFields run))

/-- **Policies of objects.** Tests of a value against object schemas with the same fields end
    together, whatever the policy for undeclared members and the order of declaration.

    * The strict policy accepts what stripping accepts if no member is undeclared, with the same
      result.
    * Passing undeclared members on accepts what stripping accepts, and its result has these members
      as they are next to the members of the other result.
    * Another order of the fields changes neither acceptance nor result, and only the order of the
      issues. -/
theorem parse_object_policies (distinct : (fields.map Prod.fst).Nodup) (sorted : v.Sorted)
    (definitions : Definitions) (depth : Nat) (site : Site) (i j : SchemaId) :
    let test (id : SchemaId) (fields : List (String × Schema)) (unknownKeys : UnknownKeys) :=
      parse definitions depth site (.node id (.object fields unknownKeys)) v
    Option.Rel (fun stripped strict => ∀ w,
        strict = .ok w ↔ stripped = .ok w ∧ v.undeclaredMembers fields = [])
      (test i fields .strip) (test j fields .strict) ∧
    Option.Rel (fun stripped passed =>
        ((∃ w, passed = .ok w) ↔ ∃ w, stripped = .ok w) ∧
        ∀ w w', stripped = .ok w → passed = .ok w' →
          ∃ members output, w = .object members ∧ w' = .object output ∧ SortedMembers output ∧
            output.Perm (members ++ v.undeclaredMembers fields))
      (test i fields .strip) (test j fields .passthrough) ∧
    ∀ unknownKeys fields', fields.Perm fields' →
      Option.Rel SameButOrder (test i fields unknownKeys) (test j fields' unknownKeys) := by
  intro test
  refine ⟨?_, ?_, fun unknownKeys fields' perm => ?_⟩
  · refine rel_parse_policies (fun e w => by simp) (fun input parts there _ w => ?_) i j
    subst there
    rw [reported_eq_ok_iff, reported_eq_ok_iff, objectOutcome_strict_iff, undeclared_eq]
  · refine rel_parse_policies (fun e => by simp) (fun input parts there names => ?_) i j
    subst there
    simp only [reported_eq_ok_iff, ← undeclared_eq]
    have members : SortedMembers input := (Value.sorted_object.mp sorted).1
    exact ⟨objectOutcome_passthrough_accepts_iff,
      fun w w' stripped passed => objectOutcome_passthrough members names stripped passed⟩
  · refine rel_parse_object (fun e => .error (.refl _)) (fun recur input there => ?_) i j
    have runs := rel_mapM_perm (f := parseField recur site input) perm
    cases run : fields.mapM (parseField recur site input) with
    | none =>
      rw [run, rel_none_iff] at runs
      rw [runs]
      exact .none
    | some parts =>
      rw [run, rel_some_iff] at runs
      obtain ⟨parts', run', same⟩ := runs
      rw [run']
      refine .some (objectOutcome_perm unknownKeys perm same ?_)
      rwa [map_name_of_parseFields run]

/-- Two declared members and one more: the strict policy refuses the object, stripping drops the
    third member and passing on keeps it, in either order of declaration. -/
theorem parse_object_policies_pair :
    let flag : String × Schema := ("b", .node 0 .boolean)
    let gap : String × Schema := ("a", .node 1 .null)
    let v : Value := .object [("a", .null), ("b", .bool true), ("x", .null)]
    let test (fields : List (String × Schema)) (unknownKeys : UnknownKeys) :=
      parse (fun _ => none) 2 [] (.node 2 (.object fields unknownKeys)) v
    test [flag, gap] .strip = some (.ok (.object [("a", .null), ("b", .bool true)])) ∧
    (¬ ∃ w, test [flag, gap] .strict = some (.ok w)) ∧
    (∃ output, test [flag, gap] .passthrough = some (.ok (.object output)) ∧
      output.Perm [("a", .null), ("b", .bool true), ("x", .null)]) ∧
    test [gap, flag] .strip = some (.ok (.object [("a", .null), ("b", .bool true)])) := by
  intro flag gap v test
  have distinct : ([flag, gap].map Prod.fst).Nodup := by decide
  have sorted : v.Sorted := by
    refine Value.sorted_object.mpr ⟨by simp only [SortedMembers]; decide, ?_⟩
    simp only [List.forall_mem_cons]
    exact ⟨Value.sorted_null, Value.sorted_bool true, Value.sorted_null, by simp⟩
  obtain ⟨strict, passed, orders⟩ :=
    parse_object_policies distinct sorted (fun _ => none) 2 [] 2 2
  have turned := orders .strip [gap, flag] (.swap gap flag [])
  have stripped : test [flag, gap] .strip =
      some (.ok (.object [("a", .null), ("b", .bool true)])) := by
    have before : ("a" < "b") = True := by decide
    have entered : test [flag, gap] .strip =
        some (.ok (.object (insertMember "a" .null [("b", .bool true)]))) := by
      simp only [test, v, flag, gap]
      rfl
    simpa only [insertMember, before, if_true] using entered
  have others : v.undeclaredMembers [flag, gap] = [("x", .null)] := rfl
  change Option.Rel _ (test [flag, gap] .strip) _ at strict passed turned
  rw [stripped, rel_some_iff] at strict passed turned
  obtain ⟨out, strictly, accepts_iff⟩ := strict
  obtain ⟨out', passing, accepts_iff', result⟩ := passed
  obtain ⟨out'', swapped, same⟩ := turned
  refine ⟨stripped, ?_, ?_, ?_⟩
  · rintro ⟨w, accepted⟩
    obtain rfl : out = .ok w := Option.some.inj (strictly.symm.trans accepted)
    cases ((accepts_iff w).mp rfl).2
  · obtain ⟨w, rfl⟩ := accepts_iff'.mpr ⟨_, rfl⟩
    obtain ⟨_, output, ⟨⟩, rfl, -, perm⟩ := result _ _ rfl rfl
    exact ⟨output, passing, perm⟩
  · cases same
    exact swapped

end Schema

end SchemaSampler
