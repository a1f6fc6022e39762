import SchemaSampler.Proofs.Parse.Outcome

namespace SchemaSampler

/-!
# Refusals — a test that refuses a value says why

* `parseWithin_reports` — a test that refuses a value reports an issue.
* `parse_eq_error_iff` — so the error of a test of a whole value holds the issues that were found.
* `refused_for_issues` — both together, for every schema, value and place.

The first is proved for one level and then by induction on the depth.
-/

open Parsed

section Refusals

variable {recur : Recur} (reports : recur.Reports) {site : Site} {v : Value} {out : Parsed}

/-- An accepted value is no refusal. -/
theorem reports_ok (v : Value) : Reports (.ok v) := by
  rintro ⟨⟩

/-- A choice refuses a value for one reason: no option accepts it. -/
theorem firstAccepted_reports {options : List Schema}
    (h : firstAccepted recur site v options = some out) : out.Reports := by
  induction options with
  | nil =>
    cases h
    exact reports_refuse site _
  | cons option rest ih =>
    obtain ⟨first, returns, h⟩ := Option.bind_eq_some_iff.mp h
    cases first with
    | ok w =>
      cases h
      exact reports_ok w
    | error found => exact ih h

include reports in
/-- A discriminated union refuses an object for its tag or as the option does. -/
theorem parseTagged_reports {discriminator : String} {options : List Schema}
    {input : List (String × Value)}
    (h : parseTagged recur site discriminator options input = some out) : out.Reports := by
  unfold parseTagged at h
  split at h
  · cases h
    exact reports_refuse site _
  · split at h
    · split at h
      · exact reports _ _ _ _ h
      · cases h
        exact reports_refuse _ _
    · cases h
      exact reports_refuse _ _

/-- An intersection refuses a value for the issues of its sides, or since the results do not go
    together. -/
theorem intersect_reports {left right : Parsed} (hl : left.Reports) (hr : right.Reports) :
    (intersect site left right).Reports := by
  unfold intersect
  split
  · split
    · exact reports_ok _
    · exact reports_refuse site _
  · rename_i not_both
    intro h
    rw [Except.error.injEq, List.append_eq_nil_iff] at h
    cases left with
    | error found => exact hl (by rw [show found = [] from h.1])
    | ok l =>
      cases right with
      | error found => exact hr (by rw [show found = [] from h.2])
      | ok r => exact not_both l r rfl rfl

include reports in
/-- Going on after a test with its result only. -/
theorem bind_reports {s : Schema} {f : Parsed → Option Parsed}
    (next : ∀ first, first.Reports → f first = some out → out.Reports)
    (h : recur site s v >>= f = some out) : out.Reports := by
  obtain ⟨first, returns, h⟩ := Option.bind_eq_some_iff.mp h
  exact next first (reports _ _ _ _ returns) h

include reports in
/-- An effect refuses a value for its reason or as the inner schema does. -/
theorem parseEffect_reports {inner : Schema} {effect : Effect}
    (h : parseEffect recur site inner effect v = some out) : out.Reports := by
  cases effect with
  | refinement check reason =>
    refine bind_reports reports (fun first hfirst h => ?_) h
    cases first with
    | error found =>
      cases h
      exact hfirst
    | ok w =>
      obtain rfl := Option.some.inj h
      by_cases hc : check w
      · simp only [hc, if_true]
        exact reports_ok w
      · simp only [hc]
        exact reports_refuse site _
  | transform map =>
    refine bind_reports reports (fun first hfirst h => ?_) h
    cases first with
    | error found =>
      cases h
      exact hfirst
    | ok w =>
      simp only at h
      split at h <;> cases h
      · exact reports_ok _
      · exact reports_refuse site _
  | preprocess map => exact reports _ _ _ _ h

/-- A value of another kind is refused for that. -/
theorem reports_check (site : Site) (expected : String) (v : Value) (accepted : Bool) :
    (Parsed.check site expected v accepted).Reports := by
  cases accepted
  · exact reports_refuse site _
  · exact reports_ok v

/-- A condition that fails is a reason. -/
theorem reports_ite (c : Prop) [Decidable c] (v : Value) (p : Problem) :
    Parsed.Reports (if c then .ok v else .refuse site p) := by
  split
  · exact reports_ok v
  · exact reports_refuse site p

/-- A scalar shape refuses a value for the problems found, or as one of another kind. -/
theorem step_scalar_reports {definitions : Definitions} {id : SchemaId} {shape : Shape Schema}
    (scalar : shape.Scalar) (h : shape.step definitions recur site id v = some out) :
    out.Reports := by
  cases shape <;> (try exact scalar.elim) <;> simp only [Shape.step] at h
  case string | date =>
    split at h <;> cases h
    · exact reports_finish _ _
    · exact reports_refuse site _
  case bigint =>
    split at h
    · obtain ⟨problems, _, rfl⟩ := parseBigint_eq_some_iff.mp h
      exact reports_finish _ _
    · cases h
      exact reports_refuse site _
  case number =>
    split at h
    · split at h <;> cases h
      · exact reports_refuse site _
      · exact reports_finish _ _
    · cases h
      exact reports_refuse site _
  case any | unknown =>
    cases h
    exact reports_ok v
  case never =>
    cases h
    exact reports_refuse site _
  case boolean | undefined | null | void | nan | symbol =>
    cases h
    exact reports_check _ _ _ _
  case literal | enumeration | nativeEnum | custom =>
    cases h
    exact reports_ite _ _ _

/-- A collection is refused for the issues found. -/
theorem parseCollection_reports {c : Collection} {item : Schema} {bounds : SizeBounds}
    {items : List Value} {build : List Value → Value}
    (h : parseCollection recur site c item bounds items build = some out) : out.Reports := by
  obtain ⟨parts, _, h⟩ := Option.bind_eq_some_iff.mp h
  cases h
  exact reports_finish _ _

/-- So is a tuple, unless it has another number of elements. -/
theorem parseTuple_reports {slots : List Schema} {rest : Option Schema} {items : List Value}
    (h : parseTuple recur site slots rest items = some out) : out.Reports := by
  unfold parseTuple at h
  split at h
  · cases h
    exact reports_refuse site _
  · obtain ⟨parts, _, h⟩ := Option.bind_eq_some_iff.mp h
    cases h
    exact reports_finish _ _

/-- An object is refused for the issues of its fields and of what it has beyond them. -/
theorem parseObject_reports {fields : List (String × Schema)} {unknownKeys : UnknownKeys}
    {input : List (String × Value)}
    (h : parseObject recur site fields unknownKeys input = some out) : out.Reports := by
  rw [parseObject_eq, Option.map_eq_some_iff] at h
  obtain ⟨parts, _, rfl⟩ := h
  cases unknownKeys <;> exact reports_finish _ _

/-- A record is refused for the issues of its entries. -/
theorem parseRecord_reports {key value : Schema} {input : List (String × Value)}
    (h : parseRecord recur site key value input = some out) : out.Reports := by
  rw [parseRecord_eq, Option.map_eq_some_iff] at h
  obtain ⟨parts, _, rfl⟩ := h
  exact reports_finish _ _

/-- A map is refused for the issues of its entries. -/
theorem parseMap_reports {key value : Schema} {entries : List (Value × Value)}
    (h : parseMap recur site key value entries = some out) : out.Reports := by
  rw [parseMap_eq, Option.map_eq_some_iff] at h
  obtain ⟨parts, _, rfl⟩ := h
  exact reports_finish _ _

include reports in
/-- A promise is refused for what it is settled with. -/
theorem step_promise_reports {definitions : Definitions} {id : SchemaId} {inner : Schema}
    (h : (Shape.promise inner).step definitions recur site id v = some out) : out.Reports := by
  simp only [Shape.step] at h
  split at h
  · refine bind_reports reports (fun first hfirst h => ?_) h
    cases first <;> cases h
    · exact hfirst
    · exact reports_ok _
  · cases h
    exact reports_refuse site _

include reports in
/-- One level of a test reports its refusals when the tests of inner schemas do. -/
theorem Shape.step_reports {definitions : Definitions} {id : SchemaId} {shape : Shape Schema}
    (h : shape.step definitions recur site id v = some out) : out.Reports := by
  by_cases scalar : shape.Scalar
  · exact step_scalar_reports scalar h
  cases shape <;> try exact absurd trivial scalar
  case promise => exact step_promise_reports reports h
  all_goals simp only [Shape.step] at h
  -- A container is refused as one of another kind, or as the lemma for its test says.
  case array | set =>
    split at h
    · exact parseCollection_reports h
    · cases h
      exact reports_refuse site _
  case object =>
    split at h
    · exact parseObject_reports h
    · cases h
      exact reports_refuse site _
  case tuple =>
    split at h
    · exact parseTuple_reports h
    · cases h
      exact reports_refuse site _
  case record =>
    split at h
    · exact parseRecord_reports h
    · cases h
      exact reports_refuse site _
  case map =>
    split at h
    · exact parseMap_reports h
    · cases h
      exact reports_refuse site _
  case union => exact firstAccepted_reports h
  case discriminatedUnion =>
    split at h
    · exact parseTagged_reports reports h
    · cases h
      exact reports_refuse site _
  case intersection =>
    refine bind_reports reports (fun l hl h => bind_reports reports (fun r hr h => ?_) h) h
    cases h
    exact intersect_reports hl hr
  case function =>
    split at h <;> cases h
    · exact reports_ok _
    · exact reports_refuse site _
  case «lazy» =>
    split at h
    · exact reports _ _ _ _ h
    · cases h
      exact reports_refuse site _
  case optional | nullable =>
    split at h
    · cases h
      exact reports_ok _
    · exact reports _ _ _ _ h
  case default =>
    split at h <;> exact reports _ _ _ _ h
  case caught =>
    refine bind_reports reports (fun first _ h => ?_) h
    cases first <;> cases h <;> exact reports_ok _
  case effects => exact parseEffect_reports reports h
  case pipeline =>
    refine bind_reports reports (fun first hfirst h => ?_) h
    cases first with
    | ok result => exact reports _ _ _ _ h
    | error found =>
      cases h
      exact hfirst
  case branded | readonly => exact reports _ _ _ _ h

end Refusals

/-- A test that refuses a value reports an issue. -/
theorem Schema.parseWithin_reports (definitions : Definitions) (depth : Nat) :
    (parseWithin definitions depth).Reports := by
  induction depth with
  | zero =>
    rintro site s v out ⟨⟩
  | succ depth ih =>
    intro site s v out h
    exact Shape.step_reports ih h

/-- A test of a whole value refuses it for the issues that the test within the depth finds. -/
theorem Schema.parse_eq_error_iff {definitions : Definitions} {depth : Nat} {site : Site}
    {s : Schema} {v : Value} {e : ParseError} :
    s.parse definitions depth site v = some (.error e) ↔
      Schema.parseWithin definitions depth site s v = some (.error e.issues) := by
  have reports := Schema.parseWithin_reports definitions depth site s v
  unfold Schema.parse
  cases returns : Schema.parseWithin definitions depth site s v with
  | none => simp
  | some out =>
    cases out with
    | ok w => simp
    | error found =>
      obtain ⟨head, tail⟩ := e
      cases found with
      | nil => exact absurd rfl (reports _ returns)
      | cons issue rest => simp [ParseError.ofIssues, ParseError.issues]

/-- **A refusal has a reason.**  Whatever the schema, the value and the place, a test that ends in a
    refusal has found an issue, and the error of a test of a whole value holds the issues found and
    no others, so that the issue which would stand for a missing one is never used. -/
theorem Schema.refused_for_issues (definitions : Definitions) (depth : Nat) (site : Site)
    (s : Schema) (v : Value) :
    (∀ found, parseWithin definitions depth site s v = some (.error found) →
      ∃ first rest, found = first :: rest ∧
        s.parse definitions depth site v = some (.error ⟨first, rest⟩)) ∧
    ∀ e, s.parse definitions depth site v = some (.error e) →
      parseWithin definitions depth site s v = some (.error e.issues) := by
  constructor
  · intro found refused
    cases found with
    | nil => exact absurd rfl (parseWithin_reports definitions depth site s v _ refused)
    | cons first rest => exact ⟨first, rest, rfl, parse_eq_error_iff.mpr refused⟩
  · intro e error
    exact parse_eq_error_iff.mp error

/-- An entry of a map with a key of another kind and a value that is accepted, for which no issue
    was found. -/
theorem Schema.refused_for_issues_key :
    let s : Schema := .node 2 (.map (.node 0 (.number [])) (.node 1 .boolean))
    let v : Value := .map [(.null, .bool true)]
    let key : Issue := ⟨[.index 0], .unexpectedKind "number" "null"⟩
    parseWithin (fun _ => none) 2 [] s v = some (.error [key]) ∧
      s.parse (fun _ => none) 2 [] v = some (.error ⟨key, []⟩) := by
  intro s v key
  have refused : parseWithin (fun _ => none) 2 [] s v = some (.error [key]) := rfl
  obtain ⟨first, rest, found, error⟩ :=
    (refused_for_issues (fun _ => none) 2 [] s v).1 [key] refused
  cases found
  exact ⟨refused, error⟩

end SchemaSampler
