import SchemaSampler.Proofs.Schema.BigintCheck
import SchemaSampler.Proofs.Schema.Parts
import SchemaSampler.Schema.Parse

namespace SchemaSampler

/-!
# Outcomes — what one level of parsing says about the level below

Every form of schema tests its inner schemas by `recur` and puts the results together.  For each
form there are two lemmas about this step, from which all laws of parsing follow by induction:

* `…_ok` — if the value was accepted, the inner schemas accepted its pieces, and the result is put
  together from theirs.
* `…_grants` — if the inner schemas accept the pieces whenever their tests come to an end, the
  value is accepted whenever its test comes to an end.

An inner schema that refuses a value has to report an issue (`Recur.Reports`), since a collection
is refused only for the issues of its elements.
-/

/-! ### Outcomes -/

namespace Parsed

/-- If a test came to an end, the value was accepted with a result as asked for. -/
def Grants (outcome : Option Parsed) (Q : Value → Prop) : Prop :=
  ∀ out, outcome = some out → ∃ w, out = .ok w ∧ Q w

variable {Q Q' : Value → Prop} {w : Value} {outcome : Option Parsed}

/-- A test without an outcome grants anything. -/
theorem grants_none : Grants none Q := by
  rintro out ⟨⟩

/-- An accepted value grants what holds of the result. -/
theorem grants_ok (h : Q w) : Grants (some (.ok w)) Q := by
  rintro out ⟨⟩
  exact ⟨w, rfl, h⟩

/-- What is granted may be weakened. -/
theorem Grants.imp (h : Grants outcome Q) (weaker : ∀ w, Q w → Q' w) : Grants outcome Q' := by
  intro out returns
  obtain ⟨w, rfl, hw⟩ := h out returns
  exact ⟨w, rfl, weaker w hw⟩

/-- Going on with the result of a test that grants something. -/
theorem Grants.bind {f : Parsed → Option Parsed} (h : Grants outcome Q)
    (next : ∀ w, Q w → Grants (f (.ok w)) Q') : Grants (outcome >>= f) Q' := by
  intro out returns
  obtain ⟨inner, hinner, returns⟩ := Option.bind_eq_some_iff.mp returns
  obtain ⟨w, rfl, hw⟩ := h inner hinner
  exact next w hw out returns

/-- What a result is made from was accepted, where a refusal would not have been made a result. -/
theorem exists_of_bind_ok {next : Parsed → Option Parsed}
    (stops : ∀ found, next (.error found) ≠ some (.ok w)) (h : outcome >>= next = some (.ok w)) :
    ∃ first, outcome = some (.ok first) ∧ next (.ok first) = some (.ok w) := by
  obtain ⟨out, returns, h⟩ := Option.bind_eq_some_iff.mp h
  cases out with
  | ok first => exact ⟨first, returns, h⟩
  | error found => exact absurd h (stops found)

@[simp] theorem issues_ok (v : Value) : (issues (.ok v)) = [] := rfl

@[simp] theorem issues_error (found : List Issue) : issues (.error found) = found := rfl

/-- The result is given if no issue was found. -/
theorem finish_eq_ok_iff {v : Value} {found : List Issue} :
    finish v found = .ok w ↔ found = [] ∧ w = v := by
  unfold finish
  cases found <;> simp [eq_comm]

@[simp] theorem finish_nil (v : Value) : finish v [] = .ok v := rfl

/-- A value is accepted if there is no problem with it, and as it is. -/
theorem ofProblems_eq_ok_iff {site : Site} {v w : Value} {problems : List Problem} :
    ofProblems site v problems = .ok w ↔ problems = [] ∧ w = v := by
  rw [ofProblems, finish_eq_ok_iff, List.map_eq_nil_iff]

/-- A value that is accepted as it is stays so. -/
theorem check_eq_ok_iff {site : Site} {expected : String} {v w : Value} {accepted : Bool} :
    check site expected v accepted = .ok w ↔ accepted = true ∧ w = v := by
  cases accepted <;> simp [check, mismatch, refuse, eq_comm]

/-- A value is accepted as it is if the condition holds. -/
theorem ite_refuse_eq_ok_iff {site : Site} {c : Prop} [Decidable c] {v w : Value} {p : Problem} :
    (if c then .ok v else refuse site p) = .ok w ↔ c ∧ w = v := by
  split <;> simp_all [refuse, eq_comm]

/-- An outcome that is refused without an issue does not occur among those of a schema. -/
def Reports (out : Parsed) : Prop := out ≠ .error []

/-- A refusal for found issues has one. -/
theorem reports_finish (v : Value) (found : List Issue) : (finish v found).Reports := by
  unfold finish Reports
  cases found <;> simp

/-- A refusal for one reason has that one. -/
theorem reports_refuse (site : Site) (p : Problem) : (refuse site p).Reports := by
  simp [refuse, Reports]

/-- Outcomes without issues are all results. -/
theorem all_ok {parts : List Parsed} (reports : ∀ part ∈ parts, part.Reports)
    (none_found : parts.flatMap issues = []) : ∃ ws : List Value, parts = ws.map .ok := by
  induction parts with
  | nil => exact ⟨[], rfl⟩
  | cons part parts ih =>
    rw [List.flatMap_cons, List.append_eq_nil_iff] at none_found
    obtain ⟨ws, rfl⟩ := ih (fun p hp => reports p (by simp [hp])) none_found.2
    cases part with
    | ok w => exact ⟨w :: ws, rfl⟩
    | error found =>
      obtain rfl : found = [] := none_found.1
      exact absurd rfl (reports _ (by simp))

/-- Among results there are no issues. -/
theorem flatMap_issues_ok (ws : List Value) :
    (ws.map (Except.ok : Value → Parsed)).flatMap issues = [] := by
  simp [List.flatMap_map]

/-- Results are all there is among results. -/
theorem filterMap_result?_ok (ws : List Value) :
    (ws.map (Except.ok : Value → Parsed)).filterMap result? = ws := by
  simp [List.filterMap_map, Function.comp_def, result?]

end Parsed

/-- A test that refuses a value reports an issue. -/
def Recur.Reports (recur : Recur) : Prop :=
  ∀ site s v out, recur site s v = some out → out.Reports

open Parsed

variable {recur : Recur} {site : Site} {w : Value}

/-! ### Big integers -/

section Bigint

variable {checks : List BigintCheck} {n : Int} {out : Parsed}

/-- The test of a big integer has the outcome of its checks, where these have an answer. -/
theorem parseBigint_eq_some_iff : parseBigint site checks n = some out ↔
    ∃ problems, BigintCheck.runAll? checks n = some problems ∧
      out = ofProblems site (.bigint n) problems := by
  rw [parseBigint]
  split
  · rename_i problems run
    simp [run, eq_comm]
  · rename_i missing
    simp only [missing, reduceCtorEq, false_and, exists_false]

/-- A big integer is accepted as it is if all checks are met. -/
theorem parseBigint_eq_ok_iff : parseBigint site checks n = some (.ok w) ↔
    (∀ check ∈ checks, check.holds? n = some true) ∧ w = .bigint n := by
  rw [parseBigint_eq_some_iff, ← BigintCheck.runAll?_eq_some_nil_iff]
  constructor
  · rintro ⟨problems, run, accepted⟩
    obtain ⟨rfl, rfl⟩ := ofProblems_eq_ok_iff.mp accepted.symm
    exact ⟨run, rfl⟩
  · rintro ⟨run, rfl⟩
    exact ⟨[], run, rfl⟩

/-- A big integer that no check refuses is accepted if the checks have an answer. -/
theorem parseBigint_grants (h : ∀ check ∈ checks, check.holds? n ≠ some false) :
    Grants (parseBigint site checks n) (· = .bigint n) := by
  intro out returns
  obtain ⟨problems, run, rfl⟩ := parseBigint_eq_some_iff.mp returns
  rw [BigintCheck.eq_nil_of_runAll? run h]
  exact ⟨_, rfl, rfl⟩

/-- The checks of a big integer have an answer at one place if they have one at another. -/
theorem parseBigint_rel {R : Parsed → Parsed → Prop} {site' : Site}
    (h : ∀ problems, R (ofProblems site (.bigint n) problems)
      (ofProblems site' (.bigint n) problems)) :
    Option.Rel R (parseBigint site checks n) (parseBigint site' checks n) := by
  unfold parseBigint
  split
  · exact .some (h _)
  · exact .none

/-- A value breaks off the tests against a schema: it is the least big integer, which a remainder
    divides by minus one. -/
def Schema.Overflows (definitions : Definitions) (s : Schema) (v : Value) : Prop :=
  v = .bigint Bigint.least ∧
    ∀ depth site, runWithin definitions (depth + 1) site s v = .error .overflow

/-- The test against a schema of big integers has an outcome, unless the value breaks it off. -/
theorem Schema.bigint_answers_or_overflows (definitions : Definitions) (id : SchemaId)
    (checks : List BigintCheck) (v : Value) :
    let s : Schema := .node id (.bigint checks)
    (∀ depth site, ∃ out, parseWithin definitions (depth + 1) site s v = some out) ∨
      .multipleOf (-1) ∈ checks ∧ s.Overflows definitions v := by
  cases v with
  | bigint n =>
    cases run : BigintCheck.runAll? checks n with
    | some problems =>
      exact .inl fun _ _ => ⟨_, parseBigint_eq_some_iff.mpr ⟨problems, run, rfl⟩⟩
    | none =>
      obtain ⟨check, member, rfl, rfl⟩ := BigintCheck.runAll?_eq_none_iff.mp run
      refine .inr ⟨member, rfl, fun depth site => ?_⟩
      show parseBigint site checks Bigint.least = _
      rw [parseBigint, run]
      rfl
  | _ => exact .inl fun _ _ => ⟨_, rfl⟩

end Bigint

/-! ### Collections and tuples -/

/-- A number of elements has no problem with bounds if it lies within them. -/
theorem SizeBounds.problems_eq_nil_iff {c : Collection} {bounds : SizeBounds} {size : Nat} :
    bounds.problems c size = [] ↔ (∀ min, bounds.min = some min → min ≤ size) ∧
      ∀ max, bounds.max = some max → size ≤ max := by
  obtain ⟨least, greatest⟩ := bounds
  cases least <;> cases greatest <;> simp [problems]

/-- The elements are tested one by one, each at its position. -/
theorem parseItems_eq (items : List (Schema × Value)) :
    parseItems recur site items =
      items.zipIdx.mapM fun p => recur (.index p.2 :: site) p.1.1 p.1.2 := rfl

/-- Where no element has an issue, every element has a result. -/
theorem parseItems_ok (reports : recur.Reports) {items : List (Schema × Value)}
    {parts : List Parsed} (run : parseItems recur site items = some parts)
    (none_found : parts.flatMap issues = []) :
    ∃ ws : List Value, parts = ws.map .ok ∧
      List.Forall₂ (fun p w => ∃ i, recur (.index i :: site) p.1 p.2 = some (.ok w)) items ws := by
  rw [parseItems_eq] at run
  have each := forall₂_of_zipIdx (mapM_eq_some_iff.mp run)
  have reported : ∀ part ∈ parts, part.Reports := by
    intro part member
    obtain ⟨p, _, i, returns⟩ := exists_of_mem_right each member
    exact reports _ _ _ _ returns
  obtain ⟨ws, rfl⟩ := all_ok reported none_found
  refine ⟨ws, rfl, ?_⟩
  rw [List.forall₂_map_right_iff] at each
  exact each

/-- What each element grants, all of them grant together. -/
theorem parseItems_grants {β : Type} {R : β → Value → Prop} {items : List (Schema × Value)}
    {goals : List β} {parts : List Parsed}
    (h : List.Forall₂ (fun p b => ∀ i, Grants (recur (.index i :: site) p.1 p.2) (R b)) items goals)
    (run : parseItems recur site items = some parts) :
    ∃ ws : List Value, parts = ws.map .ok ∧ List.Forall₂ R goals ws := by
  rw [parseItems_eq] at run
  have each : List.Forall₂ (fun part b => ∃ w, part = .ok w ∧ R b w) parts goals :=
    forall₂_of_mapM run
      (forall₂_zipIdx (R := fun p b => Grants (recur (.index p.2 :: site) p.1.1 p.1.2) (R b)) h)
      fun _ part _ returns granted => granted part returns
  clear run h
  induction each with
  | nil => exact ⟨[], rfl, .nil⟩
  | cons head _ ih =>
    obtain ⟨w, rfl, hw⟩ := head
    obtain ⟨ws, rfl, hws⟩ := ih
    exact ⟨w :: ws, rfl, .cons hw hws⟩

/-- An accepted collection has a size within its bounds, and is made of the results for its
    elements. -/
theorem parseCollection_ok (reports : recur.Reports) {c : Collection} {item : Schema}
    {bounds : SizeBounds} {items : List Value} {build : List Value → Value}
    (h : parseCollection recur site c item bounds items build = some (.ok w)) :
    bounds.problems c items.length = [] ∧
      ∃ ws, List.Forall₂ (fun v w => ∃ i, recur (.index i :: site) item v = some (.ok w)) items ws ∧
        w = build ws := by
  obtain ⟨parts, run, h⟩ := Option.bind_eq_some_iff.mp h
  obtain ⟨none_found, rfl⟩ := finish_eq_ok_iff.mp (Option.some.inj h)
  rw [List.append_eq_nil_iff, List.map_eq_nil_iff] at none_found
  obtain ⟨ws, rfl, each⟩ := parseItems_ok reports run none_found.2
  rw [List.forall₂_map_left_iff] at each
  exact ⟨none_found.1, ws, each, by rw [filterMap_result?_ok]⟩

/-- A collection of a size within its bounds is accepted if its elements are. -/
theorem parseCollection_grants {β : Type} {R : β → Value → Prop} {c : Collection} {item : Schema}
    {bounds : SizeBounds} {items : List Value} {build : List Value → Value} {goals : List β}
    (sizes : bounds.problems c items.length = [])
    (h : List.Forall₂ (fun v b => ∀ i, Grants (recur (.index i :: site) item v) (R b)) items goals) :
    Grants (parseCollection recur site c item bounds items build)
      fun w => ∃ ws, List.Forall₂ R goals ws ∧ w = build ws := by
  intro out returns
  obtain ⟨parts, run, returns⟩ := Option.bind_eq_some_iff.mp returns
  obtain ⟨ws, rfl, hws⟩ := parseItems_grants (List.forall₂_map_left_iff.mpr h) run
  rw [sizes, filterMap_result?_ok, flatMap_issues_ok] at returns
  cases returns
  exact ⟨build ws, rfl, ws, hws, rfl⟩

/-- An accepted tuple has slots for all of its elements, and is made of the results for them. -/
theorem parseTuple_ok (reports : recur.Reports) {slots : List Schema} {rest : Option Schema}
    {items : List Value} (h : parseTuple recur site slots rest items = some (.ok w)) :
    ∃ schemas ws, tupleSlots? slots rest items.length = some schemas ∧
      List.Forall₂ (fun p w => ∃ i, recur (.index i :: site) p.1 p.2 = some (.ok w))
        (schemas.zip items) ws ∧ w = .array ws := by
  unfold parseTuple at h
  split at h
  · cases h
  · rename_i schemas hslots
    obtain ⟨parts, run, h⟩ := Option.bind_eq_some_iff.mp h
    obtain ⟨none_found, rfl⟩ := finish_eq_ok_iff.mp (Option.some.inj h)
    obtain ⟨ws, rfl, each⟩ := parseItems_ok reports run none_found
    exact ⟨schemas, ws, hslots, each, by rw [filterMap_result?_ok]⟩

/-- A tuple with slots for all of its elements is accepted if they are. -/
theorem parseTuple_grants {β : Type} {R : β → Value → Prop} {slots : List Schema}
    {rest : Option Schema} {items : List Value} {schemas : List Schema} {goals : List β}
    (hslots : tupleSlots? slots rest items.length = some schemas)
    (h : List.Forall₂ (fun p b => ∀ i, Grants (recur (.index i :: site) p.1 p.2) (R b))
      (schemas.zip items) goals) :
    Grants (parseTuple recur site slots rest items)
      fun w => ∃ ws, List.Forall₂ R goals ws ∧ w = .array ws := by
  intro out returns
  rw [parseTuple, hslots] at returns
  obtain ⟨parts, run, returns⟩ := Option.bind_eq_some_iff.mp returns
  obtain ⟨ws, rfl, hws⟩ := parseItems_grants h run
  rw [filterMap_result?_ok, flatMap_issues_ok] at returns
  cases returns
  exact ⟨_, rfl, ws, hws, rfl⟩

/-- The schemas of the elements of a tuple are among those of the tuple. -/
theorem mem_of_tupleSlots? {slots schemas : List Schema} {rest : Option Schema} {count : Nat}
    (h : tupleSlots? slots rest count = some schemas) {s : Schema} (member : s ∈ schemas) :
    s ∈ slots ++ rest.toList := by
  unfold tupleSlots? at h
  split at h <;> split at h <;> cases h
  · rcases List.mem_append.mp member with member | member
    · simp [member]
    · simp [List.eq_of_mem_replicate member]
  · simp [member]

/-! ### Objects -/

/-- The outcome for a declared member whose schema accepted it. -/
def FieldOutcome.accepted (input : List (String × Value)) (field : String × Schema) (w : Value) :
    FieldOutcome :=
  ⟨field.1, (findMember? field.1 input).isSome, .ok w⟩

/-- What an object schema makes of an object, given the results for the declared members. -/
def objectResult (fields : List (String × Schema)) (unknownKeys : UnknownKeys)
    (input : List (String × Value)) (ws : List Value) : List (String × Value) :=
  let declared := (List.zipWith (FieldOutcome.accepted input) fields ws).foldl FieldOutcome.enter []
  match unknownKeys with
  | .strip | .strict => declared
  | .passthrough =>
    (undeclared fields input).foldl (fun out (key, v) => insertMember key v out) declared

/-- The value that the schema of a declared member is asked about. -/
def fieldInput (input : List (String × Value)) (name : String) : Value :=
  (findMember? name input).getD .undefined

/-- An object schema lets the undeclared members of an object pass. -/
def admitsUndeclared (fields : List (String × Schema)) (unknownKeys : UnknownKeys)
    (input : List (String × Value)) : Prop :=
  unknownKeys = .strict → undeclared fields input = []

/-- The outcome for a declared member is that of its schema, for its value or the absent one. -/
theorem parseField_eq_some_iff {input : List (String × Value)} {field : String × Schema}
    {part : FieldOutcome} :
    parseField recur site input field = some part ↔
      part.name = field.1 ∧ part.present = (findMember? field.1 input).isSome ∧
        recur (.key field.1 :: site) field.2 (fieldInput input field.1) = some part.outcome := by
  constructor
  · intro h
    obtain ⟨outcome, returns, h⟩ := Option.bind_eq_some_iff.mp h
    cases h
    exact ⟨rfl, rfl, returns⟩
  · rintro ⟨hname, hpresent, returns⟩
    obtain ⟨name, present, outcome⟩ := part
    subst hname hpresent
    exact Option.bind_eq_some_iff.mpr ⟨outcome, returns, rfl⟩

/-- The outcome of a test of an object from the outcomes for its declared members. -/
def objectOutcome (site : Site) (fields : List (String × Schema)) (unknownKeys : UnknownKeys)
    (input : List (String × Value)) (parts : List FieldOutcome) : Parsed :=
  let found := parts.flatMap fun f => f.outcome.issues
  let output := parts.foldl FieldOutcome.enter []
  let extra := undeclared fields input
  match unknownKeys with
  | .strip => .finish (.object output) found
  | .strict =>
    .finish (.object output) (found ++ extra.map fun (key, _) => ⟨site.path, .unrecognizedKey key⟩)
  | .passthrough =>
    .finish (.object (extra.foldl (fun out (key, v) => insertMember key v out) output)) found

/-- The declared members are tested one by one, and then put together. -/
theorem parseObject_eq (fields : List (String × Schema)) (unknownKeys : UnknownKeys)
    (input : List (String × Value)) :
    parseObject recur site fields unknownKeys input =
      (fields.mapM (parseField recur site input)).map
        (objectOutcome site fields unknownKeys input) := by
  unfold parseObject
  cases fields.mapM (parseField recur site input) <;> cases unknownKeys <;> rfl

/-- With every declared member accepted, all turns on the undeclared ones. -/
theorem objectOutcome_accepted_iff {fields : List (String × Schema)} {unknownKeys : UnknownKeys}
    {input : List (String × Value)} {parts : List FieldOutcome} :
    objectOutcome site fields unknownKeys input parts = .ok w ↔
      (parts.flatMap fun f => f.outcome.issues) = [] ∧
        admitsUndeclared fields unknownKeys input ∧
        w = .object (match unknownKeys with
          | .strip | .strict => parts.foldl FieldOutcome.enter []
          | .passthrough => (undeclared fields input).foldl
              (fun out (key, v) => insertMember key v out) (parts.foldl FieldOutcome.enter [])) := by
  cases unknownKeys <;> simp [objectOutcome, admitsUndeclared, finish_eq_ok_iff, and_assoc]

/-- An accepted object has no member that it may not have, and is made of the results for its
    declared members and of those that pass through. -/
theorem parseObject_ok (reports : recur.Reports) {fields : List (String × Schema)}
    {unknownKeys : UnknownKeys} {input : List (String × Value)}
    (h : parseObject recur site fields unknownKeys input = some (.ok w)) :
    admitsUndeclared fields unknownKeys input ∧
      ∃ ws, List.Forall₂ (fun field w =>
          recur (.key field.1 :: site) field.2 (fieldInput input field.1) = some (.ok w)) fields ws ∧
        w = .object (objectResult fields unknownKeys input ws) := by
  rw [parseObject_eq, Option.map_eq_some_iff] at h
  obtain ⟨parts, run, h⟩ := h
  obtain ⟨none_found, admits, rfl⟩ := objectOutcome_accepted_iff.mp h
  rw [mapM_eq_some_iff] at run
  have accepted : ∃ ws, parts = List.zipWith (FieldOutcome.accepted input) fields ws ∧
      List.Forall₂ (fun field w =>
        recur (.key field.1 :: site) field.2 (fieldInput input field.1) = some (.ok w))
        fields ws := by
    clear h admits
    induction run with
    | nil => exact ⟨[], rfl, .nil⟩
    | @cons field part fields parts returns _ ih =>
      obtain ⟨hname, hpresent, returns⟩ := parseField_eq_some_iff.mp returns
      rw [List.flatMap_cons, List.append_eq_nil_iff] at none_found
      obtain ⟨ws, rfl, hws⟩ := ih none_found.2
      obtain ⟨name, present, outcome⟩ := part
      subst hname hpresent
      cases outcome with
      | ok w => exact ⟨w :: ws, rfl, .cons returns hws⟩
      | error found =>
        obtain rfl : found = [] := none_found.1
        exact absurd rfl (reports _ _ _ _ returns)
  obtain ⟨ws, rfl, hws⟩ := accepted
  refine ⟨admits, ws, hws, ?_⟩
  cases unknownKeys <;> rfl

/-- An object without members that it may not have is accepted if its declared members are. -/
theorem parseObject_grants {β : Type} {R : β → Value → Prop} {fields : List (String × Schema)}
    {unknownKeys : UnknownKeys} {input : List (String × Value)} {goals : List β}
    (admits : admitsUndeclared fields unknownKeys input)
    (h : List.Forall₂ (fun field b =>
      Grants (recur (.key field.1 :: site) field.2 (fieldInput input field.1)) (R b)) fields goals) :
    Grants (parseObject recur site fields unknownKeys input) fun w =>
      ∃ ws, List.Forall₂ R goals ws ∧
        w = .object (objectResult fields unknownKeys input ws) := by
  intro out returns
  rw [parseObject_eq, Option.map_eq_some_iff] at returns
  obtain ⟨parts, run, rfl⟩ := returns
  rw [mapM_eq_some_iff] at run
  have accepted : ∃ ws, parts = List.zipWith (FieldOutcome.accepted input) fields ws ∧
      (parts.flatMap fun f => f.outcome.issues) = [] ∧ List.Forall₂ R goals ws := by
    clear admits
    induction h generalizing parts with
    | nil =>
      cases run
      exact ⟨[], rfl, rfl, .nil⟩
    | @cons field b fields goals granted _ ih =>
      obtain ⟨part, parts, returns, others, rfl⟩ := List.forall₂_cons_left_iff.mp run
      obtain ⟨hname, hpresent, returns⟩ := parseField_eq_some_iff.mp returns
      obtain ⟨ws, rfl, none_found, hws⟩ := ih parts others
      obtain ⟨name, present, outcome⟩ := part
      obtain ⟨w, rfl, hw⟩ := granted _ returns
      subst hname hpresent
      exact ⟨w :: ws, rfl, none_found, .cons hw hws⟩
  obtain ⟨ws, rfl, none_found, hws⟩ := accepted
  refine ⟨_, objectOutcome_accepted_iff.mpr ⟨none_found, admits, rfl⟩, ws, hws, ?_⟩
  cases unknownKeys <;> rfl

/-! ### Records and maps -/

/-- A member of a record is accepted if its key has a text for a result and its value is accepted.
    -/
theorem recordMember_eq_ok_iff {here : Site} {key value : Parsed} {m : String × Value} :
    recordMember here key value = .ok m ↔ key = .ok (.string m.1) ∧ value = .ok m.2 := by
  cases key with
  | error found => simp [recordMember]
  | ok k => cases k <;> cases value <;> simp [recordMember, Prod.ext_iff]

/-- A record refuses a member for an issue. -/
theorem recordMember_ne_error_nil {here : Site} {key value : Parsed} (hkey : key.Reports)
    (hvalue : value.Reports) : recordMember here key value ≠ .error [] := by
  cases key with
  | error found =>
    simp only [recordMember, ne_eq, Except.error.injEq, List.append_eq_nil_iff]
    rintro ⟨rfl, _⟩
    exact hkey rfl
  | ok k =>
    cases value with
    | ok v => cases k <;> simp [recordMember]
    | error found =>
      have : found ≠ [] := fun h => hvalue (by rw [h])
      cases k <;> simp [recordMember, this]

/-- The test of one member of a record. -/
def parseMember (recur : Recur) (site : Site) (key value : Schema) (m : String × Value) :
    Option (Except (List Issue) (String × Value)) := do
  let here := Step.key m.1 :: site
  let parsedKey ← recur (.branch 0 :: here) key (.string m.1)
  let parsedValue ← recur (.branch 1 :: here) value m.2
  pure (recordMember here parsedKey parsedValue)

/-- The outcome of a test of an object as a record from the outcomes for its members. -/
def recordOutcome (parts : List (Except (List Issue) (String × Value))) : Parsed :=
  .finish (Value.objectOf (parts.filterMap fun
      | .ok member => some member
      | .error _ => none))
    (parts.flatMap fun
      | .ok _ => []
      | .error found => found)

/-- The members are tested one by one, and then put together. -/
theorem parseRecord_eq (key value : Schema) (input : List (String × Value)) :
    parseRecord recur site key value input =
      (input.mapM (parseMember recur site key value)).map recordOutcome := by
  unfold parseRecord
  cases h : input.mapM (parseMember recur site key value) with
  | none =>
    unfold parseMember at h
    rw [h]
    rfl
  | some parts =>
    unfold parseMember at h
    rw [h]
    rfl

/-- Results for all members make a record. -/
theorem recordOutcome_ok (ms : List (String × Value)) :
    recordOutcome (ms.map .ok) = .ok (Value.objectOf ms) := by
  simp [recordOutcome, finish_eq_ok_iff, List.filterMap_map, List.flatMap_map]

/-- An accepted record is made of the results for its keys, which are texts, and of those for its
    values. -/
theorem parseRecord_ok (reports : recur.Reports) {key value : Schema}
    {input : List (String × Value)}
    (h : parseRecord recur site key value input = some (.ok w)) :
    ∃ ms, List.Forall₂ (fun m m' =>
        recur (.branch 0 :: .key m.1 :: site) key (.string m.1) = some (.ok (.string m'.1)) ∧
        recur (.branch 1 :: .key m.1 :: site) value m.2 = some (.ok m'.2)) input ms ∧
      w = Value.objectOf ms := by
  rw [parseRecord_eq, Option.map_eq_some_iff] at h
  obtain ⟨parts, run, h⟩ := h
  obtain ⟨none_found, rfl⟩ := finish_eq_ok_iff.mp h
  rw [mapM_eq_some_iff] at run
  have accepted : ∃ ms, parts = ms.map .ok ∧ List.Forall₂ (fun (m m' : String × Value) =>
      recur (.branch 0 :: .key m.1 :: site) key (.string m.1) = some (.ok (.string m'.1)) ∧
      recur (.branch 1 :: .key m.1 :: site) value m.2 = some (.ok m'.2)) input ms := by
    clear h
    induction run with
    | nil => exact ⟨[], rfl, .nil⟩
    | @cons m part input parts returns _ ih =>
      obtain ⟨k, hk, returns⟩ := Option.bind_eq_some_iff.mp returns
      obtain ⟨v, hv, returns⟩ := Option.bind_eq_some_iff.mp returns
      cases returns
      rw [List.flatMap_cons, List.append_eq_nil_iff] at none_found
      obtain ⟨ms, rfl, hms⟩ := ih none_found.2
      cases hm : recordMember (.key m.1 :: site) k v with
      | ok m' =>
        obtain ⟨rfl, rfl⟩ := recordMember_eq_ok_iff.mp hm
        exact ⟨m' :: ms, rfl, .cons ⟨hk, hv⟩ hms⟩
      | error found =>
        rw [hm] at none_found
        obtain rfl : found = [] := none_found.1
        exact absurd hm (recordMember_ne_error_nil (reports _ _ _ _ hk) (reports _ _ _ _ hv))
  obtain ⟨ms, rfl, hms⟩ := accepted
  exact ⟨ms, hms, by rw [recordOutcome_ok] at h; exact (Except.ok.inj h).symm⟩

/-- A record is accepted if its keys are, with texts for results, and its values are. -/
theorem parseRecord_grants {β : Type} {K : β → String → Prop} {V : β → Value → Prop}
    {key value : Schema} {input : List (String × Value)} {goals : List β}
    (h : List.Forall₂ (fun m b =>
      Grants (recur (.branch 0 :: .key m.1 :: site) key (.string m.1))
        (fun w => ∃ name, w = .string name ∧ K b name) ∧
      Grants (recur (.branch 1 :: .key m.1 :: site) value m.2) (V b)) input goals) :
    Grants (parseRecord recur site key value input) fun w =>
      ∃ ms, List.Forall₂ (fun b m => K b m.1 ∧ V b m.2) goals ms ∧ w = Value.objectOf ms := by
  intro out returns
  rw [parseRecord_eq, Option.map_eq_some_iff] at returns
  obtain ⟨parts, run, rfl⟩ := returns
  rw [mapM_eq_some_iff] at run
  have accepted : ∃ ms, parts = ms.map .ok ∧
      List.Forall₂ (fun b (m : String × Value) => K b m.1 ∧ V b m.2) goals ms := by
    induction h generalizing parts with
    | nil =>
      cases run
      exact ⟨[], rfl, .nil⟩
    | @cons m b input goals granted _ ih =>
      obtain ⟨part, parts, returns, others, rfl⟩ := List.forall₂_cons_left_iff.mp run
      obtain ⟨k, hk, returns⟩ := Option.bind_eq_some_iff.mp returns
      obtain ⟨v, hv, returns⟩ := Option.bind_eq_some_iff.mp returns
      cases returns
      obtain ⟨ms, rfl, hms⟩ := ih parts others
      obtain ⟨_, rfl, name, rfl, hname⟩ := granted.1 k hk
      obtain ⟨w, rfl, hw⟩ := granted.2 v hv
      exact ⟨(name, w) :: ms, rfl, .cons ⟨hname, hw⟩ hms⟩
  obtain ⟨ms, rfl, hms⟩ := accepted
  exact ⟨_, recordOutcome_ok ms, ms, hms, rfl⟩

/-- The test of one entry of a map. -/
def parseEntry (recur : Recur) (site : Site) (key value : Schema) (e : (Value × Value) × Nat) :
    Option (Parsed × Parsed) := do
  let here := Step.index e.2 :: site
  let parsedKey ← recur (.branch 0 :: here) key e.1.1
  let parsedValue ← recur (.branch 1 :: here) value e.1.2
  pure (parsedKey, parsedValue)

/-- The outcome of a test of a map from the outcomes for its entries. -/
def mapOutcome (parts : List (Parsed × Parsed)) : Parsed :=
  .finish (Value.mapOfPairs (parts.filterMap fun
      | (.ok k, .ok v) => some (k, v)
      | _ => none))
    (parts.flatMap fun (k, v) => k.issues ++ v.issues)

/-- The entries are tested one by one, each at its position, and then put together. -/
theorem parseMap_eq (key value : Schema) (entries : List (Value × Value)) :
    parseMap recur site key value entries =
      (entries.zipIdx.mapM (parseEntry recur site key value)).map mapOutcome := by
  unfold parseMap
  cases h : entries.zipIdx.mapM (parseEntry recur site key value) with
  | none =>
    unfold parseEntry at h
    rw [h]
    rfl
  | some parts =>
    unfold parseEntry at h
    rw [h]
    rfl

/-- Results for all entries make a map. -/
theorem mapOutcome_ok (pairs : List (Value × Value)) :
    mapOutcome (pairs.map fun (k, v) => (.ok k, .ok v)) = .ok (Value.mapOfPairs pairs) := by
  simp [mapOutcome, finish_eq_ok_iff, List.filterMap_map, List.flatMap_map]

/-- An accepted map is made of the results for its keys and values. -/
theorem parseMap_ok (reports : recur.Reports) {key value : Schema}
    {entries : List (Value × Value)}
    (h : parseMap recur site key value entries = some (.ok w)) :
    ∃ pairs, List.Forall₂ (fun e e' => ∃ i,
        recur (.branch 0 :: .index i :: site) key e.1 = some (.ok e'.1) ∧
        recur (.branch 1 :: .index i :: site) value e.2 = some (.ok e'.2)) entries pairs ∧
      w = Value.mapOfPairs pairs := by
  rw [parseMap_eq, Option.map_eq_some_iff] at h
  obtain ⟨parts, run, h⟩ := h
  obtain ⟨none_found, rfl⟩ := finish_eq_ok_iff.mp h
  replace run := forall₂_of_zipIdx (mapM_eq_some_iff.mp run)
  have accepted : ∃ pairs : List (Value × Value),
      parts = pairs.map (fun (k, v) => (.ok k, .ok v)) ∧
      List.Forall₂ (fun (e e' : Value × Value) => ∃ i,
        recur (.branch 0 :: .index i :: site) key e.1 = some (.ok e'.1) ∧
        recur (.branch 1 :: .index i :: site) value e.2 = some (.ok e'.2)) entries pairs := by
    clear h
    induction run with
    | nil => exact ⟨[], rfl, .nil⟩
    | @cons e part entries parts returns _ ih =>
      obtain ⟨i, returns⟩ := returns
      obtain ⟨k, hk, returns⟩ := Option.bind_eq_some_iff.mp returns
      obtain ⟨v, hv, returns⟩ := Option.bind_eq_some_iff.mp returns
      cases returns
      rw [List.flatMap_cons, List.append_eq_nil_iff, List.append_eq_nil_iff] at none_found
      obtain ⟨pairs, rfl, hpairs⟩ := ih none_found.2
      obtain ⟨⟨hk_issues, hv_issues⟩, _⟩ := none_found
      cases k with
      | error found =>
        obtain rfl : found = [] := hk_issues
        exact absurd rfl (reports _ _ _ _ hk)
      | ok k =>
        cases v with
        | error found =>
          obtain rfl : found = [] := hv_issues
          exact absurd rfl (reports _ _ _ _ hv)
        | ok v => exact ⟨(k, v) :: pairs, rfl, .cons ⟨i, hk, hv⟩ hpairs⟩
  obtain ⟨pairs, rfl, hpairs⟩ := accepted
  exact ⟨pairs, hpairs, by rw [mapOutcome_ok] at h; exact (Except.ok.inj h).symm⟩

/-- A map is accepted if its keys and values are. -/
theorem parseMap_grants {β : Type} {K V : β → Value → Prop} {key value : Schema}
    {entries : List (Value × Value)} {goals : List β}
    (h : List.Forall₂ (fun e b => ∀ i,
      Grants (recur (.branch 0 :: .index i :: site) key e.1) (K b) ∧
      Grants (recur (.branch 1 :: .index i :: site) value e.2) (V b)) entries goals) :
    Grants (parseMap recur site key value entries) fun w =>
      ∃ pairs, List.Forall₂ (fun b e => K b e.1 ∧ V b e.2) goals pairs ∧
        w = Value.mapOfPairs pairs := by
  intro out returns
  rw [parseMap_eq, Option.map_eq_some_iff] at returns
  obtain ⟨parts, run, rfl⟩ := returns
  replace run := forall₂_of_zipIdx (mapM_eq_some_iff.mp run)
  have accepted : ∃ pairs : List (Value × Value),
      parts = pairs.map (fun (k, v) => (.ok k, .ok v)) ∧
      List.Forall₂ (fun b (e : Value × Value) => K b e.1 ∧ V b e.2) goals pairs := by
    induction h generalizing parts with
    | nil =>
      cases run
      exact ⟨[], rfl, .nil⟩
    | @cons e b entries goals granted _ ih =>
      obtain ⟨part, parts, ⟨i, returns⟩, others, rfl⟩ := List.forall₂_cons_left_iff.mp run
      obtain ⟨k, hk, returns⟩ := Option.bind_eq_some_iff.mp returns
      obtain ⟨v, hv, returns⟩ := Option.bind_eq_some_iff.mp returns
      cases returns
      obtain ⟨pairs, rfl, hpairs⟩ := ih parts others
      obtain ⟨k', rfl, hk'⟩ := (granted i).1 k hk
      obtain ⟨v', rfl, hv'⟩ := (granted i).2 v hv
      exact ⟨(k', v') :: pairs, rfl, .cons ⟨hk', hv'⟩ hpairs⟩
  obtain ⟨pairs, rfl, hpairs⟩ := accepted
  exact ⟨_, mapOutcome_ok pairs, pairs, hpairs, rfl⟩

/-! ### Alternatives -/

/-- A value is accepted if one of several options accepts it. -/
theorem firstAccepted_grants {options : List Schema} {option : Schema} {v : Value}
    (member : option ∈ options) (h : Grants (recur site option v) fun _ => True) :
    Grants (firstAccepted recur site v options) fun _ => True := by
  induction options with
  | nil => cases member
  | cons first rest ih =>
    intro out returns
    obtain ⟨outcome, hfirst, returns⟩ := Option.bind_eq_some_iff.mp returns
    cases outcome with
    | ok w =>
      cases returns
      exact ⟨w, rfl, trivial⟩
    | error found =>
      rcases List.mem_cons.mp member with rfl | member
      · obtain ⟨_, ⟨⟩, _⟩ := h _ hfirst
      · exact ih member out returns

/-- What a choice made of a value is what one of the options made of it. -/
theorem firstAccepted_ok {options : List Schema} {v : Value}
    (h : firstAccepted recur site v options = some (.ok w)) :
    ∃ option ∈ options, recur site option v = some (.ok w) := by
  induction options with
  | nil => cases h
  | cons first rest ih =>
    obtain ⟨outcome, hfirst, h⟩ := Option.bind_eq_some_iff.mp h
    cases outcome with
    | ok _ =>
      cases h
      exact ⟨first, by simp, hfirst⟩
    | error found =>
      obtain ⟨option, member, returns⟩ := ih h
      exact ⟨option, by simp [member], returns⟩

/-- The option of a discriminated union that an object belongs to. -/
def Selects (discriminator : String) (options : List Schema) (input : List (String × Value))
    (option : Schema) : Prop :=
  ∃ table tag position, tagTable discriminator options = .ok table ∧
    findMember? discriminator input = some (.string tag) ∧
    findMember? tag table = some position ∧ options[position]? = some option

/-- An object belongs to one of the options. -/
theorem Selects.mem {discriminator : String} {options : List Schema}
    {input : List (String × Value)} {option : Schema}
    (h : Selects discriminator options input option) : option ∈ options := by
  obtain ⟨table, tag, position, _, _, _, hoption⟩ := h
  exact List.mem_of_getElem? hoption

/-- An object is tested against the option that it belongs to. -/
theorem parseTagged_of_selects {discriminator : String} {options : List Schema}
    {input : List (String × Value)} {option : Schema}
    (h : Selects discriminator options input option) :
    parseTagged recur site discriminator options input = recur site option (.object input) := by
  obtain ⟨table, tag, position, htable, htag, hposition, hoption⟩ := h
  simp only [parseTagged, htable, htag, hposition, Option.bind_some, hoption]

/-- An accepted object was accepted by the option that it belongs to. -/
theorem parseTagged_ok {discriminator : String} {options : List Schema}
    {input : List (String × Value)}
    (h : parseTagged recur site discriminator options input = some (.ok w)) :
    ∃ option, Selects discriminator options input option ∧
      recur site option (.object input) = some (.ok w) := by
  unfold parseTagged at h
  split at h
  · cases h
  · rename_i table htable
    split at h
    · rename_i tag htag
      split at h
      · rename_i option selected
        obtain ⟨position, hposition, hoption⟩ := Option.bind_eq_some_iff.mp selected
        exact ⟨option, ⟨table, tag, position, htable, htag, hposition, hoption⟩, h⟩
      · cases h
    · cases h

/-! ### Combinations and effects -/

/-- An intersection accepts what both sides accept, if their results go together. -/
theorem intersect_ok {l r : Parsed} (h : intersect site l r = .ok w) :
    ∃ a b, l = .ok a ∧ r = .ok b ∧ a.merge b = some w := by
  cases l with
  | error found => cases h
  | ok a =>
    cases r with
    | error found => cases h
    | ok b =>
      simp only [intersect] at h
      split at h
      · rename_i merges
        cases h
        exact ⟨a, b, rfl, rfl, merges⟩
      · cases h

/-- A promise is accepted if what it settles to is, and settles to the result for that. -/
theorem step_promise_ok {definitions : Definitions} {id : SchemaId} {inner : Schema} {v : Value}
    (h : (Shape.promise inner).step definitions recur site id v = some (.ok w)) :
    ∃ settled result, v = .promise settled ∧ w = .promise result ∧
      recur site inner settled = some (.ok result) := by
  simp only [Shape.step] at h
  split at h
  · rename_i settled
    obtain ⟨result, returns, h⟩ := exists_of_bind_ok (by rintro _ ⟨⟩) h
    cases h
    exact ⟨settled, result, rfl, rfl, returns⟩
  · cases h

/-- A refinement changes nothing of a result, and asks that the check holds of it. -/
theorem parseRefinement_ok {inner : Schema} {holds : Value → Bool} {reason : String} {v : Value}
    (h : parseEffect recur site inner (.refinement holds reason) v = some (.ok w)) :
    recur site inner v = some (.ok w) ∧ holds w = true := by
  obtain ⟨result, returns, h⟩ := exists_of_bind_ok (by rintro _ ⟨⟩) h
  simp only [Option.pure_def, Option.some.injEq, ite_refuse_eq_ok_iff] at h
  obtain ⟨accepted, rfl⟩ := h
  exact ⟨returns, accepted⟩

/-! ### All levels -/

/-- A test of a whole value accepts it when the test within the depth does. -/
theorem Schema.parse_eq_ok_iff {definitions : Definitions} {depth : Nat} {site : Site} {s : Schema}
    {v w : Value} :
    s.parse definitions depth site v = some (.ok w) ↔
      Schema.parseWithin definitions depth site s v = some (.ok w) := by
  unfold Schema.parse
  cases Schema.parseWithin definitions depth site s v with
  | none => simp
  | some out => cases out <;> simp

/-- A test of a whole value comes to an end with the test within the depth. -/
theorem Schema.exists_of_parse {definitions : Definitions} {depth : Nat} {site : Site} {s : Schema}
    {v : Value} {result : Except ParseError Value}
    (h : s.parse definitions depth site v = some result) :
    ∃ out, Schema.parseWithin definitions depth site s v = some out ∧
      ∀ w, result = .ok w ↔ out = .ok w := by
  obtain ⟨out, returns, rfl⟩ := Option.map_eq_some_iff.mp h
  exact ⟨out, returns, fun w => by cases out <;> simp⟩

end SchemaSampler
