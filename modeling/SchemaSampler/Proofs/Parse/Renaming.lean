import SchemaSampler.Proofs.Parse.Depth
import SchemaSampler.Proofs.Value.Support

namespace SchemaSampler

/-!
# Tests of renamed values — where a test is made does not matter

The place of a test shows in two ways only: issues name it, and functions that are wrapped get
their identities from it.  `parseWithin_rename` says so: a renaming that carries the identities
made below one place to those made below another turns the test of a value at the first place
into the test of the renamed value at the second.  Both tests find the same issues, which differ in
the place that their paths start from (`Issue.Moved`).

This asks of the schema that the values written into it, and the functions supplied with it, treat
all identities alike but those in a set that the renaming keeps (`Shape.SupportedBy`).

The induction is over places that are related in lockstep (`parseWithin_movesAlong`).  Places with
one path are related so, too: there the tests of a schema that wraps no functions are the same
(`parseWithin_of_path`).
-/

/-- What a shape brings along is supported by a set of identities: the values written into it,
    and the functions, which commute with every renaming that keeps the set. -/
def Shape.SupportedBy {σ : Type} (K : Identity → Prop) : Shape σ → Prop
  | .literal v | .default _ v | .caught _ v => v.SupportedBy K
  | .nativeEnum members => ∀ m ∈ members, m.2.SupportedBy K
  | .effects _ (.refinement check _) | .custom _ check =>
    ∀ ρ : Renaming, (∀ i, K i → ρ.apply i = i) → ∀ v : Value, check (v.rename ρ) = check v
  | .effects _ (.transform f) =>
    ∀ ρ : Renaming, (∀ i, K i → ρ.apply i = i) →
      ∀ v : Value, f (v.rename ρ) = (f v).map (Value.rename ρ)
  | .effects _ (.preprocess f) =>
    ∀ ρ : Renaming, (∀ i, K i → ρ.apply i = i) →
      ∀ v : Value, f (v.rename ρ) = (f v).rename ρ
  | _ => True

/-- All identities together support what a shape brings along. -/
theorem Shape.supportedBy_all {σ : Type} (shape : Shape σ) : shape.SupportedBy fun _ => True := by
  -- A renaming that keeps all identities changes no value.
  have unchanged {ρ : Renaming} (keeps : ∀ i, True → ρ.apply i = i) (v : Value) : v.rename ρ = v :=
    v.supported_all ρ keeps
  cases shape
  case literal v | default v | caught v => exact v.supported_all
  case nativeEnum members => exact fun m _ => m.2.supported_all
  case custom check => exact fun ρ keeps v => by rw [unchanged keeps]
  case effects effect =>
    cases effect with
    | refinement check reason => exact fun ρ keeps v => by rw [unchanged keeps]
    | transform f =>
      intro ρ keeps v
      rw [unchanged keeps]
      cases f v with
      | ok w => exact congrArg Except.ok (unchanged keeps w).symm
      | error reason => rfl
    | preprocess f => exact fun ρ keeps v => by rw [unchanged keeps, unchanged keeps]
  all_goals exact trivial

/-- A shape other than that of functions, which are wrapped under new identities. -/
def Shape.Functionless {σ : Type} : Shape σ → Prop
  | .function _ _ => False
  | _ => True

/-- A renaming that carries the identities made below one place to those made below another. -/
def Renaming.Carries (ρ : Renaming) (site site' : Site) : Prop :=
  ∀ x : Site, ρ.apply (.wrapped (x ++ site)) = .wrapped (x ++ site')

/-- What lies one step below the one place is carried to one step below the other. -/
theorem Renaming.Carries.step {ρ : Renaming} {site site' : Site} (h : ρ.Carries site site')
    (s : Step) : ρ.Carries (s :: site) (s :: site') := by
  intro x
  have := h (x ++ [s])
  simpa using this

/-! ### Outcomes -/

/-- Issues of one problem whose paths lead from two places to the same part of what is tested
    there. -/
structure Issue.Moved (site site' : Site) (i i' : Issue) : Prop where
  /-- The problem is the same. -/
  problem : i'.problem = i.problem
  /-- So is the path from either place on. -/
  path : ∃ rest, i.path = site.path ++ rest ∧ i'.path = site'.path ++ rest

/-- Lists of issues that are the same but for the places their paths start from. -/
abbrev Issue.AllMoved (site site' : Site) : List Issue → List Issue → Prop :=
  List.Forall₂ (Issue.Moved site site')

section Issues

variable {site site' : Site}

/-- A step adds its segment, if it has one, to the path. -/
theorem Site.path_cons (step : Step) (site : Site) :
    Site.path (step :: site) = site.path ++ step.segment?.toList := by
  rw [Site.path, Site.path, List.reverse_cons, List.filterMap_append]
  cases h : step.segment? <;> simp [h]

/-- A branch does not show in the path. -/
theorem Site.path_branch (number : Nat) (site : Site) :
    Site.path (.branch number :: site) = site.path := by
  rw [Site.path_cons]
  exact List.append_nil _

/-- One problem at each of the two places. -/
theorem Issue.moved_here (p : Problem) : Issue.Moved site site' ⟨site.path, p⟩ ⟨site'.path, p⟩ :=
  ⟨rfl, [], (List.append_nil _).symm, (List.append_nil _).symm⟩

/-- What was found further in on both sides was found by way of both places. -/
theorem Issue.Moved.outward {step : Step} {i i' : Issue}
    (h : Issue.Moved (step :: site) (step :: site') i i') : Issue.Moved site site' i i' := by
  obtain ⟨rest, here, there⟩ := h.path
  rw [Site.path_cons, List.append_assoc] at here there
  exact ⟨h.problem, _, here, there⟩

/-- The same problems at each of the two places. -/
theorem Issue.allMoved_here {α : Type} (as : List α) (problem : α → Problem) :
    Issue.AllMoved site site' (as.map fun a => ⟨site.path, problem a⟩)
      (as.map fun a => ⟨site'.path, problem a⟩) := by
  rw [Issue.AllMoved, List.forall₂_map_left_iff, List.forall₂_map_right_iff, List.forall₂_same]
  exact fun a _ => Issue.moved_here (problem a)

/-- Issues of two places with one path are the same. -/
theorem Issue.AllMoved.eq_of_path {site site' : Site} (same : site.path = site'.path)
    {found found' : List Issue} (h : Issue.AllMoved site site' found found') : found = found' := by
  induction h with
  | nil => rfl
  | @cons i i' _ _ head _ ih =>
    obtain ⟨path, problem⟩ := i
    obtain ⟨path', problem'⟩ := i'
    obtain ⟨rest, here, there⟩ := head.path
    obtain rfl : problem' = problem := head.problem
    rw [← same] at there
    rw [show path = path' from here.trans there.symm, ih]

end Issues

namespace Parsed

/-- Outcomes of tests at two places that differ by a renaming and by the places of issues. -/
inductive Alike (ρ : Renaming) (site site' : Site) : Parsed → Parsed → Prop where
  /-- The results differ by the renaming. -/
  | ok (v : Value) : Alike ρ site site' (.ok v) (.ok (v.rename ρ))
  /-- The issues are the same as seen from either place. -/
  | error {found found' : List Issue} (same : Issue.AllMoved site site' found found') :
      Alike ρ site site' (.error found) (.error found')

variable {ρ : Renaming} {site site' : Site}

/-- A result that is the renamed one. -/
theorem Alike.of_ok {v w : Value} (h : w = v.rename ρ) : Alike ρ site site' (.ok v) (.ok w) := by
  subst h
  exact .ok v

/-- Outcomes that are alike further in are so as seen from outside. -/
theorem Alike.outward {step : Step} {out out' : Parsed}
    (h : Alike ρ (step :: site) (step :: site') out out') : Alike ρ site site' out out' := by
  cases h with
  | ok v => exact .ok v
  | error same => exact .error (same.imp fun _ _ moved => moved.outward)

/-- One problem refuses on both sides. -/
theorem refuse_alike (p : Problem) : Alike ρ site site' (refuse site p) (refuse site' p) :=
  .error (.cons (Issue.moved_here p) .nil)

/-- A renamed value is of the same kind, so it is refused alike for another. -/
theorem mismatch_alike (expected : String) (v : Value) :
    Alike ρ site site' (mismatch site expected v) (mismatch site' expected (v.rename ρ)) := by
  unfold mismatch
  rw [Value.typeName_rename]
  exact refuse_alike _

/-- The results are alike unless the same issues stand in their way. -/
theorem finish_alike {v w : Value} {found found' : List Issue} (h : w = v.rename ρ)
    (same : Issue.AllMoved site site' found found') :
    Alike ρ site site' (finish v found) (finish w found') := by
  unfold finish
  have empty : found.isEmpty = found'.isEmpty := by
    cases same <;> rfl
  rw [empty]
  split
  · exact .of_ok h
  · exact .error same

/-- The same problems of a value and the renamed one make outcomes that are alike. -/
theorem ofProblems_alike {v w : Value} (h : w = v.rename ρ) (problems : List Problem) :
    Alike ρ site site' (ofProblems site v problems) (ofProblems site' w problems) :=
  finish_alike h (Issue.allMoved_here problems id)

/-- What is accepted as it is on one side is so, renamed, on the other. -/
theorem check_alike {v w : Value} (h : w = v.rename ρ) (expected : String) (accepted : Bool) :
    Alike ρ site site' (check site expected v accepted) (check site' expected w accepted) := by
  subst h
  cases accepted
  · exact mismatch_alike expected v
  · exact .ok v

/-- Outcomes that are alike have the same issues as seen from either place. -/
theorem Alike.issues {out out' : Parsed} (h : Alike ρ site site' out out') :
    Issue.AllMoved site site' out.issues out'.issues := by
  cases h with
  | ok v => exact .nil
  | error same => exact same

variable {parts parts' : List Parsed}

/-- Of parts that are alike the results differ by the renaming. -/
theorem results_alike (h : List.Forall₂ (Alike ρ site site') parts parts') :
    parts'.filterMap result? = Value.renameAll ρ (parts.filterMap result?) := by
  induction h with
  | nil => rfl
  | cons head _ ih =>
    cases head with
    | ok v =>
      show v.rename ρ :: _ = v.rename ρ :: _
      rw [ih]
    | error same => exact ih

/-- Of parts that are alike the issues are the same as seen from either place. -/
theorem issues_alike (h : List.Forall₂ (Alike ρ site site') parts parts') :
    Issue.AllMoved site site' (parts.flatMap issues) (parts'.flatMap issues) := by
  induction h with
  | nil => exact .nil
  | cons head _ ih =>
    rw [List.flatMap_cons, List.flatMap_cons]
    exact List.rel_append head.issues ih

end Parsed

/-! ### Combinations -/

/-- Merging commutes with renaming, so an intersection of sides that are alike is so. -/
theorem intersect_alike {ρ : Renaming} {site site' : Site} {l l' r r' : Parsed}
    (hl : Parsed.Alike ρ site site' l l') (hr : Parsed.Alike ρ site site' r r') :
    Parsed.Alike ρ site site' (intersect site l r) (intersect site' l' r') := by
  cases hl with
  | error same => exact .error (List.rel_append same hr.issues)
  | ok a =>
    cases hr with
    | error same => exact .error same
    | ok b =>
      simp only [intersect, Value.merge_rename]
      cases a.merge b with
      | none => exact Parsed.refuse_alike _
      | some merged => exact .ok merged

/-! ### Members and entries -/

/-- Outcomes for a declared member that differ by a renaming and by the places of issues. -/
structure FieldOutcome.Alike (ρ : Renaming) (site site' : Site) (f g : FieldOutcome) : Prop where
  /-- The name is the same. -/
  name : g.name = f.name
  /-- Both objects have the member or both lack it. -/
  present : g.present = f.present
  /-- The schema says the same to it. -/
  outcome : Parsed.Alike ρ site site' f.outcome g.outcome

/-- Outcomes for a member of a record that differ by a renaming and by the places of issues. -/
inductive MemberAlike (ρ : Renaming) (site site' : Site) :
    Except (List Issue) (String × Value) → Except (List Issue) (String × Value) → Prop where
  | ok (name : String) (v : Value) :
      MemberAlike ρ site site' (.ok (name, v)) (.ok (name, v.rename ρ))
  | error {found found' : List Issue} (same : Issue.AllMoved site site' found found') :
      MemberAlike ρ site site' (.error found) (.error found')

section Members

open Parsed

variable {ρ : Renaming} {site site' : Site}

/-- Entering a renamed result is renaming after it was entered. -/
theorem enter_alike {f g : FieldOutcome} (h : f.Alike ρ site site' g)
    (output : List (String × Value)) :
    FieldOutcome.enter (Value.renameMembers ρ output) g =
      Value.renameMembers ρ (FieldOutcome.enter output f) := by
  obtain ⟨name, present, outcome⟩ := f
  obtain ⟨name', present', outcome'⟩ := g
  obtain ⟨rfl, rfl, alike⟩ := h
  unfold FieldOutcome.enter
  cases alike with
  | ok v =>
    simp only [Value.isUndefined_rename]
    split
    · exact Value.insertMember_rename ρ _ v output
    · rfl
  | error same => rfl

/-- So is entering all of them. -/
theorem foldl_enter_alike {parts parts' : List FieldOutcome}
    (h : List.Forall₂ (FieldOutcome.Alike ρ site site') parts parts')
    (output : List (String × Value)) :
    parts'.foldl FieldOutcome.enter (Value.renameMembers ρ output) =
      Value.renameMembers ρ (parts.foldl FieldOutcome.enter output) := by
  induction h generalizing output with
  | nil => rfl
  | cons head _ ih => rw [List.foldl_cons, enter_alike head, ih, List.foldl_cons]

/-- Members that are alike have the same issues as seen from either place. -/
theorem field_issues_alike {parts parts' : List FieldOutcome}
    (h : List.Forall₂ (FieldOutcome.Alike ρ site site') parts parts') :
    Issue.AllMoved site site' (parts.flatMap fun f => f.outcome.issues)
      (parts'.flatMap fun f => f.outcome.issues) := by
  induction h with
  | nil => exact .nil
  | cons head _ ih =>
    rw [List.flatMap_cons, List.flatMap_cons]
    exact List.rel_append head.outcome.issues ih

/-- A renaming does not touch names, so it leaves the same members undeclared. -/
theorem undeclared_rename (fields : List (String × Schema)) (input : List (String × Value)) :
    undeclared fields (Value.renameMembers ρ input) =
      Value.renameMembers ρ (undeclared fields input) := by
  rw [Value.renameMembers_eq_map, Value.renameMembers_eq_map, undeclared, undeclared,
    List.filter_map]
  rfl

/-- The outcome for an object depends on those for its members and on the members that are not
    declared. -/
theorem objectOutcome_alike {fields : List (String × Schema)} {unknownKeys : UnknownKeys}
    {input : List (String × Value)} {parts parts' : List FieldOutcome}
    (h : List.Forall₂ (FieldOutcome.Alike ρ site site') parts parts') :
    Parsed.Alike ρ site site' (objectOutcome site fields unknownKeys input parts)
      (objectOutcome site' fields unknownKeys (Value.renameMembers ρ input) parts') := by
  have output : parts'.foldl FieldOutcome.enter [] =
      Value.renameMembers ρ (parts.foldl FieldOutcome.enter []) := foldl_enter_alike h []
  cases unknownKeys with
  | strip => exact finish_alike (congrArg Value.object output) (field_issues_alike h)
  | strict =>
    refine finish_alike (congrArg Value.object output) ?_
    rw [undeclared_rename, Value.renameMembers_eq_map, List.map_map]
    exact List.rel_append (field_issues_alike h)
      (Issue.allMoved_here (undeclared fields input) fun m => .unrecognizedKey m.1)
  | passthrough =>
    refine finish_alike (congrArg Value.object ?_) (field_issues_alike h)
    rw [undeclared_rename, output]
    exact Value.insertAll_rename ρ _ _

/-- A key and a value that are alike make members that are alike. -/
theorem recordMember_alike {k k' v v' : Parsed} (hk : Parsed.Alike ρ site site' k k')
    (hv : Parsed.Alike ρ site site' v v') :
    MemberAlike ρ site site' (recordMember site k v) (recordMember site' k' v') := by
  cases hk with
  | error same => exact .error (List.rel_append same hv.issues)
  | ok key =>
    have other : (∀ s, key ≠ .string s) →
        recordMember site (.ok key) v =
          .error (⟨site.path, .keyNotText key.typeName⟩ :: v.issues) ∧
        recordMember site' (.ok (key.rename ρ)) v' =
          .error (⟨site'.path, .keyNotText key.typeName⟩ :: v'.issues) := by
      intro notText
      cases key using Value.casesByRename with
      | string s => exact absurd rfl (notText s)
      | _ => exact ⟨rfl, rfl⟩
    by_cases text : ∃ s, key = .string s
    · obtain ⟨s, rfl⟩ := text
      cases hv with
      | ok w => exact .ok s w
      | error same => exact .error same
    · obtain ⟨h, h'⟩ := other fun s same => text ⟨s, same⟩
      rw [h, h']
      exact .error (.cons (Issue.moved_here _) hv.issues)

/-- Members that are alike further in are so as seen from outside. -/
theorem MemberAlike.outward {step : Step} {m m' : Except (List Issue) (String × Value)}
    (h : MemberAlike ρ (step :: site) (step :: site') m m') : MemberAlike ρ site site' m m' := by
  cases h with
  | ok name v => exact .ok name v
  | error same => exact .error (same.imp fun _ _ moved => moved.outward)

/-- Members that are alike make records that are alike. -/
theorem recordOutcome_alike {parts parts' : List (Except (List Issue) (String × Value))}
    (h : List.Forall₂ (MemberAlike ρ site site') parts parts') :
    Parsed.Alike ρ site site' (recordOutcome parts) (recordOutcome parts') := by
  refine finish_alike ?_ ?_
  · rw [← Value.objectOf_rename]
    congr 1
    induction h with
    | nil => rfl
    | cons head _ ih =>
      cases head with
      | ok name v =>
        show (name, v.rename ρ) :: _ = (name, v.rename ρ) :: _
        rw [ih]
      | error same => exact ih
  · induction h with
    | nil => exact .nil
    | cons head _ ih =>
      rw [List.flatMap_cons, List.flatMap_cons]
      refine List.rel_append ?_ ih
      cases head with
      | ok name v => exact .nil
      | error same => exact same

/-- Entries that are alike make maps that are alike. -/
theorem mapOutcome_alike {parts parts' : List (Parsed × Parsed)}
    (h : List.Forall₂ (fun a b => Parsed.Alike ρ site site' a.1 b.1 ∧
      Parsed.Alike ρ site site' a.2 b.2) parts parts') :
    Parsed.Alike ρ site site' (mapOutcome parts) (mapOutcome parts') := by
  refine finish_alike ?_ ?_
  · rw [← Value.mapOfPairs_rename]
    congr 1
    induction h with
    | nil => rfl
    | @cons a b as bs head _ ih =>
      obtain ⟨k, v⟩ := a
      obtain ⟨k', v'⟩ := b
      obtain ⟨hk, hv⟩ := head
      cases hk with
      | ok key =>
        cases hv with
        | ok w =>
          show (key.rename ρ, w.rename ρ) :: _ = (key.rename ρ, w.rename ρ) :: _
          rw [ih]
        | error same => exact ih
      | error same => exact ih
  · induction h with
    | nil => exact .nil
    | cons head _ ih =>
      rw [List.flatMap_cons, List.flatMap_cons]
      exact List.rel_append (List.rel_append head.1.issues head.2.issues) ih

end Members

/-! ### Scalar shapes -/

section Scalars

open Parsed

variable {ρ : Renaming} {K : Identity → Prop} (keeps : ∀ i, K i → ρ.apply i = i)
include keeps

/-- A renaming that keeps the identities of one value does not change which others it equals. -/
theorem Value.SupportedBy.beq_rename_left {v w : Value} (supported : w.SupportedBy K) :
    (v.rename ρ == w) = (v == w) := by
  have same := Value.beq_rename ρ v w
  rwa [supported ρ keeps] at same

/-- The same the other way round. -/
theorem Value.SupportedBy.beq_rename_right {v w : Value} (supported : w.SupportedBy K) :
    (w == v.rename ρ) = (w == v) := by
  have same := Value.beq_rename ρ w v
  rwa [supported ρ keeps] at same

/-- Nor does it change which values are among the members of a native enumeration. -/
theorem any_beq_rename {members : List (String × Value)}
    (supported : ∀ m ∈ members, m.2.SupportedBy K) (v : Value) :
    members.any (·.2 == v.rename ρ) = members.any (·.2 == v) := by
  rw [Bool.eq_iff_iff, List.any_eq_true, List.any_eq_true]
  exact exists_congr fun m => and_congr_right fun member => by
    rw [(supported m member).beq_rename_right keeps]

/-- The test of a scalar shape sees no identities of the value, but through what the shape brings
    along. -/
theorem step_scalar_rename {shape : Shape Schema} (scalar : shape.Scalar)
    (supported : shape.SupportedBy K) (definitions : Definitions) (recur : Recur)
    (site site' : Site) (id : SchemaId) (v : Value) :
    Option.Rel (Alike ρ site site') (shape.step definitions recur site id v)
      (shape.step definitions recur site' id (v.rename ρ)) := by
  cases shape <;> (try exact scalar.elim) <;> simp only [Shape.step]
  case string checks =>
    cases v using Value.casesByRename with
    | string => exact .some (ofProblems_alike rfl _)
    | _ => exact .some (mismatch_alike _ _)
  case number checks =>
    cases v using Value.casesByRename with
    | number x =>
      simp only [Value.rename]
      split
      · exact .some (mismatch_alike _ (.number x))
      · exact .some (ofProblems_alike rfl _)
    | _ => exact .some (mismatch_alike _ _)
  case bigint checks =>
    cases v using Value.casesByRename with
    | bigint => exact parseBigint_rel fun problems => ofProblems_alike rfl problems
    | _ => exact .some (mismatch_alike _ _)
  case date checks =>
    cases v using Value.casesByRename with
    | date => exact .some (ofProblems_alike rfl _)
    | _ => exact .some (mismatch_alike _ _)
  case boolean | null | symbol =>
    cases v using Value.casesByRename <;> exact .some (check_alike rfl _ _)
  case undefined | void =>
    rw [Value.isUndefined_rename]
    exact .some (check_alike rfl _ _)
  case nan =>
    rw [Value.asNumber?_rename]
    exact .some (check_alike rfl _ _)
  case any | unknown => exact .some (.ok v)
  case never => exact .some (mismatch_alike _ v)
  case literal expected =>
    rw [Value.SupportedBy.beq_rename_left keeps supported]
    split
    · exact .some (.ok v)
    · exact .some (refuse_alike _)
  case enumeration members =>
    rw [Value.asString?_rename]
    split
    · exact .some (.ok v)
    · exact .some (refuse_alike _)
  case nativeEnum members =>
    rw [any_beq_rename keeps supported]
    split
    · exact .some (.ok v)
    · exact .some (refuse_alike _)
  case custom name check =>
    simp only [supported ρ keeps v]
    split
    · exact .some (.ok v)
    · exact .some (refuse_alike _)

end Scalars

/-! ### One level -/

/-- The tests against a schema at places that are related differ by a renaming only. -/
def Recur.MovesAlong (recur : Recur) (Along : Site → Site → Prop) (ρ : Renaming) (s : Schema) :
    Prop :=
  ∀ site site', Along site site' → ∀ v : Value,
    Option.Rel (Parsed.Alike ρ site site') (recur site s v) (recur site' s (v.rename ρ))

/-- The tests against a schema do not depend on where they are made. -/
abbrev Recur.Movable (recur : Recur) (ρ : Renaming) (s : Schema) : Prop :=
  recur.MovesAlong ρ.Carries ρ s

/-- Places that are related stay so one step further in. -/
def Site.Lockstep (Along : Site → Site → Prop) : Prop :=
  ∀ ⦃site site' : Site⦄ (step : Step), Along site site' → Along (step :: site) (step :: site')

/-- A renaming that carries one place to another goes along with every step. -/
theorem Renaming.lockstep_carries (ρ : Renaming) : Site.Lockstep ρ.Carries :=
  fun _ _ step carries => carries.step step

/-- Tests further in are alike as seen from outside. -/
theorem Recur.MovesAlong.inside {recur : Recur} {Along : Site → Site → Prop} {ρ : Renaming}
    {s : Schema} (movable : recur.MovesAlong Along ρ s) {site site' : Site} {step : Step}
    (along : Along (step :: site) (step :: site')) (v : Value) :
    Option.Rel (Parsed.Alike ρ site site') (recur (step :: site) s v)
      (recur (step :: site') s (v.rename ρ)) := by
  have tested := movable _ _ along v
  generalize recur (step :: site) s v = o at tested
  generalize recur (step :: site') s (v.rename ρ) = o' at tested
  cases tested with
  | none => exact .none
  | some alike => exact .some alike.outward

/-- The test of a declared member depends on its place only. -/
theorem parseField_rename {recur : Recur} {Along : Site → Site → Prop} {ρ : Renaming}
    {field : String × Schema} (movable : recur.MovesAlong Along ρ field.2) {site site' : Site}
    (along : Along (.key field.1 :: site) (.key field.1 :: site')) (input : List (String × Value)) :
    Option.Rel (FieldOutcome.Alike ρ site site') (parseField recur site input field)
      (parseField recur site' (Value.renameMembers ρ input) field) := by
  unfold parseField
  rw [Value.findMember?_rename]
  have tested := movable _ _ along (fieldInput input field.1)
  refine rel_bind (R := Parsed.Alike ρ (.key field.1 :: site) (.key field.1 :: site')) ?_
    fun out out' alike => .some ⟨rfl, Option.isSome_map, alike.outward⟩
  unfold fieldInput at tested
  cases hfound : findMember? field.1 input <;> rw [hfound] at tested <;> exact tested

section Level

open Parsed

variable {recur : Recur} {Along : Site → Site → Prop} {ρ : Renaming} {site site' : Site}
  (lockstep : Site.Lockstep Along) (along : Along site site')
include lockstep along

/-- Elements are tested position by position. -/
theorem parseItems_rename {items : List (Schema × Value)}
    (movable : ∀ p ∈ items, recur.MovesAlong Along ρ p.1) :
    Option.Rel (List.Forall₂ (Alike ρ site site')) (parseItems recur site items)
      (parseItems recur site' (items.map (Prod.map id (Value.rename ρ)))) := by
  rw [parseItems_eq, parseItems_eq, List.zipIdx_map]
  refine rel_mapM_map fun p member => ?_
  exact (movable p.1 (List.fst_mem_of_mem_zipIdx member)).inside (lockstep (.index p.2) along) p.1.2

/-- A renaming changes no number of elements, and `build` makes renamed collections of renamed
    results. -/
theorem parseCollection_rename {c : Collection} {item : Schema} {bounds : SizeBounds}
    {items : List Value} {build : List Value → Value} (movable : recur.MovesAlong Along ρ item)
    (builds : ∀ vs, build (Value.renameAll ρ vs) = (build vs).rename ρ) :
    Option.Rel (Alike ρ site site') (parseCollection recur site c item bounds items build)
      (parseCollection recur site' c item bounds (Value.renameAll ρ items) build) := by
  have each : ∀ p ∈ items.map fun v => (item, v), recur.MovesAlong Along ρ p.1 := by
    intro p member
    obtain ⟨v, _, rfl⟩ := List.mem_map.mp member
    exact movable
  have run := parseItems_rename lockstep along each
  rw [List.map_map] at run
  rw [Value.renameAll_eq_map]
  unfold parseCollection
  rw [List.map_map, List.length_map]
  refine rel_bind run fun parts parts' alike => .some (finish_alike ?_ ?_)
  · rw [results_alike alike, builds]
  · exact List.rel_append (Issue.allMoved_here _ id) (issues_alike alike)

/-- A renaming changes no number of elements, so a tuple gives the same slots. -/
theorem parseTuple_rename {slots : List Schema} {rest : Option Schema} {items : List Value}
    (movable : ∀ t ∈ slots ++ rest.toList, recur.MovesAlong Along ρ t) :
    Option.Rel (Alike ρ site site') (parseTuple recur site slots rest items)
      (parseTuple recur site' slots rest (Value.renameAll ρ items)) := by
  rw [Value.renameAll_eq_map]
  unfold parseTuple
  rw [List.length_map]
  cases hslots : tupleSlots? slots rest items.length with
  | none => exact .some (refuse_alike _)
  | some schemas =>
    have each : ∀ p ∈ schemas.zip items, recur.MovesAlong Along ρ p.1 := fun p member =>
      movable p.1 (mem_of_tupleSlots? hslots (List.of_mem_zip member).1)
    have run := parseItems_rename lockstep along each
    rw [← List.zip_map_right] at run
    refine rel_bind run fun parts parts' alike => .some (finish_alike ?_ (issues_alike alike))
    rw [results_alike alike]
    rfl

/-- The declared members are tested one by one, and the others follow the rule for them. -/
theorem parseObject_rename {fields : List (String × Schema)} {unknownKeys : UnknownKeys}
    {input : List (String × Value)} (movable : ∀ field ∈ fields, recur.MovesAlong Along ρ field.2) :
    Option.Rel (Alike ρ site site') (parseObject recur site fields unknownKeys input)
      (parseObject recur site' fields unknownKeys (Value.renameMembers ρ input)) := by
  rw [parseObject_eq, parseObject_eq]
  have run : Option.Rel (List.Forall₂ (FieldOutcome.Alike ρ site site'))
      (fields.mapM (parseField recur site input))
      (fields.mapM (parseField recur site' (Value.renameMembers ρ input))) :=
    rel_mapM (List.forall₂_same.mpr fun field member =>
      parseField_rename (movable field member) (lockstep (.key field.1) along) input)
  exact rel_map run fun parts parts' alike => objectOutcome_alike alike

/-- The keys are texts, which no renaming touches. -/
theorem parseRecord_rename {key value : Schema} {input : List (String × Value)}
    (hkey : recur.MovesAlong Along ρ key) (hvalue : recur.MovesAlong Along ρ value) :
    Option.Rel (Alike ρ site site') (parseRecord recur site key value input)
      (parseRecord recur site' key value (Value.renameMembers ρ input)) := by
  rw [parseRecord_eq, parseRecord_eq, Value.renameMembers_eq_map]
  refine rel_map (rel_mapM_map (R := MemberAlike ρ site site') fun m _ => ?_)
    fun parts parts' alike => recordOutcome_alike alike
  unfold parseMember
  have here := lockstep (.key m.1) along
  have text : (Value.string m.1).rename ρ = .string m.1 := rfl
  have tested := hkey.inside (lockstep (.branch 0) here) (.string m.1)
  rw [text] at tested
  exact rel_bind tested fun k k' hk => rel_bind (hvalue.inside (lockstep (.branch 1) here) m.2)
    fun v v' hv => .some (recordMember_alike hk hv).outward

/-- Keys and values are tested entry by entry. -/
theorem parseMap_rename {key value : Schema} {entries : List (Value × Value)}
    (hkey : recur.MovesAlong Along ρ key) (hvalue : recur.MovesAlong Along ρ value) :
    Option.Rel (Alike ρ site site') (parseMap recur site key value entries)
      (parseMap recur site' key value (Value.renameEntries ρ entries)) := by
  rw [parseMap_eq, parseMap_eq, Value.renameEntries_eq_map, List.zipIdx_map]
  refine rel_map (rel_mapM_map
    (R := fun a b => Alike ρ site site' a.1 b.1 ∧ Alike ρ site site' a.2 b.2) fun e _ => ?_)
    fun parts parts' alike => mapOutcome_alike alike
  have here := lockstep (.index e.2) along
  exact rel_bind (hkey.inside (lockstep (.branch 0) here) e.1.1) fun k k' hk =>
    rel_bind (hvalue.inside (lockstep (.branch 1) here) e.1.2) fun v v' hv =>
      .some ⟨hk.outward, hv.outward⟩

omit lockstep

/-- The first option that accepts a value is the first that accepts the renamed one. -/
theorem firstAccepted_rename {options : List Schema} {v : Value}
    (movable : ∀ t ∈ options, recur.MovesAlong Along ρ t) :
    Option.Rel (Alike ρ site site') (firstAccepted recur site v options)
      (firstAccepted recur site' (v.rename ρ) options) := by
  induction options with
  | nil => exact .some (refuse_alike _)
  | cons option rest ih =>
    refine rel_bind (movable option (by simp) _ _ along v) fun out out' alike => ?_
    cases alike with
    | ok w => exact .some (.ok w)
    | error same => exact ih fun t member => movable t (by simp [member])

/-- A renamed object bears the same tag, so it is tested against the same option. -/
theorem parseTagged_rename {discriminator : String} {options : List Schema}
    {input : List (String × Value)} (movable : ∀ t ∈ options, recur.MovesAlong Along ρ t) :
    Option.Rel (Alike ρ site site') (parseTagged recur site discriminator options input)
      (parseTagged recur site' discriminator options (Value.renameMembers ρ input)) := by
  have unknown : Alike ρ site site' (refuse (.key discriminator :: site) .unknownTag)
      (refuse (.key discriminator :: site') .unknownTag) := (refuse_alike _).outward
  unfold parseTagged
  cases tagTable discriminator options with
  | error fault => exact .some (refuse_alike _)
  | ok table =>
    simp only [Value.findMember?_rename]
    cases findMember? discriminator input with
    | none => exact .some unknown
    | some v =>
      cases v using Value.casesByRename with
      | string tag =>
        simp only [Option.map_some, Value.rename]
        cases hoption : (findMember? tag table).bind (options[·]?) with
        | none => exact .some unknown
        | some option =>
          obtain ⟨position, _, found⟩ := Option.bind_eq_some_iff.mp hoption
          exact movable option (List.mem_of_getElem? found) _ _ along (.object input)
      | _ => exact .some unknown

/-- The functions of effects commute with the renaming. -/
theorem parseEffect_rename {K : Identity → Prop} (keeps : ∀ i, K i → ρ.apply i = i)
    {inner : Schema} {effect : Effect} {v : Value}
    (supported : (Shape.effects inner effect).SupportedBy K)
    (movable : recur.MovesAlong Along ρ inner) :
    Option.Rel (Alike ρ site site') (parseEffect recur site inner effect v)
      (parseEffect recur site' inner effect (v.rename ρ)) := by
  cases effect with
  | refinement check reason =>
    refine rel_bind (movable _ _ along v) fun out out' alike => ?_
    cases alike with
    | ok w =>
      simp only [supported ρ keeps w]
      split
      · exact .some (.ok w)
      · exact .some (refuse_alike _)
    | error same => exact .some (.error same)
  | transform f =>
    refine rel_bind (movable _ _ along v) fun out out' alike => ?_
    cases alike with
    | ok w =>
      simp only [supported ρ keeps w]
      cases f w with
      | ok mapped => exact .some (.ok mapped)
      | error reason => exact .some (refuse_alike _)
    | error same => exact .some (.error same)
  | preprocess f =>
    have same := movable _ _ along (f v)
    rw [← supported ρ keeps v] at same
    exact same

omit along in
/-- A function is wrapped under the identity of the place. -/
theorem step_function_rename {definitions : Definitions} {arguments : List Schema}
    {result : Schema} (wraps : ρ.apply (.wrapped site) = .wrapped site') (id : SchemaId)
    (v : Value) :
    Option.Rel (Alike ρ site site')
      ((Shape.function arguments result).step definitions recur site id v)
      ((Shape.function arguments result).step definitions recur site' id (v.rename ρ)) := by
  cases v using Value.casesByRename with
  | constant | external =>
    refine .some (.of_ok ?_)
    simp only [Value.rename]
    rw [wraps]
  | _ => exact .some (mismatch_alike _ _)

/-- A promise is tested by what it settles to. -/
theorem step_promise_rename {definitions : Definitions} {inner : Schema}
    (movable : recur.MovesAlong Along ρ inner) (id : SchemaId) (v : Value) :
    Option.Rel (Alike ρ site site') ((Shape.promise inner).step definitions recur site id v)
      ((Shape.promise inner).step definitions recur site' id (v.rename ρ)) := by
  cases v using Value.casesByRename with
  | promise settled =>
    refine rel_bind (movable _ _ along settled) fun out out' alike => ?_
    cases alike with
    | ok w => exact .some (.ok (.promise w))
    | error same => exact .some (.error same)
  | _ => exact .some (mismatch_alike _ _)

/-- A renamed value is absent if the value is. -/
theorem step_optional_rename {definitions : Definitions} {inner : Schema}
    (movable : recur.MovesAlong Along ρ inner) (id : SchemaId) (v : Value) :
    Option.Rel (Alike ρ site site') ((Shape.optional inner).step definitions recur site id v)
      ((Shape.optional inner).step definitions recur site' id (v.rename ρ)) := by
  have tested := movable _ _ along v
  cases v using Value.casesByRename with
  | undefined => exact .some (.ok .undefined)
  | _ => exact tested

/-- A renamed value is null if the value is. -/
theorem step_nullable_rename {definitions : Definitions} {inner : Schema}
    (movable : recur.MovesAlong Along ρ inner) (id : SchemaId) (v : Value) :
    Option.Rel (Alike ρ site site') ((Shape.nullable inner).step definitions recur site id v)
      ((Shape.nullable inner).step definitions recur site' id (v.rename ρ)) := by
  have tested := movable _ _ along v
  cases v using Value.casesByRename with
  | null => exact .some (.ok .null)
  | _ => exact tested

/-- An absent value is replaced by the default on both sides, which the renaming keeps. -/
theorem step_default_rename {definitions : Definitions} {inner : Schema} {value : Value}
    (kept : value.rename ρ = value) (movable : recur.MovesAlong Along ρ inner) (id : SchemaId)
    (v : Value) :
    Option.Rel (Alike ρ site site') ((Shape.default inner value).step definitions recur site id v)
      ((Shape.default inner value).step definitions recur site' id (v.rename ρ)) := by
  have tested := movable _ _ along v
  have filled := movable _ _ along value
  rw [kept] at filled
  cases v using Value.casesByRename with
  | undefined => exact filled
  | _ => exact tested

/-- A refused value is replaced by the fallback on both sides, which the renaming keeps. -/
theorem step_caught_rename {definitions : Definitions} {inner : Schema} {fallback : Value}
    (kept : fallback.rename ρ = fallback) (movable : recur.MovesAlong Along ρ inner)
    (id : SchemaId) (v : Value) :
    Option.Rel (Alike ρ site site') ((Shape.caught inner fallback).step definitions recur site id v)
      ((Shape.caught inner fallback).step definitions recur site' id (v.rename ρ)) := by
  refine rel_bind (movable _ _ along v) fun out out' alike => ?_
  cases alike with
  | ok w => exact .some (.ok w)
  | error same => exact .some (.of_ok kept.symm)

include lockstep

/-- The two sides are tested one branch further in. -/
theorem step_intersection_rename {definitions : Definitions} {left right : Schema}
    (first : recur.MovesAlong Along ρ left) (second : recur.MovesAlong Along ρ right)
    (id : SchemaId) (v : Value) :
    Option.Rel (Alike ρ site site') ((Shape.intersection left right).step definitions recur site id v)
      ((Shape.intersection left right).step definitions recur site' id (v.rename ρ)) :=
  rel_bind (first.inside (lockstep (.branch 0) along) v) fun _ _ hl =>
    rel_bind (second.inside (lockstep (.branch 1) along) v) fun _ _ hr =>
      .some (intersect_alike hl hr)

/-- The second stage tests what the first one makes of the value, on both sides. -/
theorem step_pipeline_rename {definitions : Definitions} {first second : Schema}
    (before : recur.MovesAlong Along ρ first) (after : recur.MovesAlong Along ρ second)
    (id : SchemaId) (v : Value) :
    Option.Rel (Alike ρ site site') ((Shape.pipeline first second).step definitions recur site id v)
      ((Shape.pipeline first second).step definitions recur site' id (v.rename ρ)) := by
  refine rel_bind (before.inside (lockstep (.branch 0) along) v) fun out out' alike => ?_
  cases alike with
  | ok w => exact after.inside (lockstep (.branch 1) along) w
  | error same => exact .some (.error same)

/-- One level of a test can be moved when the tests of inner schemas can.  A function that is
    wrapped takes its identity from the place. -/
theorem Shape.step_rename {definitions : Definitions} {K : Identity → Prop}
    (keeps : ∀ i, K i → ρ.apply i = i) {id : SchemaId} {shape : Shape Schema} {v : Value}
    (supported : shape.SupportedBy K)
    (wraps : ∀ arguments result, shape = .function arguments result →
      ρ.apply (.wrapped site) = .wrapped site')
    (movable : ∀ t, shape.Asks definitions t → recur.MovesAlong Along ρ t) :
    Option.Rel (Alike ρ site site') (shape.step definitions recur site id v)
      (shape.step definitions recur site' id (v.rename ρ)) := by
  have child : ∀ t ∈ shape.children, recur.MovesAlong Along ρ t := fun t member =>
    movable t (.inl member)
  by_cases scalar : shape.Scalar
  · exact step_scalar_rename keeps scalar supported definitions recur site site' id v
  cases shape <;> try exact absurd trivial scalar
  case array item bounds =>
    cases v using Value.casesByRename with
    | array =>
      exact parseCollection_rename lockstep along (child item (by simp [children])) fun _ => rfl
    | _ => exact .some (mismatch_alike _ _)
  case set item bounds =>
    cases v using Value.casesByRename with
    | set =>
      exact parseCollection_rename lockstep along (child item (by simp [children]))
        (Value.setOfItems_rename ρ)
    | _ => exact .some (mismatch_alike _ _)
  case object fields unknownKeys =>
    cases v using Value.casesByRename with
    | object =>
      exact parseObject_rename lockstep along fun field member =>
        child _ (List.mem_map_of_mem member)
    | _ => exact .some (mismatch_alike _ _)
  case tuple slots rest =>
    cases v using Value.casesByRename with
    | array => exact parseTuple_rename lockstep along child
    | _ => exact .some (mismatch_alike _ _)
  case record key value =>
    cases v using Value.casesByRename with
    | object =>
      exact parseRecord_rename lockstep along (child key (by simp [children]))
        (child value (by simp [children]))
    | _ => exact .some (mismatch_alike _ _)
  case map key value =>
    cases v using Value.casesByRename with
    | map =>
      exact parseMap_rename lockstep along (child key (by simp [children]))
        (child value (by simp [children]))
    | _ => exact .some (mismatch_alike _ _)
  case union options => exact firstAccepted_rename along child
  case discriminatedUnion discriminator options =>
    cases v using Value.casesByRename with
    | object => exact parseTagged_rename along child
    | _ => exact .some (mismatch_alike _ _)
  case intersection left right =>
    exact step_intersection_rename lockstep along (child left (by simp [children]))
      (child right (by simp [children])) id v
  case function arguments result =>
    exact step_function_rename (wraps arguments result rfl) id v
  case promise inner => exact step_promise_rename along (child inner (by simp [children])) id v
  case «lazy» name =>
    simp only [Shape.step]
    split
    · rename_i t named
      exact movable t (.inr ⟨name, rfl, named⟩) _ _ along v
    · exact .some (mismatch_alike _ v)
  case optional inner => exact step_optional_rename along (child inner (by simp [children])) id v
  case nullable inner => exact step_nullable_rename along (child inner (by simp [children])) id v
  case default inner value =>
    exact step_default_rename along (supported ρ keeps) (child inner (by simp [children])) id v
  case caught inner fallback =>
    exact step_caught_rename along (supported ρ keeps) (child inner (by simp [children])) id v
  case effects inner effect =>
    exact parseEffect_rename along keeps supported (child inner (by simp [children]))
  case pipeline first second =>
    exact step_pipeline_rename lockstep along (child first (by simp [children]))
      (child second (by simp [children])) id v
  case branded inner _ | readonly inner => exact child inner (by simp [children]) _ _ along v

end Level

namespace Schema

variable {definitions : Definitions} {K : Identity → Prop} {ρ : Renaming} {s : Schema}

/-- Tests at places that are related in lockstep are alike if the renaming carries the identities
    of the functions that are wrapped there. -/
theorem parseWithin_movesAlong {Along : Site → Site → Prop} (lockstep : Site.Lockstep Along)
    (depth : Nat) (keeps : ∀ i, K i → ρ.apply i = i)
    (supported : s.Throughout definitions (Shape.SupportedBy K))
    (wraps : s.Throughout definitions fun shape => ∀ arguments result,
      shape = .function arguments result →
        ∀ site site', Along site site' → ρ.apply (.wrapped site) = .wrapped site') :
    Recur.MovesAlong (parseWithin definitions depth) Along ρ s := by
  induction depth generalizing s with
  | zero => exact fun _ _ _ _ => .none
  | succ depth ih =>
    obtain ⟨id, shape⟩ := s
    intro site site' along v
    exact Shape.step_rename lockstep along keeps supported.here
      (fun arguments result here => wraps.here arguments result here site site' along)
      fun t asked => ih (supported.asked asked) (wraps.asked asked)

/-- **Tests can be moved.** A renaming that carries one place to another, and keeps what the schema
    brings along, turns the test of a value at the first place into that of the renamed value at
    the second. -/
theorem parseWithin_rename (depth : Nat) (keeps : ∀ i, K i → ρ.apply i = i)
    (supported : s.Throughout definitions (Shape.SupportedBy K)) :
    Recur.Movable (parseWithin definitions depth) ρ s :=
  parseWithin_movesAlong ρ.lockstep_carries depth keeps supported
    fun _ _ _ _ _ _ _ _ carries => carries []

/-- Where no function is wrapped, the path of a place is all that counts. -/
theorem parseWithin_of_path {site site' : Site} (depth : Nat)
    (functionless : s.Throughout definitions Shape.Functionless) (same : site.path = site'.path)
    (v : Value) :
    parseWithin definitions depth site s v = parseWithin definitions depth site' s v := by
  have lockstep : Site.Lockstep fun a b => a.path = b.path := by
    intro a b step same
    rw [Site.path_cons, Site.path_cons, same]
  have moved : Option.Rel (Parsed.Alike .refl site site') (parseWithin definitions depth site s v)
      (parseWithin definitions depth site' s (v.rename .refl)) := by
    refine parseWithin_movesAlong lockstep depth (fun _ _ => rfl)
      (fun _ shape _ => shape.supportedBy_all) ?_ site site' same v
    rintro _ _ reached arguments result rfl
    exact (functionless _ _ reached).elim
  rw [Value.rename_refl] at moved
  generalize parseWithin definitions depth site s v = here at moved
  generalize parseWithin definitions depth site' s v = there at moved
  cases moved with
  | none => rfl
  | some alike =>
    cases alike with
    | ok w => rw [Value.rename_refl]
    | error found => rw [found.eq_of_path same]

end Schema

/-! ### Moving a test -/

/-- Two places of which neither lies below the other. -/
def Site.Apart (site site' : Site) : Prop := ¬ site <:+ site' ∧ ¬ site' <:+ site

namespace Site

/-- What lies below one of two places is put below the other. -/
def exchange (site site' : Site) (place : Site) : Site :=
  if site <:+ place then place.take (place.length - site.length) ++ site'
  else if site' <:+ place then place.take (place.length - site'.length) ++ site
  else place

variable {site site' : Site}

/-- What lies below the first place is put below the second. -/
theorem exchange_left (x : Site) : exchange site site' (x ++ site) = x ++ site' := by
  rw [exchange, if_pos (List.suffix_append x site)]
  simp

/-- Nothing lies below both of two places that are apart. -/
theorem Apart.not_suffix (h : Apart site site') (x : Site) : ¬ site <:+ x ++ site' := by
  intro below
  rcases List.suffix_or_suffix_of_suffix below (List.suffix_append x site') with inside | inside
  · exact h.1 inside
  · exact h.2 inside

theorem Apart.symm (h : Apart site site') : Apart site' site := ⟨h.2, h.1⟩

/-- What lies below the second place is put below the first. -/
theorem exchange_right (h : Apart site site') (x : Site) :
    exchange site site' (x ++ site') = x ++ site := by
  rw [exchange, if_neg (h.not_suffix x), if_pos (List.suffix_append x site')]
  simp

/-- Two exchanges undo each other. -/
theorem exchange_exchange (h : Apart site site') (place : Site) :
    exchange site site' (exchange site site' place) = place := by
  by_cases below : site <:+ place
  · obtain ⟨x, rfl⟩ := below
    rw [exchange_left, exchange_right h]
  · by_cases below' : site' <:+ place
    · obtain ⟨x, rfl⟩ := below'
      rw [exchange_right h, exchange_left]
    · have kept : exchange site site' place = place := by
        rw [exchange, if_neg below, if_neg below']
      rw [kept, kept]

end Site

/-- The renaming that exchanges the identities made below two places. -/
def Renaming.exchange {site site' : Site} (h : site.Apart site') : Renaming where
  apply
    | .made serial => .made serial
    | .wrapped place => .wrapped (Site.exchange site site' place)
  injective := by
    rintro (_ | place) (_ | place') same
    · exact same
    · cases same
    · cases same
    · rw [Identity.wrapped.injEq] at same ⊢
      rw [← Site.exchange_exchange h place, same, Site.exchange_exchange h]

/-- An exchange carries the first place to the second. -/
theorem Renaming.exchange_carries {site site' : Site} (h : site.Apart site') :
    (Renaming.exchange h).Carries site site' := by
  intro x
  exact congrArg Identity.wrapped (Site.exchange_left x)

/-- A function that no test below a place wrapped. -/
def Identity.Outside (site : Site) : Identity → Prop
  | .made _ => True
  | .wrapped place => ¬ site <:+ place

/-- Exchanging two places leaves the functions alone that were wrapped below neither. -/
theorem Renaming.exchange_outside {site site' : Site} (h : site.Apart site') {i : Identity}
    (outside : i.Outside site) (outside' : i.Outside site') :
    (Renaming.exchange h).apply i = i := by
  cases i with
  | made serial => rfl
  | wrapped place =>
    refine congrArg Identity.wrapped ?_
    rw [Site.exchange, if_neg outside, if_neg outside']

/-- A place outside of the searches of monitors. -/
def Site.IsOuter (site : Site) : Prop := site ≠ [] ∧ ∀ cell n, Step.trial cell n ∉ site

/-- A function that was there before the searches of monitors and before a test at a place. -/
def Identity.Before (site : Site) : Identity → Prop
  | .made _ => True
  | .wrapped place => ¬ site <:+ place ∧ ∀ cell n, Step.trial cell n ∉ place

/-- A place outside of searches is apart from all the places in them. -/
theorem Site.IsOuter.apart_trial {site : Site} (h : site.IsOuter) (cell : List Nat) (n : Nat) :
    Site.Apart [.trial cell n] site := by
  constructor
  · intro below
    exact h.2 cell n (below.subset (by simp))
  · rintro ⟨x, same⟩
    cases x with
    | nil => exact h.2 cell n (by rw [show site = _ from same]; simp)
    | cons s x =>
      rw [List.cons_append, List.cons.injEq, List.append_eq_nil_iff] at same
      exact h.1 same.2.2

/-- A step that is no trial stays outside of searches. -/
theorem Site.IsOuter.step {site : Site} (h : site.IsOuter) {s : Step}
    (inside : ∀ cell n, s ≠ .trial cell n) : Site.IsOuter (s :: site) := by
  refine ⟨by simp, fun cell n member => ?_⟩
  rcases List.mem_cons.mp member with same | member
  · exact inside cell n same.symm
  · exact h.2 cell n member

/-- Further in, more functions were there before. -/
theorem Identity.Before.step {site : Site} {i : Identity} (h : i.Before site) (s : Step) :
    i.Before (s :: site) := by
  cases i with
  | made serial => trivial
  | wrapped place =>
    exact ⟨fun below => h.1 ((List.suffix_cons s site).trans below), h.2⟩

/-- Moving a test from a trial leaves the functions alone that were there before. -/
theorem Renaming.exchange_keeps {site : Site} {cell : List Nat} {n : Nat}
    (h : Site.Apart [.trial cell n] site) {i : Identity} (before : i.Before site) :
    (Renaming.exchange h).apply i = i := by
  cases i with
  | made serial => rfl
  | wrapped place =>
    apply Renaming.exchange_outside h
    · exact fun below => before.2 cell n (below.subset (by simp))
    · exact before.1

/-- What a shape brings along is supported by more identities, too. -/
theorem Shape.SupportedBy.mono {K K' : Identity → Prop} {shape : Shape Schema}
    (h : shape.SupportedBy K) (more : ∀ i, K i → K' i) : shape.SupportedBy K' := by
  cases shape
  case literal | default | caught => exact Value.SupportedBy.mono h more
  case nativeEnum => exact fun m member => (h m member).mono more
  case effects inner effect =>
    cases effect <;> exact fun ρ keeps => h ρ fun i known => keeps i (more i known)
  case custom => exact fun ρ keeps => h ρ fun i known => keeps i (more i known)
  all_goals trivial

end SchemaSampler
