import SchemaSampler.Proofs.Parse.Depth
import SchemaSampler.Proofs.Parse.Renaming
import SchemaSampler.Proofs.Parse.Sorted

namespace SchemaSampler

/-!
# Nested intersections — schemas are intersected in any order and grouping

The intersection of several schemas is nested in some grouping (`Grouping`), and its result is what
the results for the single schemas merge to in this grouping:

* `Grouping.below_merged_iff` — this is their least upper bound, so the grouping says nothing about
  it but which schemas there are.
* `Grouping.merged_congr` — two groupings of the same schemas come to equal results or to none.
* `Grouping.parseFully_schema` — the test of a nested intersection ends if those of its schemas do,
  and has the result that theirs merge to.
* `intersections_regroup` — the laws of merging, and what they come to for nested intersections.
-/

/-- Schemas to be intersected two by two. -/
inductive Grouping where
  /-- One schema. -/
  | single (s : Schema)
  /-- The intersection of two groups. -/
  | both (id : SchemaId) (left right : Grouping)

namespace Grouping

/-- The nested intersection. -/
def schema : Grouping → Schema
  | single s => s
  | both id left right => .node id (.intersection left.schema right.schema)

/-- The schemas that are intersected. -/
def members : Grouping → List Schema
  | single s => [s]
  | both _ left right => left.members ++ right.members

/-- What the results for the schemas merge to. -/
def merged (result : Schema → Option Value) : Grouping → Option Value
  | single s => result s
  | both _ left right =>
    (left.merged result).bind fun a => (right.merged result).bind (Value.merge a ·)

/-! ### Least upper bounds -/

/-- Every schema has a result that is below a value. -/
def Bounds (result : Schema → Option Value) (schemas : List Schema) (u : Value) : Prop :=
  ∀ s ∈ schemas, ∃ a, result s = some a ∧ a.Below u

section Bounds

variable {result : Schema → Option Value} {schemas others : List Schema} {g g' : Grouping}
  {u w : Value}

theorem bounds_append_iff :
    Bounds result (schemas ++ others) u ↔ Bounds result schemas u ∧ Bounds result others u :=
  List.forall_mem_append

theorem bounds_singleton_iff {s : Schema} :
    Bounds result [s] u ↔ ∃ a, result s = some a ∧ a.Below u :=
  List.forall_mem_singleton

/-- What the results merge to is their least upper bound. -/
theorem below_merged_iff (sorted : ∀ s a, s ∈ g.members → result s = some a → a.Sorted)
    (h : g.merged result = some w) :
    w.Sorted ∧ ∀ u : Value, u.Sorted → (w.Below u ↔ Bounds result g.members u) := by
  induction g generalizing w with
  | single s =>
    refine ⟨sorted s w (List.mem_singleton.mpr rfl) h, fun u _ => ?_⟩
    rw [members, bounds_singleton_iff, show result s = some w from h]
    simp
  | both id left right ihl ihr =>
    obtain ⟨a, from_left, merges⟩ := Option.bind_eq_some_iff.mp h
    obtain ⟨b, from_right, merges⟩ := Option.bind_eq_some_iff.mp merges
    obtain ⟨ha, least_left⟩ :=
      ihl (fun s a member => sorted s a (List.mem_append_left _ member)) from_left
    obtain ⟨hb, least_right⟩ :=
      ihr (fun s a member => sorted s a (List.mem_append_right _ member)) from_right
    refine ⟨Value.sorted_of_merge ha hb merges, fun u hu => ?_⟩
    rw [members, bounds_append_iff, ← least_left u hu, ← least_right u hu]
    exact Value.below_merge_iff ha hb hu merges

/-- Results with an upper bound merge. -/
theorem exists_merged (sorted : ∀ s a, s ∈ g.members → result s = some a → a.Sorted)
    (hu : u.Sorted) (bounds : Bounds result g.members u) : ∃ w, g.merged result = some w := by
  induction g with
  | single s =>
    obtain ⟨a, there, -⟩ := bounds s (List.mem_singleton.mpr rfl)
    exact ⟨a, there⟩
  | both id left right ihl ihr =>
    have sorted_left s a (member : s ∈ left.members) :=
      sorted s a (List.mem_append_left _ member)
    have sorted_right s a (member : s ∈ right.members) :=
      sorted s a (List.mem_append_right _ member)
    obtain ⟨bounds_left, bounds_right⟩ := bounds_append_iff.mp bounds
    obtain ⟨a, from_left⟩ := ihl sorted_left bounds_left
    obtain ⟨b, from_right⟩ := ihr sorted_right bounds_right
    obtain ⟨ha, least_left⟩ := below_merged_iff sorted_left from_left
    obtain ⟨hb, least_right⟩ := below_merged_iff sorted_right from_right
    -- The bound is above what either side merges to.
    obtain ⟨w, merges⟩ := Value.exists_merge ha hb hu ((least_left u hu).mpr bounds_left)
      ((least_right u hu).mpr bounds_right)
    refine ⟨w, ?_⟩
    rw [merged, from_left, from_right]
    exact merges

/-- A result in one grouping is there in every other one. -/
theorem merged_of_merged (sorted : ∀ s a, s ∈ g.members → result s = some a → a.Sorted)
    (same : ∀ s, s ∈ g.members ↔ s ∈ g'.members) (h : g.merged result = some w) :
    ∃ w', g'.merged result = some w' ∧ (w == w') = true := by
  have sorted' : ∀ s a, s ∈ g'.members → result s = some a → a.Sorted :=
    fun s a member => sorted s a ((same s).mpr member)
  have alike (u : Value) : Bounds result g.members u ↔ Bounds result g'.members u :=
    forall_congr' fun s => imp_congr_left (same s)
  -- What the one grouping comes to bounds the results in the other one, too.
  obtain ⟨hw, least⟩ := below_merged_iff sorted h
  have bounds := (least w hw).mp (Value.below_self hw)
  obtain ⟨w', there⟩ := exists_merged sorted' hw ((alike w).mp bounds)
  obtain ⟨hw', least'⟩ := below_merged_iff sorted' there
  -- Each of the two least upper bounds is below the other.
  have bounds' := (least' w' hw').mp (Value.below_self hw')
  exact ⟨w', there, Value.Below.antisymm hw hw' ((least w' hw').mpr ((alike w').mpr bounds'))
    ((least' w hw).mpr ((alike w).mp bounds))⟩

/-- Two groupings of the same schemas come to equal results, or both to none. -/
theorem merged_congr (sorted : ∀ s a, s ∈ g.members → result s = some a → a.Sorted)
    (same : ∀ s, s ∈ g.members ↔ s ∈ g'.members) :
    Value.EqualOption (g.merged result) (g'.merged result) := by
  cases here : g.merged result with
  | some w =>
    obtain ⟨w', there, equal⟩ := merged_of_merged sorted same here
    rw [there]
    exact .some equal
  | none =>
    cases there : g'.merged result with
    | none => exact .none
    | some w' =>
      obtain ⟨w, impossible, -⟩ := merged_of_merged
        (fun s a member => sorted s a ((same s).mpr member)) (fun s => (same s).symm) there
      rw [here] at impossible
      cases impossible

end Bounds

/-! ### Tests -/

theorem result?_intersect (site : Site) (l r : Parsed) :
    (intersect site l r).result? = l.result?.bind fun a => r.result?.bind (Value.merge a ·) := by
  cases l with
  | error found => rfl
  | ok a =>
    cases r with
    | error found => rfl
    | ok b =>
      simp only [intersect, Parsed.result?, Option.bind_some]
      cases a.merge b <;> rfl

section Tests

variable {definitions : Definitions} {site site' : Site} {v : Value} {g g' : Grouping}

theorem parseFully_of_path {s : Schema} (functionless : s.Throughout definitions Shape.Functionless)
    (same : site.path = site'.path) (v : Value) :
    Schema.parseFully definitions site s v = Schema.parseFully definitions site' s v := by
  refine Option.ext fun out => ?_
  rw [Schema.parseFully_eq_some_iff, Schema.parseFully_eq_some_iff]
  exact exists_congr fun depth => by rw [Schema.parseWithin_of_path depth functionless same]

/-- The result of a test that is bounded by no depth. -/
noncomputable def resultAt (definitions : Definitions) (site : Site) (v : Value) (s : Schema) :
    Option Value :=
  (Schema.parseFully definitions site s v).bind Parsed.result?

/-- Both sides of an intersection are tested. -/
theorem parseFully_both {id : SchemaId} {left right : Grouping} {out : Parsed} :
    Schema.parseFully definitions site (both id left right).schema v = some out ↔
      ∃ l r, Schema.parseFully definitions (.branch 0 :: site) left.schema v = some l ∧
        Schema.parseFully definitions (.branch 1 :: site) right.schema v = some r ∧
        intersect site l r = out := by
  rw [schema, Schema.parseFully_node]
  simp [Shape.step, Option.bind_eq_some_iff]

/-- The test of a nested intersection has the result that those of its schemas merge to. -/
theorem result?_of_parseFully {out : Parsed}
    (functionless : ∀ s ∈ g.members, s.Throughout definitions Shape.Functionless)
    (same : site'.path = site.path)
    (h : Schema.parseFully definitions site' g.schema v = some out) :
    out.result? = g.merged (resultAt definitions site v) := by
  -- The sides of an intersection are tested at other places, but their path is the same.
  induction g generalizing site' out with
  | single s =>
    rw [schema, parseFully_of_path (functionless s (List.mem_singleton.mpr rfl)) same] at h
    rw [merged, resultAt, h]
    rfl
  | both id left right ihl ihr =>
    obtain ⟨l, r, on_left, on_right, rfl⟩ := parseFully_both.mp h
    rw [result?_intersect, merged,
      ihl (fun s member => functionless s (List.mem_append_left _ member))
        ((Site.path_branch 0 site').trans same) on_left,
      ihr (fun s member => functionless s (List.mem_append_right _ member))
        ((Site.path_branch 1 site').trans same) on_right]

/-- The test of a nested intersection ends when those of its schemas do. -/
theorem parseFully_ends_iff
    (functionless : ∀ s ∈ g.members, s.Throughout definitions Shape.Functionless)
    (same : site'.path = site.path) :
    (∃ out, Schema.parseFully definitions site' g.schema v = some out) ↔
      ∀ s ∈ g.members, ∃ out, Schema.parseFully definitions site s v = some out := by
  induction g generalizing site' with
  | single s =>
    rw [members, List.forall_mem_singleton, schema,
      parseFully_of_path (functionless s (List.mem_singleton.mpr rfl)) same]
  | both id left right ihl ihr =>
    rw [members, List.forall_mem_append,
      ← ihl (fun s member => functionless s (List.mem_append_left _ member))
        ((Site.path_branch 0 site').trans same),
      ← ihr (fun s member => functionless s (List.mem_append_right _ member))
        ((Site.path_branch 1 site').trans same)]
    constructor
    · rintro ⟨out, ends⟩
      obtain ⟨l, r, on_left, on_right, -⟩ := parseFully_both.mp ends
      exact ⟨⟨l, on_left⟩, ⟨r, on_right⟩⟩
    · rintro ⟨⟨l, on_left⟩, ⟨r, on_right⟩⟩
      exact ⟨_, parseFully_both.mpr ⟨l, r, on_left, on_right, rfl⟩⟩

end Tests

end Grouping

/-! ### Regrouping -/

/-- The outcome of a whole test, whatever the bound on its depth. -/
theorem Schema.exists_parse_iff {definitions : Definitions} {site : Site} {s : Schema} {v : Value}
    {result : Option Value} :
    (∃ depth out, s.parse definitions depth site v = some out ∧ out.toOption = result) ↔
      ∃ tested, parseFully definitions site s v = some tested ∧ tested.result? = result := by
  constructor
  · rintro ⟨depth, out, returns, rfl⟩
    obtain ⟨tested, ends, rfl⟩ := Option.map_eq_some_iff.mp returns
    refine ⟨tested, parseFully_eq_some_iff.mpr ⟨depth, ends⟩, ?_⟩
    cases tested <;> rfl
  · rintro ⟨tested, ends, rfl⟩
    obtain ⟨depth, returns⟩ := parseFully_eq_some_iff.mp ends
    refine ⟨depth, _, Option.map_eq_some_iff.mpr ⟨tested, returns, rfl⟩, ?_⟩
    cases tested <;> rfl

/-- **The order and the grouping of intersections do not matter.** Merging is idempotent,
    commutative and associative: a value merges with itself to itself, two values merge in both
    orders to equal values or in neither, and three values merge alike in both groupings, where a
    conflict on the way is one of all.  So if schemas that wrap no functions are intersected, then
    a value is accepted in one order and grouping just when it is in every other one, and the
    results are equal.  The members of the objects in all values are sorted by key. -/
theorem intersections_regroup :
    (∀ a b c : Value, a.Sorted → b.Sorted → c.Sorted →
      a.merge a = some a ∧ Value.EqualOption (a.merge b) (b.merge a) ∧
        ((a.merge b).bind fun ab => ab.merge c) = (b.merge c).bind fun bc => a.merge bc) ∧
    ∀ (definitions : Definitions) (site : Site) (g g' : Grouping) (v : Value), v.Sorted →
      (∀ s, s ∈ g.members ↔ s ∈ g'.members) →
      (∀ s ∈ g.members, s.Throughout definitions Shape.Functionless ∧
        s.Throughout definitions Shape.BringsSorted) →
      ∀ depth out, g.schema.parse definitions depth site v = some out →
        ∃ depth' out', g'.schema.parse definitions depth' site v = some out' ∧
          Value.EqualOption out.toOption out'.toOption := by
  refine ⟨fun a b c ha hb hc => ⟨Value.merge_self ha, Value.merge_comm ha hb,
    Value.merge_assoc ha hb hc⟩, ?_⟩
  intro definitions site g g' v given same plain depth out returns
  have functionless : ∀ s ∈ g.members, s.Throughout definitions Shape.Functionless :=
    fun s member => (plain s member).1
  have functionless' : ∀ s ∈ g'.members, s.Throughout definitions Shape.Functionless :=
    fun s member => functionless s ((same s).mpr member)
  have sorted : ∀ s a, s ∈ g.members → Grouping.resultAt definitions site v s = some a →
      a.Sorted := by
    intro s a member there
    obtain ⟨tested, ends, accepted⟩ := Option.bind_eq_some_iff.mp there
    obtain ⟨depth, returns⟩ := Schema.parseFully_eq_some_iff.mp ends
    cases tested with
    | error found => cases accepted
    | ok w =>
      cases accepted
      exact Schema.parseWithin_sorted depth (plain s member).2 _ _ _ given returns
  -- The same schemas are tested in both groupings, so that both tests end.
  obtain ⟨tested, ends, result⟩ := Schema.exists_parse_iff.mp ⟨depth, out, returns, rfl⟩
  obtain ⟨tested', ends'⟩ := (Grouping.parseFully_ends_iff functionless' rfl).mpr fun s member =>
    (Grouping.parseFully_ends_iff functionless rfl).mp ⟨tested, ends⟩ s ((same s).mpr member)
  obtain ⟨depth', out', returns', result'⟩ := Schema.exists_parse_iff.mpr ⟨tested', ends', rfl⟩
  refine ⟨depth', out', returns', ?_⟩
  rw [← result, result', Grouping.result?_of_parseFully functionless rfl ends,
    Grouping.result?_of_parseFully functionless' rfl ends']
  exact Grouping.merged_congr sorted same

/-- Three schemas for pairs in two groupings, for a pair that all of them accept, and three objects
    of which the first and the last are in conflict. -/
theorem intersections_regroup_pairs :
    let items : Schema := .node 0 (.array (.node 1 .any) ⟨none, none⟩)
    let text : Schema := .node 2 (.tuple [.node 3 (.string []), .node 4 .unknown] none)
    let flag : Schema := .node 5 (.tuple [.node 6 .any, .node 7 .boolean] none)
    let one : Grouping := .both 8 (.both 9 (.single items) (.single text)) (.single flag)
    let other : Grouping := .both 10 (.single flag) (.both 11 (.single text) (.single items))
    let v : Value := .array [.string "x", .bool true]
    let tagged (s : String) : Value := .object [("tag", .string s)]
    (one.schema.parse (fun _ => none) 4 [] v = some (.ok v) ∧
      ∃ depth out, other.schema.parse (fun _ => none) depth [] v = some out ∧
        Value.EqualOption (some v) out.toOption) ∧
    (((tagged "x").merge (.object [])).bind fun ab => ab.merge (tagged "y")) = none ∧
    ((Value.object []).merge (tagged "y")).bind (fun bc => (tagged "x").merge bc) = none := by
  intro items text flag one other v tagged
  have given : v.Sorted := by
    refine Value.sorted_array.mpr fun i member => ?_
    rcases List.mem_pair.mp member with rfl | rfl
    · exact Value.sorted_string "x"
    · exact Value.sorted_bool true
  have accepted : one.schema.parse (fun _ => none) 4 [] v = some (.ok v) := by
    have together : ∀ site, intersect site (.ok v) (.ok v) = .ok v := by
      intro site
      rw [intersect, Value.merge_self given]
    show (some (intersect [] (intersect [.branch 0] (.ok v) (.ok v)) (.ok v))).map _ = _
    rw [together, together]
    rfl
  have plain : ∀ s ∈ one.members, s.Throughout (fun _ => none) Shape.Functionless ∧
      s.Throughout (fun _ => none) Shape.BringsSorted := by
    have leaf (P : Shape Schema → Prop) (id : SchemaId) (shape : Shape Schema) (here : P shape)
        (inside : ∀ t ∈ shape.children, P t.shape ∧ t.shape.children = []) :
        Schema.Throughout (fun _ => none) P (.node id shape) := by
      refine Schema.Everywhere.throughout (.node id here fun t child => ?_) (by simp)
      obtain ⟨inner, innerShape⟩ := t
      obtain ⟨holds, childless⟩ := inside _ child
      exact .node inner holds fun t further => absurd (childless ▸ further) List.not_mem_nil
    intro s member
    obtain rfl | rfl | rfl : s = items ∨ s = text ∨ s = flag := by
      simpa [one, Grouping.members] using member
    all_goals
      exact ⟨leaf _ _ _ trivial (by simp [Shape.children, Schema.shape, Shape.Functionless]),
        leaf _ _ _ trivial (by simp [Shape.children, Schema.shape, Shape.BringsSorted])⟩
  have same : ∀ s, s ∈ one.members ↔ s ∈ other.members := by
    intro s
    simp only [one, other, Grouping.members, List.cons_append, List.nil_append, List.mem_cons,
      List.not_mem_nil, or_false]
    tauto
  have tag_sorted (s : String) : (tagged s).Sorted :=
    Value.sorted_object.mpr ⟨List.pairwise_singleton _ _,
      List.forall_mem_singleton.mpr (Value.sorted_string s)⟩
  have none_sorted : Value.Sorted (.object []) :=
    Value.sorted_object.mpr ⟨.nil, fun m member => absurd member List.not_mem_nil⟩
  have conflict :
      (((tagged "x").merge (.object [])).bind fun ab => ab.merge (tagged "y")) = none := by
    have differ : (Value.string "x" == Value.string "y") = false := by
      rw [Bool.eq_false_iff]
      intro equal
      have texts : some "x" = some "y" := Value.asString?_congr equal
      simp at texts
    simp [tagged, Value.merge, Value.mergeMembers, findMember?, differ]
  refine ⟨⟨accepted, ?_⟩, conflict, ?_⟩
  · exact intersections_regroup.2 (fun _ => none) [] one other v given same plain 4 _ accepted
  · rw [← (intersections_regroup.1 _ _ _ (tag_sorted "x") none_sorted (tag_sorted "y")).2.2]
    exact conflict

end SchemaSampler
