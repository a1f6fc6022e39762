import Mathlib.Data.List.Induction
import SchemaSampler.Proofs.Parse.ObjectResult
import SchemaSampler.Proofs.Parse.Renaming

namespace SchemaSampler

/-!
# Intersections of objects — two tests of one object come to one

An intersection of two object schemas tests a value twice and merges the two results.  If both
strip undeclared members and have no name in common, this is the test of one object schema with the
fields of both:

* `mergeMembers_foldl_enter` — results for different names never meet, so that merging enters the
  second ones after the first ones.
* `Parsed.intersect_finish` — issues of the two sides follow each other.
* `Renaming.exists_joining` — a renaming carries the places below the two sides to the places of
  the one test, field by field.
* `Schema.parse_intersection_objects` — the two tests agree on every value.
-/

/-! ### Members under different names -/

section Members

variable {parts others : List FieldOutcome} {start : List (String × Value)} {key : String}

theorem sorted_enter (h : SortedMembers start) (f : FieldOutcome) :
    SortedMembers (FieldOutcome.enter start f) := by
  unfold FieldOutcome.enter
  split
  · split
    · exact sorted_insertMember h _ _
    · exact h
  · exact h

theorem sorted_foldl_enter (h : SortedMembers start) (parts : List FieldOutcome) :
    SortedMembers (parts.foldl FieldOutcome.enter start) := by
  induction parts generalizing start with
  | nil => exact h
  | cons f rest ih => exact ih (sorted_enter h f)

/-- What is entered later counts before what was there from the start. -/
theorem findMember?_foldl_enter (key : String) (parts : List FieldOutcome)
    (start : List (String × Value)) :
    findMember? key (parts.foldl FieldOutcome.enter start) =
      (findMember? key (parts.foldl FieldOutcome.enter [])).or (findMember? key start) := by
  -- The last outcome is entered over all others, so the list is taken from its end.
  induction parts using List.reverseRecOn with
  | nil => rfl
  | append_singleton parts f ih =>
    rw [List.foldl_append, List.foldl_append, List.foldl_cons, List.foldl_nil, List.foldl_cons,
      List.foldl_nil]
    unfold FieldOutcome.enter
    split
    · split
      · rw [findMember?_insertMember, findMember?_insertMember]
        split
        · rfl
        · exact ih
      · exact ih
    · exact ih

/-- Only names of declared members are entered. -/
theorem name_mem_of_foldl_enter {m : String × Value}
    (h : m ∈ parts.foldl FieldOutcome.enter start) :
    m ∈ start ∨ ∃ f ∈ parts, f.name = m.1 := by
  induction parts generalizing start with
  | nil => exact .inl h
  | cons f rest ih =>
    rw [List.foldl_cons] at h
    rcases ih h with entered | ⟨g, member, same⟩
    · have there : m ∈ start ∨ f.name = m.1 := by
        unfold FieldOutcome.enter at entered
        split at entered
        · split at entered
          · rcases mem_insertMember entered with rfl | before
            · exact .inr rfl
            · exact .inl before
          · exact .inl entered
        · exact .inl entered
      exact there.imp_right fun same => ⟨f, List.mem_cons_self, same⟩
    · exact .inr ⟨g, List.mem_cons_of_mem f member, same⟩

/-- Members under keys that the left object does not have are inserted. -/
theorem mergeMembers_of_away {left right : List (String × Value)}
    (away : ∀ m ∈ right, findMember? m.1 left = none)
    (distinct : right.Pairwise fun m m' => m.1 ≠ m'.1) :
    Value.mergeMembers left right = some (insertAll right left) := by
  induction right generalizing left with
  | nil => rfl
  | cons m rest ih =>
    obtain ⟨key, v⟩ := m
    rw [List.pairwise_cons] at distinct
    have absent := away _ List.mem_cons_self
    rw [Value.mergeMembers]
    simp only at absent
    simp only [absent, Option.bind_eq_bind, Option.bind_some, insertAll_cons]
    refine ih (fun m member => ?_) distinct.2
    rw [findMember?_insertMember_of_ne (distinct.1 m member).symm]
    exact away m (List.mem_cons_of_mem _ member)

/-- Results for different names never meet. -/
theorem mergeMembers_foldl_enter (apart : ∀ f ∈ parts, ∀ g ∈ others, f.name ≠ g.name) :
    Value.mergeMembers (parts.foldl FieldOutcome.enter []) (others.foldl FieldOutcome.enter []) =
      some ((parts ++ others).foldl FieldOutcome.enter []) := by
  have left : SortedMembers (parts.foldl FieldOutcome.enter []) := sorted_foldl_enter .nil parts
  have right : SortedMembers (others.foldl FieldOutcome.enter []) := sorted_foldl_enter .nil others
  rw [mergeMembers_of_away ?_ right.distinct, List.foldl_append]
  · -- Both objects are sorted, so that it is enough to look up each key in them.
    refine congrArg some (eq_of_sorted (sorted_insertAll left _) (sorted_foldl_enter left _) ?_)
    intro key
    rw [findMember?_insertAll, findMember?_reverse right.distinct]
    exact (findMember?_foldl_enter key others _).symm
  · -- A key of both objects would be the name of two outcomes.
    intro m member
    refine findMember?_eq_none fun m' member' same => ?_
    obtain ⟨g, hg, name⟩ := (name_mem_of_foldl_enter member).resolve_left List.not_mem_nil
    obtain ⟨f, hf, name'⟩ := (name_mem_of_foldl_enter member').resolve_left List.not_mem_nil
    exact apart f hf g hg (by rw [name, name', same])

end Members

/-! ### Issues of both sides -/

/-- If the results can be merged, the issues of the two sides follow each other. -/
theorem Parsed.intersect_finish {site : Site} {left right merged : Value}
    (mergeable : left.merge right = some merged) (found found' : List Issue) :
    intersect site (finish left found) (finish right found') = finish merged (found ++ found') := by
  cases found with
  | nil =>
    cases found' with
    | nil => simp only [finish_nil, intersect, mergeable, List.append_nil]
    | cons i rest => rfl
  | cons i rest => cases found' <;> rfl

/-! ### Places of the two sides -/

namespace Site

theorem suffix_append_iff {x y site : Site} : x ++ site <:+ y ++ site ↔ x <:+ y := by
  rw [← List.reverse_prefix, List.reverse_append, List.reverse_append, List.prefix_append_right_inj,
    List.reverse_prefix]

theorem apart_append_iff {x y site : Site} : Apart (x ++ site) (y ++ site) ↔ Apart x y := by
  rw [Apart, Apart, suffix_append_iff, suffix_append_iff]

/-- The member under a name on one side of an intersection. -/
def side (site : Site) (name : String) (number : Nat) : Site :=
  .key name :: .branch number :: site

theorem apart_side (site : Site) (name : String) (number : Nat) :
    Apart (site.side name number) (.key name :: site) := by
  show Apart ([.key name, .branch number] ++ site) ([.key name] ++ site)
  rw [apart_append_iff]
  simp [Apart, List.suffix_cons_iff]

/-- Members under different names are apart, on either side and without sides. -/
theorem apart_of_ne {name name' : String} (h : name ≠ name') (site : Site) (number number' : Nat) :
    Apart (site.side name number) (site.side name' number') ∧
      Apart (site.side name number) (.key name' :: site) ∧
      Apart (.key name :: site) (site.side name' number') ∧
      Apart (.key name :: site) (.key name' :: site) := by
  show Apart ([.key name, .branch number] ++ site) ([.key name', .branch number'] ++ site) ∧
      Apart ([.key name, .branch number] ++ site) ([.key name'] ++ site) ∧
      Apart ([.key name] ++ site) ([.key name', .branch number'] ++ site) ∧
      Apart ([.key name] ++ site) ([.key name'] ++ site)
  simp only [apart_append_iff]
  simp [Apart, List.suffix_cons_iff, h, h.symm]

end Site

namespace Renaming

/-- One renaming after another. -/
def after (σ ρ : Renaming) : Renaming where
  apply i := σ.apply (ρ.apply i)
  injective _ _ same := ρ.injective _ _ (σ.injective _ _ same)

/-- Places that are all apart can be exchanged in pairs. -/
theorem exists_exchanges {pairs : List (Site × Site)} (each : ∀ p ∈ pairs, p.1.Apart p.2)
    (apart : pairs.Pairwise fun p q =>
      p.1.Apart q.1 ∧ p.1.Apart q.2 ∧ p.2.Apart q.1 ∧ p.2.Apart q.2) :
    ∃ ρ : Renaming, (∀ p ∈ pairs, ρ.Carries p.1 p.2) ∧
      ∀ i : Identity, (∀ p ∈ pairs, i.Outside p.1 ∧ i.Outside p.2) → ρ.apply i = i := by
  induction pairs with
  | nil => exact ⟨.refl, nofun, fun _ _ => rfl⟩
  | cons p rest ih =>
    rw [List.pairwise_cons] at apart
    obtain ⟨ρ, carries, keeps⟩ :=
      ih (fun q member => each q (List.mem_cons_of_mem p member)) apart.2
    have own := each p List.mem_cons_self
    refine ⟨(exchange own).after ρ, fun q member x => ?_, fun i outside => ?_⟩
    · show (exchange own).apply (ρ.apply (.wrapped (x ++ q.1))) = .wrapped (x ++ q.2)
      rcases List.mem_cons.mp member with rfl | member
      · -- What lies below the first pair is outside of the others.
        rw [keeps]
        · exact exchange_carries own x
        · intro q member
          obtain ⟨first, second, -⟩ := apart.1 q member
          exact ⟨first.symm.not_suffix x, second.symm.not_suffix x⟩
      · obtain ⟨-, first, -, second⟩ := apart.1 q member
        rw [carries q member x]
        exact exchange_outside own (first.not_suffix x) (second.not_suffix x)
    · show (exchange own).apply (ρ.apply i) = i
      rw [keeps i fun q member => outside q (List.mem_cons_of_mem p member)]
      obtain ⟨first, second⟩ := outside p List.mem_cons_self
      exact exchange_outside own first second

/-- The places below the two sides of an intersection can be carried to those below one place,
    name by name, if the two sides have no name in common. -/
theorem exists_joining (site : Site) {left right : List String}
    (apart : ∀ a ∈ left, ∀ b ∈ right, a ≠ b) :
    ∃ ρ : Renaming, (∀ a ∈ left, ρ.Carries (site.side a 0) (.key a :: site)) ∧
      (∀ b ∈ right, ρ.Carries (site.side b 1) (.key b :: site)) ∧
      ∀ i : Identity, i.Outside site → ρ.apply i = i := by
  let sides : List (String × Nat) :=
    left.eraseDups.map (·, 0) ++ right.eraseDups.map (·, 1)
  -- No name comes twice, so that the places of all names are apart.
  have names : sides.Pairwise fun s s' => s.1 ≠ s'.1 := by
    refine List.pairwise_append.mpr ⟨?_, ?_, ?_⟩
    · exact List.pairwise_map.mpr (nodup_eraseDups left)
    · exact List.pairwise_map.mpr (nodup_eraseDups right)
    · intro s member s' member'
      obtain ⟨a, ha, rfl⟩ := List.mem_map.mp member
      obtain ⟨b, hb, rfl⟩ := List.mem_map.mp member'
      exact apart a (List.mem_eraseDups.mp ha) b (List.mem_eraseDups.mp hb)
  obtain ⟨ρ, carries, keeps⟩ := @exists_exchanges
    (sides.map fun s => (site.side s.1 s.2, .key s.1 :: site))
    (by
      intro p member
      obtain ⟨s, -, rfl⟩ := List.mem_map.mp member
      exact site.apart_side s.1 s.2)
    (List.pairwise_map.mpr (names.imp fun differs => Site.apart_of_ne differs site _ _))
  have carried : ∀ s ∈ sides, ρ.Carries (site.side s.1 s.2) (.key s.1 :: site) :=
    fun s member => carries _ (List.mem_map_of_mem member)
  refine ⟨ρ, fun a member => carried (a, 0) ?_, fun b member => carried (b, 1) ?_, ?_⟩
  · exact List.mem_append_left _ (List.mem_map_of_mem (List.mem_eraseDups.mpr member))
  · exact List.mem_append_right _ (List.mem_map_of_mem (List.mem_eraseDups.mpr member))
  · intro i outside
    refine keeps i fun p member => ?_
    obtain ⟨s, -, rfl⟩ := List.mem_map.mp member
    -- What is made below the place of a name is made below the whole.
    cases i with
    | made serial => exact ⟨trivial, trivial⟩
    | wrapped place =>
      refine ⟨fun below => outside (.trans ?_ below), fun below => outside (.trans ?_ below)⟩
      · exact List.suffix_append [.key s.1, .branch s.2] site
      · exact List.suffix_cons _ site

end Renaming

/-! ### One level -/

/-- The tests of declared members on a side of an intersection are those without the side. -/
theorem parseFields_rename {recur : Recur} {ρ : Renaming} {site : Site} {number : Nat}
    {fields : List (String × Schema)} (movable : ∀ field ∈ fields, recur.Movable ρ field.2)
    (carries : ∀ name ∈ fields.map Prod.fst, ρ.Carries (site.side name number) (.key name :: site))
    {input : List (String × Value)} (kept : Value.renameMembers ρ input = input) :
    Option.Rel (List.Forall₂ (FieldOutcome.Alike ρ (.branch number :: site) site))
      (fields.mapM (parseField recur (.branch number :: site) input))
      (fields.mapM (parseField recur site input)) := by
  refine rel_mapM (List.forall₂_same.mpr fun field member => ?_)
  have moved := parseField_rename (movable field member)
    (carries field.1 (List.mem_map_of_mem member)) input
  rwa [kept] at moved

section Names

variable {recur : Recur} {site : Site} {input : List (String × Value)}
  {fields : List (String × Schema)} {parts : List FieldOutcome}

/-- The outcomes have the names of the fields, in the order of declaration. -/
theorem map_name_of_parseFields (h : fields.mapM (parseField recur site input) = some parts) :
    parts.map FieldOutcome.name = fields.map Prod.fst :=
  map_eq_map ((mapM_eq_some_iff.mp h).imp fun _ _ tested => (parseField_eq_some_iff.mp tested).1)

theorem name_mem_of_parseFields (h : fields.mapM (parseField recur site input) = some parts) :
    ∀ f ∈ parts, f.name ∈ fields.map Prod.fst := by
  intro f member
  rw [← map_name_of_parseFields h]
  exact List.mem_map_of_mem member

end Names

theorem Parsed.map_finish (ρ : Renaming) (v : Value) (found : List Issue) :
    (finish v found).map (Value.rename ρ) = finish (v.rename ρ) found := by
  cases found <;> rfl

/-- Outcomes for the members of two objects, put together. -/
theorem intersect_objectOutcome {ρ : Renaming} {site : Site} {left right : List (String × Schema)}
    {input : List (String × Value)} {l l' r r' : List FieldOutcome}
    (differ : ∀ f ∈ l, ∀ g ∈ r, f.name ≠ g.name)
    (hl : List.Forall₂ (FieldOutcome.Alike ρ (.branch 0 :: site) site) l l')
    (hr : List.Forall₂ (FieldOutcome.Alike ρ (.branch 1 :: site) site) r r') :
    objectOutcome site (left ++ right) .strip input (l' ++ r') =
      (intersect site (objectOutcome (.branch 0 :: site) left .strip input l)
        (objectOutcome (.branch 1 :: site) right .strip input r)).map (Value.rename ρ) := by
  have merged : (Value.object (l.foldl FieldOutcome.enter [])).merge
      (.object (r.foldl FieldOutcome.enter [])) =
        some (.object ((l ++ r).foldl FieldOutcome.enter [])) := by
    rw [Value.merge, mergeMembers_foldl_enter differ, Option.map_some]
  have entered : (l' ++ r').foldl FieldOutcome.enter [] =
      Value.renameMembers ρ ((l ++ r).foldl FieldOutcome.enter []) := by
    rw [List.foldl_append, List.foldl_append, ← foldl_enter_alike hr, ← foldl_enter_alike hl]
    rfl
  have found := (field_issues_alike hl).eq_of_path (site.path_branch 0)
  have found' := (field_issues_alike hr).eq_of_path (site.path_branch 1)
  show Parsed.finish (.object ((l' ++ r').foldl FieldOutcome.enter []))
      ((l' ++ r').flatMap fun f => f.outcome.issues) =
    (intersect site
      (.finish (.object (l.foldl FieldOutcome.enter [])) (l.flatMap fun f => f.outcome.issues))
      (.finish (.object (r.foldl FieldOutcome.enter []))
        (r.flatMap fun f => f.outcome.issues))).map (Value.rename ρ)
  rw [Parsed.intersect_finish merged, Parsed.map_finish, found, found', entered,
    List.flatMap_append]
  rfl

/-- The test against the fields of two objects is the test against each of them, with the two
    results merged. -/
theorem parseObject_append {recur : Recur} {ρ : Renaming} {site : Site}
    {left right : List (String × Schema)}
    (apart : ∀ a ∈ left.map Prod.fst, ∀ b ∈ right.map Prod.fst, a ≠ b)
    (movable : ∀ field ∈ left ++ right, recur.Movable ρ field.2)
    (on_left : ∀ name ∈ left.map Prod.fst, ρ.Carries (site.side name 0) (.key name :: site))
    (on_right : ∀ name ∈ right.map Prod.fst, ρ.Carries (site.side name 1) (.key name :: site))
    {input : List (String × Value)} (kept : Value.renameMembers ρ input = input) :
    parseObject recur site (left ++ right) .strip input =
      ((parseObject recur (.branch 0 :: site) left .strip input).bind fun l =>
        (parseObject recur (.branch 1 :: site) right .strip input).bind fun r =>
          some (intersect site l r)).map (Except.map (Value.rename ρ)) := by
  have first := parseFields_rename
    (fun field member => movable field (List.mem_append_left _ member)) on_left kept
  have second := parseFields_rename
    (fun field member => movable field (List.mem_append_right _ member)) on_right kept
  -- The tests of the fields on each side end just when those without the side do.
  rw [parseObject_eq, parseObject_eq, parseObject_eq, List.mapM_append]
  cases ran_left : left.mapM (parseField recur (.branch 0 :: site) input) with
  | none =>
    rw [ran_left, rel_none_iff] at first
    rw [first]
    rfl
  | some l =>
    rw [ran_left, rel_some_iff] at first
    obtain ⟨l', alone, hl⟩ := first
    rw [alone]
    cases ran_right : right.mapM (parseField recur (.branch 1 :: site) input) with
    | none =>
      rw [ran_right, rel_none_iff] at second
      rw [second]
      rfl
    | some r =>
      rw [ran_right, rel_some_iff] at second
      obtain ⟨r', alone', hr⟩ := second
      rw [alone']
      have differ : ∀ f ∈ l, ∀ g ∈ r, f.name ≠ g.name := fun f hf g hg =>
        apart _ (name_mem_of_parseFields ran_left f hf) _ (name_mem_of_parseFields ran_right g hg)
      exact congrArg some (intersect_objectOutcome differ hl hr)

/-! ### All levels -/

namespace Schema

variable {definitions : Definitions} {A B : List (String × Schema)} {i j k l : SchemaId}
  {site : Site}

/-- Both sides of the intersection are one level further in than the one object schema. -/
theorem parseWithin_intersection_objects {ρ : Renaming}
    (apart : ∀ a ∈ A.map Prod.fst, ∀ b ∈ B.map Prod.fst, a ≠ b)
    (supported : ∀ field ∈ A ++ B,
      field.2.Throughout definitions (Shape.SupportedBy (Identity.Outside site)))
    (keeps : ∀ i : Identity, i.Outside site → ρ.apply i = i)
    (on_left : ∀ name ∈ A.map Prod.fst, ρ.Carries (site.side name 0) (.key name :: site))
    (on_right : ∀ name ∈ B.map Prod.fst, ρ.Carries (site.side name 1) (.key name :: site))
    {input : List (String × Value)} (kept : Value.renameMembers ρ input = input) (depth : Nat) :
    parseWithin definitions depth site (.node l (.object (A ++ B) .strip)) (.object input) =
      (parseWithin definitions (depth + 1) site
        (.node i (.intersection (.node j (.object A .strip)) (.node k (.object B .strip))))
        (.object input)).map (Except.map (Value.rename ρ)) := by
  cases depth with
  | zero => rfl
  | succ depth =>
    exact parseObject_append apart
      (fun field member => parseWithin_rename depth keeps (supported field member))
      on_left on_right kept

/-- What is not an object is refused by both. -/
theorem parse_intersection_of_not_object {v : Value} (no_object : ∀ input, v ≠ .object input)
    (ρ : Renaming) (depth : Nat) :
    (parse definitions depth site (.node l (.object (A ++ B) .strip)) v).map Except.toOption =
      (parse definitions (depth + 1) site
        (.node i (.intersection (.node j (.object A .strip)) (.node k (.object B .strip))))
        v).map fun out => out.toOption.map (Value.rename ρ) := by
  cases depth with
  | zero => rfl
  | succ depth =>
    cases v
    case object input => exact absurd rfl (no_object input)
    all_goals rfl

/-- **Intersections of objects.** Two object schemas that strip undeclared members and have no name
    in common accept together what one object schema with the fields of both accepts, and their
    merged result is its result.  The results differ in the identities of the functions that the
    tests of the fields wrap, which are new to the value and to what the schemas bring along.  An
    object that is refused is refused for the same issues in the same order. -/
theorem parse_intersection_objects (apart : ∀ a ∈ A, ∀ b ∈ B, a.1 ≠ b.1)
    (supported : ∀ field ∈ A ++ B,
      field.2.Throughout definitions (Shape.SupportedBy (Identity.Outside site)))
    {v : Value} (given : v.SupportedBy (Identity.Outside site)) :
    ∃ ρ : Renaming, (∀ i : Identity, i.Outside site → ρ.apply i = i) ∧
      (∀ a ∈ A, ρ.Carries (.key a.1 :: .branch 0 :: site) (.key a.1 :: site)) ∧
      (∀ b ∈ B, ρ.Carries (.key b.1 :: .branch 1 :: site) (.key b.1 :: site)) ∧
      ∀ depth,
        (parse definitions depth site (.node l (.object (A ++ B) .strip)) v).map Except.toOption =
          ((parse definitions (depth + 1) site
            (.node i (.intersection (.node j (.object A .strip)) (.node k (.object B .strip))))
            v).map fun out => out.toOption.map (Value.rename ρ)) ∧
        ∀ input, v = .object input →
          parse definitions depth site (.node l (.object (A ++ B) .strip)) v =
            (parse definitions (depth + 1) site
              (.node i (.intersection (.node j (.object A .strip)) (.node k (.object B .strip))))
              v).map (Except.map (Value.rename ρ)) := by
  have names : ∀ a ∈ A.map Prod.fst, ∀ b ∈ B.map Prod.fst, a ≠ b := by
    intro a ha b hb
    obtain ⟨field, declared, rfl⟩ := List.mem_map.mp ha
    obtain ⟨field', declared', rfl⟩ := List.mem_map.mp hb
    exact apart field declared field' declared'
  obtain ⟨ρ, on_left, on_right, keeps⟩ := Renaming.exists_joining site names
  have same : ∀ depth input, v = .object input →
      parse definitions depth site (.node l (.object (A ++ B) .strip)) v =
        (parse definitions (depth + 1) site
          (.node i (.intersection (.node j (.object A .strip)) (.node k (.object B .strip))))
          v).map (Except.map (Value.rename ρ)) := by
    rintro depth input rfl
    have kept : Value.renameMembers ρ input = input := Value.object.inj (given ρ keeps)
    rw [parse, parse, parseWithin_intersection_objects names supported keeps on_left on_right kept,
      Option.map_map, Option.map_map]
    refine congrArg (Option.map · _) (funext fun out => ?_)
    cases out <;> rfl
  refine ⟨ρ, keeps, fun a member => on_left a.1 (List.mem_map_of_mem member),
    fun b member => on_right b.1 (List.mem_map_of_mem member), fun depth => ⟨?_, same depth⟩⟩
  by_cases object : ∃ input, v = .object input
  · obtain ⟨input, there⟩ := object
    rw [same depth input there, Option.map_map]
    refine congrArg (Option.map · _) (funext fun out => ?_)
    cases out <;> rfl
  · exact parse_intersection_of_not_object (fun input there => object ⟨input, there⟩) ρ depth

/-- A function and a flag, declared apart and together: the function that is accepted is wrapped at
    its place, and if both members are refused both schemas say so in the order of declaration. -/
theorem parse_intersection_objects_pair :
    let A : List (String × Schema) := [("f", .node 0 (.function [] (.node 1 .any)))]
    let B : List (String × Schema) := [("b", .node 2 .boolean)]
    let both : Schema :=
      .node 5 (.intersection (.node 3 (.object A .strip)) (.node 4 (.object B .strip)))
    let one : Schema := .node 6 (.object (A ++ B) .strip)
    let call (identity : Identity) (guards : List SchemaId) : Value :=
      .function ⟨identity, .constant .null, guards⟩
    both.parse (fun _ => none) 3 [] (.object [("b", .bool true), ("f", call (.made 0) [])]) =
        some (.ok (.object
          [("b", .bool true), ("f", call (.wrapped [.key "f", .branch 0]) [0])])) ∧
      one.parse (fun _ => none) 2 [] (.object [("b", .bool true), ("f", call (.made 0) [])]) =
        some (.ok (.object [("b", .bool true), ("f", call (.wrapped [.key "f"]) [0])])) ∧
      one.parse (fun _ => none) 2 [] (.object [("b", .null), ("x", .null)]) =
        some (.error ⟨⟨[.key "f"], .unexpectedKind "function" "undefined"⟩,
          [⟨[.key "b"], .unexpectedKind "boolean" "null"⟩]⟩) := by
  intro A B both one call
  have apart : ∀ a ∈ A, ∀ b ∈ B, a.1 ≠ b.1 := by simp [A, B]
  have supported : ∀ field ∈ A ++ B, field.2.Throughout (fun _ => none)
      (Shape.SupportedBy (Identity.Outside [])) := by
    intro field member
    refine Everywhere.throughout ?_ (by simp)
    rcases List.mem_pair.mp member with rfl | rfl
    · refine .node 0 trivial fun t child => ?_
      obtain rfl := List.mem_singleton.mp child
      exact .node 1 trivial fun t child => absurd child List.not_mem_nil
    · exact .node 2 trivial fun t child => absurd child List.not_mem_nil
  have accepted : both.parse (fun _ => none) 3 []
      (.object [("b", .bool true), ("f", call (.made 0) [])]) = some (.ok (.object
        [("b", .bool true), ("f", call (.wrapped [.key "f", .branch 0]) [0])])) := by
    have merged : Value.merge (.object [("f", call (.wrapped [.key "f", .branch 0]) [0])])
        (.object [("b", .bool true)]) = some (.object
          [("b", .bool true), ("f", call (.wrapped [.key "f", .branch 0]) [0])]) := by
      have away : ("f" = "b") = False := by decide
      have before : ("b" < "f") = True := by decide
      simp only [Value.merge, Value.mergeMembers, findMember?, insertMember, away, before, if_true,
        if_false, Option.bind_eq_bind, Option.bind_some, Option.map_some]
    show (some (intersect [] (.ok (.object [("f", call (.wrapped [.key "f", .branch 0]) [0])]))
      (.ok (.object [("b", .bool true)])))).map _ = _
    rw [intersect, merged]
    rfl
  have refused : both.parse (fun _ => none) 3 [] (.object [("b", .null), ("x", .null)]) =
      some (.error ⟨⟨[.key "f"], .unexpectedKind "function" "undefined"⟩,
        [⟨[.key "b"], .unexpectedKind "boolean" "null"⟩]⟩) := rfl
  refine ⟨accepted, ?_, ?_⟩
  · have given : Value.SupportedBy (Identity.Outside [])
        (.object [("b", .bool true), ("f", call (.made 0) [])]) := by
      intro ρ keeps
      have kept : ρ.apply (.made 0) = .made 0 := keeps _ trivial
      simp only [call, Value.rename, Value.renameMembers, kept]
    obtain ⟨ρ, -, on_left, -, same⟩ :=
      parse_intersection_objects (i := 5) (j := 3) (k := 4) (l := 6) apart supported given
    have here : ρ.apply (.wrapped [.key "f", .branch 0]) = .wrapped [.key "f"] :=
      on_left _ (List.mem_singleton.mpr rfl) []
    rw [(same 2).2 _ rfl, accepted]
    simp only [Option.map_some, Except.map, call, Value.rename, Value.renameMembers, here]
  · have given : Value.SupportedBy (Identity.Outside [])
        (.object [("b", .null), ("x", .null)]) := fun ρ keeps => rfl
    obtain ⟨ρ, -, -, -, same⟩ :=
      parse_intersection_objects (i := 5) (j := 3) (k := 4) (l := 6) apart supported given
    rw [(same 2).2 _ rfl, refused]
    rfl

end Schema

end SchemaSampler
