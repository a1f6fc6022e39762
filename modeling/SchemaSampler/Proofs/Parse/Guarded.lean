import Mathlib.Data.Set.Finite.Lattice
import Mathlib.Logic.Relation
import Mathlib.Order.Filter.AtTopBot.Basic
import Mathlib.Order.Filter.Finite
import Mathlib.Order.RelClasses
import SchemaSampler.Proofs.Parse.Termination
import SchemaSampler.Proofs.Value.Members

namespace SchemaSampler

/-!
# Guarded recursion — schemas that refer to themselves from further inside

A schema may refer to itself through a lazy node.  Its tests end all the same if every way back to
it leads into a part of the value at least once: values are finite, and between two steps into them
only finitely many schemas can take turns.

* `Shape.Consults.inward` — a test consults inner schemas about smaller values, or else about the
  same value along an edge that is not guarded.
* `Schema.finite_reaches` — finitely many definitions reach finitely many schemas.
* `Schema.Guarded` — no cycle of references stays at the same value.
* `Schema.ends_of_guarded` — the tests against such a schema end.
-/

/-- A shape that asks its inner schemas about the value it tests or about parts of it, and not about
    a value that it comes to by itself. -/
def Shape.Direct {σ : Type} : Shape σ → Prop
  | .default _ _ | .pipeline _ _ | .effects _ (.preprocess _) => False
  | _ => True

/-- A shape that asks its inner schemas about parts of the value only.  Those of a function are
    asked about its calls. -/
def Shape.Inward {σ : Type} : Shape σ → Prop
  | .array _ _ | .set _ _ | .object _ _ | .tuple _ _ | .record _ _ | .map _ _ | .promise _
  | .function _ _ => True
  | _ => False

/-! ### Smaller values -/

theorem sizeOf_fieldInput_lt (input : List (String × Value)) (name : String) :
    sizeOf (fieldInput input name) < sizeOf (Value.object input) := by
  unfold fieldInput
  cases found : findMember? name input with
  | none =>
    -- the absent value is as small as a value can be
    have absent : sizeOf Value.undefined = 1 := Value.undefined.sizeOf_spec
    have whole : sizeOf (Value.object input) = 1 + sizeOf input := Value.object.sizeOf_spec input
    have inside : 1 ≤ sizeOf input := by
      cases input with
      | nil => exact Nat.le_refl 1
      | cons m rest =>
        show 1 ≤ 1 + sizeOf m + sizeOf rest
        omega
    show sizeOf Value.undefined < _
    omega
  | some v =>
    have member := List.sizeOf_lt_of_mem (mem_of_findMember? found)
    simp only [Prod.mk.sizeOf_spec] at member
    simp only [Option.getD_some, Value.object.sizeOf_spec]
    omega

/-- Inner schemas are asked about smaller values, unless the shape hands on the value itself. -/
theorem Shape.Consults.inward {definitions : Definitions} {shape : Shape Schema} {v u : Value}
    {t : Schema} (h : shape.Consults definitions v t u) (direct : shape.Direct) :
    sizeOf u < sizeOf v ∨ u = v ∧ ¬ shape.Inward := by
  cases h
  -- the parts of a collection are smaller than the collection
  case item member | element member | slot member =>
    have smaller := List.sizeOf_lt_of_mem member
    left
    simp
    omega
  case field => exact .inl (sizeOf_fieldInput_lt _ _)
  case recordKey m member | recordValue m member | mapKey m member | mapValue m member =>
    obtain ⟨key, value⟩ := m
    have smaller := List.sizeOf_lt_of_mem member
    left
    simp at smaller ⊢
    omega
  case settled => simp
  -- these hand on values that are not made of the value at all
  case default | prepared | first | second => exact direct.elim
  all_goals exact .inr ⟨rfl, id⟩

/-! ### Finitely many schemas -/

namespace Schema

variable {definitions : Definitions} {s : Schema}

/-- What a node reaches through inner schemas only is itself or reached by one of them. -/
theorem Reaches.inside {id : SchemaId} {shape : Shape Schema} {t : Schema}
    (h : Reaches (fun _ => none) (.node id shape) t) :
    t = .node id shape ∨ ∃ inner ∈ shape.children, Reaches (fun _ => none) inner t := by
  induction h with
  | self => exact .inl rfl
  | @child id' shape' t' _ child ih =>
    right
    rcases ih with same | ⟨inner, member, reached⟩
    · cases same
      exact ⟨t', child, .self⟩
    · exact ⟨inner, member, .child reached child⟩
  | definition _ named => cases named

/-- A schema has finitely many nodes. -/
theorem finite_inside (s : Schema) : {t | Reaches (fun _ => none) s t}.Finite := by
  induction s using Schema.induction with
  | node id shape ih =>
    have bounded : {t | Reaches (fun _ => none) (.node id shape) t} ⊆
        {.node id shape} ∪
          ⋃ inner ∈ {t | t ∈ shape.children}, {t | Reaches (fun _ => none) inner t} := by
      intro t reached
      rcases Reaches.inside reached with rfl | ⟨inner, member, further⟩
      · exact .inl rfl
      · exact .inr (Set.mem_biUnion member further)
    exact ((Set.finite_singleton _).union
      ((List.finite_toSet shape.children).biUnion ih)).subset bounded

/-- Finitely many definitions reach finitely many schemas: the nodes of the schema itself and those
    of the definitions. -/
theorem finite_reaches (finite : {name | (definitions name).isSome}.Finite) (s : Schema) :
    {t | s.Reaches definitions t}.Finite := by
  have bounded : {t | s.Reaches definitions t} ⊆ {t | Reaches (fun _ => none) s t} ∪
      ⋃ name ∈ {name | (definitions name).isSome},
        ⋃ root ∈ {root | root ∈ definitions name}, {t | Reaches (fun _ => none) root t} := by
    intro t reached
    induction reached with
    | self => exact .inl .self
    | child _ child ih =>
      -- an inner schema belongs to the same root as the node that it is in
      rcases ih with inside | inside
      · exact .inl (.child inside child)
      · simp only [Set.mem_iUnion] at inside
        obtain ⟨name, named, root, isRoot, further⟩ := inside
        exact .inr (Set.mem_biUnion named (Set.mem_biUnion isRoot (.child further child)))
    | @definition _ name t _ named _ =>
      exact .inr (Set.mem_biUnion (show (definitions name).isSome by rw [named]; rfl)
        (Set.mem_biUnion (show t ∈ definitions name from named) .self))
  refine ((finite_inside s).union (finite.biUnion fun name _ => ?_)).subset bounded
  refine Set.Finite.biUnion ?_ fun root _ => finite_inside root
  exact (definitions name).toList.finite_toSet.subset fun root h => Option.mem_toList.mpr h

/-! ### Cycles -/

/-- A schema asks another one about the very value that it is asked about. -/
def Stays (definitions : Definitions) (s t : Schema) : Prop :=
  ¬ s.shape.Inward ∧ s.shape.Asks definitions t

/-- **No cycle of references stays at the same value**: on each there is a step into a part. -/
def Guarded (definitions : Definitions) (s : Schema) : Prop :=
  ∀ t, s.Reaches definitions t → ¬ Relation.TransGen (Stays definitions) t t

theorem Reaches.asked {t u : Schema} (h : s.Reaches definitions t)
    (asked : t.shape.Asks definitions u) : s.Reaches definitions u := by
  obtain ⟨id, shape⟩ := t
  rcases asked with child | ⟨name, lazily, named⟩
  · exact .child h child
  · cases lazily
    exact .definition h named

/-- Steps that stay at the same value cannot go on for ever if only finitely many schemas can be
    reached and no cycle stays there. -/
theorem Guarded.wellFounded (guarded : s.Guarded definitions)
    (finite : {name | (definitions name).isSome}.Finite) :
    WellFounded fun t u : {t // s.Reaches definitions t} => Stays definitions u.1 t.1 := by
  have : Finite {t // s.Reaches definitions t} := finite_reaches finite s
  -- a transitive relation on a finite type is well-founded if nothing is below itself
  let below : {t // s.Reaches definitions t} → {t // s.Reaches definitions t} → Prop :=
    fun t u => Relation.TransGen (Stays definitions) u.1 t.1
  have : IsTrans _ below := ⟨fun _ _ _ first second => second.trans first⟩
  have : Std.Irrefl below := ⟨fun t => guarded t.1 t.2⟩
  exact Subrelation.wf (fun step => .single step) (Finite.wellFounded_of_trans_of_irrefl below)

/-- Schemas are guarded if they can be ranked so that no step at the same value goes up or stays
    level. -/
theorem guarded_of_rank (rank : Schema → Nat) (lower : ∀ t u, s.Reaches definitions t →
    Stays definitions t u → rank u < rank t) : s.Guarded definitions := by
  have descends : ∀ t u, s.Reaches definitions t → Relation.TransGen (Stays definitions) t u →
      s.Reaches definitions u ∧ rank u < rank t := by
    intro t u reached steps
    induction steps with
    | single step => exact ⟨reached.asked step.2, lower _ _ reached step⟩
    | tail _ step ih =>
      exact ⟨ih.1.asked step.2, (lower _ _ ih.1 step).trans ih.2⟩
  intro t reached cycle
  exact lt_irrefl _ (descends t t reached cycle).2

section Guarded

variable {m : Type → Type} [Monad m] [Aborts m] {R : ∀ α : Type, m α → m α → Prop}
  {run : Nat → Recur m}

/-- A test at any depth is one level of tests at the depth below. -/
def RunsLevels (definitions : Definitions) (run : Nat → Recur m) : Prop :=
  ∀ depth site t v, run (depth + 1) site t v = t.shape.step definitions (run depth) site t.id v

/-- What holds of a level above all great depths holds at all great depths. -/
theorem eventually_of_level {Q : Nat → Prop} (h : ∀ᶠ depth in Filter.atTop, Q (depth + 1)) :
    ∀ᶠ depth in Filter.atTop, Q depth := by
  obtain ⟨least, above⟩ := Filter.eventually_atTop.mp h
  refine Filter.eventually_atTop.mpr ⟨least + 1, fun depth le => ?_⟩
  obtain ⟨depth, rfl⟩ := Nat.exists_eq_add_of_le' (Nat.one_le_of_lt le)
  exact above depth (by omega)

/-- **At great depths a guarded test has** what a level passes on to the tests that it consults, and
    it does so at the same depths for all values up to a size. -/
theorem Guarded.eventually [LawfulMonad m] (composes : Composes R) (levels : RunsLevels definitions run)
    (finite : {name | (definitions name).isSome}.Finite)
    (direct : s.Throughout definitions Shape.Direct) (guarded : s.Guarded definitions)
    (breaks : s.Throughout definitions fun shape =>
      shape.OverflowFree ∨ R Parsed Aborts.abort Aborts.abort) (size : Nat) :
    ∀ᶠ depth in Filter.atTop, ∀ t : {t // s.Reaches definitions t}, ∀ v, sizeOf v < size →
      ∀ site, R _ (run depth site t.1 v) (run depth site t.1 v) := by
  have : Finite {t // s.Reaches definitions t} := finite_reaches finite s
  induction size with
  | zero => exact .of_forall fun _ _ _ small => absurd small (Nat.not_lt_zero _)
  | succ size smaller =>
    rw [Filter.eventually_all]
    intro t
    -- among the values of one size, by the steps that stay at the value
    induction t using (guarded.wellFounded finite).induction with
    | _ t lower =>
      have lower : ∀ᶠ depth in Filter.atTop, ∀ u : {t // s.Reaches definitions t},
          Stays definitions t.1 u.1 → ∀ v, sizeOf v < size + 1 → ∀ site,
            R _ (run depth site u.1 v) (run depth site u.1 v) := by
        rw [Filter.eventually_all]
        exact fun u => Filter.eventually_imp_distrib_left.mpr (lower u)
      refine eventually_of_level ?_
      filter_upwards [smaller, lower] with depth smaller lower v small site
      obtain ⟨⟨id, shape⟩, reached⟩ := t
      rw [levels]
      refine composes.step (breaks id shape reached) fun t u consults site => ?_
      have inside : s.Reaches definitions t := reached.asked consults.asks
      -- each test further in is of a smaller value or one step lower at the same value
      rcases consults.inward (direct id shape reached) with less | ⟨rfl, stays⟩
      · exact smaller ⟨t, inside⟩ u (by omega) site
      · exact lower ⟨t, inside⟩ ⟨stays, consults.asks⟩ u small site

/-- At some depth a guarded test has what a level passes on. -/
theorem Guarded.exists_depth [LawfulMonad m] (composes : Composes R)
    (levels : RunsLevels definitions run) (finite : {name | (definitions name).isSome}.Finite)
    (direct : s.Throughout definitions Shape.Direct) (guarded : s.Guarded definitions)
    (breaks : s.Throughout definitions fun shape =>
      shape.OverflowFree ∨ R Parsed Aborts.abort Aborts.abort) (site : Site) (v : Value) :
    ∃ depth, R _ (run depth site s v) (run depth site s v) := by
  obtain ⟨depth, above⟩ := Filter.eventually_atTop.mp
    (guarded.eventually composes levels finite direct breaks (sizeOf v + 1))
  exact ⟨depth, above depth le_rfl ⟨s, .self⟩ v (Nat.lt_succ_self _) site⟩

end Guarded

/-- **Guarded recursion ends.** Among finitely many definitions, a schema ends the test of every
    value if all that it reaches ask about the value they test or about parts of it, and if every
    cycle of references leads into a part at least once.  The test ends with an outcome unless a
    remainder overflows in it. -/
theorem ends_of_guarded (finite : {name | (definitions name).isSome}.Finite)
    (direct : s.Throughout definitions Shape.Direct) (guarded : s.Guarded definitions) :
    s.Halts definitions ∧ (s.Throughout definitions Shape.OverflowFree → s.Ends definitions) := by
  refine ⟨guarded.exists_depth (composes_ne_halt .bound) (fun _ _ _ _ => rfl) finite direct
    fun _ _ _ => .inr nofun, fun overflowFree site v => ?_⟩
  have levels : RunsLevels definitions (parseWithin definitions) := fun _ _ _ _ => rfl
  obtain ⟨depth, returns⟩ := guarded.exists_depth composes_hasResult levels finite direct
    (fun id shape reached => .inl (overflowFree id shape reached)) site v
  exact ⟨depth, Option.isSome_iff_exists.mp returns⟩

/-- A list is none or an object with another list as its member `next`: it comes back to itself
    through the member only. -/
theorem ends_of_guarded_list :
    let tail : Schema := .node 1 (.lazy "list")
    let cell : Schema := .node 2 (.object [("next", tail)] .strip)
    let list : Schema := .node 3 (.union [.node 0 .null, cell])
    let definitions : Definitions := fun name => if name = "list" then some list else none
    tail.Ends definitions := by
  intro tail cell list definitions
  have named : ∀ name t, definitions name = some t → t = list := by
    intro name t h
    by_cases same : name = "list"
    · exact (Option.some.inj ((if_pos same).symm.trans h)).symm
    · exact absurd ((if_neg same).symm.trans h) (by simp)
  have reached : ∀ t, tail.Reaches definitions t →
      t = tail ∨ t = list ∨ t = .node 0 .null ∨ t = cell := by
    intro t ht
    induction ht with
    | self => exact .inl rfl
    | @child _ shape _ _ child ih =>
      rcases ih with same | same | same | same <;>
        obtain rfl : shape = _ := congrArg Schema.shape same
      · exact absurd child List.not_mem_nil
      · exact .inr (.inr (List.mem_pair.mp child))
      · exact absurd child List.not_mem_nil
      · exact .inl (List.mem_singleton.mp child)
    | definition _ h _ => exact .inr (.inl (named _ _ h))
  let rank : Schema → Nat := fun t =>
    match t.shape with
    | .lazy _ => 2
    | .union _ => 1
    | _ => 0
  have shapes : ∀ id shape, tail.Reaches definitions (.node id shape) →
      shape.Direct ∧ shape.OverflowFree := by
    intro id shape ht
    rcases reached _ ht with same | same | same | same <;>
      obtain rfl : shape = _ := congrArg Schema.shape same <;> exact ⟨trivial, trivial⟩
  refine (ends_of_guarded ?_ (fun id shape ht => (shapes id shape ht).1)
    (guarded_of_rank rank ?_)).2 fun id shape ht => (shapes id shape ht).2
  · refine (Set.finite_singleton "list").subset fun name h => ?_
    by_contra other
    exact absurd h (by simp [definitions, show name ≠ "list" from other])
  · rintro t u ht ⟨stays, asked⟩
    rcases reached t ht with rfl | rfl | rfl | rfl
    · rcases asked with child | ⟨name, _, h⟩
      · exact absurd child List.not_mem_nil
      · rw [named _ _ h]
        decide
    · rcases asked with child | ⟨name, lazily, _⟩
      · rcases List.mem_pair.mp child with rfl | rfl <;> decide
      · cases lazily
    · rcases asked with child | ⟨name, lazily, _⟩
      · exact absurd child List.not_mem_nil
      · cases lazily
    · exact absurd trivial stays

/-- A definition that only names itself never ends a test: the guard is needed. -/
theorem not_ends_of_self {name : String} {id : SchemaId} (v : Value)
    (named : definitions name = some (.node id (.lazy name))) (depth : Nat) (site : Site) :
    parseWithin definitions depth site (.node id (.lazy name)) v = none := by
  induction depth with
  | zero => rfl
  | succ depth ih =>
    show (Shape.lazy name).step definitions _ site id v = none
    simp only [Shape.step, named, ih]

end Schema

end SchemaSampler
