import SchemaSampler.Proofs.Parse.Decisions
import SchemaSampler.Proofs.Strategy.Accepted

namespace SchemaSampler

/-!
# Defaults — absent inputs and what stands in for them

A schema with a default draws the absent value along with the inputs of its inner schema, and it
tests the declared value in place of the absent one.  Nothing compares the two, so absent inputs
are accepted exactly if the inner schema accepts the declared value
(`Compiler.inputOf_default_accepted_iff`).

* `Schema.defers_absent`, `Schema.defers_present` — which test of the inner schema a test comes to.
* `Config.exists_absent_drawn` — where absence has a weight, some choices draw the absent value.
* `Compiler.exists_absent_refused` — a declared text that is too short has its absent input refused.
-/

open Draw Parsed

variable {config : Config} {cell : Cell} {around : Surroundings} {definitions : Definitions}
  {site : Site} {id : SchemaId} {inner : Schema} {strategy : Strategy} {v value : Value}

namespace Schema

/-! ### Tests of schemas with defaults -/

/-- The absent value is tested as the declared one. -/
theorem defers_absent :
    Defers definitions site (.node id (.default inner value)) .undefined inner value :=
  fun _ => rfl

/-- All other values are tested as themselves. -/
theorem defers_present (present : v ≠ .undefined) :
    Defers definitions site (.node id (.default inner value)) v inner v := by
  intro depth
  cases v <;> first | rfl | exact absurd rfl present

end Schema

/-! ### Draws of the absent value -/

/-- Where absence has a weight, some choices make each draw one of the absent value. -/
theorem Config.exists_absent_drawn {present : Strategy} {absent : Value}
    (weight : config.absentWeight ≠ 0) (around : Surroundings) :
    ∃ choices : Choices, ∀ p,
      ((config.withAbsent present absent).draw.run { around with choices } p).1 = .ok absent := by
  -- The first ticket that does not fall to the present values.
  let choices : Choices := fun _ last =>
    ⟨min config.presentWeight last, Nat.lt_succ_of_le (Nat.min_le_right _ _)⟩
  refine ⟨choices, fun p => ?_⟩
  rw [withAbsent, if_neg weight]
  -- The answer is in range, since absence has a weight.
  have ticket : min config.presentWeight (config.presentWeight + (config.absentWeight + 0) - 1) =
      config.presentWeight := by
    omega
  have drawn : Strategy.drawAt [(config.presentWeight, present), (config.absentWeight, .just absent)]
      config.presentWeight = (Strategy.just absent).draw := by
    rw [Strategy.drawAt, if_neg (Nat.lt_irrefl _), Nat.sub_self, Strategy.drawAt,
      if_pos (Nat.pos_of_ne_zero weight)]
  show ((Strategy.drawAt _ (min config.presentWeight
    (config.presentWeight + (config.absentWeight + 0) - 1))).run _ _).1 = _
  rw [ticket, drawn]
  rfl

namespace Compiler

/-- **Absent inputs are accepted exactly if the default is.** Around an inner schema whose own inputs
    are accepted, a compiler without overrides draws for a schema with a default, besides the absent
    value, only values that the schema accepts.  It draws the absent value for some choices unless
    absence has no weight, and the schema accepts that value exactly if the inner schema accepts the
    declared one at the same place. -/
theorem inputOf_default_accepted_iff
    (compiled : ((withConfig config).inputOf (.node id (.default inner value)) cell).outcome =
      .ok strategy)
    (regular : inner.Everywhere (Shape.Regular around.definitions))
    (distinct : inner.Everywhere Shape.DistinctNames)
    (fresh : (Schema.node id (.default inner value)).FreshAt around.definitions site) :
    let s : Schema := .node id (.default inner value)
    (∀ p v, (strategy.draw.run around p).1 = .ok v →
      (s.NeverRefuses around.definitions site v ↔
        (v = .undefined → inner.NeverRefuses around.definitions site value)) ∧
      (inner.Everywhere (Shape.Conclusive around.definitions) →
        (s.AcceptsAt around.definitions site v ↔
          (v = .undefined → inner.AcceptsAt around.definitions site value)))) ∧
    (config.absentWeight ≠ 0 → ∃ choices : Choices, ∀ p,
      (strategy.draw.run { around with choices } p).1 = .ok .undefined) := by
  intro s
  obtain ⟨source, ⟨k, -, compiles⟩, rfl⟩ : ∃ source,
      inner.CompilesBelow config Resolver.empty cell source ∧
        strategy = config.withAbsent source .undefined := by
    cases (Schema.CompilesIn.of_inputOf compiled).assembles with
    | default below => exact ⟨_, below, rfl⟩
  have yields : (config.withAbsent source .undefined).draw.Yields around fun v =>
      v ≠ .undefined → inner.Suits around.definitions v :=
    yields_withAbsent ((compiles.yields_suits regular distinct).imp fun v suits _ => suits)
      fun present => absurd rfl present
  refine ⟨fun p v drawn => ?_, fun weight => Config.exists_absent_drawn weight around⟩
  by_cases undefined : v = .undefined
  · subst undefined
    have absent : Schema.Defers around.definitions site s .undefined inner value :=
      Schema.defers_absent
    simp only [true_implies]
    exact ⟨absent.neverRefuses_iff, fun _ => absent.acceptsAt_iff⟩
  · -- A present value is tested by the inner schema, and it was drawn for that one.
    have present : Schema.Defers around.definitions site s v inner v :=
      Schema.defers_present undefined
    have never : inner.NeverRefuses around.definitions site v :=
      (yields p v drawn undefined).neverRefuses (fresh.child (by simp [Shape.children]))
    refine ⟨iff_of_true (present.neverRefuses_iff.mpr never) fun same => absurd same undefined, ?_⟩
    intro conclusive
    have accepted := never.acceptsAt (compiles.ends conclusive)
    exact iff_of_true (present.acceptsAt_iff.mpr accepted) fun same => absurd same undefined

/-- An absent array is accepted, since the declared one is not too short. -/
theorem inputOf_default_accepted_array :
    let array : Schema := .node 1 (.array (.node 0 .boolean) ⟨some 1, some 2⟩)
    let s : Schema := .node 2 (.default array (.array [.bool true]))
    let around : Surroundings := ⟨fun _ _ => 0, fun _ => none, 0, 0⟩
    ∃ strategy, ((withConfig .standard).inputOf s []).outcome = .ok strategy ∧
      (∃ choices : Choices, ∀ p,
        (strategy.draw.run { around with choices } p).1 = .ok .undefined) ∧
      (∀ p v, (strategy.draw.run around p).1 = .ok v →
        s.AcceptsAt around.definitions [.branch 0] v) := by
  intro array s around
  have everywhere : ∀ P : Shape Schema → Prop, P array.shape → P .boolean →
      array.Everywhere P := by
    intro P top bottom
    refine .node 1 top fun t child => ?_
    obtain rfl := List.mem_singleton.mp child
    exact .node 0 bottom fun t child => absurd child List.not_mem_nil
  have fresh : s.FreshAt around.definitions [.branch 0] := by
    refine ⟨⟨by simp, by simp⟩, Schema.Everywhere.throughout ?_ (by simp [around])⟩
    refine .node 2 (fun _ _ => rfl) fun t child => ?_
    obtain rfl := List.mem_singleton.mp child
    exact everywhere _ trivial trivial
  have compiled : ((withConfig .standard).inputOf s []).outcome = .ok _ := rfl
  obtain ⟨decides, absent⟩ := inputOf_default_accepted_iff compiled
    (everywhere _ trivial trivial) (everywhere _ trivial trivial) fresh
  refine ⟨_, rfl, absent (by decide), fun p v drawn => ?_⟩
  refine ((decides p v drawn).2 (everywhere _ trivial trivial)).mpr fun _ => ⟨2, _, rfl⟩

/-- A text that is too short as a default: the absent value is drawn, and it is refused by every
    test that comes to an end. -/
theorem exists_absent_refused :
    let s : Schema := .node 1 (.default (.node 0 (.string [.minLength 3])) (.string "x"))
    let around : Surroundings := ⟨fun _ _ => 2, fun _ => none, 0, 0⟩
    ∃ strategy, ((withConfig .standard).inputOf s []).outcome = .ok strategy ∧
      (strategy.draw.run around (.start 0)).1 = .ok .undefined ∧
      ∀ depth, s.parse around.definitions (depth + 2) [.branch 0] .undefined =
        some (.error ⟨⟨[], .shorterThan 3⟩, []⟩) := by
  intro s around
  exact ⟨_, rfl, rfl, fun _ => rfl⟩

end Compiler

end SchemaSampler
