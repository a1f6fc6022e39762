import SchemaSampler.Proofs.Strategy.Factories

namespace SchemaSampler

/-!
# Unrolling — how deep calls of factories nest

Where no factory derives a compiler, all compilations are those of one compiler, and whether an
overridden node comes to an end is decided by the other overridden nodes.

* `Compiler.stops_unrolled` — as many calls as there are registrations are enough: what has no reason
  of its own to stop by then comes back to itself.
* `Compiler.strategyOf_unrolled` — so nesting calls any deeper compiles to the same.
-/

open Compiled

/-! ### Bounds that are enough -/

/-- A recipe has schemas compiled by the compiler that asks for the strategy only, and registers
    nothing. -/
inductive Recipe.Plain {O : Type} : {built : Nat} → Recipe O built → Prop where
  | give {built : Nat} (assemble : Vector Strategy built → Strategy) :
      Plain (.give assemble : Recipe O built)
  | stop {built : Nat} (reason : Stop) : Plain (.stop reason : Recipe O built)
  | inspect {built : Nat} {next : Config → Nat → Recipe O built}
      (h : ∀ config overridden, (next config overridden).Plain) : Plain (.inspect next)
  | compile {built : Nat} {mode : Mode} {schema : Schema} {next : Recipe O (built + 1)}
      {otherwise : Failure → Recipe O built} (h : next.Plain)
      (h' : ∀ failure, (otherwise failure).Plain) :
      Plain (.compile none [] mode schema next otherwise)

/-- A factory that has one schema compiled in the place of another derives no compiler. -/
theorem Recipe.plain_forward {O : Type} (schema : Schema) (mode : Mode) :
    (Recipe.forward schema mode : Recipe O 0).Plain :=
  .compile (.give _) fun _ => .stop _

/-- Where a plain recipe stops depends on the compilations of its own compiler. -/
theorem Recipe.Plain.stop?_congr {c : Compiler} {reasons reasons' : Compiler → Schema → Option Stop}
    (same : reasons c = reasons' c) {built : Nat} {recipe : Recipe Override built}
    (plain : recipe.Plain) : recipe.stop? c reasons = recipe.stop? c reasons' := by
  induction plain with
  | give assemble => rfl
  | stop reason => rfl
  | inspect _ ih => exact ih _ _
  | @compile built mode schema next otherwise _ _ ih ih' =>
    have itself : c.derive none [] = c := rfl
    rw [Recipe.stop?, Recipe.stop?, itself, same]
    rcases reasons' c schema with _ | _ | _ | _
    · exact ih
    · exact ih' _
    · rfl
    · rfl

/-- A reason stays as it is, unless it only is that calls are nested too deep. -/
def Stop.Kept (reason reason' : Option Stop) : Prop := reason = some .endless ∨ reason = reason'

theorem Compiled.Kept.stop? {α : Type} {x x' : Compiled α} (h : x.Kept x') :
    Stop.Kept x.stop? x'.stop? :=
  h.imp stop?_eq_some_iff.mpr (congrArg _)

namespace Compiler

variable {c : Compiler} {mode : Mode} {s : Schema} {cell : Cell}

/-- No factory of a compiler derives another one. -/
def Plain (c : Compiler) : Prop :=
  ∀ id recipe, c.overrides.resolve? id = some (.factory recipe) → recipe.Plain

/-- Why overridden nodes give no strategy, with calls nested at most so deep. -/
def stops (c : Compiler) (calls : Nat) : SchemaId → Option Stop := c.reasons (stop? calls)

/-- With one call more, a reason only changes if it was that calls are nested too deep. -/
theorem stops_kept (calls : Nat) (id : SchemaId) :
    Stop.Kept (c.stops calls id) (c.stops (calls + 1) id) := by
  unfold stops reasons
  cases c.overrides.resolve? id with
  | none => exact .inr rfl
  | some replacement =>
    cases replacement with
    | ready strategy => exact .inr rfl
    | factory recipe =>
      have followed : ∀ n, (recipe.follow c (compile n) [] 0 #v[]).stop? =
          recipe.stop? c (stop? n) := fun n => recipe.stop?_follow (stop?_compile n) 0 #v[]
      show Stop.Kept (recipe.stop? c _) (recipe.stop? c _)
      rw [← followed, ← followed]
      exact (recipe.follow_kept (compile_kept calls) 0 #v[]).stop?

/-- Reasons that one call more does not change are the same with all further calls. -/
theorem stops_of_le (plain : c.Plain) {calls deeper : Nat}
    (h : c.stops (calls + 1) = c.stops calls) (le : calls ≤ deeper) :
    c.stops deeper = c.stops calls := by
  have next : ∀ n, c.stops n = c.stops calls → c.stops (n + 1) = c.stops (calls + 1) := by
    intro n same
    have compiled : stop? (n + 1) c = stop? (calls + 1) c := by
      funext s
      show (c.faultOrder s).findSome? (Visit.stopBy? _ _ (c.stops n)) =
        (c.faultOrder s).findSome? (Visit.stopBy? _ _ (c.stops calls))
      rw [same]
    funext id
    unfold stops reasons
    cases registered : c.overrides.resolve? id with
    | none => rfl
    | some replacement =>
      cases replacement with
      | ready strategy => rfl
      | factory recipe => exact (plain id recipe registered).stop?_congr compiled
  induction deeper, le using Nat.le_induction with
  | base => rfl
  | succ _ _ ih => exact (next _ ih).trans h

/-- The nodes whose factories have calls nested too deep. -/
noncomputable def endless (c : Compiler) (calls : Nat) : Finset SchemaId := by
  classical
  exact (c.overrides.entries.map Prod.fst).toFinset.filter fun id =>
    c.stops calls id = some .endless

theorem mem_endless {calls : Nat} {id : SchemaId} :
    id ∈ c.endless calls ↔ c.stops calls id = some .endless := by
  classical
  rw [endless, Finset.mem_filter]
  refine ⟨And.right, fun h => ⟨?_, h⟩⟩
  -- a node without a registration has no reason to stop
  obtain ⟨replacement, registered, -⟩ := Option.bind_eq_some_iff.mp h
  obtain ⟨entry, found, rfl⟩ := Option.map_eq_some_iff.mp registered
  have same : entry.1 = id := by simpa using List.find?_some found
  rw [List.mem_toFinset, ← same]
  exact List.mem_map_of_mem (List.mem_of_find?_eq_some found)

theorem endless_succ_subset (calls : Nat) : c.endless (calls + 1) ⊆ c.endless calls := by
  intro id h
  rw [mem_endless] at h ⊢
  rcases stops_kept (c := c) calls id with endless | same
  · exact endless
  · rw [same, h]

/-- If no further node turns out to have a reason of its own, all reasons are as before. -/
theorem stops_eq_of_endless_eq {calls : Nat} (h : c.endless (calls + 1) = c.endless calls) :
    c.stops (calls + 1) = c.stops calls := by
  funext id
  rcases stops_kept (c := c) calls id with endless | same
  · have still : id ∈ c.endless (calls + 1) := h ▸ mem_endless.mpr endless
    rw [mem_endless.mp still, endless]
  · exact same.symm

/-- **As many calls as there are registrations are enough.** With each further call that still makes
    a difference, a registered node comes to have a reason of its own. -/
theorem stops_unrolled (plain : c.Plain) {calls : Nat}
    (enough : c.overrides.entries.length ≤ calls) :
    c.stops calls = c.stops c.overrides.entries.length := by
  set bound := c.overrides.entries.length with hbound
  have settled : ∃ n ≤ bound, c.stops (n + 1) = c.stops n := by
    by_contra unsettled
    push Not at unsettled
    -- every call up to the bound would take a node away from the endless ones
    have fewer : ∀ n ≤ bound + 1, (c.endless n).card + n ≤ (c.endless 0).card := by
      intro n
      induction n with
      | zero => exact fun _ => le_refl _
      | succ n ih =>
        intro le
        have strict : c.endless (n + 1) ⊂ c.endless n := by
          refine (endless_succ_subset n).ssubset_of_ne fun same => ?_
          exact unsettled n (by omega) (stops_eq_of_endless_eq same)
        have less := Finset.card_lt_card strict
        have before := ih (by omega)
        omega
    have all : (c.endless 0).card ≤ bound := by
      classical
      unfold endless
      refine (Finset.card_filter_le _ _).trans ((List.toFinset_card_le _).trans ?_)
      rw [List.length_map]
    have none := fewer (bound + 1) (le_refl _)
    omega
  obtain ⟨n, le, same⟩ := settled
  rw [stops_of_le plain same (le.trans enough), stops_of_le plain same le]

/-- **Nesting calls deeper than there are registrations changes nothing** if no factory derives a
    compiler: what has not come to a strategy or a failure by then never does. -/
theorem strategyOf_unrolled (plain : c.Plain) {calls : Nat}
    (enough : c.overrides.entries.length ≤ calls) :
    (c.compile (calls + 1) mode s cell).outcome = (c.strategyOf mode s cell).outcome := by
  by_cases ends : (c.strategyOf mode s cell).outcome = .error .endless
  · -- calls nested too deep for this bound are nested too deep for all greater ones
    rw [ends, ← stop?_eq_some_iff, stop?_compile]
    rw [strategyOf, ← stop?_eq_some_iff, stop?_compile] at ends
    rw [← ends]
    show (c.faultOrder s).findSome? (Visit.stopBy? _ _ (c.stops calls)) =
      (c.faultOrder s).findSome? (Visit.stopBy? _ _ (c.stops c.overrides.entries.length))
    rw [stops_unrolled plain enough]
  · rw [compile_of_le ends (Nat.succ_le_succ enough), strategyOf]

end Compiler

end SchemaSampler
