import SchemaSampler.Proofs.Parse.Calls
import SchemaSampler.Proofs.Strategy.Accepted

namespace SchemaSampler

/-!
# Calls of drawn functions

A function that is drawn for a function schema returns the value that was drawn along with it for
the return schema.  Once the function schema has wrapped it, every call tests the arguments, which
the function then ignores, and tests that value against the return schema, which it suits.

* `Context.returns_constant_iff` — what a guarded function with one result returns.
* `Schema.FreshAt.makes_alike` — tests of one value at different places come to one result, but for
  the identities of the functions that they wrap.
-/

open Parsed

namespace Context

variable {ctx : Context} {site : Site} {guard : SchemaId} {identity : Identity}
  {schemas : List Schema} {result : Schema} {args : List Value} {v w : Value}

/-- A guard lets the arguments of a call through: there are as many as it declares, and its argument
    schemas accept them one by one. -/
structure Admits (ctx : Context) (site : Site) (schemas : List Schema) (args : List Value) :
    Prop where
  /-- The number of arguments is right. -/
  arity : args.length = schemas.length
  /-- Each schema accepts its argument. -/
  each : ∀ t ∈ (schemas.zip args).zipIdx 2, ∃ w, ctx.Makes (.branch t.2 :: site) t.1.1 t.1.2 w

/-- A function with one result and one guard returns what the result schema makes of the result. -/
theorem returns_constant_iff (signed : ctx.signature guard = some (schemas, result))
    (admitted : ctx.Admits site schemas args) :
    ctx.Returns site ⟨identity, .constant v, [guard]⟩ args w ↔
      ctx.Makes (.branch 1 :: site) result v w := by
  rw [returns_cons_iff signed]
  constructor
  · rintro ⟨_, _, returned, _, behaves, makes⟩
    cases returns_nil_iff.mp behaves
    exact makes
  · intro makes
    obtain ⟨parsed, accepted⟩ := exists_makesAll admitted.each
    exact ⟨admitted.arity, parsed, v, accepted, returns_nil_iff.mpr rfl, makes⟩

/-- Such a call is refused only if the result schema refuses the result. -/
theorem constant_not_refused (signed : ctx.signature guard = some (schemas, result))
    (admitted : ctx.Admits site schemas args)
    (fits : ∀ depth e, ctx.parse depth (.branch 1 :: site) result v ≠ some (.error e))
    (depth : Nat) (e : ParseError) :
    ctx.call depth site ⟨identity, .constant v, [guard]⟩ args ≠ some (.error e) := by
  obtain ⟨parsed, accepted⟩ := exists_makesAll admitted.each
  refine not_refused_cons signed admitted.arity accepted ?_ ?_ depth e
  · -- without a guard, a constant is never refused
    rintro _ _ _ ⟨⟩
  · rintro depth _ _ ⟨⟩ e
    exact fits depth e

end Context

namespace Schema

variable {ctx : Context} {site : Site} {s : Schema} {v : Value}

/-- A value that suits a schema is refused within no depth. -/
theorem Suits.not_refused (suits : s.Suits ctx.definitions v)
    (fresh : s.FreshAt ctx.definitions site) (depth : Nat) (e : ParseError) :
    ctx.parse depth site s v ≠ some (.error e) := by
  intro refused
  obtain ⟨out, within, same⟩ := Option.map_eq_some_iff.mp refused
  obtain ⟨w, rfl, _⟩ := suits.accepts site fresh depth out within
  cases same

/-- A test makes a value of another if it does within some depth. -/
theorem makes_iff {w : Value} : ctx.Makes site s v w ↔
    ∃ depth, parseWithin ctx.definitions depth site s v = some (.ok w) :=
  exists_congr fun _ => parse_eq_ok_iff

/-- **One result at all places.** What the test of a value makes of it at a fresh place is what the
    test of a trial makes of it, with other identities for those that are new. -/
theorem FreshAt.makes_alike (fresh : s.FreshAt ctx.definitions site)
    (supported : v.SupportedBy (Identity.Before site)) (cell : List Nat) (n : Nat) :
    ∃ ρ : Renaming, (∀ i, Identity.Before site i → ρ.apply i = i) ∧
      ∀ w, ctx.Makes site s v w ↔
        ∃ w₀, ctx.Makes [.trial cell n] s v w₀ ∧ w = w₀.rename ρ := by
  obtain ⟨ρ, keeps, alike⟩ := fresh.trial_alike supported cell n
  refine ⟨ρ, keeps, fun w => ?_⟩
  simp only [makes_iff, rel_alike_ok_iff (alike _)]
  constructor
  · rintro ⟨depth, w₀, returns, same⟩
    exact ⟨w₀, ⟨depth, returns⟩, same⟩
  · rintro ⟨w₀, ⟨depth, returns⟩, same⟩
    exact ⟨depth, w₀, returns, same⟩

end Schema

/-- A drawn function returns one value, which was drawn just before it was made. -/
theorem Strategy.draw_function {returns : Strategy} {around : Surroundings} {p : Progress}
    {g : Value} (drawn : ((Strategy.function returns).draw.run around p).1 = .ok g) :
    ∃ v serial, (returns.draw.run around p).1 = .ok v ∧
      g = .function ⟨.made serial, .constant v, []⟩ := by
  rw [Strategy.draw, Draw.run_bind] at drawn
  rcases result : returns.draw.run around p with ⟨_ | v, q⟩
  · rw [result] at drawn
    cases drawn
  · rw [result] at drawn
    cases drawn
    exact ⟨v, _, rfl, rfl⟩

namespace Compiler

open Bigint

variable {config : Config} {cell : Cell} {around : Surroundings} {ctx : Context} {id : SchemaId}
  {arguments : List Schema} {result : Schema} {strategy : Strategy} {p : Progress} {g : Value}

/-- **Calls of drawn functions.** A function that a compiler without overrides draws for a function
    schema is accepted by the schema.  Every call of what the schema makes of it, with arguments
    that are admitted, is refused at no depth and returns what the return schema makes of the value
    `v` that was drawn for it.  This is one value for all calls, that of a trial, but for identities
    that are new at the place of the call.  All calls come to an end if the tests against the second
    schemas of pipelines do, which have no part in drawing, and unless a remainder overflows. -/
theorem inputOf_function_returns
    (compiled : ((withConfig config).inputOf (.node id (.function arguments result)) cell).outcome =
      .ok strategy)
    (regular : result.Everywhere (Shape.Regular ctx.definitions))
    (distinct : result.Everywhere Shape.DistinctNames)
    (named : around.definitions = ctx.definitions)
    (signed : ctx.signature id = some (arguments, result))
    (drawn : (strategy.draw.run around p).1 = .ok g) :
    ∃ returns v serial, strategy = .function returns ∧ (returns.draw.run around p).1 = .ok v ∧
      g = .function ⟨.made serial, .constant v, []⟩ ∧
      ∀ place, ∃ g' : Callable Value,
        (∀ depth, (Schema.node id (.function arguments result)).parse ctx.definitions (depth + 1)
          place g = some (.ok (.function g'))) ∧
        ∀ site args, result.FreshAt ctx.definitions site → ctx.Admits site arguments args →
          (∀ depth e, ctx.call depth site g' args ≠ some (.error e)) ∧
          (∀ w, ctx.Returns site g' args w ↔ ctx.Makes (.branch 1 :: site) result v w) ∧
          (∃ ρ : Renaming, (∀ i, Identity.Before site i → ρ.apply i = i) ∧
            ∀ w, ctx.Returns site g' args w ↔
              ∃ w₀, ctx.Makes [.trial [] 0] result v w₀ ∧ w = w₀.rename ρ) ∧
          (result.Everywhere (Shape.Conclusive ctx.definitions) →
            ∃ w, ctx.Returns site g' args w) := by
  cases (Schema.CompilesIn.of_inputOf compiled).assembles with
  | @function _ _ returns inner =>
    obtain ⟨k, _, compiles⟩ := inner
    obtain ⟨v, serial, drawn_result, rfl⟩ := Strategy.draw_function drawn
    have suits : result.Suits ctx.definitions v := by
      rw [← named] at regular ⊢
      exact compiles.yields_suits regular distinct p v drawn_result
    refine ⟨returns, v, serial, rfl, drawn_result, rfl, fun place =>
      ⟨⟨.wrapped place, .constant v, [id]⟩, fun _ => rfl, fun site args fresh admitted => ?_⟩⟩
    -- the value is tested one branch further in, where the place is as fresh as that of the call
    have inside : result.FreshAt ctx.definitions (.branch 1 :: site) := fresh.branch 1
    obtain ⟨ρ, keeps, alike⟩ := inside.makes_alike (suits.supported inside) [] 0
    have law (w : Value) : ctx.Returns site ⟨.wrapped place, .constant v, [id]⟩ args w ↔
        ctx.Makes (.branch 1 :: site) result v w := Context.returns_constant_iff signed admitted
    refine ⟨Context.constant_not_refused signed admitted (suits.not_refused inside), law,
      ⟨ρ, fun i before => keeps i (before.step _), fun w => (law w).trans (alike w)⟩,
      fun conclusive => ?_⟩
    obtain ⟨depth, out, within⟩ := compiles.ends conclusive (.branch 1 :: site) v
    obtain ⟨w, rfl, _⟩ := suits.accepts _ inside depth out within
    exact ⟨w, (law w).mpr (Schema.makes_iff.mpr ⟨depth, within⟩)⟩

/-- The last choices draw the absent value for the result, so each call with a truth value
    returns what stands in for it. -/
theorem inputOf_function_returns_default :
    let flag : Schema := .node 0 .boolean
    let result : Schema := .node 1 (.default flag (.bool true))
    let f : Schema := .node 2 (.function [flag] result)
    let around : Surroundings := ⟨fun _ last => Fin.last last, fun _ => none, 0, 0⟩
    let ctx : Context := ⟨fun _ => none, fun _ => some ([flag], result), fun _ _ => .ok .null⟩
    let g : Value := .function ⟨.made 0, .constant .undefined, []⟩
    ∃ strategy, ((withConfig .standard).inputOf f []).outcome = .ok strategy ∧
      (strategy.draw.run around (.start 0)).1 = .ok g ∧
      ∃ g', f.parse ctx.definitions 1 [.branch 5] g = some (.ok (.function g')) ∧
        ctx.Admits [.branch 0] [flag] [.bool false] ∧
        ctx.Returns [.branch 0] g' [.bool false] (.bool true) := by
  intro flag result f around ctx g
  have everywhere : ∀ P : Shape Schema → Prop, P result.shape → P flag.shape →
      result.Everywhere P := by
    intro P top bottom
    refine .node 1 top fun t child => ?_
    obtain rfl := List.mem_singleton.mp child
    exact .node 0 bottom fun t child => absurd child List.not_mem_nil
  have suits : flag.Suits ctx.definitions (.bool true) :=
    Schema.suits_scalar (fun _ _ _ => rfl) fun recur site => grants_ok trivial
  have outer : Site.IsOuter [.branch 0] := ⟨by simp, by simp⟩
  have fresh : result.FreshAt ctx.definitions [.branch 0] :=
    ⟨outer, (everywhere _ (fun _ _ => rfl) trivial).throughout (by simp [ctx])⟩
  have admitted : ctx.Admits [.branch 0] [flag] [.bool false] := by
    refine ⟨rfl, fun t member => ?_⟩
    obtain rfl := List.mem_singleton.mp member
    exact ⟨_, 1, rfl⟩
  obtain ⟨strategy, compiled, drawn⟩ : ∃ strategy,
      ((withConfig .standard).inputOf f []).outcome = .ok strategy ∧
        (strategy.draw.run around (.start 0)).1 = .ok g := ⟨_, rfl, rfl⟩
  have regular : result.Everywhere (Shape.Regular ctx.definitions) :=
    everywhere _ suits.accepts trivial
  have signed : ctx.signature 2 = some ([flag], result) := rfl
  obtain ⟨_, v, _, _, _, same, calls⟩ := inputOf_function_returns compiled regular
    (everywhere _ trivial trivial) rfl signed drawn
  obtain ⟨_, rfl⟩ : _ ∧ Value.undefined = v := by simpa [g] using same
  obtain ⟨g', accepted, law⟩ := calls [.branch 5]
  refine ⟨strategy, compiled, drawn, g', accepted 0, admitted, ?_⟩
  exact ((law _ _ fresh admitted).2.1 _).mpr ⟨2, rfl⟩

/-- Two functions are drawn that never return, with no arguments to refuse: the return schema does not
    accept what was drawn for it, because its test breaks off or refuses a member that is declared
    twice. -/
theorem exists_calls_without_result :
    let number : Schema := .node 0 (.bigint [.min least true, .max least true, .multipleOf (-1)])
    let twice : Schema := .node 2 (.object [("a", .node 0 .boolean), ("a", .node 1 .null)] .strip)
    let around : Surroundings := ⟨fun _ _ => 0, fun _ => none, 0, 0⟩
    ∀ result v, (result, v) ∈ [(number, .bigint least), (twice, .object [("a", .null)])] →
      let f : Schema := .node 3 (.function [] result)
      let ctx : Context := ⟨fun _ => none, fun _ => some ([], result), fun _ _ => .ok .null⟩
      let g : Value := .function ⟨.made 0, .constant v, []⟩
      ∃ strategy g', ((withConfig .standard).inputOf f []).outcome = .ok strategy ∧
        (strategy.draw.run around (.start 0)).1 = .ok g ∧
        f.parse ctx.definitions 1 [] g = some (.ok (.function g')) ∧
        ∀ site, ctx.Admits site [] [] ∧ ∀ w, ¬ ctx.Returns site g' [] w := by
  intro number twice around result v member f ctx g
  have refused : ∀ site w, ¬ ctx.Makes site result v w := by
    rcases List.mem_pair.mp member with same | same <;> cases same
    · rintro site w ⟨_ | depth, ⟨⟩⟩
    · rintro site w ⟨_ | _ | depth, ⟨⟩⟩
  have admitted : ∀ site, ctx.Admits site [] [] := fun site => ⟨rfl, by simp⟩
  have signed : ctx.signature 3 = some ([], result) := rfl
  have silent : ∀ site w, ¬ ctx.Returns site ⟨.wrapped [], .constant v, [3]⟩ [] w := fun site w =>
    mt (Context.returns_constant_iff signed (admitted site)).mp (refused _ w)
  obtain ⟨strategy, compiled, drawn⟩ : ∃ strategy,
      ((withConfig .standard).inputOf f []).outcome = .ok strategy ∧
        (strategy.draw.run around (.start 0)).1 = .ok g := by
    rcases List.mem_pair.mp member with same | same <;> cases same <;> exact ⟨_, rfl, rfl⟩
  exact ⟨strategy, _, compiled, drawn, rfl, fun site => ⟨admitted site, silent site⟩⟩

end Compiler

end SchemaSampler
