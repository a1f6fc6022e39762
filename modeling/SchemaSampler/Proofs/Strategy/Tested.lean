import SchemaSampler.Proofs.Parse.Termination
import SchemaSampler.Proofs.Strategy.Compiled

namespace SchemaSampler

/-!
# Tests of schemas that have a strategy

A schema with a lazy part has no strategy, so the tests of a schema that has one all come to an end,
as far as it depends on the parts that have a strategy (`Schema.CompilesIn.ends`).  A schema with a
strategy in which nothing maps values makes texts of texts (`Schema.CompilesIn.text_of_text`), so it
can stand for the keys of a record.
-/

/-- The tests against a shape end with an outcome as far as it does not depend on parts that have a
    strategy: the second schema of a pipeline has none, and a remainder may overflow. -/
def Shape.Conclusive (definitions : Definitions) : Shape Schema → Prop
  | .pipeline _ second => second.Ends definitions
  | .bigint checks => .multipleOf (-1) ∉ checks
  | _ => True

theorem Shape.Conclusive.overflowFree {definitions : Definitions} {shape : Shape Schema}
    (conclusive : shape.Conclusive definitions) : shape.OverflowFree := by
  cases shape with
  | bigint checks => exact conclusive
  | _ => trivial

/-- A schema without lazy nodes and without overflows is conclusive, with the second schemas in it. -/
theorem Schema.Everywhere.conclusive (definitions : Definitions) {s : Schema}
    (lazyFree : s.Everywhere Shape.LazyFree) (overflowFree : s.Everywhere Shape.OverflowFree) :
    s.Everywhere (Shape.Conclusive definitions) := by
  induction lazyFree with
  | @node id shape _ inside ih =>
    refine .node id ?_ fun t child => ih t child (overflowFree.inside child)
    cases shape with
    | pipeline first second =>
      have child : second ∈ (Shape.pipeline first second).children := by simp [Shape.children]
      exact ends_of_lazyFree (inside second child) (overflowFree.inside child)
    | bigint checks => exact overflowFree.here
    | _ => trivial

/-- A shape that neither maps values nor puts others in their place. -/
def Shape.MapsNothing {σ : Type} : Shape σ → Prop
  | .effects _ (.transform _) | .effects _ (.preprocess _) | .pipeline _ _ | .caught _ _ => False
  | _ => True

namespace Schema

open Parsed

variable {config : Config} {cell : Cell} {strategy : Strategy} {s : Schema}

/-- The tests of a schema that has a strategy end. -/
theorem CompilesIn.ends {definitions : Definitions}
    (compiles : s.CompilesIn config Resolver.empty cell strategy)
    (conclusive : s.Everywhere (Shape.Conclusive definitions)) :
    s.Ends definitions := by
  induction s using Schema.induction generalizing cell strategy with
  | node id shape ih =>
    have below : ∀ {t : Schema} {strategy : Strategy}, t.CompilesBelow config Resolver.empty cell strategy →
        t ∈ shape.children → t.Ends definitions :=
      fun ⟨_, _, h⟩ child => ih _ child h (conclusive.inside child)
    have all : ∀ {ts : List Schema} {strategies : List Strategy},
        List.Forall₂ (fun t strategy => t.CompilesBelow config Resolver.empty cell strategy) ts strategies →
        (∀ t ∈ ts, t ∈ shape.children) →
        ∀ t ∈ ts, t.Ends definitions := by
      intro ts strategies inner children t member
      obtain ⟨_, _, h⟩ := exists_of_mem_left inner member
      exact below h (children t member)
    have overflowFree := conclusive.here.overflowFree
    cases compiles.assembles with
    | @discriminatedUnion discriminator options table strategies tags inner =>
      refine ends_of_consults overflowFree fun v t u consults => ?_
      cases consults with
      | tagged tags' selected =>
        cases tags.symm.trans tags'
        exact all inner (fun t member => TagTable.mem_of_mem_selected member) t selected
    | @function arguments result strategy inner =>
      exact ends_of_consults overflowFree fun v t u consults => nomatch consults
    | object inner =>
      refine ends_of_children trivial overflowFree fun t child => ?_
      obtain ⟨field, member, rfl⟩ := List.mem_map.mp child
      obtain ⟨_, _, _, h⟩ := exists_of_mem_left inner member
      exact below h child
    | tuple inner others =>
      refine ends_of_children trivial overflowFree fun t child => ?_
      rcases List.mem_append.mp child with member | member
      · exact all inner (fun t member => List.mem_append_left _ member) t member
      · cases others with
        | none => cases member
        | some further =>
          obtain rfl := List.mem_singleton.mp member
          exact below further child
    | union inner =>
      exact ends_of_children trivial overflowFree (all inner fun _ member => member)
    | record keys values | map keys values =>
      refine ends_of_children trivial overflowFree fun t child => ?_
      rcases List.mem_pair.mp child with rfl | rfl
      · exact below keys child
      · exact below values child
    | pipeline path first =>
      refine ends_of_children trivial overflowFree fun t child => ?_
      rcases List.mem_pair.mp child with rfl | rfl
      · exact below first child
      · exact conclusive.here
    | array inner | set inner | setAtLeast _ inner | promise inner | optional inner
    | nullable inner | default inner | caught inner | effects _ inner | branded inner
    | readonly inner =>
      refine ends_of_children trivial overflowFree fun t child => ?_
      obtain rfl := List.mem_singleton.mp child
      exact below inner child
    | _ => exact ends_of_children trivial overflowFree fun t child => absurd child List.not_mem_nil

/-- A schema with a strategy that maps nothing makes texts of texts. -/
theorem CompilesIn.text_of_text {definitions : Definitions} {depth : Nat} {site : Site}
    {name : String} {w : Value} (compiles : s.CompilesIn config Resolver.empty cell strategy)
    (plain : s.Everywhere Shape.MapsNothing)
    (accepted : parseWithin definitions depth site s (.string name) = some (.ok w)) :
    ∃ name', w = .string name' := by
  induction s using Schema.induction generalizing cell strategy depth site with
  | node id shape ih =>
    cases depth with
    | zero => cases accepted
    | succ depth =>
      have below : ∀ {t : Schema} {strategy : Strategy}, t.CompilesBelow config Resolver.empty cell strategy →
          t ∈ shape.children → parseWithin definitions depth site t (.string name) = some (.ok w) →
          ∃ name', w = .string name' :=
        fun ⟨_, _, h⟩ child accepted => ih _ child h (plain.inside child) accepted
      change Shape.step definitions (parseWithin definitions depth) site id shape (.string name) =
        some (.ok w) at accepted
      have here := plain.here
      cases compiles.assembles <;> simp only [Shape.step] at accepted
      case string =>
        obtain ⟨_, rfl⟩ := ofProblems_eq_ok_iff.mp (Option.some.inj accepted)
        exact ⟨_, rfl⟩
      case any | unknown =>
        cases accepted
        exact ⟨name, rfl⟩
      case literal | enumeration | nativeEnum =>
        obtain ⟨_, rfl⟩ := ite_refuse_eq_ok_iff.mp (Option.some.inj accepted)
        exact ⟨name, rfl⟩
      case union inner =>
        obtain ⟨option, member, accepted⟩ := firstAccepted_ok accepted
        obtain ⟨_, _, h⟩ := exists_of_mem_left inner member
        exact below h member accepted
      case optional inner | nullable inner | default inner | branded inner | readonly inner =>
        exact below inner (by simp [Shape.children]) accepted
      case effects inner effect source path candidates =>
        cases effect with
        | refinement check reason =>
          obtain ⟨outcome, returns, accepted⟩ := Option.bind_eq_some_iff.mp accepted
          cases outcome with
          | error found => cases accepted
          | ok result =>
            obtain ⟨_, rfl⟩ := ite_refuse_eq_ok_iff.mp (Option.some.inj accepted)
            exact below candidates (by simp [Shape.children]) returns
        | transform | preprocess => exact here.elim
      case caught | pipeline => exact here.elim
      all_goals cases accepted

end Schema

end SchemaSampler
