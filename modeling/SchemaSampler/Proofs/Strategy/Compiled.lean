import Mathlib.Data.List.Forall2
import SchemaSampler.Proofs.Schema.Parts
import SchemaSampler.Proofs.Schema.Tags
import SchemaSampler.Strategy.Compiler

namespace SchemaSampler

/-!
# Compiled parts — what a strategy was put together from

If a schema got a strategy then so did the inner schemas, and the strategy is put together from
theirs.  The lemmas here take one compilation apart.  `Builder.BuildsIn` says that a builder gave a
strategy as one of the children of a cell, which are numbered from one, so that the cell of a child
is never that of the node or the one numbered zero.
-/

namespace Compiled

variable {α β : Type}

/-- A computation goes on to what comes of its result. -/
theorem outcome_bind {x : Compiled α} {a : α} (h : x.outcome = .ok a) (f : α → Compiled β) :
    (x >>= f).outcome = (f a).outcome := by
  show (Compiled.bind x f).outcome = _
  rw [Compiled.bind, h]

/-- A computation that went on to a result had one itself. -/
theorem bind_ok {x : Compiled α} {f : α → Compiled β} {b : β}
    (h : (x >>= f).outcome = .ok b) : ∃ a, x.outcome = .ok a ∧ (f a).outcome = .ok b := by
  show ∃ a, x.outcome = .ok a ∧ _
  change (Compiled.bind x f).outcome = .ok b at h
  unfold Compiled.bind at h
  split at h
  · exact ⟨_, ‹_›, h⟩
  · cases h

theorem report_ok {e : Event} {f : Unit → Compiled β} {b : β}
    (h : (Compiled.report e >>= f).outcome = .ok b) : (f ()).outcome = .ok b := by
  obtain ⟨⟨⟩, _, h⟩ := bind_ok h
  exact h

/-- A computation that may break off did not if it went on to a result. -/
theorem abortIf_ok {broken : Bool} {f : Unit → Compiled β} {b : β}
    (h : (abortIf broken >>= f).outcome = .ok b) : (f ()).outcome = .ok b := by
  obtain ⟨⟨⟩, _, h⟩ := bind_ok h
  exact h

/-- What was compiled when failures were caught was compiled. -/
theorem attempt_ok {x : Compiled α} {a : α} (h : x.attempt.outcome = .ok (.ok a)) :
    x.outcome = .ok a := by
  unfold attempt at h
  split at h <;> cases h
  assumption

theorem lift_ok {path : Path} {x : Except Contradiction α} {a : α}
    (h : (lift path x).outcome = .ok a) : x = .ok a := by
  cases x <;> cases h
  rfl

end Compiled

open Compiled

/-- A builder gave a strategy as one of the children of a cell. -/
def Builder.BuildsIn (cell : Cell) (build : Builder) (strategy : Strategy) : Prop :=
  ∃ k path, 0 < k ∧ (build (k :: cell) path).outcome = .ok strategy

/-! ### Lists of builders -/

section Lists

variable {cell : Cell} {path : Path} {position : Nat}

theorem buildFields_ok {fields : List (String × Builder)}
    {strategies : List (String × Strategy)} (positive : 0 < position)
    (h : (buildFields fields position cell path).outcome = .ok strategies) :
    List.Forall₂ (fun field f => f.1 = field.1 ∧ field.2.BuildsIn cell f.2) fields strategies := by
  induction fields generalizing position strategies with
  | nil =>
    cases h
    exact .nil
  | cons field rest ih =>
    obtain ⟨name, build⟩ := field
    obtain ⟨first, hfirst, h⟩ := bind_ok h
    obtain ⟨others, hothers, h⟩ := bind_ok h
    cases h
    exact .cons ⟨rfl, _, _, positive, hfirst⟩ (ih (Nat.succ_pos _) hothers)

theorem buildSlots_ok {builders : List Builder} {strategies : List Strategy}
    (h : (buildSlots builders position cell path).outcome = .ok strategies) :
    List.Forall₂ (Builder.BuildsIn cell) builders strategies := by
  induction builders generalizing position strategies with
  | nil =>
    cases h
    exact .nil
  | cons build rest ih =>
    obtain ⟨first, hfirst, h⟩ := bind_ok h
    obtain ⟨others, hothers, h⟩ := bind_ok h
    cases h
    exact .cons ⟨_, _, Nat.succ_pos _, hfirst⟩ (ih hothers)

theorem buildOptions_ok {builders : List Builder} {strategies : List Strategy}
    (positive : 0 < position)
    (h : (buildOptions builders position cell path).outcome = .ok strategies) :
    List.Forall₂ (Builder.BuildsIn cell) builders strategies := by
  induction builders generalizing position strategies with
  | nil =>
    cases h
    exact .nil
  | cons build rest ih =>
    obtain ⟨first, hfirst, h⟩ := bind_ok h
    obtain ⟨others, hothers, h⟩ := bind_ok h
    cases h
    exact .cons ⟨_, _, positive, hfirst⟩ (ih (Nat.succ_pos _) hothers)

/-- The strategies of a tagged choice are those of the entries of the table, in order. -/
theorem buildTagged_ok {builders : List Builder} {table : TagTable} {strategies : List Strategy}
    (positive : 0 < position)
    (h : (buildTagged builders table position cell path).outcome = .ok strategies) :
    List.Forall₂ (Builder.BuildsIn cell) (table.selected builders) strategies := by
  induction table generalizing position strategies with
  | nil =>
    cases h
    exact .nil
  | cons entry rest ih =>
    obtain ⟨tag, option⟩ := entry
    unfold buildTagged at h
    split at h
    · rename_i absent
      rw [TagTable.selected, List.filterMap_cons]
      simp only [absent]
      exact ih positive h
    · rename_i build hbuild
      rw [TagTable.selected, List.filterMap_cons]
      simp only [hbuild]
      obtain ⟨first, hfirst, h⟩ := bind_ok h
      obtain ⟨others, hothers, h⟩ := bind_ok h
      cases h
      exact .cons ⟨_, _, positive, hfirst⟩ (ih (Nat.succ_pos _) hothers)

end Lists

/-! ### Lists of schemas -/

section Schemas

variable (config : Config) (resolver : Resolver)

theorem compileAll_eq_map (schemas : List Schema) :
    compileAll config resolver schemas = schemas.map (compileInput config resolver) := by
  induction schemas with
  | nil => rfl
  | cons s rest ih => rw [compileAll, ih, List.map_cons]

theorem compileFields_eq_map (fields : List (String × Schema)) :
    compileFields config resolver fields =
      fields.map fun field => (field.1, compileInput config resolver field.2) := by
  induction fields with
  | nil => rfl
  | cons field rest ih => rw [compileFields, ih, List.map_cons]

end Schemas

/-! ### Nodes -/

/-- A schema got a strategy in a cell. -/
def Schema.CompilesIn (config : Config) (resolver : Resolver) (cell : Cell) (s : Schema)
    (strategy : Strategy) : Prop :=
  ∃ path, (compileInput config resolver s cell path).outcome = .ok strategy

section Nodes

variable {config : Config} {resolver : Resolver} {cell : Cell} {id : SchemaId}
  {strategy : Strategy}

/-- A child got a strategy in one of the cells further in. -/
def Schema.CompilesBelow (config : Config) (resolver : Resolver) (cell : Cell) (s : Schema)
    (strategy : Strategy) : Prop :=
  ∃ k, 0 < k ∧ s.CompilesIn config resolver (k :: cell) strategy

theorem Schema.CompilesBelow.of_builds {s : Schema}
    (h : (compileInput config resolver s).BuildsIn cell strategy) :
    s.CompilesBelow config resolver cell strategy := by
  obtain ⟨k, path, positive, h⟩ := h
  exact ⟨k, positive, path, h⟩

/-- What the strategy of a node without an override is put together from, one case for each kind of
    schema that has a strategy of its own.  Monitors of the node keep their tally in its cell. -/
inductive Assembles (config : Config) (resolver : Resolver) (cell : Cell) (id : SchemaId) :
    Shape Schema → Strategy → Prop where
  | string {checks : List StringCheck} {c : Candidate} (path : Path)
      (candidate : textCandidate checks config.maxExtraLength = .ok c) :
      Assembles config resolver cell id (.string checks)
        (config.settle cell path (.node id (.string checks)) c)
  | number {checks : List NumberCheck} {c : Candidate} {m : Option NumberPlan.Multiples}
      (path : Path) (candidate : numberCandidate checks = .ok (c, m)) :
      Assembles config resolver cell id (.number checks)
        (config.settle cell path (.node id (.number checks)) c)
  | bigint {checks : List BigintCheck} {c : Candidate} (path : Path)
      (candidate : bigintCandidate checks = .ok c) :
      Assembles config resolver cell id (.bigint checks)
        (config.settle cell path (.node id (.bigint checks)) c)
  | date {checks : List DateCheck} {c : Candidate} (path : Path)
      (candidate : dateCandidate checks = .ok c) :
      Assembles config resolver cell id (.date checks)
        (config.settle cell path (.node id (.date checks)) c)
  | boolean : Assembles config resolver cell id .boolean (.sample (.bool <$> Sampler.bool))
  | undefined : Assembles config resolver cell id .undefined (.just .undefined)
  | void : Assembles config resolver cell id .void (.just .undefined)
  | null : Assembles config resolver cell id .null (.just .null)
  | nan : Assembles config resolver cell id .nan (.just (.number Binary64.nan))
  | any : Assembles config resolver cell id .any (.sample (.anyValue config.anyDepth))
  | unknown : Assembles config resolver cell id .unknown (.sample (.anyValue config.anyDepth))
  | symbol : Assembles config resolver cell id .symbol .symbol
  | literal (v : Value) : Assembles config resolver cell id (.literal v) (.just v)
  | enumeration {members : List String} {strategy : Strategy}
      (among : Strategy.among .enumeration (members.map .string) = .ok strategy) :
      Assembles config resolver cell id (.enumeration members) strategy
  | nativeEnum {members : List (String × Value)} {strategy : Strategy}
      (among : Strategy.among .nativeEnum (members.map (·.2)) = .ok strategy) :
      Assembles config resolver cell id (.nativeEnum members) strategy
  | array {item : Schema} {bounds : SizeBounds} {strategy : Strategy} {min max : Nat}
      (inner : item.CompilesBelow config resolver cell strategy)
      (range : config.sizeRange bounds = .ok (min, max)) :
      Assembles config resolver cell id (.array item bounds) (.array strategy min max)
  | set {item : Schema} {bounds : SizeBounds} {strategy : Strategy} {max : Nat}
      (inner : item.CompilesBelow config resolver cell strategy)
      (range : config.sizeRange bounds = .ok (0, max)) :
      Assembles config resolver cell id (.set item bounds) (.set strategy 0 max)
  | setAtLeast {item : Schema} {bounds : SizeBounds} {strategy : Strategy} {min max : Nat}
      (path : Path) (inner : item.CompilesBelow config resolver cell strategy)
      (range : config.sizeRange bounds = .ok (min, max)) :
      Assembles config resolver cell id (.set item bounds)
        (config.monitor cell path (.sized min) (.set strategy min max))
  | object {fields : List (String × Schema)} {unknownKeys : UnknownKeys}
      {strategies : List (String × Strategy)}
      (inner : List.Forall₂
        (fun field f => f.1 = field.1 ∧ field.2.CompilesBelow config resolver cell f.2) fields strategies) :
      Assembles config resolver cell id (.object fields unknownKeys) (.object strategies)
  | tuple {slots : List Schema} {rest : Option Schema} {strategies : List Strategy}
      {further : Option Strategy}
      (inner : List.Forall₂ (fun s strategy => s.CompilesBelow config resolver cell strategy) slots strategies)
      (others : Option.Rel (fun s strategy => s.CompilesBelow config resolver cell strategy) rest further) :
      Assembles config resolver cell id (.tuple slots rest)
        (.tuple strategies further config.maxExtraLength)
  | record {key value : Schema} {k v : Strategy} (keys : key.CompilesBelow config resolver cell k)
      (values : value.CompilesBelow config resolver cell v) :
      Assembles config resolver cell id (.record key value) (.record k v config.maxExtraLength)
  | map {key value : Schema} {k v : Strategy} (keys : key.CompilesBelow config resolver cell k)
      (values : value.CompilesBelow config resolver cell v) :
      Assembles config resolver cell id (.map key value) (.map k v config.maxExtraLength)
  | union {options : List Schema} {strategies : List Strategy}
      (inner : List.Forall₂ (fun s strategy => s.CompilesBelow config resolver cell strategy) options
        strategies) :
      Assembles config resolver cell id (.union options) (.oneOf strategies)
  | discriminatedUnion {discriminator : String} {options : List Schema} {table : TagTable}
      {strategies : List Strategy} (tags : tagTable discriminator options = .ok table)
      (inner : List.Forall₂ (fun s strategy => s.CompilesBelow config resolver cell strategy)
        (table.selected options) strategies) :
      Assembles config resolver cell id (.discriminatedUnion discriminator options) (.oneOf strategies)
  | function {arguments : List Schema} {result : Schema} {strategy : Strategy}
      (inner : result.CompilesBelow config resolver cell strategy) :
      Assembles config resolver cell id (.function arguments result) (.function strategy)
  | promise {inner : Schema} {strategy : Strategy}
      (settled : inner.CompilesBelow config resolver cell strategy) :
      Assembles config resolver cell id (.promise inner) (.promise strategy)
  | optional {inner : Schema} {strategy : Strategy}
      (present : inner.CompilesBelow config resolver cell strategy) :
      Assembles config resolver cell id (.optional inner) (config.withAbsent strategy .undefined)
  | nullable {inner : Schema} {strategy : Strategy}
      (present : inner.CompilesBelow config resolver cell strategy) :
      Assembles config resolver cell id (.nullable inner) (config.withAbsent strategy .null)
  | default {inner : Schema} {value : Value} {strategy : Strategy}
      (present : inner.CompilesBelow config resolver cell strategy) :
      Assembles config resolver cell id (.default inner value) (config.withAbsent strategy .undefined)
  | caught {inner : Schema} {fallback : Value} {strategy : Strategy}
      (accepted : inner.CompilesBelow config resolver cell strategy) :
      Assembles config resolver cell id (.caught inner fallback)
        (.oneOf [strategy, .sample (.anyValue config.anyDepth)])
  | effects {inner : Schema} {effect : Effect} {source : Strategy} (path : Path)
      (candidates : inner.CompilesBelow config resolver cell source) :
      Assembles config resolver cell id (.effects inner effect)
        (config.monitor cell path (.accepted (.node id (.effects inner effect))) source)
  | pipeline {first second : Schema} {source : Strategy} (path : Path)
      (candidates : first.CompilesBelow config resolver cell source) :
      Assembles config resolver cell id (.pipeline first second)
        (config.monitor cell path (.accepted (.node id (.pipeline first second))) source)
  | branded {inner : Schema} {brand : String} {strategy : Strategy}
      (same : inner.CompilesBelow config resolver cell strategy) :
      Assembles config resolver cell id (.branded inner brand) strategy
  | readonly {inner : Schema} {strategy : Strategy}
      (same : inner.CompilesBelow config resolver cell strategy) :
      Assembles config resolver cell id (.readonly inner) strategy

/-- **Inversion of a compilation.** The strategy of a node is put together as `Assembles` says. -/
theorem assembles_of_compileShape {shape : Shape Schema} {path : Path}
    (h : (compileShape config resolver id shape cell path).outcome = .ok strategy) :
    Assembles config resolver cell id shape strategy := by
  have below : ∀ {s : Schema} {k : Nat} {path : Path} {strategy : Strategy}, 0 < k →
      (compileInput config resolver s (k :: cell) path).outcome = .ok strategy →
      s.CompilesBelow config resolver cell strategy := fun positive h => ⟨_, positive, _, h⟩
  cases shape <;> simp only [compileShape] at h
  case string =>
    obtain ⟨c, hc, h⟩ := bind_ok h
    cases abortIf_ok h
    exact .string path (lift_ok hc)
  case number =>
    obtain ⟨⟨c, m⟩, hc, h⟩ := bind_ok h
    cases m with
    | none =>
      cases h
      exact .number path (lift_ok hc)
    | some m =>
      have h := report_ok h
      cases h
      exact .number path (lift_ok hc)
  case bigint =>
    obtain ⟨c, hc, h⟩ := bind_ok h
    cases h
    exact .bigint path (lift_ok hc)
  case date =>
    obtain ⟨c, hc, h⟩ := bind_ok h
    cases h
    exact .date path (lift_ok hc)
  case boolean => cases h; exact .boolean
  case undefined => cases h; exact .undefined
  case void => cases h; exact .void
  case null => cases h; exact .null
  case nan => cases h; exact .nan
  case any => cases h; exact .any
  case unknown => cases h; exact .unknown
  case symbol => cases h; exact .symbol
  case literal v => cases h; exact .literal v
  case enumeration => exact .enumeration (lift_ok h)
  case nativeEnum => exact .nativeEnum (lift_ok h)
  case array =>
    obtain ⟨item, hitem, h⟩ := bind_ok h
    obtain ⟨⟨min, max⟩, range, h⟩ := bind_ok (abortIf_ok h)
    cases h
    exact .array (below Nat.one_pos hitem) (lift_ok range)
  case set =>
    obtain ⟨item, hitem, h⟩ := bind_ok h
    obtain ⟨⟨min, max⟩, range, h⟩ := bind_ok (abortIf_ok h)
    simp only at h
    split at h
    · rename_i zero
      subst zero
      cases h
      exact .set (below Nat.one_pos hitem) (lift_ok range)
    · cases h
      exact .setAtLeast path (below Nat.one_pos hitem) (lift_ok range)
  case object =>
    obtain ⟨strategies, hfields, h⟩ := bind_ok h
    cases h
    rw [compileFields_eq_map] at hfields
    have inner := buildFields_ok Nat.one_pos hfields
    rw [List.forall₂_map_left_iff] at inner
    exact .object (inner.imp fun _ _ ⟨name, builds⟩ => ⟨name, .of_builds builds⟩)
  case tuple slots rest =>
    obtain ⟨strategies, hslots, h⟩ := bind_ok h
    rw [compileAll_eq_map] at hslots
    have inner := buildSlots_ok hslots
    rw [List.forall₂_map_left_iff] at inner
    have slots := inner.imp fun _ _ builds => Schema.CompilesBelow.of_builds builds
    cases rest with
    | none =>
      cases h
      exact .tuple slots .none
    | some rest =>
      obtain ⟨further, hfurther, h⟩ := bind_ok h
      cases h
      exact .tuple slots (.some (below (Nat.succ_pos _) hfurther))
  case record =>
    obtain ⟨k, hk, h⟩ := bind_ok h
    obtain ⟨v, hv, h⟩ := bind_ok h
    cases h
    exact .record (below Nat.one_pos hk) (below Nat.two_pos hv)
  case map =>
    obtain ⟨k, hk, h⟩ := bind_ok h
    obtain ⟨v, hv, h⟩ := bind_ok h
    cases h
    exact .map (below Nat.one_pos hk) (below Nat.two_pos hv)
  case union =>
    split at h
    · cases h
    · obtain ⟨strategies, hoptions, h⟩ := bind_ok h
      cases h
      rw [compileAll_eq_map] at hoptions
      have inner := buildOptions_ok Nat.one_pos hoptions
      rw [List.forall₂_map_left_iff] at inner
      exact .union (inner.imp fun _ _ builds => .of_builds builds)
  case discriminatedUnion =>
    split at h
    · cases h
    · cases h
    · rename_i table _ htable
      obtain ⟨strategies, hoptions, h⟩ := bind_ok h
      cases h
      rw [compileAll_eq_map] at hoptions
      have inner := buildTagged_ok Nat.one_pos hoptions
      rw [TagTable.selected_map, List.forall₂_map_left_iff] at inner
      exact .discriminatedUnion htable (inner.imp fun _ _ builds => .of_builds builds)
  case never | intersection | «lazy» | custom => cases h
  case function =>
    obtain ⟨result, hresult, h⟩ := bind_ok h
    cases h
    exact .function (below Nat.one_pos hresult)
  case promise =>
    obtain ⟨inner, hinner, h⟩ := bind_ok h
    cases h
    exact .promise (below Nat.one_pos hinner)
  case optional =>
    obtain ⟨inner, hinner, h⟩ := bind_ok h
    cases abortIf_ok h
    exact .optional (below Nat.one_pos hinner)
  case nullable =>
    obtain ⟨inner, hinner, h⟩ := bind_ok h
    cases abortIf_ok h
    exact .nullable (below Nat.one_pos hinner)
  case default =>
    obtain ⟨inner, hinner, h⟩ := bind_ok h
    cases abortIf_ok h
    exact .default (below Nat.one_pos hinner)
  case caught =>
    obtain ⟨inner, hinner, h⟩ := bind_ok h
    cases h
    exact .caught (below Nat.one_pos hinner)
  case effects =>
    obtain ⟨source, hsource, h⟩ := bind_ok h
    cases h
    exact .effects path (below Nat.one_pos hsource)
  case pipeline =>
    obtain ⟨source, hsource, h⟩ := bind_ok h
    cases h
    exact .pipeline path (below Nat.one_pos hsource)
  case branded => exact .branded (below Nat.one_pos h)
  case readonly => exact .readonly (below Nat.one_pos h)

/-- An overridden node is built by its override. -/
theorem compileInput_overridden {build : Builder} (overridden : resolver id = some build)
    (shape : Shape Schema) (cell : Cell) (path : Path) :
    compileInput config resolver (.node id shape) cell path =
      Compiled.report (.overriding shape.kind path) >>= fun _ => build (1 :: cell) path := by
  rw [compileInput, overridden]

/-- Any other node is built by its kind. -/
theorem compileInput_free (free : resolver id = none) (shape : Shape Schema) (cell : Cell)
    (path : Path) :
    compileInput config resolver (.node id shape) cell path =
      Compiled.report (.dispatching shape.kind path) >>= fun _ =>
        compileShape config resolver id shape cell path := by
  rw [compileInput, free]

/-- A schema without a registration has no builder of its own. -/
theorem Compiler.resolverWith_eq_none {c : Compiler} (free : c.overrides.resolve? id = none)
    (compile : Compilation) : c.resolverWith compile id = none :=
  Option.map_eq_none_iff.mpr free

/-- The strategy of a node comes from its override, if it has one. -/
theorem Schema.CompilesIn.node {shape : Shape Schema}
    (h : (Schema.node id shape).CompilesIn config resolver cell strategy) :
    (∃ build, resolver id = some build ∧ build.BuildsIn cell strategy) ∨
      resolver id = none ∧ Assembles config resolver cell id shape strategy := by
  obtain ⟨path, h⟩ := h
  cases overridden : resolver id with
  | some build =>
    rw [compileInput_overridden overridden] at h
    exact Or.inl ⟨build, rfl, 1, path, Nat.one_pos, report_ok h⟩
  | none =>
    rw [compileInput_free overridden] at h
    exact Or.inr ⟨rfl, assembles_of_compileShape (report_ok h)⟩

/-! ### Schemas without overrides -/

/-- No schema is overridden. -/
def Resolver.empty : Resolver := fun _ => none

/-- What a schema's strategy is put together from in the absence of overrides. -/
theorem Schema.CompilesIn.assembles {shape : Shape Schema}
    (h : (Schema.node id shape).CompilesIn config Resolver.empty cell strategy) :
    Assembles config Resolver.empty cell id shape strategy := by
  rcases h.node with ⟨_, overridden, _⟩ | ⟨_, assembled⟩
  · cases overridden
  · exact assembled

/-- Without overrides the strategy of a schema's inputs is compiled without overrides. -/
theorem Schema.CompilesIn.of_inputOf {s : Schema}
    (h : ((Compiler.withConfig config).inputOf s cell).outcome = .ok strategy) :
    s.CompilesIn config Resolver.empty cell strategy := by
  obtain ⟨input, hinput, h⟩ := bind_ok h
  cases h
  exact ⟨.root, hinput⟩

end Nodes

end SchemaSampler
