import Mathlib.Data.List.Perm.Basic
import SchemaSampler.Proofs.Lists
import SchemaSampler.Proofs.Schema.Tags
import SchemaSampler.Proofs.Strategy.Compiled

namespace SchemaSampler

/-!
# Walks — the schema that a failed compilation names

Compiling goes through the nodes of a schema and stops at the first one with a fault.

* `Shape.fault?` — what is wrong with a node by its own definition.
* `Shape.visited` — the inner schemas that compiling goes on with, each with its path.
* `Visit.walk` — the nodes that compiling comes to, in pre-order or with some of them put behind the
  nodes inside of them.
* `stop?_compileInput_of_stops` — compiling stops at the first visit with a reason to, on the walk
  that has some nodes behind the nodes inside of them, because what is said of their own is looked
  at last (`Shape.ownLast`).  The reasons are faults of the nodes if overridden nodes have none of
  their own (`stop?_compileInput`).

A fault is one that the error of a compilation tells, or the program breaks off (`Fault.breaking`).
-/

/-- What is wrong with a node by its own definition. -/
inductive Fault where
  /-- Schemas of the kind have no values of their own to draw. -/
  | unsupported (typeName : String)
  /-- The definition contradicts itself. -/
  | contradictory (reason : Contradiction)
  /-- The program breaks off over a sum of lengths or over the weights of the settings. -/
  | breaking

namespace Fault

/-- The end of a compilation because of a fault of the node at a path. -/
def stop (path : Path) : Fault → Stop
  | unsupported typeName => .failed (.unsupported path typeName)
  | contradictory reason => .failed (.invalid path reason)
  | breaking => .aborted

/-- The fault of a definition that something is computed from. -/
def ofResult {α : Type} : Except Contradiction α → Option Fault
  | .ok _ => none
  | .error reason => some (.contradictory reason)

/-- The fault of a computation that may break off. -/
def ofBreak (broken : Bool) : Option Fault := if broken then some .breaking else none

end Fault

namespace Shape

/-- The fault of a node that is not overridden, whatever its inner schemas are. -/
def fault? (config : Config) : Shape Schema → Option Fault
  | .string checks =>
    (Fault.ofResult (textCandidate checks config.maxExtraLength)).or
      (Fault.ofBreak ((TextPlan.ofChecks checks).overflows config.maxExtraLength))
  | .number checks => Fault.ofResult (numberCandidate checks)
  | .bigint checks => Fault.ofResult (bigintCandidate checks)
  | .date checks => Fault.ofResult (dateCandidate checks)
  | .enumeration [] => some (.contradictory (.emptyChoice Kind.enumeration.typeName))
  | .nativeEnum [] => some (.contradictory (.emptyChoice Kind.nativeEnum.typeName))
  | .array _ bounds | .set _ bounds =>
    (Fault.ofBreak (config.sizeOverflows bounds)).or (Fault.ofResult (config.sizeRange bounds))
  | .optional _ | .nullable _ | .default _ _ => Fault.ofBreak config.refusesWeights
  | .union [] => some (.contradictory .emptyUnion)
  | .discriminatedUnion discriminator options =>
    match tagTable discriminator options with
    | .error fault => some (.contradictory (.tags fault))
    | .ok [] => some (.contradictory .emptyTaggedUnion)
    | .ok _ => none
  | .intersection _ _ => some (.unsupported Kind.intersection.typeName)
  | .lazy _ => some (.unsupported Kind.lazy.typeName)
  | .never => some (.unsupported Kind.never.typeName)
  | .custom name _ => some (.unsupported name)
  | _ => none

end Shape

/-- A node that compiling comes to, and where it stands. -/
structure Visit where
  /-- Where the node stands. -/
  path : Path
  /-- The node. -/
  schema : Schema

namespace Shape

/-- The inner schemas that compiling a node goes on with, in order: one for each tag of a
    discriminated union, the result alone of a function, and the first stage alone of a pipeline. -/
def visited (path : Path) : Shape Schema → List Visit
  | .array item _ | .set item _ => [⟨path.into .element, item⟩]
  | .object fields _ => fields.map fun field => ⟨path.into (.property field.1), field.2⟩
  | .tuple slots rest =>
    slots.zipIdx.map (fun slot => ⟨path.into (.index slot.2), slot.1⟩) ++
      rest.toList.map fun further => ⟨path.into .element, further⟩
  | .record key value | .map key value =>
    [⟨path.into .key, key⟩, ⟨path.into .value, value⟩]
  | .union options => options.map fun option => ⟨path, option⟩
  | .discriminatedUnion discriminator options =>
    match tagTable discriminator options with
    | .error _ => []
    | .ok table => (table.selected options).map fun option => ⟨path, option⟩
  | .function _ result => [⟨path.into .returnType, result⟩]
  | .promise inner => [⟨path.into .resolvedType, inner⟩]
  | .optional inner | .nullable inner | .default inner _ | .caught inner _ => [⟨path, inner⟩]
  | .effects inner _ | .branded inner _ | .readonly inner => [⟨path, inner⟩]
  | .pipeline first _ => [⟨path, first⟩]
  | _ => []

/-- The options of a discriminated union are visited for their tags, in ascending order of these. -/
theorem visited_discriminatedUnion (path : Path) {discriminator : String} {options : List Schema}
    {table : TagTable} (h : tagTable discriminator options = .ok table) :
    (table.map Prod.fst).Pairwise (· < ·) ∧
      List.Forall₂ (fun tag visit => visit.path = path ∧ visit.schema ∈ options ∧
          ∃ tags, visit.schema.declaredTags discriminator = .ok tags ∧ tag ∈ tags)
        (table.map Prod.fst) ((discriminatedUnion discriminator options).visited path) := by
  refine ⟨List.pairwise_map.mpr (sorted_tagTable h), ?_⟩
  have each : ∀ entry ∈ table, ∃ option tags, options[entry.2]? = some option ∧
      option.declaredTags discriminator = .ok tags ∧ entry.1 ∈ tags := fun entry member =>
    (findMember?_tagTable_iff h).mp (findMember?_of_mem_tagTable h member)
  rw [visited, h]
  dsimp only
  clear h
  induction table with
  | nil => exact .nil
  | cons entry rest ih =>
    obtain ⟨option, tags, found, declared, member⟩ := each entry List.mem_cons_self
    rw [TagTable.selected, List.filterMap_cons, found]
    exact .cons ⟨rfl, List.mem_of_getElem? found, tags, declared, member⟩
      (ih fun entry member => each entry (List.mem_cons_of_mem _ member))

theorem mem_children_of_mem_visited {path : Path} {shape : Shape Schema} {visit : Visit}
    (member : visit ∈ shape.visited path) : visit.schema ∈ shape.children := by
  cases shape <;> simp only [visited, List.mem_map, List.mem_append, List.mem_cons,
    List.not_mem_nil, or_false] at member
  case object fields _ =>
    obtain ⟨field, member, rfl⟩ := member
    exact List.mem_map_of_mem member
  case tuple slots rest =>
    rcases member with ⟨slot, member, rfl⟩ | ⟨further, member, rfl⟩
    · exact List.mem_append_left _ (List.fst_mem_of_mem_zipIdx member)
    · exact List.mem_append_right _ member
  case record | map =>
    rcases member with rfl | rfl <;> simp [children]
  case union options =>
    obtain ⟨option, member, rfl⟩ := member
    exact member
  case discriminatedUnion discriminator options =>
    split at member
    · cases member
    · obtain ⟨option, chosen, rfl⟩ := List.mem_map.mp member
      obtain ⟨entry, _, found⟩ := List.mem_filterMap.mp chosen
      exact List.mem_of_getElem? found
  all_goals
    subst member
    simp [children]

/-- Compiling looks at the bounds of arrays and sets after their elements, and at the weights of
    absence after the present values. -/
def ownLast : Shape Schema → Bool
  | .array _ _ | .set _ _ | .optional _ | .nullable _ | .default _ _ => true
  | _ => false

end Shape

namespace Visit

/-- The nodes that compiling comes to from a node, each before the nodes inside of it, or behind
    them if it is of a shape that comes `last`.  Nothing inside of an overridden node is visited. -/
def walk (overridden : SchemaId → Bool) (last : Shape Schema → Bool) (visit : Visit) :
    List Visit :=
  if overridden visit.schema.id then [visit]
  else
    let inside := (visit.schema.shape.visited visit.path).attach.flatMap fun next =>
      next.1.walk overridden last
    if last visit.schema.shape then inside ++ [visit] else visit :: inside
termination_by sizeOf visit.schema
decreasing_by
  obtain ⟨path, id, shape⟩ := visit
  exact Shape.sizeOf_child_lt (Shape.mem_children_of_mem_visited next.2) id

theorem walk_node (overridden : SchemaId → Bool) (last : Shape Schema → Bool) (path : Path)
    (id : SchemaId) (shape : Shape Schema) :
    walk overridden last ⟨path, .node id shape⟩ =
      if overridden id then [⟨path, .node id shape⟩]
      else if last shape then
        (shape.visited path).flatMap (walk overridden last) ++ [⟨path, .node id shape⟩]
      else ⟨path, .node id shape⟩ :: (shape.visited path).flatMap (walk overridden last) := by
  rw [walk]
  simp

/-- Where the nodes of a shape are put makes no difference to which nodes are visited. -/
theorem walk_perm (overridden : SchemaId → Bool) (last last' : Shape Schema → Bool) (s : Schema)
    (path : Path) :
    (walk overridden last ⟨path, s⟩).Perm (walk overridden last' ⟨path, s⟩) := by
  induction s using Schema.induction generalizing path with
  | node id shape ih =>
    rw [walk_node, walk_node overridden last']
    split
    · exact .refl _
    · have inside : ((shape.visited path).flatMap (walk overridden last)).Perm
          ((shape.visited path).flatMap (walk overridden last')) :=
        List.Perm.flatMap_left _ fun next member =>
          ih _ (Shape.mem_children_of_mem_visited member) _
      -- Before or behind the nodes inside of it, the node is visited once.
      have placed : ∀ (b : Bool) (visits : List Visit) (visit : Visit),
          (if b then visits ++ [visit] else visit :: visits).Perm (visit :: visits) := by
        intro b visits visit
        cases b
        · exact .refl _
        · exact List.perm_append_singleton _ _
      exact (placed _ _ _).trans ((inside.cons _).trans (placed _ _ _).symm)

end Visit

/-! ### Where compiling stops -/

namespace Compiled

variable {α β : Type}

/-- Why a computation came to no result, if it did not. -/
def stop? (x : Compiled α) : Option Stop :=
  match x.outcome with
  | .ok _ => none
  | .error s => some s

@[simp] theorem stop?_pure (a : α) : (pure a : Compiled α).stop? = none := rfl

@[simp] theorem stop?_stop (s : Stop) : (stop s : Compiled α).stop? = some s := rfl

theorem stop?_eq_none_iff {x : Compiled α} : x.stop? = none ↔ ∃ a, x.outcome = .ok a := by
  unfold stop?
  split <;> simp_all

theorem stop?_eq_some_iff {x : Compiled α} {s : Stop} :
    x.stop? = some s ↔ x.outcome = .error s := by
  unfold stop?
  split <;> simp_all

/-- Going on stops where the first computation stops, and else where the next one does. -/
theorem stop?_bind {x : Compiled α} {f : α → Compiled β} {later : Option Stop}
    (h : ∀ a, (f a).stop? = later) : (x >>= f).stop? = x.stop?.or later := by
  show (Compiled.bind x f).stop? = _
  unfold Compiled.bind stop?
  cases x.outcome with
  | ok a => exact h a
  | error s => rfl

/-- Going on without a stop leaves only that of the first computation. -/
theorem stop?_bind_ok {x : Compiled α} {f : α → Compiled β} (h : ∀ a, (f a).stop? = none) :
    (x >>= f).stop? = x.stop? :=
  (stop?_bind h).trans Option.or_none

/-- Of two computations in a row, the first one that stops decides. -/
theorem stop?_pair {γ : Type} {x : Compiled α} {y : Compiled β} {g : α → β → γ} :
    (do return g (← x) (← y) : Compiled γ).stop? = x.stop?.or y.stop? :=
  stop?_bind fun _ => stop?_bind_ok fun _ => stop?_pure _

theorem stop?_report (e : Event) (f : Unit → Compiled β) :
    (report e >>= f).stop? = (f ()).stop? := rfl

end Compiled

open Compiled

/-- What is lifted stops with its contradiction as a fault of the node. -/
theorem stop?_lift {α : Type} (path : Path) (x : Except Contradiction α) :
    (lift path x).stop? = (Fault.ofResult x).map (Fault.stop path) := by
  cases x <;> rfl

/-- Breaking off is a fault of the node, wherever it stands. -/
theorem stop?_abortIf (path : Path) (broken : Bool) :
    (abortIf broken).stop? = (Fault.ofBreak broken).map (Fault.stop path) := by
  cases broken <;> rfl

section Lists

variable {config : Config} {resolver : Resolver} {stops : Visit → Option Stop} {cell : Cell}
  {path : Path} {position : Nat}

theorem stop?_buildFields {fields : List (String × Schema)}
    (h : ∀ field ∈ fields, ∀ cell path,
      (compileInput config resolver field.2 cell path).stop? = stops ⟨path, field.2⟩) :
    (buildFields (compileFields config resolver fields) position cell path).stop? =
      (fields.map fun field =>
        (⟨path.into (.property field.1), field.2⟩ : Visit)).findSome? stops := by
  induction fields generalizing position with
  | nil => rfl
  | cons field rest ih =>
    obtain ⟨name, field⟩ := field
    rw [compileFields, buildFields, List.map_cons, findSome?_cons_eq_or, ← h _ List.mem_cons_self,
      ← ih fun field member => h field (List.mem_cons_of_mem _ member)]
    exact stop?_pair

theorem stop?_buildSlots {slots : List Schema}
    (h : ∀ slot ∈ slots, ∀ cell path,
      (compileInput config resolver slot cell path).stop? = stops ⟨path, slot⟩) :
    (buildSlots (compileAll config resolver slots) position cell path).stop? =
      ((slots.zipIdx position).map fun slot =>
        (⟨path.into (.index slot.2), slot.1⟩ : Visit)).findSome? stops := by
  induction slots generalizing position with
  | nil => rfl
  | cons slot rest ih =>
    rw [compileAll, buildSlots, List.zipIdx_cons, List.map_cons, findSome?_cons_eq_or,
      ← h _ List.mem_cons_self, ← ih fun slot member => h slot (List.mem_cons_of_mem _ member)]
    exact stop?_pair

theorem stop?_buildOptions {options : List Schema}
    (h : ∀ option ∈ options, ∀ cell path,
      (compileInput config resolver option cell path).stop? = stops ⟨path, option⟩) :
    (buildOptions (compileAll config resolver options) position cell path).stop? =
      (options.map fun option => (⟨path, option⟩ : Visit)).findSome? stops := by
  induction options generalizing position with
  | nil => rfl
  | cons option rest ih =>
    rw [compileAll, buildOptions, List.map_cons, findSome?_cons_eq_or, ← h _ List.mem_cons_self,
      ← ih fun option member => h option (List.mem_cons_of_mem _ member)]
    exact stop?_pair

theorem stop?_buildTagged {options : List Schema} {table : TagTable}
    (h : ∀ option ∈ options, ∀ cell path,
      (compileInput config resolver option cell path).stop? = stops ⟨path, option⟩) :
    (buildTagged (compileAll config resolver options) table position cell path).stop? =
      ((table.selected options).map fun option => (⟨path, option⟩ : Visit)).findSome? stops := by
  rw [compileAll_eq_map]
  induction table generalizing position with
  | nil => rfl
  | cons entry rest ih =>
    obtain ⟨tag, i⟩ := entry
    rw [buildTagged, TagTable.selected, List.filterMap_cons, List.getElem?_map]
    cases found : options[i]? with
    | none => exact ih
    | some option =>
      rw [List.map_cons, findSome?_cons_eq_or, ← h _ (List.mem_of_getElem? found)]
      exact stop?_pair.trans (congrArg _ ih)

end Lists

section Nodes

variable {config : Config} {resolver : Resolver} {stops : Visit → Option Stop} {cell : Cell}
  {path : Path} {id : SchemaId} {shape : Shape Schema}

/-- A node stops a compilation by its own fault or by those of its inner schemas.  Only nodes whose
    own part is looked at last can have both at once. -/
theorem stop?_compileShape (h : ∀ t ∈ shape.children, ∀ cell path,
      (compileInput config resolver t cell path).stop? = stops ⟨path, t⟩) :
    (compileShape config resolver id shape cell path).stop? =
      let own := (shape.fault? config).map (Fault.stop path)
      let inside := (shape.visited path).findSome? stops
      if shape.ownLast then inside.or own else own.or inside := by
  have single : ∀ {t : Schema} {path : Path}, t ∈ shape.children →
      ∀ cell, (compileInput config resolver t cell path).stop? =
        [(⟨path, t⟩ : Visit)].findSome? stops := fun child cell => by
    rw [h _ child, findSome?_cons_eq_or, List.findSome?_nil, Option.or_none]
  cases shape
  case string checks =>
    change _ = (((Fault.ofResult _).or (Fault.ofBreak _)).map (Fault.stop path)).or none
    rw [Option.or_none, Option.map_or, ← stop?_lift, ← stop?_abortIf]
    exact stop?_bind fun _ => stop?_bind_ok fun _ => stop?_pure _
  case bigint | date =>
    exact (stop?_bind fun _ => stop?_pure _).trans (congrArg (Option.or · none) (stop?_lift _ _))
  case number checks =>
    refine (stop?_bind fun (_, multiples) => ?_).trans
      (congrArg (Option.or · none) (stop?_lift path (numberCandidate checks)))
    cases multiples <;> rfl
  case enumeration members | nativeEnum members => cases members <;> rfl
  -- Arrays and sets are compiled elements first, so the fault of their own comes second.
  case array item bounds =>
    change _ = ([_].findSome? stops).or (((Fault.ofBreak _).or (Fault.ofResult _)).map (Fault.stop path))
    rw [Option.map_or, ← stop?_abortIf, ← stop?_lift, ← single List.mem_cons_self (1 :: cell)]
    exact stop?_bind fun _ => stop?_bind fun _ => stop?_bind_ok fun _ => stop?_pure _
  case set item bounds =>
    change _ = ([_].findSome? stops).or (((Fault.ofBreak _).or (Fault.ofResult _)).map (Fault.stop path))
    rw [Option.map_or, ← stop?_abortIf, ← stop?_lift, ← single List.mem_cons_self (1 :: cell)]
    refine stop?_bind fun _ => stop?_bind fun _ => stop?_bind_ok fun (min, _) => ?_
    change (if min = 0 then _ else _ : Compiled Strategy).stop? = none
    split <;> rfl
  case object fields unknownKeys =>
    refine (stop?_bind_ok fun _ => stop?_pure _).trans ?_
    exact stop?_buildFields fun field member => h _ (List.mem_map_of_mem member)
  case tuple slots rest =>
    have hslots : (buildSlots (compileAll config resolver slots) 0 cell path).stop? = _ :=
      stop?_buildSlots fun slot member => h slot (List.mem_append_left _ member)
    change _ = (List.map _ _ ++ List.map _ _).findSome? stops
    rw [List.findSome?_append, ← hslots]
    refine stop?_bind fun _ => ?_
    cases rest with
    | none => rfl
    | some rest =>
      refine (stop?_bind_ok fun _ => stop?_pure _).trans (single ?_ _)
      exact List.mem_append_right _ List.mem_cons_self
  case record key value | map key value =>
    change _ = List.findSome? stops [_, _]
    rw [findSome?_cons_eq_or, ← h key List.mem_cons_self (1 :: cell)]
    have second : value ∈ [key, value] := List.mem_cons_of_mem _ List.mem_cons_self
    exact stop?_pair.trans (congrArg _ (single second _))
  case union options =>
    cases options with
    | nil => rfl
    | cons first others => exact (stop?_bind_ok fun _ => stop?_pure _).trans (stop?_buildOptions h)
  case discriminatedUnion discriminator options =>
    simp only [compileShape, Shape.fault?, Shape.visited]
    rcases tagTable discriminator options with fault | _ | ⟨entry, table⟩
    · rfl
    · rfl
    · exact (stop?_bind_ok fun _ => stop?_pure _).trans (stop?_buildTagged h)
  case function arguments result =>
    refine (stop?_bind_ok fun _ => stop?_pure _).trans (single ?_ _)
    exact List.mem_append_right _ List.mem_cons_self
  case optional | nullable | default =>
    change _ = ([_].findSome? stops).or ((Fault.ofBreak _).map (Fault.stop path))
    rw [← stop?_abortIf, ← single List.mem_cons_self (1 :: cell)]
    exact stop?_bind fun _ => stop?_bind_ok fun _ => stop?_pure _
  case promise | caught | effects | pipeline =>
    exact (stop?_bind_ok fun _ => stop?_pure _).trans (single List.mem_cons_self _)
  case branded | readonly => exact single List.mem_cons_self _
  all_goals rfl

/-- Whether the builder of an overridden node stops, and why, depends on the node only: it is the
    same in all cells and at all paths. -/
def Resolver.Stops (resolver : Resolver) (reasons : SchemaId → Option Stop) : Prop :=
  ∀ id build, resolver id = some build → ∀ cell path, (build cell path).stop? = reasons id

/-- The fault of a node, which has none if it is overridden. -/
def Schema.fault? (config : Config) (overridden : SchemaId → Bool) (s : Schema) : Option Fault :=
  if overridden s.id then none else s.shape.fault? config

/-- The reason for a compilation to stop at a visit, if there is one. -/
def Visit.stop? (config : Config) (overridden : SchemaId → Bool) (visit : Visit) : Option Stop :=
  (visit.schema.fault? config overridden).map (Fault.stop visit.path)

/-- The reason for a compilation to stop at a visit when overridden nodes have reasons of their
    own. -/
def Visit.stopBy? (config : Config) (overridden : SchemaId → Bool)
    (reasons : SchemaId → Option Stop) (visit : Visit) : Option Stop :=
  if overridden visit.schema.id then reasons visit.schema.id
  else (visit.schema.shape.fault? config).map (Fault.stop visit.path)

/-- **Compiling stops at the first visit with a reason** on the walk that has arrays and sets behind
    their elements. -/
theorem stop?_compileInput_of_stops {reasons : SchemaId → Option Stop}
    (known : resolver.Stops reasons) (s : Schema) (cell : Cell) (path : Path) :
    (compileInput config resolver s cell path).stop? =
      (Visit.walk (fun id => (resolver id).isSome) Shape.ownLast ⟨path, s⟩).findSome?
        (Visit.stopBy? config (fun id => (resolver id).isSome) reasons) := by
  induction s using Schema.induction generalizing cell path with
  | node id shape ih =>
    rw [Visit.walk_node]
    cases overridden : resolver id with
    | some build =>
      rw [compileInput_overridden overridden, stop?_report, known id build overridden]
      simp only [Option.isSome_some, if_true]
      rw [findSome?_cons_eq_or, List.findSome?_nil, Option.or_none, Visit.stopBy?]
      simp [overridden]
    | none =>
      let stops (visit : Visit) : Option Stop :=
        (visit.walk (fun id => (resolver id).isSome) Shape.ownLast).findSome?
          (Visit.stopBy? config (fun id => (resolver id).isSome) reasons)
      have inside : ∀ t ∈ shape.children, ∀ cell path,
          (compileInput config resolver t cell path).stop? = stops ⟨path, t⟩ := ih
      rw [compileInput_free overridden, stop?_report, stop?_compileShape inside]
      have own : Visit.stopBy? config (fun id => (resolver id).isSome) reasons
          ⟨path, .node id shape⟩ = (shape.fault? config).map (Fault.stop path) := by
        simp [Visit.stopBy?, overridden]
      simp only [Option.isSome_none, Bool.false_eq_true, if_false]
      split
      · rw [List.findSome?_append, findSome?_flatMap, findSome?_cons_eq_or, own,
          List.findSome?_nil, Option.or_none]
      · rw [findSome?_cons_eq_or, findSome?_flatMap, own]

end Nodes

/-! ### Compilers -/

namespace Compiler

variable {c : Compiler}

/-- Whether a node has an override. -/
def overridden (c : Compiler) (id : SchemaId) : Bool := (c.overrides.resolve? id).isSome

/-- The fault of a node for a compiler. -/
def fault? (c : Compiler) (s : Schema) : Option Fault := s.fault? c.config c.overridden

/-- The nodes that the compiler comes to, in pre-order. -/
def walk (c : Compiler) (s : Schema) : List Visit :=
  Visit.walk c.overridden (fun _ => false) ⟨.root, s⟩

/-- The nodes that the compiler comes to, in the order in which their faults count: that of the
    pre-order walk but for arrays and sets, which stand behind the nodes inside of them. -/
def faultOrder (c : Compiler) (s : Schema) : List Visit :=
  Visit.walk c.overridden Shape.ownLast ⟨.root, s⟩

/-- The nodes that have a builder of their own are the overridden ones. -/
theorem isSome_resolverWith (compile : Compilation) :
    (fun id => (c.resolverWith compile id).isSome) = c.overridden :=
  funext fun _ => Option.isSome_map

end Compiler

end SchemaSampler
