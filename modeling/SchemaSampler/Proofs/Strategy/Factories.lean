import Mathlib.Data.Finset.Card
import SchemaSampler.Proofs.Lists
import SchemaSampler.Proofs.Strategy.Walk

namespace SchemaSampler

/-!
# Factories — overrides that call the compiler

A factory may have compilers compile further schemas, and compiling these can come to further
factories.  The depth of such calls is bounded, and no bound is enough for all factories.

* `Compiler.compile_kept` — a compilation that comes to a strategy or a failure comes to the same with
  a greater bound.
* `Compiler.Alike.compile` — what a compiler makes of a schema depends on its settings and on what it
  resolves identities to.
* `Recipe.stop?` — why a factory gives no strategy, if it does not, given why compilations stop.
* `Compiler.compile_walk` — a compilation stops at the first visit with a reason, which for a factory
  is its own, wherever the node stands.
-/

open Compiled

/-! ### Greater bounds -/

/-- A computation stays as it is, unless it only stops because calls are nested too deep. -/
def Compiled.Kept {α : Type} (x x' : Compiled α) : Prop := x.outcome = .error .endless ∨ x = x'

namespace Compiled

variable {α β : Type}

theorem Kept.refl (x : Compiled α) : x.Kept x := .inr rfl

/-- Going on from computations that stay as they are. -/
theorem Kept.bind {x x' : Compiled α} {f f' : α → Compiled β} (first : x.Kept x')
    (next : ∀ a, (f a).Kept (f' a)) : (x >>= f).Kept (x' >>= f') := by
  show (Compiled.bind x f).outcome = _ ∨ Compiled.bind x f = Compiled.bind x' f'
  rcases first with endless | rfl
  · left
    unfold Compiled.bind
    rw [endless]
  · unfold Compiled.bind
    cases x.outcome with
    | error stop => exact .inr rfl
    | ok a =>
      rcases next a with endless | same
      · exact .inl endless
      · right
        show (⟨_, _⟩ : Compiled β) = ⟨_, _⟩
        rw [same]

/-- What is made of a result in the end stays as it is if the result does. -/
theorem Kept.map {x x' : Compiled α} (h : x.Kept x') (f : α → β) :
    (do return f (← x) : Compiled β).Kept (do return f (← x')) :=
  h.bind fun _ => .refl _

/-- Catching failures does not hide that calls are nested too deep. -/
theorem Kept.attempt {x x' : Compiled α} (h : x.Kept x') : x.attempt.Kept x'.attempt := by
  rcases h with endless | rfl
  · left
    unfold Compiled.attempt
    rw [endless]
  · exact .refl _

/-- A failure that is caught and given on as it is makes no difference. -/
theorem attempt_bind (x : Compiled α) {f : Except Failure α → Compiled α}
    (ok : ∀ a, f (.ok a) = pure a) (error : ∀ failure, f (.error failure) = stop (.failed failure)) :
    x.attempt >>= f = x := by
  obtain ⟨log, outcome⟩ := x
  rcases outcome with (failure | _ | _) | a
  · show (⟨log ++ (f (.error failure)).log, (f (.error failure)).outcome⟩ : Compiled α) = _
    rw [error]
    exact congrArg (Compiled.mk · _) (List.append_nil log)
  · rfl
  · rfl
  · show (⟨log ++ (f (.ok a)).log, (f (.ok a)).outcome⟩ : Compiled α) = _
    rw [ok]
    exact congrArg (Compiled.mk · _) (List.append_nil log)

end Compiled

/-- All computations of a builder stay as they are, but for calls that are nested too deep. -/
def Builder.Kept (build build' : Builder) : Prop :=
  ∀ cell path, (build cell path).Kept (build' cell path)

section Lists

variable {config : Config} {resolver resolver' : Resolver} {cell : Cell} {path : Path}
  {position : Nat}

theorem buildFields_kept {fields : List (String × Schema)}
    (h : ∀ field ∈ fields,
      (compileInput config resolver field.2).Kept (compileInput config resolver' field.2)) :
    (buildFields (compileFields config resolver fields) position cell path).Kept
      (buildFields (compileFields config resolver' fields) position cell path) := by
  induction fields generalizing position with
  | nil => exact .refl _
  | cons field rest ih =>
    have others := fun field member => h field (List.mem_cons_of_mem _ member)
    exact (h field List.mem_cons_self _ _).bind fun _ => (ih others).map _

theorem buildSlots_kept {slots : List Schema}
    (h : ∀ slot ∈ slots,
      (compileInput config resolver slot).Kept (compileInput config resolver' slot)) :
    (buildSlots (compileAll config resolver slots) position cell path).Kept
      (buildSlots (compileAll config resolver' slots) position cell path) := by
  induction slots generalizing position with
  | nil => exact .refl _
  | cons slot rest ih =>
    have others := fun slot member => h slot (List.mem_cons_of_mem _ member)
    exact (h slot List.mem_cons_self _ _).bind fun _ => (ih others).map _

theorem buildOptions_kept {options : List Schema}
    (h : ∀ option ∈ options,
      (compileInput config resolver option).Kept (compileInput config resolver' option)) :
    (buildOptions (compileAll config resolver options) position cell path).Kept
      (buildOptions (compileAll config resolver' options) position cell path) := by
  induction options generalizing position with
  | nil => exact .refl _
  | cons option rest ih =>
    have others := fun option member => h option (List.mem_cons_of_mem _ member)
    exact (h option List.mem_cons_self _ _).bind fun _ => (ih others).map _

theorem buildTagged_kept {options : List Schema} {table : TagTable}
    (h : ∀ option ∈ options,
      (compileInput config resolver option).Kept (compileInput config resolver' option)) :
    (buildTagged (compileAll config resolver options) table position cell path).Kept
      (buildTagged (compileAll config resolver' options) table position cell path) := by
  rw [compileAll_eq_map, compileAll_eq_map]
  induction table generalizing position with
  | nil => exact .refl _
  | cons entry rest ih =>
    rw [buildTagged, buildTagged, List.getElem?_map, List.getElem?_map]
    cases found : options[entry.2]? with
    | none => exact ih
    | some option =>
      exact (h option (List.mem_of_getElem? found) _ _).bind fun _ => ih.map _

end Lists

section Nodes

variable {config : Config} {resolver resolver' : Resolver} {cell : Cell} {path : Path}

/-- A node is built as before if its inner schemas are. -/
theorem compileShape_kept {id : SchemaId} {shape : Shape Schema}
    (h : ∀ t ∈ shape.children,
      (compileInput config resolver t).Kept (compileInput config resolver' t)) :
    (compileShape config resolver id shape cell path).Kept
      (compileShape config resolver' id shape cell path) := by
  -- shapes without inner schemas ask no builder
  cases shape <;> simp only [compileShape] <;> try exact .refl _
  case array | set => exact (h _ List.mem_cons_self _ _).bind fun _ => .refl _
  case object =>
    exact (buildFields_kept fun field member => h _ (List.mem_map_of_mem member)).map _
  case tuple slots rest =>
    refine (buildSlots_kept fun slot member => h _ (List.mem_append_left _ member)).bind
      fun strategies => ?_
    cases rest with
    | none => exact .refl _
    | some rest => exact (h rest (List.mem_append_right _ List.mem_cons_self) _ _).map _
  case record key value | map key value =>
    have second : value ∈ [key, value] := List.mem_cons_of_mem _ List.mem_cons_self
    exact (h key List.mem_cons_self _ _).bind fun _ => (h value second _ _).map _
  case union =>
    split
    · exact .refl _
    · exact (buildOptions_kept h).map _
  case discriminatedUnion =>
    split
    · exact .refl _
    · exact .refl _
    · exact (buildTagged_kept h).map _
  case function =>
    exact (h _ (List.mem_append_right _ List.mem_cons_self) _ _).map _
  case optional | nullable | default =>
    exact (h _ List.mem_cons_self _ _).bind fun _ => .refl _
  case promise | caught | effects | pipeline =>
    exact (h _ List.mem_cons_self _ _).map _
  case branded | readonly => exact h _ List.mem_cons_self _ _

/-- A schema is built as before if the overridden nodes are. -/
theorem compileInput_kept (h : ∀ id, Option.Rel Builder.Kept (resolver id) (resolver' id))
    (s : Schema) : (compileInput config resolver s).Kept (compileInput config resolver' s) := by
  induction s using Schema.induction with
  | node id shape ih =>
    intro cell path
    have node := h id
    cases overridden : resolver id with
    | none =>
      cases overridden' : resolver' id with
      | none =>
        rw [compileInput_free overridden, compileInput_free overridden']
        exact (Compiled.Kept.refl _).bind fun _ => compileShape_kept ih
      | some build =>
        rw [overridden, overridden'] at node
        cases node
    | some build =>
      cases overridden' : resolver' id with
      | none =>
        rw [overridden, overridden'] at node
        cases node
      | some build' =>
        rw [overridden, overridden'] at node
        rw [compileInput_overridden overridden, compileInput_overridden overridden']
        cases node with
        | some kept => exact (Compiled.Kept.refl _).bind fun _ => kept _ _

theorem compileMode_kept (h : ∀ id, Option.Rel Builder.Kept (resolver id) (resolver' id))
    (mode : Mode) (s : Schema) :
    (compileMode config resolver mode s cell path).Kept
      (compileMode config resolver' mode s cell path) :=
  (compileInput_kept h s cell path).bind fun _ => .refl _

end Nodes

/-- A factory that has one schema compiled in the place of another does no more than that. -/
theorem Recipe.follow_forward (c : Compiler) (compile : Compilation) (cell : Cell)
    (inner : Schema) (mode : Mode) :
    (Recipe.forward inner mode).follow c compile cell 0 #v[] =
      compile c mode inner (0 :: cell) := by
  rw [Recipe.forward, Recipe.follow]
  exact attempt_bind _ (fun _ => rfl) fun _ => rfl

/-- Compilations stay as they are, but for calls that are nested too deep. -/
def Compilation.Kept (compile compile' : Compilation) : Prop :=
  ∀ c mode s cell, (compile c mode s cell).Kept (compile' c mode s cell)

/-- A recipe is followed to the same end with compilations that stay as they are. -/
theorem Recipe.follow_kept {c : Compiler} {compile compile' : Compilation} {cell : Cell}
    (h : compile.Kept compile') {built : Nat} (recipe : Recipe Override built) (number : Nat)
    (strategies : Vector Strategy built) :
    (recipe.follow c compile cell number strategies).Kept
      (recipe.follow c compile' cell number strategies) := by
  induction recipe generalizing number with
  | give assemble => exact .refl _
  | stop reason => exact .refl _
  | inspect next ih => exact ih _ _ number strategies
  | compile settings registrations mode schema next otherwise ih ih' =>
    rw [Recipe.follow, Recipe.follow]
    refine (h _ mode schema _).attempt.bind fun tried => ?_
    cases tried with
    | ok strategy => exact ih _ _
    | error failure => exact ih' failure _ _

/-! ### Registered schemas -/

namespace Overrides

/-- The number of overridden schemas counts each one once. -/
theorem count_eq_card (o : Overrides) : o.count = (o.entries.map Prod.fst).toFinset.card := by
  show (o.entries.map Prod.fst).eraseDups.length = _
  rw [← List.toFinset_card_of_nodup (nodup_eraseDups _)]
  congr 1
  ext id
  simp only [List.mem_toFinset, List.mem_eraseDups]

/-- The identities with a registration are those that are resolved. -/
theorem mem_ids_iff {o : Overrides} {id : SchemaId} :
    id ∈ o.entries.map Prod.fst ↔ o.resolve? id ≠ none := by
  unfold resolve?
  rw [ne_eq, Option.map_eq_none_iff, List.find?_eq_none]
  simp

end Overrides

namespace Compiler

variable {c c' : Compiler} {mode : Mode} {s : Schema} {cell : Cell}

theorem resolverWith_kept {compile compile' : Compilation} (h : compile.Kept compile')
    (id : SchemaId) :
    Option.Rel Builder.Kept (c.resolverWith compile id) (c.resolverWith compile' id) := by
  unfold resolverWith
  cases c.overrides.resolve? id with
  | none => exact .none
  | some replacement =>
    refine .some fun cell path => ?_
    cases replacement with
    | ready strategy => exact .refl _
    | factory recipe => exact Recipe.follow_kept h recipe 0 #v[]

/-- With one call more, a compilation only changes if its calls were nested too deep. -/
theorem compile_kept (calls : Nat) : (compile calls).Kept (compile (calls + 1)) := by
  induction calls with
  | zero => exact fun c mode s cell => .inl rfl
  | succ calls ih => exact fun c mode s cell => compileMode_kept (resolverWith_kept ih) mode s

/-- **What a compilation comes to is the same with all greater bounds**, log and all, if it comes to
    a strategy or a failure with one. -/
theorem compile_of_le {calls deeper : Nat}
    (ends : (c.compile calls mode s cell).outcome ≠ .error .endless) (le : calls ≤ deeper) :
    c.compile deeper mode s cell = c.compile calls mode s cell := by
  induction deeper, le using Nat.le_induction with
  | base => rfl
  | succ deeper _ ih =>
    rcases compile_kept deeper c mode s cell with endless | same
    · rw [ih] at endless
      exact absurd endless ends
    · rw [← same, ih]

/-! ### Compilers that resolve alike -/

/-- Two compilers have the same settings and resolve each identity to the same override. -/
structure Alike (c c' : Compiler) : Prop where
  config : c.config = c'.config
  resolves : ∀ id, c.overrides.resolve? id = c'.overrides.resolve? id

/-- Compilers that resolve alike have overrides for as many schemas. -/
theorem Alike.count (h : c.Alike c') : c.overrides.count = c'.overrides.count := by
  rw [Overrides.count_eq_card, Overrides.count_eq_card]
  congr 1
  ext id
  rw [List.mem_toFinset, List.mem_toFinset, Overrides.mem_ids_iff, Overrides.mem_ids_iff,
    h.resolves]

/-- Further registrations leave compilers alike. -/
theorem Alike.derive (h : c.Alike c') (settings : Option Config)
    (registrations : List (SchemaId × Override)) :
    (c.derive settings registrations).Alike (c'.derive settings registrations) := by
  cases settings with
  | some config => exact ⟨rfl, fun _ => rfl⟩
  | none =>
    refine ⟨h.config, fun id => ?_⟩
    have resolves := h.resolves id
    unfold Overrides.resolve? at resolves ⊢
    show ((registrations ++ _).find? _).map _ = ((registrations ++ _).find? _).map _
    rw [List.find?_append, List.find?_append, Option.map_or, Option.map_or]
    exact congrArg _ resolves

/-- Alike compilers follow a recipe alike if they have schemas compiled alike. -/
theorem Alike.follow {compile : Compilation} (h : c.Alike c')
    (alike : ∀ c c' : Compiler, c.Alike c' → compile c = compile c') {built : Nat}
    (recipe : Recipe Override built) (number : Nat) (strategies : Vector Strategy built) :
    recipe.follow c compile cell number strategies =
      recipe.follow c' compile cell number strategies := by
  induction recipe generalizing number with
  | give assemble => rfl
  | stop reason => rfl
  | inspect next ih =>
    rw [Recipe.follow, Recipe.follow, h.config, h.count]
    exact ih _ _ number strategies
  | compile settings registrations mode schema next otherwise ih ih' =>
    rw [Recipe.follow, Recipe.follow, alike _ _ (h.derive settings registrations)]
    congr 1
    funext tried
    cases tried with
    | ok strategy => exact ih _ _
    | error failure => exact ih' failure _ _

/-- **Compilers that resolve alike compile alike**, each schema to the same strategy or to the same
    failure, also through factories that call back or derive further compilers. -/
theorem Alike.compile (h : c.Alike c') (calls : Nat) :
    Compiler.compile calls c = Compiler.compile calls c' := by
  induction calls generalizing c c' with
  | zero => rfl
  | succ calls ih =>
    have resolvers : c.resolverWith (Compiler.compile calls) =
        c'.resolverWith (Compiler.compile calls) := by
      funext id
      unfold resolverWith
      rw [h.resolves]
      congr 1
      funext replacement
      cases replacement with
      | ready strategy => rfl
      | factory recipe =>
        funext cell path
        exact h.follow (fun _ _ => ih) recipe 0 #v[]
    unfold Compiler.compile
    rw [resolvers, h.config]

end Compiler

/-! ### Why factories stop -/

/-- Why a recipe comes to no strategy, if it does not, given why compilations stop. -/
def Recipe.stop? (c : Compiler) (reasons : Compiler → Schema → Option Stop) :
    {built : Nat} → Recipe Override built → Option Stop
  | _, .give _ => none
  | _, .stop reason => some reason
  | _, .inspect next => stop? c reasons (next c.config c.overrides.count)
  | _, .compile settings registrations _ schema next otherwise =>
    match reasons (c.derive settings registrations) schema with
    | none => stop? c reasons next
    | some (.failed failure) => stop? c reasons (otherwise failure)
    | some reason => some reason

/-- Whether compilations stop, and why, depends on the compiler and the schema only. -/
def Compilation.Stops (compile : Compilation) (reasons : Compiler → Schema → Option Stop) : Prop :=
  ∀ c mode s cell, (compile c mode s cell).stop? = reasons c s

/-- Whether a recipe comes to a strategy does not depend on where the overridden node stands. -/
theorem Recipe.stop?_follow {c : Compiler} {compile : Compilation} {cell : Cell}
    {reasons : Compiler → Schema → Option Stop} (known : compile.Stops reasons) {built : Nat}
    (recipe : Recipe Override built) (number : Nat) (strategies : Vector Strategy built) :
    (recipe.follow c compile cell number strategies).stop? = recipe.stop? c reasons := by
  induction recipe generalizing number with
  | give assemble => rfl
  | stop reason => rfl
  | inspect next ih => exact ih _ _ number strategies
  | compile settings registrations mode schema next otherwise ih ih' =>
    rw [Recipe.follow, Recipe.stop?, ← known _ mode _ (number :: cell)]
    generalize compile _ mode schema _ = x
    obtain ⟨log, outcome⟩ := x
    -- what was compiled goes on with one strategy more, and a failure with what is left to try
    rcases outcome with (failure | _ | _) | strategy
    · exact ih' failure _ _
    · rfl
    · rfl
    · exact ih _ _

/-- A factory that has one schema compiled in the place of another stops as this compilation does. -/
theorem Recipe.stop?_forward (c : Compiler) (reasons : Compiler → Schema → Option Stop)
    (inner : Schema) (mode : Mode) :
    (Recipe.forward inner mode).stop? c reasons = reasons c inner := by
  have itself : c.derive none [] = c := rfl
  rw [Recipe.forward, Recipe.stop?, itself]
  rcases reasons c inner with _ | _ | _ | _ <;> rfl

/-- The compilation of a schema in either mode stops as that of its inputs. -/
theorem stop?_compileMode (config : Config) (resolver : Resolver) (mode : Mode) (s : Schema)
    (cell : Cell) (path : Path) :
    (compileMode config resolver mode s cell path).stop? =
      (compileInput config resolver s cell path).stop? := by
  refine stop?_bind_ok fun input => ?_
  cases mode with
  | input => rfl
  | output =>
    show (if s.keepsInput then _ else _ : Compiled Strategy).stop? = none
    split <;> rfl

namespace Compiler

variable {c : Compiler}

/-- Why an override gives no strategy, if it does not, given why compilations stop. -/
def replacementStop? (c : Compiler) (inside : Compiler → Schema → Option Stop) :
    Override → Option Stop
  | .ready _ => none
  | .factory recipe => recipe.stop? c inside

/-- Why overridden nodes give no strategy, if they do not. -/
def reasons (c : Compiler) (inside : Compiler → Schema → Option Stop) (id : SchemaId) :
    Option Stop :=
  (c.overrides.resolve? id).bind (c.replacementStop? inside)

/-- Why a compilation stops at a visit, if it does, given why those stop that factories ask for. -/
def stopAt? (c : Compiler) (inside : Compiler → Schema → Option Stop) : Visit → Option Stop :=
  Visit.stopBy? c.config c.overridden (c.reasons inside)

/-- Why the compilation of a schema stops, if it does, with calls nested at most so deep. -/
def stop? : (calls : Nat) → Compiler → Schema → Option Stop
  | 0, _, _ => some .endless
  | calls + 1, c, s => (c.faultOrder s).findSome? (c.stopAt? (stop? calls))

/-- A compilation stops at the first visit with a reason. -/
theorem stop?_compile (calls : Nat) : (compile calls).Stops (stop? calls) := by
  induction calls with
  | zero => exact fun c mode s cell => rfl
  | succ calls ih =>
    intro c mode s cell
    have known : (c.resolverWith (compile calls)).Stops (c.reasons (stop? calls)) := by
      intro id build overridden cell path
      obtain ⟨replacement, registered, rfl⟩ := Option.map_eq_some_iff.mp overridden
      rw [reasons, registered]
      cases replacement with
      | ready strategy => rfl
      -- the builder drops the path it is given and compiles from the root
      | factory recipe => exact recipe.stop?_follow ih 0 #v[]
    show (compileMode _ _ mode s cell .root).stop? = _
    rw [stop?_compileMode, stop?_compileInput_of_stops known, isSome_resolverWith]
    rfl

/-- **Where a compilation stops.** It succeeds exactly if no visit has a reason to stop, and else
    stops at the first one that has, in the order in which faults count.  A node's own fault names
    the path of the node.  A factory stops as its recipe does, whose compilations start from the
    outermost node of the schemas it names: nothing tells where the node stands that the factory was
    registered for.  In particular, one that has a schema compiled in the place of the node fails as
    this schema fails on its own. -/
theorem compile_walk (c : Compiler) (calls : Nat) (mode : Mode) (s : Schema) (cell : Cell) :
    let stopAt? := c.stopAt? (stop? calls)
    ((∃ strategy, (c.compile (calls + 1) mode s cell).outcome = .ok strategy) ↔
        ∀ visit ∈ c.walk s, stopAt? visit = none) ∧
      (∀ stop, (c.compile (calls + 1) mode s cell).outcome = .error stop ↔
        ∃ before visit after, c.faultOrder s = before ++ visit :: after ∧
          (∀ earlier ∈ before, stopAt? earlier = none) ∧ stopAt? visit = some stop) ∧
      (∀ visit stop, stopAt? visit = some stop ↔
        (c.overrides.resolve? visit.schema.id = none ∧
          ∃ fault, visit.schema.shape.fault? c.config = some fault ∧
            stop = fault.stop visit.path) ∨
        ∃ recipe, c.overrides.resolve? visit.schema.id = some (.factory recipe) ∧
          ∀ cell, (recipe.follow c (compile calls) cell 0 #v[]).outcome = .error stop) ∧
      ∀ inner innerMode cell,
        (Recipe.forward inner innerMode).follow c (compile calls) cell 0 #v[] =
          c.compile calls innerMode inner (0 :: cell) := by
  intro stopAt?
  have stops : (c.compile (calls + 1) mode s cell).stop? = (c.faultOrder s).findSome? stopAt? :=
    stop?_compile (calls + 1) c mode s cell
  refine ⟨?_, fun stop => ?_, fun visit stop => ?_, fun inner innerMode cell =>
    Recipe.follow_forward c (compile calls) cell inner innerMode⟩
  · rw [← stop?_eq_none_iff, stops, List.findSome?_eq_none_iff]
    exact forall_congr' fun visit => by rw [faultOrder, (Visit.walk_perm _ _ _ _ _).mem_iff, walk]
  · rw [← stop?_eq_some_iff, stops, List.findSome?_eq_some_iff]
    constructor
    · rintro ⟨before, visit, after, split, reason, earlier⟩
      exact ⟨before, visit, after, split, earlier, reason⟩
    · rintro ⟨before, visit, after, split, earlier, reason⟩
      exact ⟨before, visit, after, split, reason, earlier⟩
  · unfold stopAt? Compiler.stopAt? Visit.stopBy? overridden Compiler.reasons
    cases c.overrides.resolve? visit.schema.id with
    | none => simp [eq_comm]
    | some replacement =>
      cases replacement with
      | ready strategy => simp [replacementStop?]
      | factory recipe =>
        have anywhere : ∀ cell, (recipe.follow c (compile calls) cell 0 #v[]).stop? =
            recipe.stop? c (stop? calls) := fun _ => recipe.stop?_follow (stop?_compile calls) 0 #v[]
        simp [← stop?_eq_some_iff, anywhere, replacementStop?]

/-- A factory for a member asks for a schema without values.  The failure stands at the root, not
    at the member. -/
theorem exists_failure_without_place :
    let slot : Schema := .node 0 .boolean
    let never : Schema := .node 1 .never
    let s : Schema := .node 2 (.object [("a", slot)] .strip)
    let c := (withConfig .standard).withOverride slot (.factory (.forward never .input))
    ∃ visit ∈ c.walk s, visit.schema = slot ∧ visit.path = ⟨[.property "a"]⟩ ∧
      ∃ failure, (c.inputOf never []).outcome = .error (.failed failure) ∧
        (c.inputOf s []).outcome = .error (.failed failure) ∧
        ¬ visit.path.steps <+: failure.path.steps := by
  intro slot never s c
  let member : Visit := ⟨Path.root.into (.property "a"), slot⟩
  let failure : Failure := .unsupported .root Kind.never.typeName
  have named : c.overridden 0 = true := rfl
  have free : c.overridden 2 = false := rfl
  have visits : c.walk s = [⟨.root, s⟩, member] := by
    simp [walk, s, slot, member, Visit.walk_node, Shape.visited, named, free]
  have order : c.faultOrder s = [⟨.root, s⟩, member] := by
    simp [faultOrder, s, slot, member, Visit.walk_node, Shape.visited, Shape.ownLast, named, free]
  have alone : stop? 1 c never = some (.failed failure) := (stop?_compile 1 c .input never []).symm
  have forwarded : c.stopAt? (stop? 1) member = some (.failed failure) :=
    (Recipe.stop?_forward c (stop? 1) never .input).trans alone
  refine ⟨member, by simp [visits], rfl, rfl, failure, rfl, ?_, by decide⟩
  show (c.compile 2 .input s []).outcome = _
  rw [← stop?_eq_some_iff, stop?_compile, stop?, order, findSome?_cons_eq_or, findSome?_cons_eq_or,
    forwarded]
  rfl

end Compiler

end SchemaSampler
