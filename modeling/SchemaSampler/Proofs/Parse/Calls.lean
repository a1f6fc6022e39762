import Mathlib.Data.List.Forall2
import SchemaSampler.Proofs.Lists
import SchemaSampler.Proofs.Parse.Depth
import SchemaSampler.Schema.Call

namespace SchemaSampler

/-!
# Calls through guards — what a guarded call returns

A call goes through the guards of a function from the outermost inwards and comes back through
their result schemas.  Like a test, it ends alike within all depths that suffice for it, so it is
described without them: `Context.Makes` says what a test makes of a value, and `Context.Returns`
what a call returns.

* `Context.returns_nil_iff`, `Context.returns_cons_iff` — what a call returns, one guard at a time.
* `Context.not_refused_cons` — a guard refuses no call with arguments that it accepts, unless what
  it guards refuses the call or its result schema the result.
-/

namespace Context

variable {ctx : Context} {depth depth' position : Nat} {site : Site} {s : Schema}
  {v w w' : Value} {guard : SchemaId} {guards : List SchemaId} {behaviour : Behaviour Value}
  {identity : Identity} {args ws : List Value} {tested : List (Schema × Value)}

/-! ### Going on after an outcome -/

section Onward

variable {ε α β : Type} {x : Option (Except ε α)} {f : α → Option (Except ε β)}

/-- Goes on with what was accepted and passes on a refusal. -/
def onward (f : α → Option (Except ε β)) : Except ε α → Option (Except ε β)
  | .error e => some (.error e)
  | .ok a => f a

theorem bind_onward_eq_ok_iff {b : β} :
    x >>= onward f = some (.ok b) ↔ ∃ a, x = some (.ok a) ∧ f a = some (.ok b) := by
  refine Option.bind_eq_some_iff.trans ⟨?_, fun ⟨a, hx, hf⟩ => ⟨.ok a, hx, hf⟩⟩
  rintro ⟨e | a, hx, hf⟩
  · cases hf
  · exact ⟨a, hx, hf⟩

/-- What is refused was refused at first or later. -/
theorem bind_onward_eq_error {e : ε} (h : x >>= onward f = some (.error e)) :
    x = some (.error e) ∨ ∃ a, x = some (.ok a) ∧ f a = some (.error e) := by
  obtain ⟨e' | a, hx, hf⟩ := Option.bind_eq_some_iff.mp h
  · cases hf
    exact .inl hx
  · exact .inr ⟨a, hx, hf⟩

end Onward

theorem parseArguments_cons (depth : Nat) (site : Site) (position : Nat) (t : Schema × Value)
    (tested : List (Schema × Value)) :
    ctx.parseArguments depth site position (t :: tested) =
      ctx.parse depth (.branch position :: site) t.1 t.2 >>= onward fun first =>
        ctx.parseArguments depth site (position + 1) tested >>= onward fun others =>
          some (.ok (first :: others)) := by
  rw [parseArguments]
  refine congrArg (ctx.parse depth (.branch position :: site) t.1 t.2 >>= ·) ?_
  funext first
  cases first with
  | error e => rfl
  | ok first =>
    refine congrArg (ctx.parseArguments depth site (position + 1) tested >>= ·) ?_
    exact funext fun others => by cases others <;> rfl

/-- A call with as many arguments as the guard declares: it tests them, calls what is guarded and
    tests the result. -/
theorem callGuarded_cons {schemas : List Schema} {result : Schema}
    (signed : ctx.signature guard = some (schemas, result)) (arity : args.length = schemas.length)
    (depth : Nat) (behaviour : Behaviour Value) (guards : List SchemaId) (site : Site) :
    ctx.callGuarded depth behaviour (guard :: guards) site args =
      ctx.parseArguments depth site 2 (schemas.zip args) >>= onward fun parsed =>
        ctx.callGuarded depth behaviour guards (.branch 0 :: site) parsed >>= onward fun returned =>
          ctx.parse depth (.branch 1 :: site) result returned := by
  rw [callGuarded, signed]
  refine (if_neg (not_not.mpr arity)).trans ?_
  refine congrArg (ctx.parseArguments depth site 2 (schemas.zip args) >>= ·) ?_
  funext parsed
  cases parsed with
  | error e => rfl
  | ok parsed =>
    refine congrArg (ctx.callGuarded depth behaviour guards (.branch 0 :: site) parsed >>= ·) ?_
    exact funext fun returned => by cases returned <;> rfl

/-- A call with any other number of arguments is refused. -/
theorem callGuarded_cons_of_length_ne {schemas : List Schema} {result : Schema}
    (signed : ctx.signature guard = some (schemas, result)) (arity : args.length ≠ schemas.length)
    (depth : Nat) (behaviour : Behaviour Value) (guards : List SchemaId) (site : Site) :
    ctx.callGuarded depth behaviour (guard :: guards) site args =
      some (.error (.ofProblem (.argumentCount schemas.length args.length))) := by
  rw [callGuarded, signed]
  exact if_pos arity

/-! ### Depth -/

theorem parse_mono (le : depth ≤ depth') {out : Except ParseError Value}
    (h : ctx.parse depth site s v = some out) : ctx.parse depth' site s v = some out := by
  obtain ⟨parsed, within, rfl⟩ := Option.map_eq_some_iff.mp h
  exact Option.map_eq_some_iff.mpr ⟨parsed, Schema.parseWithin_mono le within, rfl⟩

/-- What is made of outcomes that stay the same stays the same. -/
theorem bind_onward_mono {ε α β : Type} {x x' : Option (Except ε α)}
    {f f' : α → Option (Except ε β)} {out : Except ε β}
    (first : ∀ out, x = some out → x' = some out)
    (second : ∀ a out, f a = some out → f' a = some out) (h : x >>= onward f = some out) :
    x' >>= onward f' = some out := by
  obtain ⟨part, hx, hf⟩ := Option.bind_eq_some_iff.mp h
  refine Option.bind_eq_some_iff.mpr ⟨part, first part hx, ?_⟩
  cases part with
  | error e => exact hf
  | ok a => exact second a out hf

theorem parseArguments_mono (le : depth ≤ depth') {out : Except ParseError (List Value)}
    (h : ctx.parseArguments depth site position tested = some out) :
    ctx.parseArguments depth' site position tested = some out := by
  induction tested generalizing position out with
  | nil => exact h
  | cons t rest ih =>
    rw [parseArguments_cons] at h ⊢
    refine bind_onward_mono (fun _ => parse_mono le) (fun _ _ => ?_) h
    exact bind_onward_mono (fun _ => ih) fun _ _ => id

/-- A call that ended within a depth ends alike within any greater one. -/
theorem callGuarded_mono (le : depth ≤ depth') {out : Except ParseError Value}
    (h : ctx.callGuarded depth behaviour guards site args = some out) :
    ctx.callGuarded depth' behaviour guards site args = some out := by
  induction guards generalizing site args out with
  | nil => exact h
  | cons guard inner ih =>
    -- the guard is known, since the call ended
    obtain ⟨⟨schemas, result⟩, signed, _⟩ := Option.bind_eq_some_iff.mp h
    by_cases arity : args.length = schemas.length
    · rw [callGuarded_cons signed arity] at h ⊢
      refine bind_onward_mono (fun _ => parseArguments_mono le) (fun _ _ => ?_) h
      exact bind_onward_mono (fun _ => ih) fun _ _ => parse_mono le
    · rw [callGuarded_cons_of_length_ne signed arity] at h ⊢
      exact h

/-! ### Tests -/

/-- The test of a value comes to an end and accepts it, with a result. -/
def Makes (ctx : Context) (site : Site) (s : Schema) (v w : Value) : Prop :=
  ∃ depth, ctx.parse depth site s v = some (.ok w)

/-- The tests of arguments, numbered from a position, accept all of them, with these results. -/
def MakesAll (ctx : Context) (site : Site) (position : Nat) (tested : List (Schema × Value))
    (ws : List Value) : Prop :=
  List.Forall₂ (fun t w => ctx.Makes (.branch t.2 :: site) t.1.1 t.1.2 w)
    (tested.zipIdx position) ws

/-- Arguments are accepted together if each of them is. -/
theorem exists_makesAll
    (h : ∀ t ∈ tested.zipIdx position, ∃ w, ctx.Makes (.branch t.2 :: site) t.1.1 t.1.2 w) :
    ∃ ws, ctx.MakesAll site position tested ws := by
  unfold MakesAll
  generalize tested.zipIdx position = numbered at h
  induction numbered with
  | nil => exact ⟨[], .nil⟩
  | cons t rest ih =>
    obtain ⟨w, first⟩ := h t List.mem_cons_self
    obtain ⟨ws, others⟩ := ih fun t member => h t (List.mem_cons_of_mem _ member)
    exact ⟨w :: ws, .cons first others⟩

theorem parseArguments_cons_iff {t : Schema × Value} :
    ctx.parseArguments depth site position (t :: tested) = some (.ok ws) ↔
      ∃ w others, ctx.parse depth (.branch position :: site) t.1 t.2 = some (.ok w) ∧
        ctx.parseArguments depth site (position + 1) tested = some (.ok others) ∧
        ws = w :: others := by
  rw [parseArguments_cons, bind_onward_eq_ok_iff]
  refine exists_congr fun w => ?_
  rw [bind_onward_eq_ok_iff, exists_and_left]
  refine and_congr_right fun _ => exists_congr fun others => and_congr_right fun _ => ?_
  exact ⟨fun same => (Except.ok.inj (Option.some.inj same)).symm, by rintro rfl; rfl⟩

/-- The tests of arguments come to these results within some depth. -/
theorem exists_parseArguments_iff :
    (∃ depth, ctx.parseArguments depth site position tested = some (.ok ws)) ↔
      ctx.MakesAll site position tested ws := by
  induction tested generalizing position ws with
  | nil =>
    rw [MakesAll, List.zipIdx_nil, List.forall₂_nil_left_iff]
    constructor
    · rintro ⟨_, same⟩
      exact (Except.ok.inj (Option.some.inj same)).symm
    · rintro rfl
      exact ⟨0, rfl⟩
  | cons t rest ih =>
    rw [MakesAll, List.zipIdx_cons, List.forall₂_cons_left_iff]
    constructor
    · rintro ⟨depth, returns⟩
      obtain ⟨w, others, first, further, rfl⟩ := parseArguments_cons_iff.mp returns
      exact ⟨w, others, ⟨depth, first⟩, ih.mp ⟨depth, further⟩, rfl⟩
    · rintro ⟨w, others, ⟨depth, first⟩, further, rfl⟩
      obtain ⟨depth', further⟩ := ih.mpr further
      -- the first argument and the others may need different depths
      exact ⟨max depth depth', parseArguments_cons_iff.mpr ⟨w, others,
        parse_mono (Nat.le_max_left _ _) first, parseArguments_mono (Nat.le_max_right _ _) further,
        rfl⟩⟩

/-- Arguments that are accepted are refused within no depth. -/
theorem MakesAll.not_refused (h : ctx.MakesAll site position tested ws) (e : ParseError) :
    ctx.parseArguments depth site position tested ≠ some (.error e) := by
  intro refused
  obtain ⟨depth', h⟩ := exists_parseArguments_iff.mpr h
  have both := (parseArguments_mono (Nat.le_max_left depth depth') refused).symm.trans
    (parseArguments_mono (Nat.le_max_right depth depth') h)
  cases both

/-! ### Calls -/

/-- A call comes to an end and returns a value. -/
def Returns (ctx : Context) (site : Site) (f : Callable Value) (args : List Value) (w : Value) :
    Prop :=
  ∃ depth, ctx.call depth site f args = some (.ok w)

/-- Without guards a function does what it is there for. -/
theorem returns_nil_iff :
    ctx.Returns site ⟨identity, behaviour, []⟩ args w ↔ ctx.behave args behaviour = .ok w :=
  ⟨fun ⟨_, h⟩ => Option.some.inj h, fun h => ⟨0, congrArg some h⟩⟩

section Guard

variable {schemas : List Schema} {result : Schema}

/-- **A call through a guard.** It returns a value exactly if there are as many arguments as the
    guard declares and it accepts each, if what it guards returns a value for what it makes of
    them, and if its result schema makes the returned value of that. -/
theorem returns_cons_iff (signed : ctx.signature guard = some (schemas, result)) :
    ctx.Returns site ⟨identity, behaviour, guard :: guards⟩ args w ↔
      args.length = schemas.length ∧ ∃ parsed returned,
        ctx.MakesAll site 2 (schemas.zip args) parsed ∧
        ctx.Returns (.branch 0 :: site) ⟨identity, behaviour, guards⟩ parsed returned ∧
        ctx.Makes (.branch 1 :: site) result returned w := by
  by_cases arity : args.length = schemas.length
  · simp only [arity, true_and]
    constructor
    · rintro ⟨depth, h⟩
      rw [call, callGuarded_cons signed arity, bind_onward_eq_ok_iff] at h
      obtain ⟨parsed, accepted, h⟩ := h
      rw [bind_onward_eq_ok_iff] at h
      obtain ⟨returned, behaves, h⟩ := h
      exact ⟨parsed, returned, exists_parseArguments_iff.mp ⟨depth, accepted⟩, ⟨depth, behaves⟩,
        depth, h⟩
    · rintro ⟨parsed, returned, accepted, ⟨depth, behaves⟩, depth', h⟩
      -- the greatest of the depths that suffice for the three parts suffices for the call
      obtain ⟨depth'', accepted⟩ := exists_parseArguments_iff.mpr accepted
      refine ⟨max depth'' (max depth depth'), ?_⟩
      rw [call, callGuarded_cons signed arity, bind_onward_eq_ok_iff]
      refine ⟨parsed, parseArguments_mono (by omega) accepted, ?_⟩
      rw [bind_onward_eq_ok_iff]
      exact ⟨returned, callGuarded_mono (by omega) behaves, parse_mono (by omega) h⟩
  · refine iff_of_false ?_ fun h => arity h.1
    rintro ⟨depth, h⟩
    rw [call, callGuarded_cons_of_length_ne signed arity] at h
    cases h

/-- **No refusal.** A guard that accepts the arguments refuses no call, if what it guards refuses
    none and its result schema accepts whatever is returned to it. -/
theorem not_refused_cons (signed : ctx.signature guard = some (schemas, result))
    (arity : args.length = schemas.length) {parsed : List Value}
    (accepted : ctx.MakesAll site 2 (schemas.zip args) parsed)
    (inner : ∀ depth args e,
      ctx.callGuarded depth behaviour guards (.branch 0 :: site) args ≠ some (.error e))
    (final : ∀ depth args returned,
      ctx.callGuarded depth behaviour guards (.branch 0 :: site) args = some (.ok returned) →
        ∀ e, ctx.parse depth (.branch 1 :: site) result returned ≠ some (.error e))
    (depth : Nat) (e : ParseError) :
    ctx.call depth site ⟨identity, behaviour, guard :: guards⟩ args ≠ some (.error e) := by
  intro refused
  rw [call, callGuarded_cons signed arity] at refused
  rcases bind_onward_eq_error refused with first | ⟨parsed, _, refused⟩
  · exact accepted.not_refused e first
  · rcases bind_onward_eq_error refused with second | ⟨returned, behaves, third⟩
    · exact inner depth parsed e second
    · exact final depth parsed returned behaves e third

end Guard

end Context

end SchemaSampler
