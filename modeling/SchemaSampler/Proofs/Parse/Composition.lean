import SchemaSampler.Proofs.Parse.Outcome
import SchemaSampler.Proofs.Schema.Tags

namespace SchemaSampler

/-!
# Composition — one level of a test, in whatever form it runs

A test asks inner schemas about values, and what it makes of their outcomes does not depend on the
form that the test runs in, with a bare outcome or with the reason why there is none.

* `Shape.Consults` — which tests of inner schemas, and of which values, one level of a test can ask
  for.
* `Composes` — a relation of computations that putting them together respects.
* `Composes.step` — such a relation holds of a level if it holds of the tests that it consults.
* `Schema.parseWithin_eq_toOption` — the two forms of test have the same outcomes.
-/

/-- A test against a shape can ask an inner schema about a value.  Which options and slots are asked
    and which second stages of pipelines come to be is left open. -/
inductive Shape.Consults (definitions : Definitions) :
    Shape Schema → Value → Schema → Value → Prop where
  | item {item : Schema} {bounds : SizeBounds} {items : List Value} {u : Value}
      (member : u ∈ items) : Consults definitions (.array item bounds) (.array items) item u
  | element {item : Schema} {bounds : SizeBounds} {items : List Value} {u : Value}
      (member : u ∈ items) : Consults definitions (.set item bounds) (.set items) item u
  | field {fields : List (String × Schema)} {unknownKeys : UnknownKeys}
      {input : List (String × Value)} {field : String × Schema} (member : field ∈ fields) :
      Consults definitions (.object fields unknownKeys) (.object input) field.2
        (fieldInput input field.1)
  | slot {slots : List Schema} {rest : Option Schema} {items : List Value} {t : Schema} {u : Value}
      (child : t ∈ slots ++ rest.toList) (member : u ∈ items) :
      Consults definitions (.tuple slots rest) (.array items) t u
  | recordKey {key value : Schema} {input : List (String × Value)} {m : String × Value}
      (member : m ∈ input) :
      Consults definitions (.record key value) (.object input) key (.string m.1)
  | recordValue {key value : Schema} {input : List (String × Value)} {m : String × Value}
      (member : m ∈ input) : Consults definitions (.record key value) (.object input) value m.2
  | mapKey {key value : Schema} {entries : List (Value × Value)} {e : Value × Value}
      (member : e ∈ entries) : Consults definitions (.map key value) (.map entries) key e.1
  | mapValue {key value : Schema} {entries : List (Value × Value)} {e : Value × Value}
      (member : e ∈ entries) : Consults definitions (.map key value) (.map entries) value e.2
  | option {options : List Schema} {v : Value} {t : Schema} (child : t ∈ options) :
      Consults definitions (.union options) v t v
  | tagged {discriminator : String} {options : List Schema} {table : TagTable} {v : Value}
      {t : Schema} (tags : tagTable discriminator options = .ok table)
      (selected : t ∈ table.selected options) :
      Consults definitions (.discriminatedUnion discriminator options) v t v
  | left {left right : Schema} {v : Value} :
      Consults definitions (.intersection left right) v left v
  | right {left right : Schema} {v : Value} :
      Consults definitions (.intersection left right) v right v
  | settled {inner : Schema} {u : Value} :
      Consults definitions (.promise inner) (.promise u) inner u
  | named {name : String} {v : Value} {t : Schema} (named : definitions name = some t) :
      Consults definitions (.lazy name) v t v
  | optional {inner : Schema} {v : Value} : Consults definitions (.optional inner) v inner v
  | nullable {inner : Schema} {v : Value} : Consults definitions (.nullable inner) v inner v
  | default {inner : Schema} {value v u : Value} (either : u = v ∨ u = value) :
      Consults definitions (.default inner value) v inner u
  | caught {inner : Schema} {fallback v : Value} :
      Consults definitions (.caught inner fallback) v inner v
  | refined {inner : Schema} {check : Value → Bool} {reason : String} {v : Value} :
      Consults definitions (.effects inner (.refinement check reason)) v inner v
  | transformed {inner : Schema} {map : Value → Except String Value} {v : Value} :
      Consults definitions (.effects inner (.transform map)) v inner v
  | prepared {inner : Schema} {map : Value → Value} {v : Value} :
      Consults definitions (.effects inner (.preprocess map)) v inner (map v)
  | first {first second : Schema} {v : Value} :
      Consults definitions (.pipeline first second) v first v
  | second {first second : Schema} {v u : Value} :
      Consults definitions (.pipeline first second) v second u
  | branded {inner : Schema} {brand : String} {v : Value} :
      Consults definitions (.branded inner brand) v inner v
  | readonly {inner : Schema} {v : Value} : Consults definitions (.readonly inner) v inner v

/-- A test consults the inner schemas and the definition that a lazy schema names. -/
theorem Shape.Consults.asks {definitions : Definitions} {shape : Shape Schema} {v u : Value}
    {t : Schema} (h : shape.Consults definitions v t u) : shape.Asks definitions t := by
  cases h
  case named name named => exact .inr ⟨_, rfl, named⟩
  case field member => exact .inl (List.mem_map_of_mem member)
  case slot child _ => exact .inl child
  case option child => exact .inl child
  case tagged tags selected => exact .inl (TagTable.mem_of_mem_selected selected)
  all_goals exact .inl (by simp [children])

/-- A shape without a step of minus one, by which the least big integer cannot be divided. -/
def Shape.OverflowFree {σ : Type} : Shape σ → Prop
  | .bigint checks => .multipleOf (-1) ∉ checks
  | _ => True

/-! ### One level

How a level of a test comes out is put together of how the tests of inner schemas do, for each form of
test alike. -/

/-- A relation of computations in two forms that is passed on to those put together of them. -/
structure Composes {m n : Type → Type} [Monad m] [Monad n] (R : ∀ α : Type, m α → n α → Prop) :
    Prop where
  /-- It holds of a result. -/
  pure {α : Type} (a : α) : R α (pure a) (pure a)
  /-- It holds of two computations in a row. -/
  bind {α β : Type} {x : m α} {y : n α} {f : α → m β} {g : α → n β} (first : R α x y)
    (next : ∀ a, R β (f a) (g a)) : R β (x >>= f) (y >>= g)

namespace Composes

variable {m n : Type → Type} [Monad m] [Monad n] {R : ∀ α : Type, m α → n α → Prop}
  {recur : Recur m} {recur' : Recur n} {site : Site} {v : Value}

/-- Runs over a list are related if they are at each of its elements. -/
theorem mapM [LawfulMonad m] [LawfulMonad n] (composes : Composes R) {α β : Type} {f : α → m β}
    {g : α → n β} {as : List α} (h : ∀ a ∈ as, R β (f a) (g a)) :
    R (List β) (as.mapM f) (as.mapM g) := by
  induction as with
  | nil =>
    simp only [List.mapM_nil]
    exact composes.pure []
  | cons a as ih =>
    simp only [List.mapM_cons]
    refine composes.bind (h a (by simp)) fun b => ?_
    exact composes.bind (ih fun a member => h a (by simp [member])) fun bs => composes.pure _

/-! #### Collections -/

/-- The tests of elements are related if those of each one are, wherever they are made. -/
theorem parseItems [LawfulMonad m] [LawfulMonad n] (composes : Composes R)
    {items : List (Schema × Value)}
    (h : ∀ p ∈ items, ∀ site, R _ (recur site p.1 p.2) (recur' site p.1 p.2)) :
    R _ (parseItems recur site items) (parseItems recur' site items) :=
  composes.mapM fun p member => h p.1 (List.fst_mem_of_mem_zipIdx member) _

/-- So are those of collections. -/
theorem parseCollection [LawfulMonad m] [LawfulMonad n] (composes : Composes R) {c : Collection}
    {item : Schema} {bounds : SizeBounds} {items : List Value} {build : List Value → Value}
    (h : ∀ u ∈ items, ∀ site, R _ (recur site item u) (recur' site item u)) :
    R _ (parseCollection recur site c item bounds items build)
      (parseCollection recur' site c item bounds items build) := by
  refine composes.bind (composes.parseItems fun p member => ?_) fun _ => composes.pure _
  obtain ⟨u, hu, rfl⟩ := List.mem_map.mp member
  exact h u hu

/-- So are those of tuples. -/
theorem parseTuple [LawfulMonad m] [LawfulMonad n] (composes : Composes R) {slots : List Schema}
    {rest : Option Schema} {items : List Value}
    (h : ∀ t ∈ slots ++ rest.toList, ∀ u ∈ items, ∀ site,
      R _ (recur site t u) (recur' site t u)) :
    R _ (parseTuple recur site slots rest items) (parseTuple recur' site slots rest items) := by
  unfold SchemaSampler.parseTuple
  split
  · exact composes.pure _
  · rename_i schemas hslots
    refine composes.bind (composes.parseItems fun p member => ?_) fun _ => composes.pure _
    have paired := List.of_mem_zip member
    exact h p.1 (mem_of_tupleSlots? hslots paired.1) p.2 paired.2

/-- The tests of objects are related if those of the declared members are. -/
theorem parseObject [LawfulMonad m] [LawfulMonad n] (composes : Composes R)
    {fields : List (String × Schema)} {unknownKeys : UnknownKeys} {input : List (String × Value)}
    (h : ∀ field ∈ fields, ∀ site, R _ (recur site field.2 (fieldInput input field.1))
      (recur' site field.2 (fieldInput input field.1))) :
    R _ (parseObject recur site fields unknownKeys input)
      (parseObject recur' site fields unknownKeys input) := by
  refine composes.bind (composes.mapM fun field member => ?_) fun parts => ?_
  · exact composes.bind (h field member _) fun _ => composes.pure _
  · cases unknownKeys <;> exact composes.pure _

/-- The tests of records are related if those of keys and values are. -/
theorem parseRecord [LawfulMonad m] [LawfulMonad n] (composes : Composes R) {key value : Schema}
    {input : List (String × Value)}
    (hkey : ∀ m ∈ input, ∀ site,
      R _ (recur site key (.string m.1)) (recur' site key (.string m.1)))
    (hvalue : ∀ m ∈ input, ∀ site, R _ (recur site value m.2) (recur' site value m.2)) :
    R _ (parseRecord recur site key value input) (parseRecord recur' site key value input) := by
  refine composes.bind (composes.mapM fun m member => ?_) fun _ => composes.pure _
  exact composes.bind (hkey m member _) fun _ =>
    composes.bind (hvalue m member _) fun _ => composes.pure _

/-- So are those of maps. -/
theorem parseMap [LawfulMonad m] [LawfulMonad n] (composes : Composes R) {key value : Schema}
    {entries : List (Value × Value)}
    (hkey : ∀ e ∈ entries, ∀ site, R _ (recur site key e.1) (recur' site key e.1))
    (hvalue : ∀ e ∈ entries, ∀ site, R _ (recur site value e.2) (recur' site value e.2)) :
    R _ (parseMap recur site key value entries) (parseMap recur' site key value entries) := by
  refine composes.bind (composes.mapM fun e positioned => ?_) fun _ => composes.pure _
  have member := List.fst_mem_of_mem_zipIdx positioned
  exact composes.bind (hkey e.1 member _) fun _ =>
    composes.bind (hvalue e.1 member _) fun _ => composes.pure _

/-! #### Alternatives and effects -/

/-- Related tests of the options accept alike, so the choice falls on the same one. -/
theorem firstAccepted (composes : Composes R) {options : List Schema}
    (h : ∀ t ∈ options, ∀ site, R _ (recur site t v) (recur' site t v)) :
    R _ (firstAccepted recur site v options) (firstAccepted recur' site v options) := by
  induction options with
  | nil => exact composes.pure _
  | cons option rest ih =>
    refine composes.bind (h option (by simp) _) fun first => ?_
    cases first with
    | ok w => exact composes.pure _
    | error found => exact ih fun t member => h t (by simp [member])

/-- A discriminated union asks the options of its table only. -/
theorem parseTagged (composes : Composes R) {discriminator : String} {options : List Schema}
    {input : List (String × Value)} (h : ∀ table, tagTable discriminator options = .ok table →
      ∀ t ∈ table.selected options, ∀ site,
        R _ (recur site t (.object input)) (recur' site t (.object input))) :
    R _ (parseTagged recur site discriminator options input)
      (parseTagged recur' site discriminator options input) := by
  unfold SchemaSampler.parseTagged
  split
  · exact composes.pure _
  · rename_i table tags
    simp only
    split
    · split
      · rename_i tag _ option selected
        obtain ⟨position, hposition, hoption⟩ := Option.bind_eq_some_iff.mp selected
        exact h table tags option
          (List.mem_filterMap.mpr ⟨_, mem_of_findMember? hposition, hoption⟩) _
      · exact composes.pure _
    · exact composes.pure _

/-- An effect applies its function to what the related tests both come to. -/
theorem parseEffect (composes : Composes R) {definitions : Definitions} {inner : Schema}
    {effect : Effect}
    (h : ∀ t u, (Shape.effects inner effect).Consults definitions v t u →
      ∀ site, R _ (recur site t u) (recur' site t u)) :
    R _ (parseEffect recur site inner effect v) (parseEffect recur' site inner effect v) := by
  cases effect with
  | refinement check reason =>
    refine composes.bind (h _ _ .refined _) fun first => ?_
    cases first <;> exact composes.pure _
  | transform map =>
    refine composes.bind (h _ _ .transformed _) fun first => ?_
    cases first with
    | ok w =>
      simp only
      split <;> exact composes.pure _
    | error found => exact composes.pure _
  | preprocess map => exact h _ _ .prepared _

/-- The checks of a big integer ask for no further test, but may break off under a step of minus
    one. -/
theorem parseBigint [Aborts m] [Aborts n] (composes : Composes R) {checks : List BigintCheck}
    {n' : Int} (breaks : .multipleOf (-1) ∉ checks ∨ R Parsed Aborts.abort Aborts.abort) :
    R _ (parseBigint (m := m) site checks n') (parseBigint (m := n) site checks n') := by
  unfold SchemaSampler.parseBigint
  split
  · exact composes.pure _
  · rename_i missing
    refine breaks.resolve_left fun absent => ?_
    obtain ⟨check, member, -, rfl⟩ := BigintCheck.runAll?_eq_none_iff.mp missing
    exact absent member

/-- **One level of a test** is related in the two forms if the tests are that the level consults, and
    if computations that break off are or none does. -/
theorem step [LawfulMonad m] [LawfulMonad n] [Aborts m] [Aborts n] (composes : Composes R)
    {definitions : Definitions} {id : SchemaId} {shape : Shape Schema}
    (breaks : shape.OverflowFree ∨ R Parsed Aborts.abort Aborts.abort)
    (h : ∀ t u, shape.Consults definitions v t u →
      ∀ site, R _ (recur site t u) (recur' site t u)) :
    R _ (shape.step definitions recur site id v) (shape.step definitions recur' site id v) := by
  cases shape <;> simp only [Shape.step] <;> try exact composes.pure _
  case string | date | function => split <;> exact composes.pure _
  case bigint =>
    split
    · exact composes.parseBigint breaks
    · exact composes.pure _
  case number =>
    split
    · split <;> exact composes.pure _
    · exact composes.pure _
  case array =>
    split
    · exact composes.parseCollection fun u member => h _ _ (.item member)
    · exact composes.pure _
  case set =>
    split
    · exact composes.parseCollection fun u member => h _ _ (.element member)
    · exact composes.pure _
  case object =>
    split
    · exact composes.parseObject fun field member => h _ _ (.field member)
    · exact composes.pure _
  case tuple =>
    split
    · exact composes.parseTuple fun t child u member => h _ _ (.slot child member)
    · exact composes.pure _
  case record =>
    split
    · exact composes.parseRecord (fun m member => h _ _ (.recordKey member))
        fun m member => h _ _ (.recordValue member)
    · exact composes.pure _
  case map =>
    split
    · exact composes.parseMap (fun e member => h _ _ (.mapKey member))
        fun e member => h _ _ (.mapValue member)
    · exact composes.pure _
  case union => exact composes.firstAccepted fun t child => h _ _ (.option child)
  case discriminatedUnion =>
    split
    · exact composes.parseTagged fun table tags t selected => h _ _ (.tagged tags selected)
    · exact composes.pure _
  case intersection =>
    exact composes.bind (h _ _ .left _) fun _ => composes.bind (h _ _ .right _) fun _ =>
      composes.pure _
  case promise =>
    split
    · refine composes.bind (h _ _ .settled _) fun first => ?_
      cases first <;> exact composes.pure _
    · exact composes.pure _
  case «lazy» =>
    split
    · exact h _ _ (.named ‹_›) _
    · exact composes.pure _
  case optional =>
    split
    · exact composes.pure _
    · exact h _ _ .optional _
  case nullable =>
    split
    · exact composes.pure _
    · exact h _ _ .nullable _
  case default =>
    split
    · exact h _ _ (.default (.inr rfl)) _
    · exact h _ _ (.default (.inl rfl)) _
  case caught =>
    refine composes.bind (h _ _ .caught _) fun first => ?_
    cases first <;> exact composes.pure _
  case effects => exact composes.parseEffect h
  case pipeline =>
    refine composes.bind (h _ _ .first _) fun outcome => ?_
    cases outcome with
    | ok w => exact h _ _ .second _
    | error found => exact composes.pure _
  case branded => exact h _ _ .branded _
  case readonly => exact h _ _ .readonly _

end Composes

/-! ### The two forms -/

/-- Forgetting why there is no outcome goes along with putting computations together. -/
theorem composes_toOption :
    Composes fun α (run : Except Halt α) (outcome : Option α) => run.toOption = outcome where
  pure _ := rfl
  bind := by
    rintro α β (_ | a) _ f g rfl next
    · rfl
    · exact next a

/-- **The two forms of a test agree**: there is an outcome in the one where there is in the other, and
    the same one. -/
theorem Schema.parseWithin_eq_toOption (definitions : Definitions) (depth : Nat) (site : Site)
    (s : Schema) (v : Value) :
    parseWithin definitions depth site s v = (runWithin definitions depth site s v).toOption := by
  symm
  induction depth generalizing site s v with
  | zero => rfl
  | succ depth ih => exact composes_toOption.step (.inr rfl) fun t u _ site => ih site t u

end SchemaSampler
