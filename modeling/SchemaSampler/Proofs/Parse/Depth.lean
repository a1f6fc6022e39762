import SchemaSampler.Proofs.Parse.Outcome

namespace SchemaSampler

/-!
# Depth — the bound on the recursion of a test only decides whether it ends

A level of a test that comes to an end has made finitely many tests of inner schemas, and it ends
alike wherever these have the same outcomes (`Shape.step_determined`).

* `parseWithin_mono` — a test that ended within a depth ends alike within any greater one, so two
  tests that ended had the same outcome (`parseWithin_unique`).
* `exists_depth_of_step` — if a level comes to an end with the tests of inner schemas bounded by
  no depth at all, then some depth suffices for it.
-/

open Parsed

/-- Tests of inner schemas, each with its outcome. -/
abbrev Answers := List (Site × Schema × Value × Parsed)

/-- The tests of inner schemas have these outcomes. -/
def Recur.Gives (recur : Recur) (answers : Answers) : Prop :=
  ∀ site s v out, (site, s, v, out) ∈ answers → recur site s v = some out

/-- What is made of the tests of inner schemas comes to a result after finitely many of them, and to
    the same result wherever these have the same outcomes. -/
def Recur.Determines {α : Type} (recur : Recur) (level : Recur → Option α) (a : α) : Prop :=
  ∃ answers, recur.Gives answers ∧ ∀ recur' : Recur, recur'.Gives answers → level recur' = some a

/-! ### Putting levels together -/

section Determined

variable {α β : Type} {recur : Recur} {site : Site} {v : Value} {out : Parsed}

/-- What asks for no test is determined by none. -/
theorem determines_pure (a : α) : recur.Determines (fun _ => some a) a :=
  ⟨[], fun _ _ _ _ member => absurd member List.not_mem_nil, fun _ _ => rfl⟩

/-- A test is determined by itself. -/
theorem determines_test {s : Schema} (h : recur site s v = some out) :
    recur.Determines (fun recur' => recur' site s v) out := by
  refine ⟨[(site, s, v, out)], ?_, fun recur' gives => gives _ _ _ _ (by simp)⟩
  intro site' s' v' out' member
  cases List.mem_singleton.mp member
  exact h

/-- Going on with what is determined asks for the tests of both. -/
theorem Recur.Determines.bind {level : Recur → Option α} {next : Recur → α → Option β} {a : α}
    {b : β} (first : recur.Determines level a)
    (second : recur.Determines (fun recur' => next recur' a) b) :
    recur.Determines (fun recur' => level recur' >>= next recur') b := by
  obtain ⟨answers, gives, hfirst⟩ := first
  obtain ⟨answers', gives', hsecond⟩ := second
  refine ⟨answers ++ answers', fun site s v out member => ?_, fun recur' both => ?_⟩
  · rcases List.mem_append.mp member with member | member
    · exact gives _ _ _ _ member
    · exact gives' _ _ _ _ member
  · have returns := hfirst recur' fun site s v out member =>
      both _ _ _ _ (List.mem_append_left _ member)
    have returns' := hsecond recur' fun site s v out member =>
      both _ _ _ _ (List.mem_append_right _ member)
    exact Option.bind_eq_some_iff.mpr ⟨a, returns, returns'⟩

/-- A function of what is determined asks for no further test. -/
theorem Recur.Determines.map {level : Recur → Option α} {a : α} (h : recur.Determines level a)
    (f : α → β) : recur.Determines (fun recur' => (level recur').map f) (f a) := by
  obtain ⟨answers, gives, determined⟩ := h
  exact ⟨answers, gives, fun recur' given => congrArg (Option.map f) (determined recur' given)⟩

/-- A run over a list is determined when it is so at each element. -/
theorem determines_mapM {f : Recur → α → Option β} {as : List α} {bs : List β}
    (h : List.Forall₂ (fun a b => recur.Determines (fun recur' => f recur' a) b) as bs) :
    recur.Determines (fun recur' => as.mapM (f recur')) bs := by
  induction h with
  | nil =>
    simp only [List.mapM_nil]
    exact determines_pure []
  | cons first _ ih =>
    simp only [List.mapM_cons]
    exact first.bind (ih.bind (determines_pure _))

/-! ### One level -/

/-- Elements are determined by their tests. -/
theorem parseItems_determined {items : List (Schema × Value)} {parts : List Parsed}
    (h : parseItems recur site items = some parts) :
    recur.Determines (fun recur' => parseItems recur' site items) parts := by
  simp only [parseItems_eq] at h ⊢
  exact determines_mapM ((mapM_eq_some_iff.mp h).imp fun _ _ returns => determines_test returns)

/-- So are collections. -/
theorem parseCollection_determined {c : Collection} {item : Schema} {bounds : SizeBounds}
    {items : List Value} {build : List Value → Value}
    (h : parseCollection recur site c item bounds items build = some out) :
    recur.Determines (fun recur' => parseCollection recur' site c item bounds items build) out := by
  obtain ⟨parts, run, h⟩ := Option.bind_eq_some_iff.mp h
  cases h
  exact (parseItems_determined run).bind (determines_pure _)

/-- So are tuples. -/
theorem parseTuple_determined {slots : List Schema} {rest : Option Schema} {items : List Value}
    (h : parseTuple recur site slots rest items = some out) :
    recur.Determines (fun recur' => parseTuple recur' site slots rest items) out := by
  unfold parseTuple at h ⊢
  split at h
  · cases h
    exact determines_pure _
  · obtain ⟨parts, run, h⟩ := Option.bind_eq_some_iff.mp h
    cases h
    exact (parseItems_determined run).bind (determines_pure _)

/-- A declared member is determined by its test. -/
theorem parseField_determined {input : List (String × Value)} {field : String × Schema}
    {part : FieldOutcome} (h : parseField recur site input field = some part) :
    recur.Determines (fun recur' => parseField recur' site input field) part := by
  obtain ⟨outcome, returns, h⟩ := Option.bind_eq_some_iff.mp h
  cases h
  exact (determines_test returns).bind (determines_pure _)

/-- Objects are determined by the tests of their declared members. -/
theorem parseObject_determined {fields : List (String × Schema)} {unknownKeys : UnknownKeys}
    {input : List (String × Value)}
    (h : parseObject recur site fields unknownKeys input = some out) :
    recur.Determines (fun recur' => parseObject recur' site fields unknownKeys input) out := by
  simp only [parseObject_eq] at h ⊢
  obtain ⟨parts, run, rfl⟩ := Option.map_eq_some_iff.mp h
  exact (determines_mapM ((mapM_eq_some_iff.mp run).imp fun _ _ => parseField_determined)).map _

/-- Records are determined by the tests of keys and values. -/
theorem parseRecord_determined {key value : Schema} {input : List (String × Value)}
    (h : parseRecord recur site key value input = some out) :
    recur.Determines (fun recur' => parseRecord recur' site key value input) out := by
  simp only [parseRecord_eq] at h ⊢
  obtain ⟨parts, run, rfl⟩ := Option.map_eq_some_iff.mp h
  refine (determines_mapM ((mapM_eq_some_iff.mp run).imp fun m part returns => ?_)).map _
  obtain ⟨k, hk, returns⟩ := Option.bind_eq_some_iff.mp returns
  obtain ⟨v, hv, returns⟩ := Option.bind_eq_some_iff.mp returns
  cases returns
  exact (determines_test hk).bind ((determines_test hv).bind (determines_pure _))

/-- So are maps. -/
theorem parseMap_determined {key value : Schema} {entries : List (Value × Value)}
    (h : parseMap recur site key value entries = some out) :
    recur.Determines (fun recur' => parseMap recur' site key value entries) out := by
  simp only [parseMap_eq] at h ⊢
  obtain ⟨parts, run, rfl⟩ := Option.map_eq_some_iff.mp h
  refine (determines_mapM ((mapM_eq_some_iff.mp run).imp fun e part returns => ?_)).map _
  obtain ⟨k, hk, returns⟩ := Option.bind_eq_some_iff.mp returns
  obtain ⟨v, hv, returns⟩ := Option.bind_eq_some_iff.mp returns
  cases returns
  exact (determines_test hk).bind ((determines_test hv).bind (determines_pure _))

/-- A choice is determined by the tests up to the first option that accepts the value. -/
theorem firstAccepted_determined {options : List Schema}
    (h : firstAccepted recur site v options = some out) :
    recur.Determines (fun recur' => firstAccepted recur' site v options) out := by
  induction options with
  | nil =>
    cases h
    exact determines_pure _
  | cons option rest ih =>
    obtain ⟨first, returns, h⟩ := Option.bind_eq_some_iff.mp h
    refine (determines_test returns).bind ?_
    cases first with
    | ok w =>
      cases h
      exact determines_pure _
    | error found => exact ih h

/-- A discriminated union is determined by the test of one option. -/
theorem parseTagged_determined {discriminator : String} {options : List Schema}
    {input : List (String × Value)}
    (h : parseTagged recur site discriminator options input = some out) :
    recur.Determines (fun recur' => parseTagged recur' site discriminator options input) out := by
  unfold parseTagged at h ⊢
  split at h
  · cases h
    exact determines_pure _
  · split at h
    · split at h
      · exact determines_test h
      · cases h
        exact determines_pure _
    · cases h
      exact determines_pure _

/-- Going on after a test with its outcome only. -/
theorem determines_bind {s : Schema} {f : Parsed → Option Parsed}
    (h : recur site s v >>= f = some out) :
    recur.Determines (fun recur' => recur' site s v >>= f) out := by
  obtain ⟨first, returns, h⟩ := Option.bind_eq_some_iff.mp h
  refine (determines_test returns).bind ?_
  rw [h]
  exact determines_pure _

/-- An effect is determined by the test of the inner schema. -/
theorem parseEffect_determined {inner : Schema} {effect : Effect}
    (h : parseEffect recur site inner effect v = some out) :
    recur.Determines (fun recur' => parseEffect recur' site inner effect v) out := by
  cases effect with
  | refinement check reason => exact determines_bind h
  | transform map => exact determines_bind h
  | preprocess map => exact determines_test h

/-- **One level is determined by finitely many tests** of inner schemas if it comes to an end. -/
theorem Shape.step_determined {definitions : Definitions} {id : SchemaId} {shape : Shape Schema}
    (h : shape.step definitions recur site id v = some out) :
    recur.Determines (fun recur' => shape.step definitions recur' site id v) out := by
  have constant : ∀ {o : Option Parsed}, o = some out → recur.Determines (fun _ => o) out := by
    rintro _ rfl
    exact determines_pure _
  cases shape <;> simp only [Shape.step] at h ⊢ <;> try exact constant h
  case array | set =>
    split at h
    · exact parseCollection_determined h
    · exact constant h
  case object =>
    split at h
    · exact parseObject_determined h
    · exact constant h
  case tuple =>
    split at h
    · exact parseTuple_determined h
    · exact constant h
  case record =>
    split at h
    · exact parseRecord_determined h
    · exact constant h
  case map =>
    split at h
    · exact parseMap_determined h
    · exact constant h
  case union => exact firstAccepted_determined h
  case discriminatedUnion =>
    split at h
    · exact parseTagged_determined h
    · exact constant h
  case intersection =>
    obtain ⟨l, left, h⟩ := Option.bind_eq_some_iff.mp h
    obtain ⟨r, right, h⟩ := Option.bind_eq_some_iff.mp h
    cases h
    exact (determines_test left).bind ((determines_test right).bind (determines_pure _))
  case promise =>
    split at h
    · exact determines_bind h
    · exact constant h
  case «lazy» =>
    split at h
    · exact determines_test h
    · exact constant h
  case optional | nullable =>
    split at h
    · exact constant h
    · exact determines_test h
  case default =>
    split at h <;> exact determines_test h
  case caught => exact determines_bind h
  case effects => exact parseEffect_determined h
  case pipeline =>
    obtain ⟨first, returns, h⟩ := Option.bind_eq_some_iff.mp h
    refine (determines_test returns).bind ?_
    cases first with
    | ok result => exact determines_test h
    | error found => exact constant h
  case branded | readonly => exact determines_test h

end Determined

/-! ### Greater depths -/

namespace Schema

variable {definitions : Definitions} {depth depth' : Nat} {site : Site} {s : Schema} {v : Value}
  {out out' : Parsed}

/-- One more level changes no outcome. -/
theorem parseWithin_succ (h : parseWithin definitions depth site s v = some out) :
    parseWithin definitions (depth + 1) site s v = some out := by
  induction depth generalizing site s v out with
  | zero => cases h
  | succ depth ih =>
    obtain ⟨answers, gives, determined⟩ := Shape.step_determined h
    exact determined _ fun site s v out member => ih (gives site s v out member)

/-- A test that ended within a depth ends alike within any greater depth. -/
theorem parseWithin_mono (le : depth ≤ depth')
    (h : parseWithin definitions depth site s v = some out) :
    parseWithin definitions depth' site s v = some out := by
  induction le with
  | refl => exact h
  | step _ ih => exact parseWithin_succ ih

/-- Two tests of a value that ended had the same outcome. -/
theorem parseWithin_unique (h : parseWithin definitions depth site s v = some out)
    (h' : parseWithin definitions depth' site s v = some out') : out = out' := by
  have hmax := parseWithin_mono (Nat.le_max_left depth depth') h
  have hmax' := parseWithin_mono (Nat.le_max_right depth depth') h'
  rw [hmax] at hmax'
  exact Option.some.inj hmax'

/-! ### No bound on the depth -/

/-- The outcomes of tests that are bounded by no depth. -/
noncomputable def parseFully (definitions : Definitions) : Recur := by
  classical
  exact fun site s v =>
    if h : ∃ out depth, parseWithin definitions depth site s v = some out then some h.choose
    else none

/-- The test without a bound has the outcome that some depth has. -/
theorem parseFully_eq_some_iff :
    parseFully definitions site s v = some out ↔
      ∃ depth, parseWithin definitions depth site s v = some out := by
  unfold parseFully
  constructor
  · intro h
    split at h
    · rename_i ends
      obtain rfl := Option.some.inj h
      exact ends.choose_spec
    · cases h
  · rintro ⟨depth, returns⟩
    have ends : ∃ out depth, parseWithin definitions depth site s v = some out :=
      ⟨out, depth, returns⟩
    obtain ⟨depth', chosen⟩ := ends.choose_spec
    rw [dif_pos ends, parseWithin_unique chosen returns]

/-- Finitely many tests that end do so within one depth. -/
theorem exists_depth_of_gives {answers : Answers} (h : (parseFully definitions).Gives answers) :
    ∃ depth, (parseWithin definitions depth).Gives answers := by
  induction answers with
  | nil => exact ⟨0, fun _ _ _ _ member => absurd member List.not_mem_nil⟩
  | cons answer rest ih =>
    obtain ⟨site, s, v, out⟩ := answer
    obtain ⟨depth, first⟩ := parseFully_eq_some_iff.mp (h site s v out (by simp))
    obtain ⟨depth', others⟩ := ih fun site s v out member => h site s v out (by simp [member])
    refine ⟨max depth depth', fun site' s' v' out' member => ?_⟩
    rcases List.mem_cons.mp member with same | member
    · cases same
      exact parseWithin_mono (Nat.le_max_left _ _) first
    · exact parseWithin_mono (Nat.le_max_right _ _) (others _ _ _ _ member)

/-- If a level comes to an end with unbounded tests of inner schemas, some depth suffices for it. -/
theorem exists_depth_of_step {id : SchemaId} {shape : Shape Schema}
    (h : shape.step definitions (parseFully definitions) site id v = some out) :
    ∃ depth, parseWithin definitions depth site (.node id shape) v = some out := by
  obtain ⟨answers, gives, determined⟩ := Shape.step_determined h
  obtain ⟨depth, enough⟩ := exists_depth_of_gives gives
  exact ⟨depth + 1, determined _ enough⟩

/-- Tests that are bounded by no depth are one level of such tests. -/
theorem parseFully_node (definitions : Definitions) (site : Site) (id : SchemaId)
    (shape : Shape Schema) (v : Value) :
    parseFully definitions site (.node id shape) v =
      shape.step definitions (parseFully definitions) site id v := by
  refine Option.ext fun out => ⟨fun h => ?_, fun h => ?_⟩
  · obtain ⟨depth, returns⟩ := parseFully_eq_some_iff.mp h
    cases depth with
    | zero => cases returns
    | succ depth =>
      -- What the level asked was answered within the depth that was left.
      obtain ⟨answers, gives, determined⟩ := Shape.step_determined returns
      exact determined _ fun site s v out member =>
        parseFully_eq_some_iff.mpr ⟨depth, gives site s v out member⟩
  · exact parseFully_eq_some_iff.mpr (exists_depth_of_step h)

end Schema

end SchemaSampler
