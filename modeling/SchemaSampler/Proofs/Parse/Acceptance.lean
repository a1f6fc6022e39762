import SchemaSampler.Proofs.Parse.Renaming

namespace SchemaSampler

/-!
# Acceptance — values that a schema accepts wherever they are tested

A test of a value is made at a place of its own, so that the functions it wraps differ from those
that were there before (`Schema.FreshAt`).  `Schema.Accepts` says that a schema accepts a value at
all such places.  `Schema.Suits` says in addition that the value brings along no function that
only a search knows; it is what values drawn for a schema have, and it passes from the parts of a
value to the value.

* `Suits.of_trial` — what a search tested and let through is accepted everywhere else.
-/

open Parsed

/-- If a test came to an end, the value was accepted. -/
abbrev Parsed.Passes (outcome : Option Parsed) : Prop := Grants outcome fun _ => True

namespace Schema

variable {definitions : Definitions} {site : Site} {id : SchemaId} {shape : Shape Schema}
  {s t : Schema} {v : Value}

/-- A place outside of searches where a schema is tested for the first time: nothing that the
    schema brings along was wrapped there. -/
def FreshAt (definitions : Definitions) (site : Site) (s : Schema) : Prop :=
  site.IsOuter ∧ s.Throughout definitions (Shape.SupportedBy (Identity.Before site))

/-- What is fresh for a schema is so for its inner schemas. -/
theorem FreshAt.child (fresh : FreshAt definitions site (.node id shape))
    (child : t ∈ shape.children) : FreshAt definitions site t :=
  ⟨fresh.1, fresh.2.child child⟩

/-- A place further in is as fresh. -/
theorem FreshAt.step (fresh : FreshAt definitions site s) {step : Step}
    (inside : ∀ cell n, step ≠ .trial cell n) : FreshAt definitions (step :: site) s :=
  ⟨fresh.1.step inside, fun id shape reached =>
    (fresh.2 id shape reached).mono fun _ before => before.step step⟩

/-- A member is tested at a fresh place. -/
theorem FreshAt.key (fresh : FreshAt definitions site s) (name : String) :
    FreshAt definitions (.key name :: site) s :=
  fresh.step fun _ _ => by simp

/-- So is an element. -/
theorem FreshAt.index (fresh : FreshAt definitions site s) (position : Nat) :
    FreshAt definitions (.index position :: site) s :=
  fresh.step fun _ _ => by simp

/-- So is what is tested beside something else. -/
theorem FreshAt.branch (fresh : FreshAt definitions site s) (number : Nat) :
    FreshAt definitions (.branch number :: site) s :=
  fresh.step fun _ _ => by simp

/-- A schema accepts a value wherever a test of it comes to an end. -/
def Accepts (definitions : Definitions) (s : Schema) (v : Value) : Prop :=
  ∀ site, FreshAt definitions site s →
    ∀ depth, Passes (parseWithin definitions depth site s v)

/-- A schema accepts a value, which brings along no function that was wrapped in a search. -/
def Suits (definitions : Definitions) (s : Schema) (v : Value) : Prop :=
  ∀ site, FreshAt definitions site s → v.SupportedBy (Identity.Before site) ∧
    ∀ depth, Passes (parseWithin definitions depth site s v)

/-- A value that suits a schema is accepted, whenever its test comes to an end. -/
theorem Suits.accepts (h : s.Suits definitions v) : s.Accepts definitions v :=
  fun site fresh => (h site fresh).2

/-- A value that suits a schema has no functions that its tests wrap. -/
theorem Suits.supported (h : s.Suits definitions v) (fresh : FreshAt definitions site s) :
    v.SupportedBy (Identity.Before site) :=
  (h site fresh).1

/-- To suit a schema is to be accepted by one level after the other. -/
theorem suits_node (h : ∀ site, FreshAt definitions site (.node id shape) →
      v.SupportedBy (Identity.Before site) ∧
        ∀ depth, Passes (shape.step definitions (parseWithin definitions depth) site id v)) :
    Suits definitions (.node id shape) v := by
  refine fun site fresh => ⟨(h site fresh).1, fun depth => ?_⟩
  cases depth with
  | zero => exact grants_none
  | succ depth => exact (h site fresh).2 depth

/-- A test in the course of a search and one outside of it come to the same decision, and their
    results differ in the functions that they wrap only. -/
theorem FreshAt.trial_alike (fresh : FreshAt definitions site s)
    (supported : v.SupportedBy (Identity.Before site)) (cell : List Nat) (n : Nat) :
    ∃ ρ : Renaming, (∀ i, Identity.Before site i → ρ.apply i = i) ∧ ∀ depth,
      Option.Rel (Alike ρ [.trial cell n] site) (parseWithin definitions depth [.trial cell n] s v)
        (parseWithin definitions depth site s v) := by
  have apart := fresh.1.apart_trial cell n
  have keeps : ∀ i, Identity.Before site i → (Renaming.exchange apart).apply i = i :=
    fun i before => Renaming.exchange_keeps apart before
  refine ⟨Renaming.exchange apart, keeps, fun depth => ?_⟩
  have moved := parseWithin_rename depth keeps fresh.2 _ _ (Renaming.exchange_carries apart) v
  rwa [supported _ keeps] at moved

/-- Of two tests that end alike, one accepts with the renamed results of the other. -/
theorem rel_alike_ok_iff {ρ : Renaming} {site site' : Site} {o o' : Option Parsed}
    (h : Option.Rel (Alike ρ site site') o o') {w : Value} :
    o' = some (.ok w) ↔ ∃ w₀, o = some (.ok w₀) ∧ w = w₀.rename ρ := by
  cases h with
  | none => simp
  | some alike => cases alike <;> simp [eq_comm]

/-- **Tests can be repeated.** A value that passed a test in the course of a search passes it
    outside. -/
theorem Suits.of_trial {cell : List Nat} {n depth : Nat} {w : Value}
    (known : ∀ site, FreshAt definitions site s → v.SupportedBy (Identity.Before site))
    (passed : parseWithin definitions depth [.trial cell n] s v = some (.ok w)) :
    s.Suits definitions v := by
  intro site fresh
  have supported := known site fresh
  refine ⟨supported, fun depth' out returns => ?_⟩
  obtain ⟨ρ, _, alike⟩ := fresh.trial_alike supported cell n
  have outside := (rel_alike_ok_iff (alike depth)).mpr ⟨w, passed, rfl⟩
  rw [parseWithin_unique returns outside]
  exact ⟨_, rfl, trivial⟩

/-- A value that passes a test outside of searches passes those in the course of a search. -/
theorem Suits.passes_trial (h : s.Suits definitions v) (fresh : FreshAt definitions site s)
    (cell : List Nat) (n depth : Nat) :
    Passes (parseWithin definitions depth [.trial cell n] s v) := by
  intro out returns
  obtain ⟨ρ, _, alike⟩ := fresh.trial_alike (h.supported fresh) cell n
  cases outside : parseWithin definitions depth site s v with
  | none =>
    have moved := alike depth
    rw [returns, outside] at moved
    cases moved
  | some out' =>
    obtain ⟨w, rfl, _⟩ := h.accepts site fresh depth out' outside
    obtain ⟨w₀, inside, _⟩ := (rel_alike_ok_iff (alike depth)).mp outside
    rw [parseWithin_unique returns inside]
    exact ⟨w₀, rfl, trivial⟩

/-- An accepted value passes. -/
theorem passes_of_ok {outcome : Option Parsed} {w : Value} (h : outcome = some (.ok w)) :
    Passes outcome := by
  rw [h]
  exact grants_ok trivial

/-- A scalar schema suits a value of which one level says that it is accepted. -/
theorem suits_scalar (known : ∀ K, v.SupportedBy K)
    (h : ∀ recur site, Passes (shape.step definitions recur site id v)) :
    Suits definitions (.node id shape) v :=
  suits_node fun _ _ => ⟨known _, fun _ => h _ _⟩

/-! ### Collections -/

/-- An array suits if its size is within the bounds and its elements suit the items. -/
theorem suits_array {item : Schema} {bounds : SizeBounds} {items : List Value}
    (sizes : bounds.problems .array items.length = [])
    (h : ∀ v ∈ items, item.Suits definitions v) :
    Suits definitions (.node id (.array item bounds)) (.array items) := by
  refine suits_node fun site fresh => ?_
  have inner := fresh.child (t := item) (by simp [Shape.children])
  refine ⟨Value.supported_array fun v member => (h v member).supported inner, fun depth => ?_⟩
  refine (parseCollection_grants (R := fun _ _ => True) sizes
    (List.forall₂_same.mpr fun v member i => ?_)).imp fun _ _ => trivial
  exact (h v member).accepts _ (inner.index i) depth

/-- A set suits if the number of its different elements is within the bounds and they suit the
    items. -/
theorem suits_set {item : Schema} {bounds : SizeBounds} {items : List Value}
    (sizes : bounds.problems .set (Value.elementsOf items).length = [])
    (h : ∀ v ∈ items, item.Suits definitions v) :
    Suits definitions (.node id (.set item bounds)) (Value.setOfItems items) := by
  refine suits_node fun site fresh => ?_
  have inner := fresh.child (t := item) (by simp [Shape.children])
  refine ⟨Value.supported_set fun v member => (h v member).supported inner, fun depth => ?_⟩
  refine (parseCollection_grants (R := fun _ _ => True) sizes
    (List.forall₂_same.mpr fun v member i => ?_)).imp fun _ _ => trivial
  exact (h v (Value.mem_of_mem_elementsOf member)).accepts _ (inner.index i) depth

/-- A tuple suits if its elements suit the slots, and the further ones the rest. -/
theorem suits_tuple {slots : List Schema} {rest : Option Schema} {items further : List Value}
    (hitems : List.Forall₂ (Suits definitions) slots items)
    (none_further : rest = none → further = [])
    (hfurther : ∀ t, rest = some t → ∀ v ∈ further, t.Suits definitions v) :
    Suits definitions (.node id (.tuple slots rest)) (.array (items ++ further)) := by
  -- The schemas that the elements are tested against: `rest` once for each further element.
  obtain ⟨schemas, hschemas, each, among⟩ : ∃ schemas,
      tupleSlots? slots rest (items ++ further).length = some schemas ∧
      List.Forall₂ (Suits definitions) schemas (items ++ further) ∧
      ∀ t ∈ schemas, t ∈ slots ++ rest.toList := by
    have lengths := hitems.length_eq
    cases rest with
    | none =>
      obtain rfl := none_further rfl
      refine ⟨slots, ?_, by rwa [List.append_nil], by simp⟩
      rw [tupleSlots?, List.append_nil, if_pos lengths]
    | some t =>
      refine ⟨slots ++ List.replicate further.length t, ?_, ?_, ?_⟩
      · rw [tupleSlots?, List.length_append, if_pos (by omega), lengths, Nat.add_sub_cancel_left]
      · refine List.rel_append hitems ?_
        have suited := hfurther t rfl
        clear none_further hfurther
        induction further with
        | nil => exact .nil
        | cons v rest ih =>
          exact .cons (suited v (by simp)) (ih fun v member => suited v (by simp [member]))
      · intro s member
        rcases List.mem_append.mp member with member | member
        · simp [member]
        · simp [List.eq_of_mem_replicate member]
  refine suits_node fun site fresh => ?_
  have inner : ∀ t ∈ schemas, FreshAt definitions site t := fun t member =>
    fresh.child (among t member)
  refine ⟨Value.supported_array fun v member => ?_, fun depth => ?_⟩
  · obtain ⟨t, ht, suited⟩ := exists_of_mem_right each member
    exact suited.supported (inner t ht)
  · refine (parseTuple_grants (R := fun _ _ => True) hschemas
      (List.forall₂_same.mpr fun p member i => ?_)).imp fun _ _ => trivial
    exact (List.forall₂_zip each member).accepts _
      ((inner p.1 (List.of_mem_zip member).1).index i) depth

/-! ### Objects -/

/-- The value of a declared member in an object that has exactly the declared members. -/
theorem fieldInput_objectOf {fields : List (String × Schema)} {members : List (String × Value)}
    {R : String × Schema → Value → Prop} (distinct : (fields.map Prod.fst).Nodup)
    (h : List.Forall₂ (fun field m => m.1 = field.1 ∧ R field m.2) fields members) :
    ∀ field ∈ fields, R field (fieldInput (sortMembers members) field.1) := by
  have keys : members.Pairwise fun a b => a.1 ≠ b.1 := by
    have names : members.map Prod.fst = fields.map Prod.fst := by
      clear distinct
      induction h with
      | nil => rfl
      | cons head _ ih => rw [List.map_cons, List.map_cons, head.1, ih]
    rw [← names] at distinct
    exact List.pairwise_map.mp distinct
  have look_up : ∀ key, findMember? key (sortMembers members) = findMember? key members := by
    intro key
    rw [sortMembers_eq_insertAll, findMember?_insertAll, findMember?_reverse keys]
    exact Option.or_none
  intro field member
  rw [fieldInput, look_up]
  clear look_up keys
  induction h with
  | nil => cases member
  | @cons first m fields members head _ ih =>
    obtain ⟨new, distinct⟩ := List.nodup_cons.mp distinct
    rcases List.mem_cons.mp member with rfl | member
    · rw [← head.1, findMember?_head, Option.getD_some]
      exact head.2
    · have other : m.1 ≠ field.1 := by
        rw [head.1]
        rintro same
        exact new (same ▸ List.mem_map_of_mem member)
      rw [findMember?, if_neg other]
      exact ih distinct member

/-- An object suits if its members suit the fields, where no name is declared twice. -/
theorem suits_object {fields : List (String × Schema)} {unknownKeys : UnknownKeys}
    {members : List (String × Value)} (distinct : (fields.map Prod.fst).Nodup)
    (h : List.Forall₂ (fun field m => m.1 = field.1 ∧ field.2.Suits definitions m.2) fields
      members) :
    Suits definitions (.node id (.object fields unknownKeys)) (Value.objectOf members) := by
  refine suits_node fun site fresh => ?_
  have inner : ∀ field ∈ fields, FreshAt definitions site field.2 := fun field member =>
    fresh.child (List.mem_map_of_mem member)
  refine ⟨Value.supported_object fun m member => ?_, fun depth => ?_⟩
  · obtain ⟨field, hfield, _, suited⟩ := exists_of_mem_right h member
    exact suited.supported (inner field hfield)
  · refine (parseObject_grants (R := fun _ _ => True) (fun _ => ?_)
      (List.forall₂_same.mpr fun field member => ?_)).imp fun _ _ => trivial
    · rw [undeclared, List.filter_eq_nil_iff]
      intro m member
      rcases mem_insertAll (sortMembers_eq_insertAll members ▸ member) with member | member
      · obtain ⟨field, hfield, same, _⟩ := exists_of_mem_right h member
        rw [Bool.not_eq_true, Bool.not_eq_false', List.any_eq_true]
        exact ⟨field, hfield, by simp [same]⟩
      · cases member
    · exact (fieldInput_objectOf distinct h field member).accepts _
        ((inner field member).key field.1) depth

/-! ### Records and maps -/

/-- A record suits if its keys and values do, and keys have texts for results. -/
theorem suits_record {key value : Schema} {members : List (String × Value)}
    (texts : ∀ depth site name w,
      parseWithin definitions depth site key (.string name) = some (.ok w) →
        ∃ name', w = .string name')
    (h : ∀ m ∈ members, key.Suits definitions (.string m.1) ∧ value.Suits definitions m.2) :
    Suits definitions (.node id (.record key value)) (Value.objectOf members) := by
  refine suits_node fun site fresh => ?_
  have hkey := fresh.child (t := key) (by simp [Shape.children])
  have hvalue := fresh.child (t := value) (by simp [Shape.children])
  refine ⟨Value.supported_object fun m member => (h m member).2.supported hvalue, fun depth => ?_⟩
  refine (parseRecord_grants (K := fun _ _ => True) (V := fun _ _ => True)
    (List.forall₂_same.mpr fun m member => ?_)).imp fun _ _ => trivial
  have member : m ∈ members := by
    rcases mem_insertAll (sortMembers_eq_insertAll members ▸ member) with member | member
    · exact member
    · cases member
  obtain ⟨suited_key, suited_value⟩ := h m member
  refine ⟨fun out returns => ?_, suited_value.accepts _ ((hvalue.key m.1).branch 1) depth⟩
  obtain ⟨w, rfl, _⟩ := suited_key.accepts _ ((hkey.key m.1).branch 0) depth out returns
  obtain ⟨name', rfl⟩ := texts _ _ _ _ returns
  exact ⟨_, rfl, name', rfl, trivial⟩

/-- A map suits if its keys and values do. -/
theorem suits_map {key value : Schema} {pairs : List (Value × Value)}
    (h : ∀ e ∈ pairs, key.Suits definitions e.1 ∧ value.Suits definitions e.2) :
    Suits definitions (.node id (.map key value)) (Value.mapOfPairs pairs) := by
  refine suits_node fun site fresh => ?_
  have hkey := fresh.child (t := key) (by simp [Shape.children])
  have hvalue := fresh.child (t := value) (by simp [Shape.children])
  refine ⟨Value.supported_map fun e member => ⟨(h e member).1.supported hkey,
    (h e member).2.supported hvalue⟩, fun depth => ?_⟩
  refine (parseMap_grants (K := fun _ _ => True) (V := fun _ _ => True)
    (List.forall₂_same.mpr fun e member i => ?_)).imp fun _ _ => trivial
  obtain ⟨⟨v, from_key⟩, k, from_value⟩ := Value.mem_of_mem_entriesOf member
  exact ⟨(h _ from_key).1.accepts _ ((hkey.index i).branch 0) depth,
    (h _ from_value).2.accepts _ ((hvalue.index i).branch 1) depth⟩

/-! ### Alternatives -/

/-- What suits one option is accepted by that option or by one before it. -/
theorem suits_union {options : List Schema} {option : Schema} (member : option ∈ options)
    (h : option.Suits definitions v) : Suits definitions (.node id (.union options)) v := by
  refine suits_node fun site fresh => ?_
  have inner := fresh.child (t := option) member
  exact ⟨h.supported inner, fun depth => firstAccepted_grants member (h.accepts _ inner depth)⟩

/-- An object that suits the option that it belongs to suits the union. -/
theorem suits_discriminatedUnion {discriminator : String} {options : List Schema}
    {option : Schema} {input : List (String × Value)}
    (selects : Selects discriminator options input option)
    (h : option.Suits definitions (.object input)) :
    Suits definitions (.node id (.discriminatedUnion discriminator options)) (.object input) := by
  refine suits_node fun site fresh => ?_
  have inner := fresh.child (t := option) selects.mem
  refine ⟨h.supported inner, fun depth => ?_⟩
  show Passes (parseTagged _ site discriminator options input)
  rw [parseTagged_of_selects selects]
  exact h.accepts _ inner depth

/-! ### Wrappers -/

section Wrappers

variable {inner : Schema}

/-- A promise suits if what it is settled with does. -/
theorem suits_promise (h : inner.Suits definitions v) :
    Suits definitions (.node id (.promise inner)) (.promise v) := by
  refine suits_node fun site fresh => ?_
  have hinner := fresh.child (t := inner) (by simp [Shape.children])
  refine ⟨Value.supported_promise (h.supported hinner), fun depth => ?_⟩
  exact (h.accepts _ hinner depth).bind fun w _ => grants_ok trivial

/-- A schema around another that hands on a value. -/
theorem suits_same (child : inner ∈ shape.children) (h : inner.Suits definitions v)
    (hands_on : ∀ recur site, Passes (recur site inner v) →
      Passes (shape.step definitions recur site id v)) :
    Suits definitions (.node id shape) v := by
  refine suits_node fun site fresh => ?_
  have hinner := fresh.child child
  exact ⟨h.supported hinner, fun depth => hands_on _ _ (h.accepts _ hinner depth)⟩

/-- What suits a schema suits it made optional. -/
theorem suits_optional (h : inner.Suits definitions v) :
    Suits definitions (.node id (.optional inner)) v := by
  refine suits_same (by simp [Shape.children]) h fun recur site passes => ?_
  cases v <;> first | exact grants_ok trivial | exact passes

/-- What suits a schema suits it made nullable. -/
theorem suits_nullable (h : inner.Suits definitions v) :
    Suits definitions (.node id (.nullable inner)) v := by
  refine suits_same (by simp [Shape.children]) h fun recur site passes => ?_
  cases v <;> first | exact grants_ok trivial | exact passes

/-- The absent value suits a schema with a default that the inner schema accepts. -/
theorem suits_default_undefined {value : Value} (accepts : inner.Accepts definitions value) :
    Suits definitions (.node id (.default inner value)) .undefined := by
  refine suits_node fun site fresh => ⟨fun _ _ => rfl, fun depth => ?_⟩
  exact accepts _ (fresh.child (by simp [Shape.children])) depth

/-- What suits a schema suits it with a default, if the default is accepted. -/
theorem suits_default {value : Value} (accepts : inner.Accepts definitions value)
    (h : inner.Suits definitions v) : Suits definitions (.node id (.default inner value)) v := by
  cases v with
  | undefined => exact suits_default_undefined accepts
  | _ => exact suits_same (by simp [Shape.children]) h fun recur site passes => passes

/-- Every value suits a schema that catches refusals, if it brings along no functions from
    searches. -/
theorem suits_caught {fallback : Value}
    (known : ∀ site, FreshAt definitions site inner → v.SupportedBy (Identity.Before site)) :
    Suits definitions (.node id (.caught inner fallback)) v := by
  refine suits_node fun site fresh => ⟨known site (fresh.child (by simp [Shape.children])), ?_⟩
  intro depth out returns
  obtain ⟨outcome, _, returns⟩ := Option.bind_eq_some_iff.mp returns
  cases outcome <;> cases returns <;> exact ⟨_, rfl, trivial⟩

end Wrappers

end Schema

end SchemaSampler
