import SchemaSampler.Proofs.Parse.Acceptance
import SchemaSampler.Proofs.Schema.StringCheck
import SchemaSampler.Proofs.Strategy.DateCandidates
import SchemaSampler.Proofs.Strategy.NumberCandidates
import SchemaSampler.Proofs.Strategy.Tested
import SchemaSampler.Proofs.Strategy.TextCandidates
import SchemaSampler.Proofs.Strategy.Yields
import SchemaSampler.Proofs.Value.Equality

namespace SchemaSampler

/-!
# Drawn inputs are accepted

Every value that is drawn from the compiled strategy of a schema suits the schema
(`Schema.CompilesIn.yields_suits`), so no test refuses it.  The induction goes over the schema; in
each case the strategy is put together from those of the inner schemas (`Assembles`), and so is
the drawn value.

* Scalar schemas with an exact source are not tested at all, so their sources have to be right.
* What was filtered has passed a test, and a test can be repeated elsewhere (`Suits.of_trial`).
* An object drawn for an option of a discriminated union has one of its tags
  (`yields_tagged`), so it is tested against the same option.
-/

open Draw Parsed

variable {config : Config} {cell : Cell} {path : Path} {around : Surroundings}

/-! ### Hypotheses -/

/-- What the shapes of a schema must not contain for its drawn values to be accepted: a default
    that is refused, keys of records that need not stay texts, and a latest date inside of a leap
    second. -/
def Shape.Regular (definitions : Definitions) : Shape Schema → Prop
  | .default inner value => inner.Accepts definitions value
  | .record key _ => key.Everywhere Shape.MapsNothing
  | .date checks => ∀ check ∈ checks, check.Regular
  | _ => True

/-! ### Arbitrary values -/

/-- A value without functions, which every set of identities supports. -/
def Value.Plain (v : Value) : Prop := ∀ K, v.SupportedBy K

theorem yields_leaf : Sampler.leaf.Yields Value.Plain := by
  refine Sampler.yields_weighted (fun option member => ?_) (Sampler.yields_pure fun _ _ _ => rfl)
  simp only [Weighted.uniform, List.map_cons, List.map_nil, List.mem_cons, List.not_mem_nil,
    or_false] at member
  have any_result : ∀ {α : Type} (s : Sampler α), s.Yields fun _ => True :=
    fun _ _ _ => trivial
  rcases member with rfl | rfl | rfl | rfl | rfl | rfl
  · exact Sampler.yields_pure fun _ _ _ => rfl
  · exact Sampler.yields_pure fun _ _ _ => rfl
  all_goals exact (any_result _).map fun _ _ _ _ _ => rfl

/-- Arbitrary values are free of functions. -/
theorem yields_anyValue (depth : Nat) : (Sampler.anyValue depth).Yields Value.Plain := by
  induction depth with
  | zero => exact yields_leaf
  | succ depth ih =>
    refine Sampler.yields_weighted (fun option member => ?_) (Sampler.yields_pure fun _ _ _ => rfl)
    simp only [List.map_cons, List.map_nil, List.mem_cons, List.not_mem_nil, or_false] at member
    rcases member with rfl | rfl | rfl
    · exact yields_leaf
    · refine (Sampler.yields_list ih (Nat.zero_le 3)).map fun items plain K => ?_
      exact Value.supported_array fun v member => plain.2.2 v member K
    · have members : Sampler.Yields (do
          let key ← Sampler.shortKey
          let v ← Sampler.anyValue depth
          pure (key, v)) fun m => m.2.Plain :=
        Sampler.Yields.bind (Q := fun _ => True) (fun _ _ => trivial) fun key _ =>
          ih.bind fun v plain => Sampler.yields_pure plain
      refine (Sampler.yields_list members (Nat.zero_le 3)).map fun items plain K => ?_
      exact Value.supported_object fun m member => plain.2.2 m member K

/-! ### Checks -/

/-- Checks that are all met report nothing and, unless they change texts, leave the text alone. -/
theorem StringCheck.runAll_of_holds {checks : List StringCheck} {s : String}
    (h : ∀ check ∈ checks, !check.isTransform ∧ check.holds s) : runAll checks s = ([], s) := by
  induction checks with
  | nil => rfl
  | cons check rest ih =>
    obtain ⟨keeps, holds⟩ := h check (by simp)
    have same : check.apply s = s := apply_of_not_isTransform (by simpa using keeps) s
    rw [runAll, same, ih fun c member => h c (by simp [member]), violation?, if_pos holds]
    rfl

theorem ofProblems_of_holds {α : Type} {violation? : α → Option Problem} {checks : List α}
    {site : Site} {v : Value} (h : ∀ check ∈ checks, violation? check = none) :
    some (ofProblems site v (checks.filterMap violation?)) = some (.ok v) := by
  rw [List.filterMap_eq_nil_iff.mpr h]
  rfl

/-! ### Filters -/

/-- What passed the test of a monitor suits the schema. -/
theorem suits_of_admits {s : Schema} {v image : Value}
    (known : ∀ site, s.FreshAt around.definitions site → v.SupportedBy (Identity.Before site))
    (h : Admits around cell (.accepted s) v image) : s.Suits around.definitions image := by
  obtain ⟨rfl, n, w, passed⟩ := h
  exact Schema.Suits.of_trial known (Schema.parse_eq_ok_iff.mp passed)

/-- The values of a candidate suit the schema, because the candidate is exact or because they are
    tested. -/
theorem yields_settle {s : Schema} {c : Candidate}
    (h : c.sampler.Yields fun v => v.Plain ∧ (c.exact → s.Suits around.definitions v)) :
    (config.settle cell path s c).draw.Yields around (s.Suits around.definitions) := by
  unfold Config.settle
  split
  · rename_i sure
    exact (yields_sample h).imp fun v hv => hv.2 sure
  · have source : (Strategy.sample c.sampler).draw.Yields around _ := yields_sample h
    refine (Strategy.yields_monitored source).imp fun image hv => ?_
    obtain ⟨v, ⟨plain, _⟩, admits⟩ := hv
    exact suits_of_admits (fun _ _ => plain _) admits

/-- The values of a schema around another are filtered from those of the inner one. -/
theorem yields_monitor {s inner : Schema} {source : Strategy}
    (child : ∀ site, s.FreshAt around.definitions site → inner.FreshAt around.definitions site)
    (h : source.draw.Yields around (inner.Suits around.definitions)) :
    (config.monitor cell path (.accepted s) source).draw.Yields around
      (s.Suits around.definitions) := by
  refine (Strategy.yields_monitored h).imp fun image hv => ?_
  obtain ⟨v, suited, admits⟩ := hv
  exact suits_of_admits (fun site fresh => suited.supported (child site fresh)) admits

/-! ### Sizes, absence and choices -/

theorem problems_of_sizeRange {bounds : SizeBounds} {min max size : Nat}
    (range : config.sizeRange bounds = .ok (min, max)) (c : Collection) (above : min ≤ size)
    (below : size ≤ max) : bounds.problems c size = [] := by
  obtain ⟨least, greatest⟩ := bounds
  simp only [Config.sizeRange] at range
  split at range
  · cases range
  · cases range
    cases least <;> cases greatest <;> simp at above below <;> simp [SizeBounds.problems] <;> omega

theorem sizeRange_le {bounds : SizeBounds} {min max : Nat}
    (range : config.sizeRange bounds = .ok (min, max)) : min ≤ max := by
  simp only [Config.sizeRange] at range
  split at range
  · cases range
  · cases range
    omega

theorem yields_withAbsent {present : Strategy} {absent : Value} {Q : Value → Prop}
    (h : present.draw.Yields around Q) (habsent : Q absent) :
    (config.withAbsent present absent).draw.Yields around Q := by
  unfold Config.withAbsent
  split
  · exact h
  · refine Strategy.yields_union fun option member => ?_
    rcases List.mem_pair.mp member with rfl | rfl
    · exact h
    · exact Strategy.yields_just habsent

theorem yields_among {kind : Kind} {values : List Value} {strategy : Strategy}
    (h : Strategy.among kind values = .ok strategy) :
    strategy.draw.Yields around (· ∈ values) := by
  cases values with
  | nil => cases h
  | cons first others =>
    cases h
    exact yields_sample (Sampler.yields_element first others)

/-! ### Tags -/

/-- An option that a table of tags selects declares tags. -/
theorem declared_of_selected {discriminator : String} {options : List Schema} {table : TagTable}
    (tags : tagTable discriminator options = .ok table) {option : Schema}
    (selected : option ∈ table.selected options) :
    ∃ (position : Nat) (declared : List String), options[position]? = some option ∧
      option.declaredTags discriminator = .ok declared := by
  obtain ⟨⟨tag, position⟩, entry, found⟩ := List.mem_filterMap.mp selected
  obtain ⟨option', declared, found', declares, -⟩ :=
    (findMember?_tagTable_iff tags).mp (findMember?_of_mem_tagTable tags entry)
  obtain rfl : option = option' := Option.some.inj (found.symm.trans found')
  exact ⟨position, declared, found, declares⟩

/-- A value is one of the texts that a member spells, if it spells any. -/
def IsSpelled (field : String × Schema) (v : Value) : Prop :=
  ∀ tags, field.2.Spells tags → ∃ tag ∈ tags, v = .string tag

/-- What is drawn for a discriminator is one of the tags that it spells. -/
theorem yields_spelled {field : Schema} {tags : List String} {strategy : Strategy}
    (spells : field.Spells tags) (compiles : field.CompilesIn config Resolver.empty cell strategy) :
    strategy.draw.Yields around fun v => ∃ tag ∈ tags, v = .string tag := by
  obtain ⟨id, shape⟩ := field
  have assembled := compiles.assembles
  cases spells with
  | @literal tag h =>
    obtain rfl : shape = .literal (.string tag) := h
    cases assembled
    exact Strategy.yields_just ⟨tag, by simp, rfl⟩
  | enumeration h =>
    obtain rfl : shape = .enumeration tags := h
    cases assembled with
    | enumeration among =>
      refine (yields_among among).imp fun v member => ?_
      obtain ⟨tag, htag, rfl⟩ := List.mem_map.mp member
      exact ⟨tag, htag, rfl⟩

/-- An object that is drawn for an option of a discriminated union has one of its tags. -/
theorem yields_tagged {discriminator : String} {option : Schema} {tags : List String}
    {strategy : Strategy} (declared : option.declaredTags discriminator = .ok tags)
    (distinct : option.shape.DistinctNames) (compiles : option.CompilesIn config Resolver.empty cell strategy) :
    strategy.draw.Yields around fun v => ∃ input tag, v = .object input ∧ tag ∈ tags ∧
      findMember? discriminator input = some (.string tag) := by
  obtain ⟨fields, unknownKeys, field, hshape, hfield, spells⟩ := Schema.declaredTags_eq_ok declared
  obtain ⟨id, shape⟩ := option
  obtain rfl : shape = .object fields unknownKeys := hshape
  cases compiles.assembles with
  | @object _ _ strategies inner =>
    have each_yields : List.Forall₂ (fun g f => f.1 = g.1 ∧ f.2.draw.Yields around (IsSpelled g))
        fields strategies := by
      refine inner.imp fun g f ⟨name, _, _, compiles⟩ => ⟨name, ?_⟩
      exact fun p v returns tags spells => yields_spelled spells compiles p v returns
    refine (Strategy.yields_object each_yields).imp fun v drawn => ?_
    obtain ⟨members, rfl, hmembers⟩ := drawn
    have each := Schema.fieldInput_objectOf (R := IsSpelled) distinct hmembers
    obtain ⟨tag, htag, found⟩ := each _ (mem_of_findMember? hfield) tags spells
    refine ⟨_, tag, rfl, htag, ?_⟩
    unfold fieldInput at found
    cases hmember : findMember? discriminator (sortMembers members) with
    | none =>
      rw [hmember] at found
      cases found
    | some w =>
      rw [hmember] at found
      exact congrArg some found

namespace Schema

/-! ### Single values -/

section

variable {definitions : Definitions} {id : SchemaId}

/-- A text that meets checks without changes suits them. -/
theorem suits_string {checks : List StringCheck} {text : String}
    (h : ∀ check ∈ checks, !check.isTransform ∧ check.holds text) :
    (node id (.string checks)).Suits definitions (.string text) := by
  refine suits_scalar (fun _ _ _ => rfl) fun recur site => passes_of_ok (w := .string text) ?_
  simp only [Shape.step, StringCheck.runAll_of_holds h]
  rfl

/-- A number that meets checks suits them. -/
theorem suits_number {checks : List NumberCheck} {x : Float} (number : x.isNaN = false)
    (holds : ∀ check ∈ checks, check.holds x = true) :
    (node id (.number checks)).Suits definitions (.number x) := by
  refine suits_scalar (fun _ _ _ => rfl) fun recur site => passes_of_ok (w := .number x) ?_
  simp only [Shape.step, number, Bool.false_eq_true, if_false]
  exact ofProblems_of_holds fun check member => if_pos (holds check member)

/-- A big integer that no check refuses suits them. -/
theorem suits_bigint {checks : List BigintCheck} {n : Int}
    (holds : ∀ check ∈ checks, check.holds? n ≠ some false) :
    (node id (.bigint checks)).Suits definitions (.bigint n) := by
  refine suits_scalar (fun _ _ _ => rfl) fun recur site => ?_
  exact (parseBigint_grants holds).imp fun _ _ => trivial

/-- A date that meets checks suits them. -/
theorem suits_date {checks : List DateCheck} {t : Calendar.Instant}
    (holds : ∀ check ∈ checks, check.holds t = true) :
    (node id (.date checks)).Suits definitions (.date t) := by
  refine suits_scalar (fun _ _ _ => rfl) fun recur site => ?_
  exact passes_of_ok (ofProblems_of_holds fun check member => if_pos (holds check member))

theorem suits_literal {v : Value} : (node id (.literal v)).Suits definitions v := by
  refine suits_node fun site fresh => ⟨fresh.2.here, fun depth => passes_of_ok (w := v) ?_⟩
  show some (if v == v then _ else _) = _
  rw [Value.beq_self, if_pos rfl]

theorem suits_enumeration {values : List String} {name : String} (member : name ∈ values) :
    (node id (.enumeration values)).Suits definitions (.string name) := by
  refine suits_scalar (fun _ _ _ => rfl) fun recur site => passes_of_ok (w := .string name) ?_
  simp [Shape.step, Value.asString?, member]

theorem suits_nativeEnum {members : List (String × Value)} {m : String × Value}
    (member : m ∈ members) : (node id (.nativeEnum members)).Suits definitions m.2 := by
  refine suits_node fun site fresh => ⟨fresh.2.here m member, fun depth => ?_⟩
  refine passes_of_ok (w := m.2) (congrArg some (if_pos ?_))
  exact List.any_eq_true.mpr ⟨m, member, Value.beq_self m.2⟩

end

/-! ### Nodes -/

section Nodes

variable {id : SchemaId} {strategy : Strategy}

/-- What is drawn for a schema without inner schemas suits it. -/
theorem yields_suits_scalar {shape : Shape Schema} (scalar : shape.Scalar)
    (assembled : Assembles config Resolver.empty cell id shape strategy)
    (regular : shape.Regular around.definitions) :
    strategy.draw.Yields around ((node id shape).Suits around.definitions) := by
  cases assembled with
  | string path candidate =>
    refine yields_settle ((textCandidate_yields candidate).imp fun v hv => ?_)
    obtain ⟨text, rfl, sound⟩ := hv
    exact ⟨fun _ _ _ => rfl, fun sure => suits_string (sound sure)⟩
  | number path candidate =>
    refine yields_settle ((numberCandidate_yields candidate).imp fun v hv => ?_)
    obtain ⟨x, rfl, sound⟩ := hv
    exact ⟨fun _ _ _ => rfl, fun sure => suits_number (sound sure).1 (sound sure).2⟩
  | bigint path candidate =>
    refine yields_settle ((bigintCandidate_yields candidate).imp fun v hv => ?_)
    obtain ⟨n, rfl, sound⟩ := hv
    exact ⟨fun _ _ _ => rfl, fun sure => suits_bigint (sound sure)⟩
  | date path candidate =>
    refine yields_settle ((dateCandidate_yields regular candidate).imp fun v hv => ?_)
    obtain ⟨t, rfl, sound⟩ := hv
    exact ⟨fun _ _ _ => rfl, fun _ => suits_date sound⟩
  | boolean =>
    have any_result : Sampler.bool.Yields fun _ => True := fun _ _ => trivial
    refine yields_sample (any_result.map fun b _ => ?_)
    exact suits_scalar (fun _ _ _ => rfl) fun recur site => grants_ok trivial
  | undefined | void | null | nan =>
    exact Strategy.yields_just
      (suits_scalar (fun _ _ _ => rfl) fun recur site => grants_ok trivial)
  | any | unknown =>
    refine yields_sample ((yields_anyValue _).imp fun v plain => ?_)
    exact suits_scalar plain fun recur site => grants_ok trivial
  | symbol =>
    refine Strategy.yields_symbol.imp fun v hv => ?_
    obtain ⟨s, rfl⟩ := hv
    exact suits_scalar (fun _ _ _ => rfl) fun recur site => grants_ok trivial
  | literal v => exact Strategy.yields_just suits_literal
  | enumeration among =>
    refine (yields_among among).imp fun v member => ?_
    obtain ⟨m, hm, rfl⟩ := List.mem_map.mp member
    exact suits_enumeration hm
  | nativeEnum among =>
    refine (yields_among among).imp fun v member => ?_
    obtain ⟨m, hm, rfl⟩ := List.mem_map.mp member
    exact suits_nativeEnum hm
  | _ => exact scalar.elim

/-- Members that suit their fields make an object that suits the whole. -/
theorem yields_suits_object {fields : List (String × Schema)} {unknownKeys : UnknownKeys}
    {strategies : List (String × Strategy)} (distinct : (fields.map Prod.fst).Nodup)
    (each : List.Forall₂ (fun field f => f.1 = field.1 ∧
      f.2.draw.Yields around (field.2.Suits around.definitions)) fields strategies) :
    (Strategy.object strategies).draw.Yields around
      ((node id (.object fields unknownKeys)).Suits around.definitions) := by
  refine (Strategy.yields_object each).imp fun v hv => ?_
  obtain ⟨members, rfl, each⟩ := hv
  exact suits_object distinct each

/-- Elements that suit their slots and the rest make a tuple that suits the whole. -/
theorem yields_suits_tuple {slots : List Schema} {rest : Option Schema} {strategies : List Strategy}
    {further : Option Strategy} {most : Nat}
    (each : List.Forall₂ (fun t slot => slot.draw.Yields around (t.Suits around.definitions))
      slots strategies)
    (others : Option.Rel (fun t slot => slot.draw.Yields around (t.Suits around.definitions))
      rest further) :
    (Strategy.tuple strategies further most).draw.Yields around
      ((node id (.tuple slots rest)).Suits around.definitions) := by
  have rest_yields : ∀ strategy, further = some strategy → strategy.draw.Yields around
      fun v => ∀ t, rest = some t → t.Suits around.definitions v := by
    rintro strategy rfl
    cases others with
    | some h =>
      refine h.imp fun v suited t same => ?_
      cases same
      exact suited
  refine (Strategy.yields_tuple each rest_yields).imp fun v hv => ?_
  obtain ⟨items, extra, rfl, each, none_extra, each_extra⟩ := hv
  refine suits_tuple each (fun absent => none_extra ?_) fun t same v member =>
    each_extra v member t same
  subst absent
  cases others
  rfl

/-- An object that suits an option of the table suits the union, as it has one of the tags of the
    option. -/
theorem yields_suits_tagged {discriminator : String} {options : List Schema} {table : TagTable}
    {option : Schema} (tags : tagTable discriminator options = .ok table)
    (selected : option ∈ table.selected options) (distinct : option.shape.DistinctNames)
    (compiles : option.CompilesIn config Resolver.empty cell strategy)
    (h : strategy.draw.Yields around (option.Suits around.definitions)) :
    strategy.draw.Yields around
      ((node id (.discriminatedUnion discriminator options)).Suits around.definitions) := by
  obtain ⟨position, declared_tags, hoption, declared⟩ := declared_of_selected tags selected
  refine (h.and (yields_tagged declared distinct compiles)).imp fun v drawn => ?_
  obtain ⟨suited, input, drawn_tag, rfl, htag, found⟩ := drawn
  refine suits_discriminatedUnion ⟨table, drawn_tag, position, tags, found, ?_, hoption⟩ suited
  exact (findMember?_tagTable_iff tags).mpr ⟨option, declared_tags, hoption, declared, htag⟩

/-- A set whose different elements are enough suits the bounds on its size. -/
theorem yields_suits_setAtLeast {item : Schema} {bounds : SizeBounds} {min max : Nat}
    (range : config.sizeRange bounds = .ok (min, max)) (path : Path)
    (h : strategy.draw.Yields around (item.Suits around.definitions)) :
    (config.monitor cell path (.sized min) (.set strategy min max)).draw.Yields around
      ((node id (.set item bounds)).Suits around.definitions) := by
  refine (Strategy.yields_monitored (Strategy.yields_set h (sizeRange_le range))).imp
    fun image hv => ?_
  obtain ⟨_, ⟨items, rfl, under, each⟩, rfl, elements, same, enough⟩ := hv
  obtain rfl : Value.elementsOf items = elements := Value.set.inj same
  have shorter := Value.length_elementsOf_le items
  exact suits_set (problems_of_sizeRange range _ enough (by omega)) each

/-- What is drawn for a schema that falls back on another value may be any value. -/
theorem yields_suits_caught {inner : Schema} {fallback : Value}
    (h : strategy.draw.Yields around (inner.Suits around.definitions)) (depth : Nat) :
    (Strategy.oneOf [strategy, .sample (.anyValue depth)]).draw.Yields around
      ((node id (.caught inner fallback)).Suits around.definitions) := by
  refine Strategy.yields_oneOf fun strategy member => ?_
  rcases List.mem_pair.mp member with rfl | rfl
  · exact h.imp fun v suited => suits_caught fun site fresh => suited.supported fresh
  · exact yields_sample ((yields_anyValue _).imp fun v plain =>
      suits_caught fun site fresh => plain _)

end Nodes

/-! ### The induction -/

/-- **Drawn inputs suit the schema.** So no test refuses them. -/
theorem CompilesIn.yields_suits {s : Schema} {strategy : Strategy}
    (compiles : s.CompilesIn config Resolver.empty cell strategy)
    (regular : s.Everywhere (Shape.Regular around.definitions))
    (distinct : s.Everywhere Shape.DistinctNames) :
    strategy.draw.Yields around (s.Suits around.definitions) := by
  induction s using Schema.induction generalizing cell strategy with
  | node id shape ih =>
    by_cases scalar : shape.Scalar
    · exact yields_suits_scalar scalar compiles.assembles regular.here
    have below : ∀ {t : Schema} {strategy : Strategy}, t ∈ shape.children →
        t.CompilesBelow config Resolver.empty cell strategy →
        strategy.draw.Yields around (t.Suits around.definitions) :=
      fun child ⟨_, _, h⟩ => ih _ child h (regular.inside child) (distinct.inside child)
    cases compiles.assembles with
    | array inner range =>
      have h := below (by simp [Shape.children]) inner
      refine (Strategy.yields_array h (sizeRange_le range)).imp fun v hv => ?_
      obtain ⟨items, rfl, above, under, each⟩ := hv
      exact suits_array (problems_of_sizeRange range _ above under) each
    | set inner range =>
      have h := below (by simp [Shape.children]) inner
      refine (Strategy.yields_set h (sizeRange_le range)).imp fun v hv => ?_
      obtain ⟨items, rfl, under, each⟩ := hv
      have shorter := Value.length_elementsOf_le items
      exact suits_set (problems_of_sizeRange range _ (Nat.zero_le _) (by omega)) each
    | setAtLeast path inner range =>
      exact yields_suits_setAtLeast range path (below (by simp [Shape.children]) inner)
    | object inner =>
      exact yields_suits_object distinct.here (forall₂_of_mem_left inner fun field f member h =>
        ⟨h.1, below (List.mem_map_of_mem member) h.2⟩)
    | @tuple slots rest strategies further inner others =>
      refine yields_suits_tuple (forall₂_of_mem_left inner fun t slot member h =>
        below (List.mem_append_left _ member) h) ?_
      cases others with
      | none => exact .none
      | some h => exact .some (below (by simp [Shape.children]) h)
    | record keys values =>
      have hkey := below (by simp [Shape.children]) keys
      have hvalue := below (by simp [Shape.children]) values
      refine (Strategy.yields_record hkey hvalue).imp fun v hv => ?_
      obtain ⟨members, rfl, each⟩ := hv
      obtain ⟨_, _, compiled⟩ := keys
      exact suits_record (fun _ _ _ _ => compiled.text_of_text regular.here) each
    | map keys values =>
      have hkey := below (by simp [Shape.children]) keys
      have hvalue := below (by simp [Shape.children]) values
      refine (Strategy.yields_map hkey hvalue).imp fun v hv => ?_
      obtain ⟨pairs, rfl, each⟩ := hv
      exact suits_map each
    | union inner =>
      refine Strategy.yields_oneOf fun strategy member => ?_
      obtain ⟨option, hoption, h⟩ := exists_of_mem_right inner member
      exact (below hoption h).imp fun v suited => suits_union hoption suited
    | discriminatedUnion tags inner =>
      refine Strategy.yields_oneOf fun strategy member => ?_
      obtain ⟨⟨i, shape⟩, selected, k, positive, compiled⟩ := exists_of_mem_right inner member
      have child := TagTable.mem_of_mem_selected selected
      exact yields_suits_tagged tags selected (distinct.inside child).here compiled
        (below child ⟨k, positive, compiled⟩)
    | function inner =>
      have h := below (by simp [Shape.children]) inner
      refine (Strategy.yields_function h).imp fun v hv => ?_
      obtain ⟨serial, w, rfl, suited⟩ := hv
      refine suits_node fun site fresh => ⟨?_, fun depth => grants_ok trivial⟩
      exact Value.supported_constant trivial
        (suited.supported (fresh.child (by simp [Shape.children]))) []
    | promise inner =>
      have h := below (by simp [Shape.children]) inner
      refine (Strategy.yields_promise h).imp fun v hv => ?_
      obtain ⟨w, rfl, suited⟩ := hv
      exact suits_promise suited
    | optional inner =>
      have h := below (by simp [Shape.children]) inner
      exact yields_withAbsent (h.imp fun v suited => suits_optional suited)
        (suits_scalar (fun _ _ _ => rfl) fun recur site => grants_ok trivial)
    | nullable inner =>
      have h := below (by simp [Shape.children]) inner
      exact yields_withAbsent (h.imp fun v suited => suits_nullable suited)
        (suits_scalar (fun _ _ _ => rfl) fun recur site => grants_ok trivial)
    | default inner =>
      have h := below (by simp [Shape.children]) inner
      exact yields_withAbsent (h.imp fun v suited => suits_default regular.here suited)
        (suits_default_undefined regular.here)
    | caught inner => exact yields_suits_caught (below (by simp [Shape.children]) inner) _
    | effects path candidates =>
      have child : ∀ {inner : Schema} {effect : Effect}, inner ∈ (Shape.effects inner effect).children :=
        by simp [Shape.children]
      exact yields_monitor (fun site fresh => fresh.child child) (below child candidates)
    | pipeline path candidates =>
      have child : ∀ {first second : Schema}, first ∈ (Shape.pipeline first second).children :=
        by simp [Shape.children]
      exact yields_monitor (fun site fresh => fresh.child child) (below child candidates)
    | branded same | readonly same =>
      have h := below (by simp [Shape.children]) same
      exact h.imp fun v suited => suits_same (by simp [Shape.children]) suited fun _ _ passes => passes
    | _ => exact absurd trivial scalar

end Schema

/-! ### Compilers without overrides -/

namespace Compiler

open Bigint

/-- **Drawn inputs are accepted.** A value that a compiler without overrides draws for a schema,
    with any choices and any memory, is refused by no test of it.  All its tests come to an end if
    those against the second schemas of pipelines do, which have no part in drawing, and unless a
    remainder overflows. -/
theorem inputOf_accepted {s : Schema} {strategy : Strategy} {p : Progress} {v : Value}
    {site : Site} (compiled : ((withConfig config).inputOf s cell).outcome = .ok strategy)
    (regular : s.Everywhere (Shape.Regular around.definitions))
    (distinct : s.Everywhere Shape.DistinctNames)
    (drawn : (strategy.draw.run around p).1 = .ok v)
    (fresh : s.FreshAt around.definitions site) :
    (∀ depth outcome, s.parse around.definitions depth site v = some outcome →
        ∃ w, outcome = .ok w) ∧
      (s.Everywhere (Shape.Conclusive around.definitions) →
        ∃ depth w, s.parse around.definitions depth site v = some (.ok w)) := by
  have compiles := Schema.CompilesIn.of_inputOf compiled
  have suits := compiles.yields_suits regular distinct p v drawn
  have accepted := suits.accepts site fresh
  constructor
  · intro depth outcome returns
    obtain ⟨out, within, rfl⟩ := Option.map_eq_some_iff.mp returns
    obtain ⟨w, rfl, _⟩ := accepted depth out within
    exact ⟨w, rfl⟩
  · intro conclusive
    obtain ⟨depth, out, within⟩ := compiles.ends conclusive site v
    obtain ⟨w, rfl, _⟩ := accepted depth out within
    exact ⟨depth, w, Schema.parse_eq_ok_iff.mpr within⟩

/-- The first choices draw the shortest array where there may be one, and it is accepted. -/
theorem inputOf_accepted_array :
    let array : Schema := .node 1 (.array (.node 0 .boolean) ⟨some 1, some 2⟩)
    let s : Schema := .node 2 (.default array (.array [.bool true]))
    let around : Surroundings := ⟨fun _ _ => 0, fun _ => none, 0, 0⟩
    ∃ strategy, ((withConfig .standard).inputOf s []).outcome = .ok strategy ∧
      (strategy.draw.run around (.start 0)).1 = .ok (.array [.bool false]) ∧
      ∃ depth w,
        s.parse around.definitions depth [.branch 0] (.array [.bool false]) = some (.ok w) := by
  intro array s around
  have everywhere : ∀ P : Shape Schema → Prop, P s.shape → P array.shape → P .boolean →
      s.Everywhere P := by
    intro P top middle bottom
    refine .node 2 top fun t child => ?_
    obtain rfl := List.mem_singleton.mp child
    refine .node 1 middle fun t child => ?_
    obtain rfl := List.mem_singleton.mp child
    exact .node 0 bottom fun t child => absurd child List.not_mem_nil
  have suits : array.Suits around.definitions (.array [.bool true]) := by
    refine Schema.suits_array rfl fun v member => ?_
    obtain rfl := List.mem_singleton.mp member
    exact Schema.suits_scalar (fun _ _ _ => rfl) fun recur site => grants_ok trivial
  have outer : Site.IsOuter [.branch 0] := ⟨by simp, by simp⟩
  have fresh : s.FreshAt around.definitions [.branch 0] :=
    ⟨outer, (everywhere _ (fun _ _ => rfl) trivial trivial).throughout (by simp [around])⟩
  refine ⟨_, rfl, rfl, ?_⟩
  have compiled : ((withConfig .standard).inputOf s []).outcome = .ok _ := rfl
  refine (inputOf_accepted (p := .start 0) compiled (everywhere _ suits.accepts trivial trivial)
    (everywhere _ trivial trivial trivial) ?_ fresh).2 (everywhere _ trivial trivial trivial)
  rfl

/-- Two schemas draw what they do not accept: the least big integer under a step of minus one, whose
    test breaks off, and of a member that is declared twice, the value that was drawn last. -/
theorem exists_drawn_not_accepted :
    let number : Schema :=
      .node 0 (.bigint [.min least true, .max (least + 1) true, .multipleOf (-1)])
    let twice : Schema := .node 2 (.object [("a", .node 0 .boolean), ("a", .node 1 .null)] .strip)
    let around : Surroundings := ⟨fun _ _ => 0, fun _ => none, 0, 0⟩
    (∃ strategy, ((withConfig .standard).inputOf number []).outcome = .ok strategy ∧
      (strategy.draw.run around (.start 0)).1 = .ok (.bigint least) ∧
      ∀ depth site w,
        number.parse around.definitions depth site (.bigint least) ≠ some (.ok w)) ∧
    ∃ strategy, ((withConfig .standard).inputOf twice []).outcome = .ok strategy ∧
      (strategy.draw.run around (.start 0)).1 = .ok (.object [("a", .null)]) ∧
      ∀ depth site w,
        twice.parse around.definitions depth site (.object [("a", .null)]) ≠ some (.ok w) := by
  intro number twice around
  refine ⟨⟨_, rfl, rfl, ?_⟩, _, rfl, rfl, ?_⟩
  · rintro (_ | depth) site w ⟨⟩
  · rintro (_ | _ | depth) site w ⟨⟩

end Compiler

end SchemaSampler
