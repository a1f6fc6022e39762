import SchemaSampler.Proofs.Parse.Decisions
import SchemaSampler.Proofs.Parse.Refusal
import SchemaSampler.Proofs.Strategy.Accepted
import SchemaSampler.Value.Mapping

namespace SchemaSampler

/-!
# Keys of records — drawn as texts, tested for what they become

A record keeps the drawn keys that are texts, and it tests its members for keys that become texts.
A text that is drawn for a schema always suits it (`Schema.CompilesIn.yields_texts`), so every key
of a drawn record is accepted by the schema of the keys; but it may be made to another value.

* `Schema.parseRecord_passes` — a record refuses no member whose key stays a text.
* `Compiler.inputOf_record_accepted_iff` — a drawn record is accepted exactly if all its keys stay
  texts.
* `Compiler.exists_key_refused` — keys that are mapped to their length are refused.
-/

open Draw Parsed

variable {config : Config} {cell : Cell} {path : Path} {around : Surroundings}
  {definitions : Definitions} {site : Site} {id : SchemaId} {s key value : Schema}
  {strategy : Strategy}

/-! ### Drawn texts -/

namespace Schema

/-- A value suits a schema if it is a text. -/
def SuitsText (definitions : Definitions) (s : Schema) (v : Value) : Prop :=
  ∀ name, v = .string name → s.Suits definitions v

theorem plain_string (name : String) : Value.Plain (.string name) := fun _ _ _ => rfl

/-- A draw that nothing is known of. -/
theorem yields_any (around : Surroundings) (strategy : Strategy) :
    strategy.draw.Yields around fun _ => True :=
  fun _ _ _ => trivial

/-- Texts that passed a monitor suit the schema, wherever they come from. -/
theorem yields_texts_monitor (source : Strategy) :
    (config.monitor cell path (.accepted s) source).draw.Yields around
      (s.SuitsText around.definitions) := by
  refine (Strategy.yields_monitored (yields_any around source)).imp ?_
  rintro image ⟨v, -, rfl, trial, w, passed⟩ name rfl
  exact Suits.of_trial (fun _ _ => plain_string name _) (parse_eq_ok_iff.mp passed)

/-- Texts of a candidate suit the schema if those of an exact one do. -/
theorem yields_texts_settle {c : Candidate}
    (h : c.sampler.Yields fun v => c.exact → s.SuitsText around.definitions v) :
    (config.settle cell path s c).draw.Yields around (s.SuitsText around.definitions) := by
  unfold Config.settle
  split
  · rename_i sure
    exact (yields_sample h).imp fun v suits => suits sure
  · exact yields_texts_monitor _

/-- An option of a discriminated union is drawn as an object. -/
theorem yields_object_of_declared {discriminator : String} {tags : List String}
    (declared : s.declaredTags discriminator = .ok tags)
    (compiles : s.CompilesIn config Resolver.empty cell strategy) :
    strategy.draw.Yields around fun v => ∃ input, v = .object input := by
  obtain ⟨fields, unknownKeys, -, hshape, -, -⟩ := declaredTags_eq_ok declared
  obtain ⟨id, shape⟩ := s
  obtain rfl : shape = .object fields unknownKeys := hshape
  cases compiles.assembles with
  | object inner =>
    have each := inner.imp fun field f h => And.intro h.1 (yields_any around f.2)
    refine (Strategy.yields_object each).imp ?_
    rintro v ⟨members, rfl, -⟩
    exact ⟨_, rfl⟩

/-- **Drawn texts suit the schema.** This holds for every schema that has a strategy; nothing that a
    schema draws wrongly is a text. -/
theorem CompilesIn.yields_texts (compiles : s.CompilesIn config Resolver.empty cell strategy) :
    strategy.draw.Yields around (s.SuitsText around.definitions) := by
  induction s using Schema.induction generalizing cell strategy with
  | node id shape ih =>
    have below : ∀ {t : Schema} {strategy : Strategy}, t ∈ shape.children →
        t.CompilesBelow config Resolver.empty cell strategy →
        strategy.draw.Yields around (t.SuitsText around.definitions) :=
      fun child ⟨_, _, h⟩ => ih _ child h
    cases compiles.assembles with
    | string path candidate =>
      refine yields_texts_settle ((textCandidate_yields candidate).imp ?_)
      rintro v ⟨text, rfl, sound⟩ sure - -
      exact suits_string (sound sure)
    | number path candidate =>
      refine yields_texts_settle ((numberCandidate_yields candidate).imp ?_)
      rintro v ⟨x, rfl, -⟩ - name ⟨⟩
    | bigint path candidate =>
      refine yields_texts_settle ((bigintCandidate_yields candidate).imp ?_)
      rintro v ⟨n, rfl, -⟩ - name ⟨⟩
    | date path candidate =>
      refine yields_texts_settle ((dateCandidate_yields_left candidate).imp ?_)
      rintro v ⟨millis, rfl, -⟩ - name ⟨⟩
    | boolean =>
      have any_result : Sampler.bool.Yields fun _ => True := fun _ _ => trivial
      refine yields_sample (any_result.map fun b _ => ?_)
      rintro name ⟨⟩
    | undefined | void | null | nan =>
      refine Strategy.yields_just ?_
      rintro name ⟨⟩
    | any | unknown =>
      refine fun p v _ name same => ?_
      rw [same]
      exact suits_scalar (plain_string name) fun recur site => grants_ok trivial
    | symbol =>
      refine Strategy.yields_symbol.imp ?_
      rintro v ⟨s, rfl⟩ name ⟨⟩
    | literal v =>
      refine Strategy.yields_just ?_
      rintro name rfl
      exact suits_literal
    | enumeration among =>
      refine (yields_among among).imp ?_
      rintro v member name rfl
      obtain ⟨m, hm, same⟩ := List.mem_map.mp member
      cases same
      exact suits_enumeration hm
    | nativeEnum among =>
      refine (yields_among among).imp ?_
      rintro v member name rfl
      obtain ⟨m, hm, same⟩ := List.mem_map.mp member
      exact same ▸ suits_nativeEnum hm
    | array inner range =>
      refine (Strategy.yields_array (yields_any _ _) (sizeRange_le range)).imp ?_
      rintro v ⟨items, rfl, -⟩ name ⟨⟩
    | set inner range =>
      refine (Strategy.yields_set (yields_any _ _) (sizeRange_le range)).imp ?_
      rintro v ⟨items, rfl, -⟩ name ⟨⟩
    | setAtLeast path inner range =>
      refine (Strategy.yields_monitored (yields_any _ _)).imp ?_
      rintro image ⟨v, -, rfl, elements, rfl, -⟩ name ⟨⟩
    | object inner =>
      have each := inner.imp fun field f h => And.intro h.1 (yields_any around f.2)
      refine (Strategy.yields_object each).imp ?_
      rintro v ⟨members, rfl, -⟩ name ⟨⟩
    | tuple inner others =>
      have each := inner.imp fun t f _ => yields_any around f
      refine (Strategy.yields_tuple each fun f _ => yields_any around f).imp ?_
      rintro v ⟨items, further, rfl, -⟩ name ⟨⟩
    | record keys values =>
      refine (Strategy.yields_record (yields_any _ _) (yields_any _ _)).imp ?_
      rintro v ⟨members, rfl, -⟩ name ⟨⟩
    | map keys values =>
      refine (Strategy.yields_map (yields_any _ _) (yields_any _ _)).imp ?_
      rintro v ⟨pairs, rfl, -⟩ name ⟨⟩
    | union inner =>
      refine Strategy.yields_oneOf fun strategy member => ?_
      obtain ⟨option, hoption, h⟩ := exists_of_mem_right inner member
      exact (below hoption h).imp fun v suits name same => suits_union hoption (suits name same)
    | discriminatedUnion tags inner =>
      refine Strategy.yields_oneOf fun strategy member => ?_
      obtain ⟨option, selected, _, _, compiled⟩ := exists_of_mem_right inner member
      obtain ⟨_, _, -, declared⟩ := declared_of_selected tags selected
      refine (yields_object_of_declared declared compiled).imp ?_
      rintro v ⟨input, rfl⟩ name ⟨⟩
    | function inner =>
      refine (Strategy.yields_function (yields_any _ _)).imp ?_
      rintro v ⟨serial, w, rfl, -⟩ name ⟨⟩
    | promise inner =>
      refine (Strategy.yields_promise (yields_any _ _)).imp ?_
      rintro v ⟨w, rfl, -⟩ name ⟨⟩
    | optional inner =>
      have h := below (by simp [Shape.children]) inner
      refine yields_withAbsent (h.imp ?_) (by rintro name ⟨⟩)
      exact fun v suits name same => suits_optional (suits name same)
    | nullable inner =>
      have h := below (by simp [Shape.children]) inner
      refine yields_withAbsent (h.imp ?_) (by rintro name ⟨⟩)
      exact fun v suits name same => suits_nullable (suits name same)
    | default inner =>
      have h := below (by simp [Shape.children]) inner
      refine yields_withAbsent (h.imp ?_) (by rintro name ⟨⟩)
      rintro v suits name rfl
      exact suits_same (by simp [Shape.children]) (suits name rfl) fun _ _ passes => passes
    | caught inner =>
      refine fun p v _ name same => ?_
      rw [same]
      exact suits_caught fun _ _ => plain_string name _
    | effects path candidates | pipeline path candidates => exact yields_texts_monitor _
    | branded same | readonly same =>
      have h := below (by simp [Shape.children]) same
      exact h.imp fun v suits name same =>
        suits_same (by simp [Shape.children]) (suits name same) fun _ _ passes => passes

/-! ### Tests of records -/

/-- No test of a key of an object, at its place in the object, makes the key anything but a text. -/
def KeepsTexts (definitions : Definitions) (site : Site) (key : Schema)
    (input : List (String × Value)) : Prop :=
  ∀ m ∈ input, ∀ depth w,
    key.parse definitions depth (.branch 0 :: .key m.1 :: site) (.string m.1) = some (.ok w) →
      ∃ name, w = .string name

/-- A record whose keys stay texts is not refused if neither its keys nor its values are. -/
theorem parseRecord_passes {input : List (String × Value)} (depth : Nat)
    (texts : KeepsTexts definitions site key input)
    (keys : ∀ m ∈ input, Passes
      (parseWithin definitions depth (.branch 0 :: .key m.1 :: site) key (.string m.1)))
    (values : ∀ m ∈ input, Passes
      (parseWithin definitions depth (.branch 1 :: .key m.1 :: site) value m.2)) :
    Passes (parseRecord (parseWithin definitions depth) site key value input) := by
  refine (parseRecord_grants (K := fun _ _ => True) (V := fun _ _ => True)
    (List.forall₂_same.mpr fun m member => ⟨fun out returns => ?_, values m member⟩)).imp
      fun _ _ => trivial
  obtain ⟨w, rfl, -⟩ := keys m member out returns
  obtain ⟨name, rfl⟩ := texts m member depth w (parse_eq_ok_iff.mpr returns)
  exact ⟨_, rfl, name, rfl, trivial⟩

/-- The keys of a record that some test accepts stay texts. -/
theorem keepsTexts_of_acceptsAt {input : List (String × Value)}
    (accepted : (Schema.node id (.record key value)).AcceptsAt definitions site (.object input)) :
    KeepsTexts definitions site key input := by
  obtain ⟨_ | depth, result, returns⟩ := accepted
  · cases returns
  · obtain ⟨ms, each, -⟩ :=
      parseRecord_ok (parseWithin_reports definitions depth) (parse_eq_ok_iff.mp returns)
    intro m member depth' w made
    obtain ⟨m', -, becomes, -⟩ := exists_of_mem_left each member
    cases parseWithin_unique becomes (parse_eq_ok_iff.mp made)
    exact ⟨m'.1, rfl⟩

end Schema

/-! ### Drawn records -/

namespace Compiler

/-- **Drawn records are accepted exactly if their keys stay texts.** Around a schema of values whose
    own inputs are accepted, a compiler without overrides draws for a record only objects that no
    test refuses, as long as no test of a key makes anything but a text of it; where tests end, an
    object is accepted just in that case.  Keys that nothing maps always stay texts. -/
theorem inputOf_record_accepted_iff
    (compiled : ((withConfig config).inputOf (.node id (.record key value)) cell).outcome =
      .ok strategy)
    (values : ∀ cell source, value.CompilesIn config Resolver.empty cell source →
      source.draw.Yields around (value.Accepts around.definitions))
    (fresh : (Schema.node id (.record key value)).FreshAt around.definitions site) :
    let s : Schema := .node id (.record key value)
    strategy.draw.Yields around fun v => ∃ input, v = .object input ∧
      (key.KeepsTexts around.definitions site input →
        s.NeverRefuses around.definitions site v) ∧
      (s.Everywhere (Shape.Conclusive around.definitions) →
        (s.AcceptsAt around.definitions site v ↔
          key.KeepsTexts around.definitions site input)) ∧
      (key.Everywhere Shape.MapsNothing → key.KeepsTexts around.definitions site input) := by
  intro s
  have compiles := Schema.CompilesIn.of_inputOf compiled
  cases compiles.assembles with
  | @record _ _ keys_from values_from keys_below values_below =>
    obtain ⟨_, -, key_compiles⟩ := keys_below
    obtain ⟨_, -, value_compiles⟩ := values_below
    refine (Strategy.yields_record key_compiles.yields_texts (values _ _ value_compiles)).imp ?_
    rintro v ⟨members, rfl, each⟩
    have inside (m) (member : m ∈ sortMembers members) : m ∈ members := by
      rcases mem_insertAll (sortMembers_eq_insertAll members ▸ member) with member | member
      · exact member
      · cases member
    have fresh_key := fresh.child (t := key) (by simp [Shape.children])
    have fresh_value := fresh.child (t := value) (by simp [Shape.children])
    have never (texts : key.KeepsTexts around.definitions site (sortMembers members)) :
        s.NeverRefuses around.definitions site (Value.objectOf members) := by
      rintro (_ | depth) outcome returns
      · cases returns
      · obtain ⟨out, within, rfl⟩ := Option.map_eq_some_iff.mp returns
        have passes := Schema.parseRecord_passes depth texts
          (fun m member => ((each m (inside m member)).1 m.1 rfl).accepts _
            ((fresh_key.key m.1).branch 0) depth)
          (fun m member => (each m (inside m member)).2 _ ((fresh_value.key m.1).branch 1) depth)
        obtain ⟨w, rfl, -⟩ := passes out within
        exact ⟨w, rfl⟩
    refine ⟨_, rfl, never, fun conclusive => ⟨Schema.keepsTexts_of_acceptsAt, fun texts => ?_⟩, ?_⟩
    · exact (never texts).acceptsAt (compiles.ends conclusive)
    · intro plain m _ depth w made
      exact key_compiles.text_of_text plain (Schema.parse_eq_ok_iff.mp made)

/-- Keys without a mapping: every drawn record is accepted. -/
theorem inputOf_record_accepted_texts :
    let s : Schema := .node 2 (.record (.node 0 (.string [])) (.node 1 .boolean))
    let around : Surroundings := ⟨fun _ _ => 1, fun _ => none, 3, 1⟩
    ∃ strategy, ((withConfig .standard).inputOf s []).outcome = .ok strategy ∧
      strategy.draw.Yields around (s.AcceptsAt around.definitions [.branch 0]) := by
  intro s around
  have leaf : ∀ (P : Shape Schema → Prop) (id : SchemaId) (shape : Shape Schema),
      shape.children = [] → P shape → (Schema.node id shape).Everywhere P :=
    fun P id shape none here => .node id here fun t child => absurd (none ▸ child) List.not_mem_nil
  have everywhere (P : Shape Schema → Prop) (top : P s.shape) (keys : P (.string []))
      (values : P .boolean) : s.Everywhere P := by
    refine .node 2 top fun t child => ?_
    rcases List.mem_pair.mp child with rfl | rfl
    · exact leaf P 0 _ rfl keys
    · exact leaf P 1 _ rfl values
  have fresh : s.FreshAt around.definitions [.branch 0] :=
    ⟨⟨by simp, by simp⟩, (everywhere _ trivial trivial trivial).throughout (by simp [around])⟩
  have values : ∀ cell source,
      (Schema.node 1 .boolean).CompilesIn .standard Resolver.empty cell source →
        source.draw.Yields around ((Schema.node 1 .boolean).Accepts around.definitions) :=
    fun cell source compiles => (compiles.yields_suits (leaf _ 1 _ rfl trivial)
      (leaf _ 1 _ rfl trivial)).imp fun v suits => suits.accepts
  have compiled : ((withConfig .standard).inputOf s []).outcome = .ok _ := rfl
  refine ⟨_, rfl, (inputOf_record_accepted_iff compiled values fresh).imp ?_⟩
  rintro v ⟨input, -, -, decides, texts⟩
  exact (decides (everywhere _ trivial trivial trivial)).mpr (texts (leaf _ 0 _ rfl trivial))

/-- Keys that are mapped to their length: a record with the empty text as its key is drawn, and it is
    refused by every test that comes to an end, since the key becomes a number. -/
theorem exists_key_refused :
    let lengths : Schema :=
      .node 1 (.effects (.node 0 (.string [])) (.transform Mapping.characterCount.apply))
    let s : Schema := .node 3 (.record lengths (.node 2 .boolean))
    let around : Surroundings := ⟨fun question _ => if question = 0 then 1 else 0, fun _ => none, 3, 1⟩
    ∃ strategy, ((withConfig .standard).inputOf s []).outcome = .ok strategy ∧
      (strategy.draw.run around (.start 0)).1 = .ok (.object [("", .bool false)]) ∧
      ∀ depth, s.parse around.definitions (depth + 3) [.branch 0] (.object [("", .bool false)]) =
        some (.error ⟨⟨[.key ""], .keyNotText "number"⟩, []⟩) := by
  intro lengths s around
  exact ⟨_, rfl, rfl, fun _ => rfl⟩

end Compiler

end SchemaSampler
