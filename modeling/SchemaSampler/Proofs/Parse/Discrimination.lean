import SchemaSampler.Proofs.Parse.Depth
import SchemaSampler.Proofs.Parse.Refusal
import SchemaSampler.Proofs.Schema.Tags

namespace SchemaSampler

/-!
# Discrimination — the option that a tag selects is the one that a plain union comes to

The options that a table of tags was made of have no tag in common.  An object that one of them
accepts has a tag of this option under the discriminator (`selects_of_accepts`), and so is refused
by all others.  Testing an object against the option that its tag selects is thus the same as trying
the options in order, but for the issues of a refusal.

Nothing is asked of the options apart from their table: further members may be declared under any
schemas, or the discriminator a second time, and undeclared members may be treated in any way.
-/

open Parsed

variable {definitions : Definitions} {depth : Nat} {site : Site} {discriminator : String}
  {options : List Schema} {option : Schema} {table : TagTable} {v w : Value}

/-- Only a text equals a text. -/
theorem Value.eq_string_of_beq {s : String} (h : (v == .string s) = true) : v = .string s := by
  change v.same (.string s) = true at h
  cases v with
  | string s' =>
    rw [Value.same, beq_iff_eq] at h
    rw [h]
  | _ => simp [Value.same] at h

/-- A schema that spells tags accepts nothing else. -/
theorem Schema.Spells.accepts {field : Schema} {tags : List String} (h : field.Spells tags)
    (returns : Schema.parseWithin definitions depth site field v = some (.ok w)) :
    ∃ tag ∈ tags, v = .string tag := by
  cases depth with
  | zero => cases returns
  | succ depth =>
    rw [Schema.parseWithin] at returns
    cases h with
    | literal h =>
      rw [h, Shape.step, Option.pure_def, Option.some.injEq, ite_refuse_eq_ok_iff] at returns
      exact ⟨_, List.mem_singleton_self _, Value.eq_string_of_beq returns.1⟩
    | enumeration h =>
      rw [h, Shape.step, Option.pure_def, Option.some.injEq, ite_refuse_eq_ok_iff] at returns
      obtain ⟨tag, htag, member⟩ := (Option.any_eq_true _ _).mp returns.1
      refine ⟨tag, List.contains_iff_mem.mp member, ?_⟩
      cases v with
      | string s => exact congrArg Value.string (Option.some.inj htag)
      | _ => cases htag

/-- An object belongs to at most one option. -/
theorem Selects.unique {input : List (String × Value)} {other : Schema}
    (h : Selects discriminator options input option)
    (h' : Selects discriminator options input other) : option = other := by
  obtain ⟨table, tag, position, htable, htag, hposition, hoption⟩ := h
  obtain ⟨table', tag', position', htable', htag', hposition', hother⟩ := h'
  cases htable.symm.trans htable'
  cases htag.symm.trans htag'
  cases hposition.symm.trans hposition'
  exact Option.some.inj (hoption.symm.trans hother)

/-- What one of the options accepts is an object that belongs to the option. -/
theorem selects_of_accepts (htable : tagTable discriminator options = .ok table)
    (member : option ∈ options)
    (returns : Schema.parseWithin definitions depth site option v = some (.ok w)) :
    ∃ input, v = .object input ∧ Selects discriminator options input option := by
  obtain ⟨position, hoption⟩ := List.mem_iff_getElem?.mp member
  obtain ⟨tags, declared⟩ := TagTable.exists_declaredTags_of_enterAll htable member
  obtain ⟨fields, unknownKeys, field, hshape, hfield, spells⟩ :=
    Schema.declaredTags_eq_ok declared
  cases depth with
  | zero => cases returns
  | succ depth =>
    rw [Schema.parseWithin, hshape] at returns
    cases v with
    | object input =>
      obtain ⟨_, ws, each, _⟩ :=
        parseObject_ok (Schema.parseWithin_reports definitions depth) returns
      obtain ⟨_, _, result⟩ := exists_of_mem_left each (mem_of_findMember? hfield)
      obtain ⟨tag, spelled, htag⟩ := spells.accepts result
      refine ⟨input, rfl, table, tag, position, htable, ?_, ?_, hoption⟩
      · -- A member that is not there counts as the absent value, which is no text.
        change (findMember? discriminator input).getD .undefined = .string tag at htag
        cases found : findMember? discriminator input with
        | none =>
          rw [found] at htag
          cases htag
        | some v =>
          rw [found] at htag
          exact congrArg some htag
      · exact (findMember?_tagTable_iff htable).mpr ⟨option, tags, hoption, declared, spelled⟩
    | _ => cases returns

/-- All options that accept a value make the same of it, since they are one option. -/
theorem accepts_unique {other : Schema} {depth' : Nat} {w' : Value}
    (htable : tagTable discriminator options = .ok table) (member : option ∈ options)
    (member' : other ∈ options)
    (returns : Schema.parseWithin definitions depth site option v = some (.ok w))
    (returns' : Schema.parseWithin definitions depth' site other v = some (.ok w')) : w = w' := by
  obtain ⟨input, rfl, selected⟩ := selects_of_accepts htable member returns
  obtain ⟨_, ⟨⟩, selected'⟩ := selects_of_accepts htable member' returns'
  obtain rfl := selected.unique selected'
  exact Except.ok.inj (Schema.parseWithin_unique returns returns')

/-- One of the options accepts a value with a result. -/
def AcceptedAmong (definitions : Definitions) (site : Site) (options : List Schema)
    (v w : Value) : Prop :=
  ∃ option ∈ options, ∃ depth, Schema.parseWithin definitions depth site option v = some (.ok w)

/-- A discriminated union accepts what one of its options accepts. -/
theorem discriminatedUnion_ok_iff {id : SchemaId} {out : Parsed}
    (htable : tagTable discriminator options = .ok table)
    (returns : Schema.parseWithin definitions depth site
      (.node id (.discriminatedUnion discriminator options)) v = some out) :
    out = .ok w ↔ AcceptedAmong definitions site options v w := by
  cases depth with
  | zero => cases returns
  | succ depth =>
    constructor
    · rintro rfl
      cases v with
      | object input =>
        obtain ⟨option, selected, accepted⟩ := parseTagged_ok returns
        exact ⟨option, selected.mem, depth, accepted⟩
      | _ => cases returns
    · rintro ⟨option, member, depth', accepted⟩
      obtain ⟨input, rfl, selected⟩ := selects_of_accepts htable member accepted
      have dispatched : Schema.parseWithin definitions depth site option (.object input) =
          some out := (parseTagged_of_selects selected).symm.trans returns
      exact Schema.parseWithin_unique dispatched accepted

/-- So does a plain union of options with a table of tags. -/
theorem union_ok_iff {id : SchemaId} {out : Parsed}
    (htable : tagTable discriminator options = .ok table)
    (returns : Schema.parseWithin definitions depth site (.node id (.union options)) v = some out) :
    out = .ok w ↔ AcceptedAmong definitions site options v w := by
  cases depth with
  | zero => cases returns
  | succ depth =>
    constructor
    · rintro rfl
      obtain ⟨option, member, accepted⟩ := firstAccepted_ok returns
      exact ⟨option, member, depth, accepted⟩
    · rintro ⟨option, member, depth', accepted⟩
      have grants : Grants (Schema.parseWithin definitions depth site option v) fun _ => True :=
        fun out' returns' => ⟨w, Schema.parseWithin_unique returns' accepted, trivial⟩
      obtain ⟨w', rfl, -⟩ := firstAccepted_grants member grants out returns
      -- Another option may accept the value first, but it is the same one.
      obtain ⟨first, member', accepted'⟩ := firstAccepted_ok returns
      rw [accepts_unique htable member member' accepted accepted']

/-- **Tags change no result.** If the options of a discriminated union have a table of tags, the
    union accepts what the options accept as a plain union and makes the same of it, as far as the
    tests of both come to an end.  Both stand at one site, which is what new functions are named
    after. -/
theorem discriminatedUnion_ok_iff_union {id id' : SchemaId} {depth' : Nat}
    {tagged plain : Except ParseError Value}
    (htable : tagTable discriminator options = .ok table)
    (htagged : (Schema.node id (.discriminatedUnion discriminator options)).parse definitions depth
      site v = some tagged)
    (hplain : (Schema.node id' (.union options)).parse definitions depth' site v = some plain)
    (w : Value) : tagged = .ok w ↔ plain = .ok w := by
  obtain ⟨out, returns, same⟩ := Schema.exists_of_parse htagged
  obtain ⟨out', returns', same'⟩ := Schema.exists_of_parse hplain
  rw [same, same', discriminatedUnion_ok_iff htable returns, union_ok_iff htable returns']

/-- Two options that share no tag: what the second one makes of an object with its tag is also what
    the plain union makes of it. -/
theorem discriminatedUnion_ok_iff_union_second :
    let kind (tags : List String) : Schema := .node 1 (.enumeration tags)
    let options : List Schema := [.node 2 (.object [("kind", kind ["a", "b"])] .strict),
      .node 3 (.object [("kind", kind ["c"])] .strip)]
    let v : Value := .object [("kind", .string "c"), ("size", .null)]
    let w : Value := .object [("kind", .string "c")]
    tagTable "kind" options = .ok [("a", 0), ("b", 0), ("c", 1)] ∧
      (Schema.node 4 (.discriminatedUnion "kind" options)).parse (fun _ => none) 3 [] v =
        some (.ok w) ∧
      (Schema.node 5 (.union options)).parse (fun _ => none) 3 [] v = some (.ok w) := by
  intro kind options v w
  have htable : tagTable "kind" options = .ok [("a", 0), ("b", 0), ("c", 1)] := rfl
  have htagged : (Schema.node 4 (.discriminatedUnion "kind" options)).parse (fun _ => none) 3 [] v =
      some (.ok w) := rfl
  obtain ⟨plain, hplain⟩ : ∃ plain,
      (Schema.node 5 (.union options)).parse (fun _ => none) 3 [] v = some plain := ⟨_, rfl⟩
  obtain rfl := (discriminatedUnion_ok_iff_union htable htagged hplain w).mp rfl
  exact ⟨htable, htagged, hplain⟩

end SchemaSampler
