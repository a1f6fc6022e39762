import SchemaSampler.Proofs.Parse.Refusal
import SchemaSampler.Proofs.Schema.TagFaults
import SchemaSampler.Proofs.Strategy.Factories
import SchemaSampler.Proofs.Strategy.Origin

namespace SchemaSampler

/-!
# Contradictions of tags — options without a table give nothing and accept nothing

Both the compilation and the test of a discriminated union go by the table of its tags.  If the
options have none, the compilation stops at the union with the fault, and every test refuses: an
object for the fault, anything else because it is no object.  `tagTable_decides` puts this together
with what the table holds if there is one.
-/

open Compiled

variable {discriminator : String} {options : List Schema} {fault : TagFault} {id : SchemaId}

/-- Compiling a discriminated union without a table stops for the fault. -/
theorem compileMode_tags {config : Config} {resolver : Resolver} (free : resolver id = none)
    (refused : tagTable discriminator options = .error fault) (mode : Mode) (cell : Cell)
    (path : Path) :
    (compileMode config resolver mode (.node id (.discriminatedUnion discriminator options)) cell
      path).outcome = .error (.failed (.invalid path (.tags fault))) := by
  rw [← stop?_eq_some_iff, stop?_compileMode, compileInput_free free, stop?_report, compileShape,
    refused]
  rfl

namespace Schema

variable {definitions : Definitions} {depth : Nat} {site : Site} {v : Value}

/-- Without a table an object is refused for the fault. -/
theorem parseWithin_tags (refused : tagTable discriminator options = .error fault)
    (input : List (String × Value)) :
    parseWithin definitions (depth + 1) site (.node id (.discriminatedUnion discriminator options))
      (.object input) = some (.refuse site (.contradictoryTags fault)) := by
  show parseTagged (parseWithin definitions depth) site discriminator options input = _
  rw [parseTagged, refused]
  rfl

/-- Without a table every value is refused. -/
theorem exists_parse_tags (refused : tagTable discriminator options = .error fault) (v : Value) :
    ∃ e, parse definitions (depth + 1) site (.node id (.discriminatedUnion discriminator options))
        v = some (.error e) ∧
      ∀ input, v = .object input → e.issues = [⟨site.path, .contradictoryTags fault⟩] := by
  by_cases object : ∃ input, v = .object input
  · obtain ⟨input, rfl⟩ := object
    refine ⟨⟨⟨site.path, .contradictoryTags fault⟩, []⟩, ?_, fun _ _ => rfl⟩
    exact parse_eq_error_iff.mpr (parseWithin_tags refused input)
  · refine ⟨⟨⟨site.path, .unexpectedKind "object" v.typeName⟩, []⟩, ?_,
      fun input there => absurd ⟨input, there⟩ object⟩
    cases v
    case object input => exact absurd ⟨input, rfl⟩ object
    all_goals rfl

end Schema

/-- **Tables of tags.** Options have a table exactly if each of them is an object that declares the
    discriminator as a literal text or an enumeration and all these tags are distinct, also within
    one enumeration.  The keys of the table are then these tags, and each stands for the option that
    declares it.  Otherwise the first fault in order of declaration is the one reported: compiling
    the discriminated union, unless it is overridden, fails for it at the path of the union, and
    every value is refused, an object for this very fault. -/
theorem tagTable_decides (discriminator : String) (options : List Schema) :
    ((∃ table, tagTable discriminator options = .ok table) ↔
      ∃ tags, DistinctTags discriminator options tags) ∧
    (∀ table, tagTable discriminator options = .ok table →
      ∃ tags, DistinctTags discriminator options tags ∧
        SortedMembers table ∧ (table.map Prod.fst).Perm tags.flatten ∧
        ∀ tag position, findMember? tag table = some position ↔
          ∃ option declared, options[position]? = some option ∧
            option.Declares discriminator declared ∧ tag ∈ declared) ∧
    ∀ fault,
      (tagTable discriminator options = .error fault ↔ FirstFault discriminator options fault) ∧
      (FirstFault discriminator options fault → ∀ id,
        let union : Schema := .node id (.discriminatedUnion discriminator options)
        (∀ (c : Compiler) inside mode cell path, c.overrides.resolve? id = none →
          (compileMode c.config (c.resolverWith inside) mode union cell path).outcome =
            .error (.failed (.invalid path (.tags fault)))) ∧
        ∀ definitions depth site v, ∃ e,
          union.parse definitions (depth + 1) site v = some (.error e) ∧
          ∀ input, v = .object input →
            e.issues = [⟨site.path, .contradictoryTags fault⟩]) := by
  refine ⟨exists_tagTable_iff, fun table htable => ?_, fun fault => ⟨tagTable_eq_error_iff, ?_⟩⟩
  · obtain ⟨tags, distinct⟩ := exists_tagTable_iff.mp ⟨table, htable⟩
    refine ⟨tags, distinct, sorted_tagTable htable, distinct.perm_tagTable htable,
      fun tag position => ?_⟩
    simp only [← Schema.declaredTags_eq_ok_iff]
    exact findMember?_tagTable_iff htable
  · intro first id union
    have refused := first.tagTable_eq
    refine ⟨fun c inside mode cell path free => ?_, fun _ _ _ v => Schema.exists_parse_tags refused v⟩
    exact compileMode_tags (Compiler.resolverWith_eq_none free inside) refused mode cell path

/-- Three tags of two options are three keys.  An enumeration that lists a tag twice is at fault, and
    counts before the option behind it, which is no object. -/
theorem tagTable_decides_twice :
    let option (tags : List String) : Schema :=
      .node 0 (.object [("kind", .node 1 (.enumeration tags))] .strip)
    let options := [option ["b", "a"], option ["c"]]
    let faulty := [option ["a"], option ["b", "b"], .node 2 .null]
    let union : Schema := .node 3 (.discriminatedUnion "kind" faulty)
    let c := Compiler.withConfig .standard
    (tagTable "kind" options = .ok [("a", 0), ("b", 0), ("c", 1)] ∧
      ∃ tags, DistinctTags "kind" options tags ∧ ["a", "b", "c"].Perm tags.flatten) ∧
    FirstFault "kind" faulty (.repeated "b") ∧
    (c.inputOf union []).outcome = .error (.failed (.invalid .root (.tags (.repeated "b")))) ∧
    ∀ v, ∃ e, union.parse (fun _ => none) 1 [] v = some (.error e) := by
  intro option options faulty union c
  have htable : tagTable "kind" options = .ok [("a", 0), ("b", 0), ("c", 1)] := by decide
  obtain ⟨tags, distinct, -, keys, -⟩ := (tagTable_decides "kind" options).2.1 _ htable
  have refused : tagTable "kind" faulty = .error (.repeated "b") := by decide
  obtain ⟨first, failing⟩ := (tagTable_decides "kind" faulty).2.2 (.repeated "b")
  obtain ⟨stops, refuses⟩ := failing (first.mp refused) 3
  refine ⟨⟨htable, tags, distinct, keys⟩, first.mp refused, stops c _ .input [] .root rfl,
    fun v => ?_⟩
  obtain ⟨e, error, -⟩ := refuses (fun _ => none) 0 [] v
  exact ⟨e, error⟩

end SchemaSampler
