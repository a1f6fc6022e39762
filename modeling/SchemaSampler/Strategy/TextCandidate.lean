import SchemaSampler.Schema.Check
import SchemaSampler.Strategy.Candidate
import SchemaSampler.Strategy.Config
import SchemaSampler.Strategy.Failure
import SchemaSampler.Strategy.FormatSampler

namespace SchemaSampler

/-!
# Candidates of text schemas

A `TextPlan` sums up the checks of a text schema.  If they name a format, the candidates are texts
of the first format named; otherwise they have the first start and the first ending asked for, all
the pieces to be included, and random characters up to the length allowed.
-/

/-- What the checks of a text schema ask for. -/
structure TextPlan where
  /-- The least length. -/
  min : Nat
  /-- The greatest length. -/
  max : Option Nat
  /-- The formats. -/
  formats : List Format
  /-- The starts. -/
  starts : List String
  /-- The endings. -/
  endings : List String
  /-- The pieces to be included. -/
  pieces : List String
  /-- Whether there are checks that candidates cannot be made for. -/
  needsTest : Bool

namespace TextPlan

/-- The plan of no checks. -/
def empty : TextPlan := ⟨0, none, [], [], [], [], false⟩

/-- The smaller of two upper bounds, one of which may be missing. -/
def cap (max : Option Nat) (n : Nat) : Option Nat := some (max.elim n (Nat.min n))

/-- Adds a check to a plan. -/
def add (plan : TextPlan) : StringCheck → TextPlan
  | .minLength n => { plan with min := Nat.max plan.min n }
  | .maxLength n => { plan with max := cap plan.max n }
  | .length n => { plan with min := Nat.max plan.min n, max := cap plan.max n }
  | .format f => { plan with formats := plan.formats ++ [f] }
  | .startsWith s => { plan with starts := plan.starts ++ [s] }
  | .endsWith s => { plan with endings := plan.endings ++ [s] }
  | .includes s => { plan with pieces := plan.pieces ++ [s] }
  | .pattern _ | .trim | .lower | .upper => { plan with needsTest := true }

/-- The plan of a list of checks. -/
def ofChecks (checks : List StringCheck) : TextPlan := checks.foldl add empty

/-- Whether a plan bounds the length. -/
def hasLengthBounds (plan : TextPlan) : Bool := plan.min > 0 || plan.max.isSome

/-- Whether a plan fixes a part of the text. -/
def hasFixedParts (plan : TextPlan) : Bool :=
  !(plan.starts.isEmpty && plan.endings.isEmpty && plan.pieces.isEmpty)

/-- The length of the fixed parts of a candidate. -/
def fixedLength (plan : TextPlan) : Nat :=
  (plan.starts.headD "").length + (String.join plan.pieces).length + (plan.endings.headD "").length

/-- Whether the length allowed where no maximum is declared is beyond a machine word.  The program
    breaks off either way: where the sum is not checked, it wraps around to less than the minimum. -/
def overflows (plan : TextPlan) (maxExtraLength : Nat) : Bool :=
  plan.formats.isEmpty && plan.max.isNone &&
    plan.min - plan.fixedLength + maxExtraLength ≥ Config.wordSize

/-- Candidates with fixed parts around random characters. -/
def freeCandidate (plan : TextPlan) (maxExtraLength : Nat) : Candidate :=
  let start := plan.starts.headD ""
  let ending := plan.endings.headD ""
  let middle := String.join plan.pieces
  let fixed := plan.fixedLength
  let bodyMin := plan.min - fixed
  let bodyMax := match plan.max with
    | some max => Nat.max (max - fixed) bodyMin
    | none => bodyMin + maxExtraLength
  { sampler := do
      let body ← Sampler.list .char bodyMin bodyMax
      pure (.string (start ++ middle ++ String.ofList body ++ ending))
    exact := !plan.needsTest && plan.starts.length ≤ 1 && plan.endings.length ≤ 1 &&
      !plan.max.any (· < fixed) }

/-- Candidates of a format. -/
def formatCandidate (plan : TextPlan) (format : Format) : Candidate where
  sampler := do pure (.string (String.ofList (← format.sampler)))
  exact := plan.formats.length == 1 && !plan.needsTest && !plan.hasLengthBounds &&
    !plan.hasFixedParts

/-- The candidates of a plan. -/
def candidate (plan : TextPlan) (maxExtraLength : Nat) : Candidate :=
  match plan.formats with
  | format :: _ => plan.formatCandidate format
  | [] => plan.freeCandidate maxExtraLength

end TextPlan

/-- The candidates of a text schema. -/
def textCandidate (checks : List StringCheck) (maxExtraLength : Nat) :
    Except Contradiction Candidate :=
  let plan := TextPlan.ofChecks checks
  match plan.max with
  | some max =>
    if max < plan.min then .error (.lengths max plan.min)
    else .ok (plan.candidate maxExtraLength)
  | none => .ok (plan.candidate maxExtraLength)

end SchemaSampler
