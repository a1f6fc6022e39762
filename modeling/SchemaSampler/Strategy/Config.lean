import SchemaSampler.Decimal.Text

namespace SchemaSampler

/-!
# Configuration — the settings of generation
-/

/-- The settings of generation. -/
structure Config where
  /-- Candidates drawn before a breaker may trip. -/
  minTrials : Nat
  /-- The lowest ratio of accepted candidates that a breaker tolerates. -/
  minSuccessRate : Float
  /-- The weight of the inner value where a value may be absent. -/
  presentWeight : Nat
  /-- The weight of the absent value. -/
  absentWeight : Nat
  /-- The length allowed above the minimum where no maximum is declared. -/
  maxExtraLength : Nat
  /-- How deep containers nest in arbitrary values. -/
  anyDepth : Nat
  /-- Whether sums of lengths are checked: one beyond a machine word breaks the compilation off.
      Unchecked, it wraps around.  This is no setting of its own but comes with the program. -/
  checked : Bool := true

namespace Config

/-- The number of machine words, and so of the lengths that there can be. -/
def wordSize : Nat := Nat.pow 2 64

/-- The settings where none are given. -/
def standard : Config where
  minTrials := 1000
  minSuccessRate := 0.01
  presentWeight := 2
  absentWeight := 1
  maxExtraLength := 10
  anyDepth := 3

/-- What can be wrong with settings. -/
inductive Fault where
  | minTrials | minSuccessRate | presentWeight
deriving DecidableEq, Repr

/-- The wording of a fault. -/
def Fault.message : Fault → String
  | minTrials => "min-trials must be at least 1"
  | minSuccessRate => "min-success-rate must be between 0 and 1"
  | presentWeight => "present-weight must be at least 1"

/-- The first fault of settings, if there is one. -/
def fault? (c : Config) : Option Fault :=
  if c.minTrials < 1 then some .minTrials
  else if !(0 ≤ c.minSuccessRate && c.minSuccessRate ≤ 1) then some .minSuccessRate
  else if c.presentWeight < 1 then some .presentWeight
  else none

/-- The structural text of settings. -/
def display (c : Config) : String :=
  "GenerationConfig \x7b min_trials: " ++ toString c.minTrials ++
    ", min_success_rate: " ++ Decimal.tagged c.minSuccessRate ++
    ", present_weight: " ++ toString c.presentWeight ++
    ", absent_weight: " ++ toString c.absentWeight ++
    ", max_extra_len: " ++ toString c.maxExtraLength ++
    ", any_depth: " ++ toString c.anyDepth ++ " \x7d"

end Config

end SchemaSampler
