import SchemaSampler.Json.Basic
import SchemaSampler.Strategy.Config
import SchemaSampler.Text.Quoted

namespace SchemaSampler.Config

/-!
# Configuration documents — reading settings from JSON

A configuration is an object whose keys are among the names of the settings, or a list of the
settings in order.  Settings that are missing keep their standard value.  Members are read in
the order of their keys and the first one at fault is reported.
-/

/-- The names of the settings, in order. -/
inductive Setting where
  | minTrials | minSuccessRate | presentWeight | absentWeight | maxExtraLength | anyDepth
deriving DecidableEq, Repr

namespace Setting

/-- The key of a setting. -/
def key : Setting → String
  | minTrials => "min_trials"
  | minSuccessRate => "min_success_rate"
  | presentWeight => "present_weight"
  | absentWeight => "absent_weight"
  | maxExtraLength => "max_extra_len"
  | anyDepth => "any_depth"

/-- All settings, in order. -/
def all : List Setting :=
  [minTrials, minSuccessRate, presentWeight, absentWeight, maxExtraLength, anyDepth]

/-- The setting with a key. -/
def ofKey? (key : String) : Option Setting := all.find? (·.key == key)

/-- The name of the numbers that a setting takes. -/
def numberName : Setting → String
  | minTrials => "u64"
  | minSuccessRate => "f64"
  | maxExtraLength => "usize"
  | presentWeight | absentWeight | anyDepth => "u32"

/-- The number of bits of an integral setting. -/
def bits : Setting → Nat
  | presentWeight | absentWeight | anyDepth => 32
  | _ => 64

end Setting

/-- Why a document is no configuration. -/
inductive DocumentFault where
  /-- A document is of another kind than the one expected. -/
  | kind (found : Json) (expected : String)
  /-- A number is not among those a setting takes. -/
  | range (found : Int) (expected : String)
  /-- No setting has this key. -/
  | unknownKey (key : String)
  /-- A list has more items than there are settings. -/
  | tooLong (length : Nat)

/-- How a message names a document. -/
def describe : Json → String
  | .null => "null"
  | .bool b => "boolean \x60" ++ (if b then "true" else "false") ++ "\x60"
  | .number (.int n) => "integer \x60" ++ toString n ++ "\x60"
  | .number (.float x) => "floating point \x60" ++ Decimal.compact x ++ "\x60"
  | .string s => "string " ++ Text.quoted s
  | .array _ => "sequence"
  | .object _ => "map"

/-- The wording of a fault. -/
def DocumentFault.message : DocumentFault → String
  | kind found expected => "invalid type: " ++ describe found ++ ", expected " ++ expected
  | range found expected =>
    "invalid value: integer \x60" ++ toString found ++ "\x60, expected " ++ expected
  | unknownKey key =>
    "unknown field \x60" ++ key ++ "\x60, expected one of " ++
      ", ".intercalate (Setting.all.map fun s => "\x60" ++ s.key ++ "\x60")
  | tooLong length =>
    "invalid length " ++ toString length ++ ", expected fewer elements in array"

/-- The natural number of a document, within the bits of a setting. -/
def readNatural (s : Setting) : Json → Except DocumentFault Nat
  | .number (.int n) =>
    if 0 ≤ n ∧ n.toNat < Nat.pow 2 s.bits then .ok n.toNat else .error (.range n s.numberName)
  | other => .error (.kind other s.numberName)

/-- Sets one setting from a document. -/
def set (c : Config) (s : Setting) (d : Json) : Except DocumentFault Config :=
  match s with
  | .minTrials => do pure { c with minTrials := ← readNatural s d }
  | .minSuccessRate =>
    match d with
    | .number n => .ok { c with minSuccessRate := n.toFloat }
    | other => .error (.kind other s.numberName)
  | .presentWeight => do pure { c with presentWeight := ← readNatural s d }
  | .absentWeight => do pure { c with absentWeight := ← readNatural s d }
  | .maxExtraLength => do pure { c with maxExtraLength := ← readNatural s d }
  | .anyDepth => do pure { c with anyDepth := ← readNatural s d }

/-- Sets settings from members in turn. -/
def setMembers (c : Config) : List (String × Json) → Except DocumentFault Config
  | [] => .ok c
  | (key, d) :: rest =>
    match Setting.ofKey? key with
    | some s => do setMembers (← c.set s d) rest
    | none => .error (.unknownKey key)

/-- Sets settings from documents in their order. -/
def setInOrder (c : Config) : List (Setting × Json) → Except DocumentFault Config
  | [] => .ok c
  | (s, d) :: rest => do setInOrder (← c.set s d) rest

/-- The configuration of a document. -/
def ofJson : Json → Except DocumentFault Config
  | .object members => setMembers standard members
  | .array items => do
    let c ← setInOrder standard (Setting.all.zip items)
    if items.length > Setting.all.length then .error (.tooLong items.length) else .ok c
  | other => .error (.kind other "struct GenerationConfig")

end SchemaSampler.Config
