import SchemaSampler.Text.Quoted
import SchemaSampler.Value.Basic

namespace SchemaSampler.Value

/-!
# Structural text — values as messages show them

A message that names a whole value shows its kind and contents: `Number(1.0)`,
`String("a\"b")`, `Object({"a": Null})`, `Map([(Null, Undefined)])`.
-/

mutual

/-- The structural text of a value. -/
def display : Value → String
  | undefined => "Undefined"
  | null => "Null"
  | bool b => "Bool(" ++ (if b then "true" else "false") ++ ")"
  | number x => "Number(" ++ Decimal.tagged x ++ ")"
  | bigint n => "BigInt(" ++ toString n ++ ")"
  | string s => "String(" ++ Text.quoted s ++ ")"
  | date t => "Date(" ++ t.zuluText ++ ")"
  | symbol s =>
    "Symbol(Symbol \x7b id: " ++ toString s.serial ++ ", description: " ++
      (match s.description with
        | some d => "Some(" ++ Text.quoted d ++ ")"
        | none => "None") ++ " \x7d)"
  | array items => "Array([" ++ ", ".intercalate (displayAll items) ++ "])"
  | object members => "Object(\x7b" ++ ", ".intercalate (displayMembers members) ++ "\x7d)"
  | map entries => "Map([" ++ ", ".intercalate (displayEntries entries) ++ "])"
  | set elements => "Set([" ++ ", ".intercalate (displayAll elements) ++ "])"
  | function _ => "Function(FunctionValue(..))"
  | promise settled => "Promise(" ++ display settled ++ ")"

/-- The structural texts of a list of values. -/
def displayAll : List Value → List String
  | [] => []
  | v :: rest => display v :: displayAll rest

/-- The structural texts of the members of an object. -/
def displayMembers : List (String × Value) → List String
  | [] => []
  | (key, v) :: rest => (Text.quoted key ++ ": " ++ display v) :: displayMembers rest

/-- The structural texts of the entries of a map. -/
def displayEntries : List (Value × Value) → List String
  | [] => []
  | (key, v) :: rest => ("(" ++ display key ++ ", " ++ display v ++ ")") :: displayEntries rest

end

end SchemaSampler.Value
