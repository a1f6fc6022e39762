import SchemaSampler.Members
import SchemaSampler.Schema.Basic

namespace SchemaSampler

/-!
# Tags — which option of a discriminated union a text selects

Every option has to be an object that declares the discriminator as a text or as one of several
texts, and no text may be declared twice.  The first fault in order of declaration counts.
-/

/-- The texts that an option declares for the discriminator. -/
def Schema.declaredTags (discriminator : String) (option : Schema) :
    Except TagFault (List String) :=
  match option.shape with
  | .object fields _ =>
    match findMember? discriminator fields with
    | none => .error (.undeclared discriminator)
    | some field =>
      match field.shape with
      | .literal (.string tag) => .ok [tag]
      | .enumeration members => .ok members
      | _ => .error (.notTextual discriminator field.typeName)
  | _ => .error (.notObject option.typeName)

/-- A table from tags to positions of options, sorted by tag. -/
abbrev TagTable := List (String × Nat)

/-- Enters the tags of one option into a table. -/
def TagTable.enter (position : Nat) : TagTable → List String → Except TagFault TagTable
  | table, [] => .ok table
  | table, tag :: rest =>
    if (findMember? tag table).isSome then .error (.repeated tag)
    else enter position (insertMember tag position table) rest

/-- Enters the tags of options in turn, the first of which is at `position`. -/
def TagTable.enterAll (discriminator : String) :
    (position : Nat) → TagTable → List Schema → Except TagFault TagTable
  | _, table, [] => .ok table
  | position, table, option :: rest => do
    let tags ← option.declaredTags discriminator
    let table ← table.enter position tags
    enterAll discriminator (position + 1) table rest

/-- The table of a discriminated union. -/
def tagTable (discriminator : String) (options : List Schema) : Except TagFault TagTable :=
  TagTable.enterAll discriminator 0 [] options

end SchemaSampler
