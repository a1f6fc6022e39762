import SchemaSampler.Binary64

namespace SchemaSampler

/-!
# JSON documents

A document keeps apart numbers written as integers of at most 64 bits and all other numbers,
because a configuration asks for the former.  The members of an object are sorted by key and no
key comes twice.
-/

/-- A number of a document. -/
inductive JsonNumber where
  /-- An integer from `-2 ^ 63` to `2 ^ 64 - 1`. -/
  | int (n : Int)
  /-- Any other number. -/
  | float (x : Float)

/-- The floating-point number nearest to a number of a document. -/
def JsonNumber.toFloat : JsonNumber → Float
  | int n => Binary64.ofInt n
  | float x => x

/-- A JSON document. -/
inductive Json where
  /-- The document `null`. -/
  | null
  /-- A truth value. -/
  | bool (b : Bool)
  /-- A number. -/
  | number (n : JsonNumber)
  /-- A text. -/
  | string (s : String)
  /-- A list of documents. -/
  | array (items : List Json)
  /-- Documents by key. -/
  | object (members : List (String × Json))
deriving Inhabited

end SchemaSampler
