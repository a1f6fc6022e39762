import SchemaSampler.Calendar.Timestamp
import SchemaSampler.Net.Address
import SchemaSampler.Pattern.Basic

namespace SchemaSampler

/-!
# Text formats — e-mail addresses, identifiers, timestamps, internet addresses
-/

/-- The versions of internet addresses that a format admits. -/
inductive IpVersion where
  | any | v4 | v6
deriving DecidableEq, Repr

/-- A format that a text can have. -/
inductive Format where
  | email | url | uuid | cuid | cuid2 | ulid
  /-- A timestamp: whether an offset may stand for `Z`, and the exact number of fraction digits
      where it is fixed. -/
  | datetime (offset : Bool) (precision : Option Nat)
  | ip (version : IpVersion)
deriving DecidableEq, Repr

namespace Format

/-- The name of a format, as messages show it. -/
def name : Format → String
  | email => "email"
  | url => "url"
  | uuid => "uuid"
  | cuid => "cuid"
  | cuid2 => "cuid2"
  | ulid => "ulid"
  | datetime _ _ => "datetime"
  | ip _ => "ip"

/-! ### Patterns -/

open CharSet Pattern

/-- The digits and capitals of a sortable identifier, which lack `I`, `L`, `O` and `U`. -/
def ulidDigit : CharSet :=
  (((digit.union (.between 'A' 'H')).union (.ofList ['J', 'K', 'M', 'N'])).union
    (.between 'P' 'T')).union (.between 'V' 'Z')

/-- Five groups of 8, 4, 4, 4 and 12 hexadecimal digits joined by hyphens. -/
def uuidPattern : Pattern :=
  let group (n : Nat) := exactly n (one hexadecimal)
  let hyphen := one (.single '-')
  chain [group 8, hyphen, group 4, hyphen, group 4, hyphen, group 4, hyphen, group 12]

/-- Twenty-six digits and capitals. -/
def ulidPattern : Pattern := exactly 26 (one ulidDigit)

/-- The letter `c` and at least eight characters that are neither blanks nor hyphens. -/
def cuidPattern : Pattern :=
  chain [text "c", atLeast 8 (one (blank.union (.single '-')).complement)]

/-- At least one small letter or digit. -/
def cuid2Pattern : Pattern := atLeast 1 (one (digit.union small))

/-- A local part that does not end in a point, and a host name whose last label has letters
    only. -/
def emailPattern : Pattern :=
  let ending := alphanumeric.union (.ofList ['_', '+', '-'])
  let inner := alphanumeric.union (.single '-')
  chain [atLeast 0 (one (ending.union (.ofList ['\'', '.']))), one ending, text "@",
    atLeast 1 (chain [one alphanumeric, atLeast 0 (one inner), text "."]), atLeast 2 (one letter)]

/-- A scheme, a host that is not empty, and a rest without blanks. -/
def urlPattern : Pattern :=
  let scheme := alphanumeric.union (.ofList ['+', '.', '-'])
  let mark := CharSet.ofList ['/', '?', '#']
  chain [one letter, atLeast 0 (one scheme), text "://",
    atLeast 1 (one (blank.union mark).complement),
    optional (chain [one mark, atLeast 0 (one blank.complement)])]

/-! ### Tests -/

/-- Whether a text has two points in a row. -/
def hasDoublePoint : List Char → Bool
  | '.' :: '.' :: _ => true
  | _ :: rest => hasDoublePoint rest
  | [] => false

/-- Whether a text is an internet address of an admitted version. -/
def isAddress (version : IpVersion) (s : List Char) : Bool :=
  match version with
  | .v4 => Net.isV4 s
  | .v6 => Net.isV6 s
  | .any => Net.isV4 s || Net.isV6 s

/-- Whether a text has a format. -/
def holds (format : Format) (s : String) : Bool :=
  match format with
  | email =>
    s.toList.head? != some '.' && !hasDoublePoint s.toList && emailPattern.whole.isMatch s
  | url => urlPattern.whole.isMatch s
  | uuid => uuidPattern.whole.isMatch s
  | cuid => cuidPattern.whole.isMatch s
  | cuid2 => cuid2Pattern.whole.isMatch s
  | ulid => ulidPattern.whole.isMatch s
  | datetime offset precision => Calendar.isTimestamp offset precision s.toList
  | ip version => isAddress version s.toList

end Format

end SchemaSampler
