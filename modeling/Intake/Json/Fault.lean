import Intake.Decimal.Shortest
import Intake.Text.Quoted

/-!
Why a JSON text cannot be read as a value of some kind, and how that is said.
-/
namespace Intake.Json

/-- A value that stands where another kind of value is expected. -/
inductive Found where
  | null
  | bool (b : Bool)
  | integer (n : Int)
  | floating (f : Float)
  | string (s : String)
  | sequence
  | map
deriving DecidableEq, Repr

/-- What is expected. -/
inductive Expected where
  | string
  | boolean
  /-- A natural number of so many bits. -/
  | unsigned (bits : Nat)
  /-- The null that follows the name of a variant. -/
  | unit
  | sequence
  | map
  /-- The fields of a structure. -/
  | fields (name : String)
  /-- A string in some format. -/
  | formatted (what : String)
deriving DecidableEq, Repr

inductive Fault where
  | endOfValue
  | endOfString
  | endOfList
  | endOfObject
  | expectedValue
  | expectedWord
  | expectedColon
  | expectedCommaInList
  | expectedCommaInObject
  | expectedQuote
  | trailingComma
  | trailingCharacters
  | keyNotString
  | keyNotNumber
  | controlCharacter
  | invalidEscape
  /-- A surrogate without the other half of its pair. -/
  | loneSurrogate
  /-- The first half of a surrogate pair with no escape behind it. -/
  | halfPair
  | invalidNumber
  | numberOutOfRange
  | tooDeep
  | wrongType (found : Found) (expected : Expected)
  | outOfRange (n : Int) (expected : Expected)
  | unknownVariant (name : String) (known : List String)
  | duplicateField (name : String)
  | missingField (name : String)
  /-- An array with too few elements for the fields of a structure. -/
  | wrongLength (found : Nat) (name : String) (fields : Nat)
  /-- A string that is not in the format expected of it, with what its reader says. -/
  | refused (reason : String)
deriving DecidableEq, Repr

/-- Positional from 0.00001 to below 10 ^ 16, and a sign before every exponent. -/
def floatLayout : Decimal.Layout := ⟨-4,16,['+']⟩

def Found.describe : Found → String
  | .null => "null"
  | .bool b => s!"boolean `{b}`"
  | .integer n => s!"integer `{n}`"
  | .floating f => "floating point `" ++ floatLayout.floatText f ++ "`"
  | .string s => "string " ++ Text.Quoted.text s
  | .sequence => "sequence"
  | .map => "map"

def Expected.describe : Expected → String
  | .string => "a string"
  | .boolean => "a boolean"
  | .unsigned bits => s!"u{bits}"
  | .unit => "unit"
  | .sequence => "a sequence"
  | .map => "a map"
  | .fields name => s!"struct {name}"
  | .formatted what => what

/-- Names between backticks, the way a message lists them. -/
def listed : List String → String
  | [] => "there are no variants"
  | [a] => s!"expected `{a}`"
  | [a,b] => s!"expected `{a}` or `{b}`"
  | names => "expected one of " ++ ", ".intercalate (names.map fun name => s!"`{name}`")

def Fault.message : Fault → String
  | .endOfValue => "EOF while parsing a value"
  | .endOfString => "EOF while parsing a string"
  | .endOfList => "EOF while parsing a list"
  | .endOfObject => "EOF while parsing an object"
  | .expectedValue => "expected value"
  | .expectedWord => "expected ident"
  | .expectedColon => "expected `:`"
  | .expectedCommaInList => "expected `,` or `]`"
  | .expectedCommaInObject => "expected `,` or `\x7d`"
  | .expectedQuote => "expected `\"`"
  | .trailingComma => "trailing comma"
  | .trailingCharacters => "trailing characters"
  | .keyNotString => "key must be a string"
  | .keyNotNumber => "invalid value: expected key to be a number in quotes"
  | .controlCharacter => "control character (\\u0000-\\u001F) found while parsing a string"
  | .invalidEscape => "invalid escape"
  | .loneSurrogate => "lone leading surrogate in hex escape"
  | .halfPair => "unexpected end of hex escape"
  | .invalidNumber => "invalid number"
  | .numberOutOfRange => "number out of range"
  | .tooDeep => "recursion limit exceeded"
  | .wrongType found expected => "invalid type: " ++ found.describe ++ ", expected " ++ expected.describe
  | .outOfRange n expected => s!"invalid value: integer `{n}`, expected " ++ expected.describe
  | .unknownVariant name known => s!"unknown variant `{name}`, " ++ listed known
  | .duplicateField name => s!"duplicate field `{name}`"
  | .missingField name => s!"missing field `{name}`"
  | .wrongLength found name fields =>
    s!"invalid length {found}, expected struct {name} with {fields} element" ++ (if fields = 1 then "" else "s")
  | .refused reason => reason

end Intake.Json
