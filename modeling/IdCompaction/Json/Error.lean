import IdCompaction.Decimal.Shortest
import IdCompaction.Text.Quoted

/-!
# Errors of a document

What can be wrong with the text of a document: it ends early, it breaks the grammar, or it is
well-formed but says something that its reader has no use for. An error has a cause and, with one
exception, a place in the text.
-/

namespace IdCompaction.Json

/-- A number as it was read. -/
inductive Number
  /-- A whole number that is a 64-bit word. -/
  | natural (value : Nat)
  /-- A negative whole number, by its magnitude, not below the least 64-bit integer. -/
  | negative (magnitude : Nat)
  /-- Any other number. -/
  | real (isNegative : Bool) (magnitude : Decimal.Binary64)
  deriving DecidableEq

/-- What was found where something else was expected. -/
inductive Found
  | null
  | boolean (value : Bool)
  | number (value : Number)
  | text (value : String)
  | sequence
  | map
  deriving DecidableEq

/-- What is wrong. -/
inductive Cause
  | endInValue
  | endInList
  | endInObject
  | endInString
  | expectedValue
  | expectedWord
  | expectedColon
  | expectedListEnd
  | expectedObjectEnd
  | keyNotString
  | trailingComma
  | trailingCharacters
  | invalidNumber
  | numberOutOfRange
  | invalidEscape
  | loneSurrogate
  | brokenSurrogate
  | controlCharacter
  | wrongType (found : Found) (expected : String)
  | wrongValue (value : Number) (expected : String)
  | duplicateField (name : String)
  | unknownVariant (name : String)
  | bareVariant
  deriving DecidableEq

/-- The three kinds of errors. -/
inductive Category
  /-- The text ends early. -/
  | early
  /-- The text breaks the grammar. -/
  | malformed
  /-- The text says something that its reader has no use for. -/
  | unsuited
  deriving DecidableEq

/-- Numbers that are not whole keep a digit on each side of the point, from 10^-5 up to 10^16, and
have an exponent elsewhere. -/
def realStyle : Decimal.DecimalStyle := ⟨-5, 15⟩

namespace Number

/-- A number as messages show it. -/
def describe : Number → String
  | .natural value => s!"integer `{value}`"
  | .negative magnitude => s!"integer `-{magnitude}`"
  | .real isNegative magnitude =>
    "floating point `" ++ (if isNegative then "-" else "") ++
      magnitude.shortest.write realStyle ++ "`"

end Number

namespace Found

/-- What was found, as messages show it. -/
def describe : Found → String
  | .null => "null"
  | .boolean value => s!"boolean `{value}`"
  | .number value => value.describe
  | .text value => "string " ++ Text.quote value
  | .sequence => "sequence"
  | .map => "map"

end Found

namespace Cause

/-- The kind of a cause. -/
def category : Cause → Category
  | .endInValue | .endInList | .endInObject | .endInString => .early
  | .wrongType .. | .wrongValue .. | .duplicateField _ | .unknownVariant _ | .bareVariant =>
    .unsuited
  | _ => .malformed

/-- The text of a cause, without its place. -/
def message : Cause → String
  | .endInValue => "EOF while parsing a value"
  | .endInList => "EOF while parsing a list"
  | .endInObject => "EOF while parsing an object"
  | .endInString => "EOF while parsing a string"
  | .expectedValue => "expected value"
  | .expectedWord => "expected ident"
  | .expectedColon => "expected `:`"
  | .expectedListEnd => "expected `,` or `]`"
  | .expectedObjectEnd => "expected `,` or `\x7d`"
  | .keyNotString => "key must be a string"
  | .trailingComma => "trailing comma"
  | .trailingCharacters => "trailing characters"
  | .invalidNumber => "invalid number"
  | .numberOutOfRange => "number out of range"
  | .invalidEscape => "invalid escape"
  | .loneSurrogate => "lone leading surrogate in hex escape"
  | .brokenSurrogate => "unexpected end of hex escape"
  | .controlCharacter => "control character (\\u0000-\\u001F) found while parsing a string"
  | .wrongType found expected => s!"invalid type: {found.describe}, expected {expected}"
  | .wrongValue value expected => s!"invalid value: {value.describe}, expected {expected}"
  | .duplicateField name => s!"duplicate field `{name}`"
  | .unknownVariant name => s!"unknown variant `{name}`, expected `Cpu` or `Gpu`"
  | .bareVariant => "invalid type: unit variant, expected newtype variant"

end Cause

/-- A cause at its line and column, both counted in bytes; line zero stands for no place at all. -/
structure Error where
  cause : Cause
  line : Nat
  column : Nat
  deriving DecidableEq

/-- The text of an error, with its place. -/
def Error.message (e : Error) : String :=
  if e.line = 0 then e.cause.message
  else s!"{e.cause.message} at line {e.line} column {e.column}"

end IdCompaction.Json
