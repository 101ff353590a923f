import IdCompaction.Json.Number
import IdCompaction.Json.Text

/-!
# Values that are not wanted

Where a value of one type is wanted and another is found, the other value is read as far as it takes
to name it: a scalar to its end, a list or an object not at all. The error stands where that reading
ended. Values are read from their first byte on, which the caller has taken.
-/

namespace IdCompaction.Json.Value

open Reader

/-- The rest of a word after its first letter. -/
def word : Bytes → Reader Unit
  | [] => return ()
  | letter :: rest => do
    if (← nextOr .endInValue) = letter then word rest else failHere .expectedWord

/-- The letters of `null` after the first. -/
def nullRest : Bytes := [0x75, 0x6C, 0x6C]

/-- The letters of `true` after the first. -/
def trueRest : Bytes := [0x72, 0x75, 0x65]

/-- The letters of `false` after the first. -/
def falseRest : Bytes := [0x61, 0x6C, 0x73, 0x65]

/-- Whether a byte begins a number. -/
def beginsNumber (byte : UInt8) : Bool := byte == 0x2D || isDigit byte

/-- Halts because another type was expected. -/
def wrongType {α : Type} (first : UInt8) (expected : String) : Reader α := do
  if first = 0x6E then
    word nullRest
    failHere (.wrongType .null expected)
  else if first = 0x74 then
    word trueRest
    failHere (.wrongType (.boolean true) expected)
  else if first = 0x66 then
    word falseRest
    failHere (.wrongType (.boolean false) expected)
  else if beginsNumber first then
    let number ← Number.reader first
    failHere (.wrongType (.number number) expected)
  else if first = 0x22 then
    let content ← Text.body false
    failHere (.wrongType (.text (Text.ofBytes content)) expected)
  else if first = 0x5B then failBefore 1 (.wrongType .sequence expected)
  else if first = 0x7B then failBefore 1 (.wrongType .map expected)
  else failHere .expectedValue

/-- A natural number below `limit`. -/
def natural (limit : Nat) (expected : String) : Reader Nat := do
  let first ← token .endInValue
  if beginsNumber first then
    match ← Number.reader first with
    | .natural value =>
      if value < limit then return value else failHere (.wrongValue (.natural value) expected)
    | .negative magnitude => failHere (.wrongValue (.negative magnitude) expected)
    | .real isNegative magnitude =>
      failHere (.wrongType (.number (.real isNegative magnitude)) expected)
  else wrongType first expected

/-- The word `null`. -/
def null (expected : String) : Reader Unit := do
  let first ← token .endInValue
  if first = 0x6E then word nullRest else wrongType first expected

/-- The colon between a key and its value. -/
def colon : Reader Unit := do
  if (← token .endInObject) ≠ 0x3A then failHere .expectedColon

end IdCompaction.Json.Value
