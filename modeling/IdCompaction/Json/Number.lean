import IdCompaction.Json.Reader

/-!
# Numbers

A number is a whole part without leading zeros, and then perhaps a fraction and an exponent. Without
either it is read as a whole number if it fits a 64-bit word. All other numbers are read as reals
from their leading digits: as many as fit a 64-bit word count, later ones only keep their place.
-/

namespace IdCompaction.Json

/-- A number as it is spelled, its digits as bytes. -/
structure Spelling where
  isNegative : Bool
  whole : Bytes
  /-- The digits after the point; there are none without a point. -/
  fraction : Bytes
  /-- The sign and the digits of the exponent. -/
  exponent : Option (Bool × Bytes)

namespace Number

open Reader

/-- The value of a digit. -/
def digitValue (byte : UInt8) : Nat := byte.toNat - 0x30

/-- The whole part from its first byte on. -/
def wholePart (first : UInt8) : Reader Bytes :=
  if first = 0x30 then do
    if (← peek).any isDigit then failNext .invalidNumber else return [first]
  else if isDigit first then do
    return first :: (← takeWhile isDigit)
  else failHere .invalidNumber

/-- The fraction, if there is a point; `atEnd` is what is wrong if the text ends after the point. -/
def fractionPart (atEnd : Cause) : Reader Bytes := do
  if ← accept 0x2E then
    let digits ← takeWhile isDigit
    if digits.isEmpty then
      match ← peek with
      | some _ => failNext .invalidNumber
      | none => failNext atEnd
    else return digits
  else return []

/-- The exponent, if there is one. -/
def exponentPart (atEnd : Cause) : Reader (Option (Bool × Bytes)) := do
  let marked ← if (← accept 0x65) then pure true else accept 0x45
  if marked then
    let plus ← accept 0x2B
    let isNegative ← if plus then pure false else accept 0x2D
    let first ← nextOr atEnd
    if isDigit first then return some (isNegative, first :: (← takeWhile isDigit))
    else failHere .invalidNumber
  else return none

/-- A number's spelling from its first byte on. -/
def spelling (atEnd : Cause) (first : UInt8) : Reader Spelling := do
  let isNegative := first == 0x2D
  let whole ← if isNegative then (do wholePart (← nextOr atEnd)) else wholePart first
  let fraction ← fractionPart atEnd
  let exponent ← exponentPart atEnd
  return ⟨isNegative, whole, fraction, exponent⟩

/-- Appends digits to a number as long as it stays below `limit`; also says how many were appended.
-/
def gather (limit : Nat) : (value : Nat) → Bytes → Nat × Nat
  | value, [] => (value, 0)
  | value, digit :: rest =>
    let longer := value * 10 + digitValue digit
    if longer < limit then
      let (whole, count) := gather limit longer rest
      (whole, count + 1)
    else (value, 0)

/-- One past the largest 64-bit word. -/
def wordLimit : Nat := 18446744073709551616

/-- One past the largest exponent that is worked out; a longer one is as good as infinite. -/
def exponentLimit : Nat := 2147483648

/-- The magnitude of the least negative whole number. -/
def negativeLimit : Nat := 9223372036854775808

/-- The real that leading digits and an exponent of ten stand for. -/
def ofDigits (isNegative : Bool) (digits : Nat) (places : Int) : Reader Number :=
  match Decimal.Binary64.ofDecimal digits places with
  | some magnitude => return .real isNegative magnitude
  | none => failHere .numberOutOfRange

/-- The number that a spelling stands for. -/
def ofSpelling (s : Spelling) : Reader Number :=
  let (whole, taken) := gather wordLimit 0 s.whole
  let dropped := s.whole.length - taken
  let (digits, appended) := gather wordLimit whole s.fraction
  let places : Int := (dropped : Int) - appended
  match s.exponent with
  | none =>
    if s.fraction.isEmpty ∧ dropped = 0 then
      if !s.isNegative then return .natural whole
      else if 0 < whole ∧ whole ≤ negativeLimit then return .negative whole
      else ofDigits true whole 0
    else ofDigits s.isNegative digits places
  | some (isNegative, spelled) =>
    let (exponent, taken) := gather exponentLimit 0 spelled
    if taken = spelled.length then
      ofDigits s.isNegative digits (if isNegative then places - exponent else places + exponent)
    else if digits ≠ 0 ∧ !isNegative then
      failBefore (spelled.length - taken - 1) .numberOutOfRange
    else return .real s.isNegative Decimal.Binary64.zero

/-- Reads a number from its first byte on. -/
def reader (first : UInt8) : Reader Number := do
  let spelled ← spelling .endInValue first
  ofSpelling spelled

/-- Skips a number from its first byte on, whatever its value. -/
def skip (first : UInt8) : Reader Unit := do
  let _ ← spelling .invalidNumber first
  return ()

end Number

end IdCompaction.Json
