/-!
# Binary64 magnitudes

A finite magnitude of the 64-bit binary format is a whole significand below 2^53 times a power of
two not below 2^-1074. Arithmetic is exact on ratios of natural numbers and is then rounded to the
nearest magnitude, to the one with the even significand if two are equally near. What rounds past
the largest magnitude is none.
-/

namespace IdCompaction.Decimal

/-- The magnitude `significand * 2 ^ exponent`. -/
structure Binary64 where
  significand : Nat
  exponent : Int
  deriving DecidableEq

/-- The whole number nearest to `num / den`, a half going to the even one. -/
def roundHalfEven (num den : Nat) : Nat :=
  let whole := num / den
  let rest := num % den
  if 2 * rest < den then whole
  else if den < 2 * rest then whole + 1
  else if whole % 2 = 0 then whole else whole + 1

namespace Binary64

/-- The least exponent. -/
def leastExponent : Int := -1074

/-- The greatest exponent. -/
def greatestExponent : Int := 971

/-- One past the largest significand: two to the power 53. -/
def significandLimit : Nat := 9007199254740992

/-- The least significand of a magnitude whose exponent could be smaller: half of the limit. -/
def leastNormal : Nat := 4503599627370496

/-- Zero. -/
def zero : Binary64 := ⟨0, leastExponent⟩

/-- The ratio `num / den / 2 ^ exponent` as numerator and denominator. -/
def scaled (num den : Nat) (exponent : Int) : Nat × Nat :=
  if 0 ≤ exponent then (num, den * Nat.pow 2 exponent.toNat)
  else (num * Nat.pow 2 (-exponent).toNat, den)

/-- The exponent of the greatest power of two not above `num / den`. -/
def binaryExponent (num den : Nat) : Int :=
  let guess : Int := (Nat.log2 num : Int) - Nat.log2 den
  let (n, d) := scaled num den guess
  if n < d then guess - 1 else guess

/-- The magnitude nearest to `num / den`, unless it is past the largest. -/
def ofRatio (num den : Nat) : Option Binary64 :=
  if num = 0 then some zero
  else
    let exponent := max (binaryExponent num den - 52) leastExponent
    let (n, d) := scaled num den exponent
    let significand := roundHalfEven n d
    let (significand, exponent) :=
      if significand = significandLimit then (leastNormal, exponent + 1)
      else (significand, exponent)
    if greatestExponent < exponent then none else some ⟨significand, exponent⟩

/-- A magnitude as numerator and denominator. -/
def ratio (x : Binary64) : Nat × Nat :=
  if 0 ≤ x.exponent then (x.significand * Nat.pow 2 x.exponent.toNat, 1)
  else (x.significand, Nat.pow 2 (-x.exponent).toNat)

/-- The rounded product. -/
def mul (x y : Binary64) : Option Binary64 :=
  ofRatio (x.ratio.1 * y.ratio.1) (x.ratio.2 * y.ratio.2)

/-- The rounded quotient. -/
def div (x y : Binary64) : Option Binary64 :=
  ofRatio (x.ratio.1 * y.ratio.2) (x.ratio.2 * y.ratio.1)

/-- The magnitude nearest to a natural number. -/
def ofNat (n : Nat) : Option Binary64 := ofRatio n 1

/-- The magnitude nearest to a power of ten; only powers up to 308 are used. -/
def powerOfTen (places : Nat) : Binary64 := (ofNat (Nat.pow 10 places)).getD zero

/-- The magnitude divided by `10 ^ places`, at most 308 places at a time, rounded each time. -/
def shrink (x : Binary64) (places : Nat) : Binary64 :=
  if places ≤ 308 then (x.div (powerOfTen places)).getD zero
  else if x.significand = 0 then x
  else shrink ((x.div (powerOfTen 308)).getD zero) (places - 308)
termination_by places

/-- The magnitude that `digits * 10 ^ places` is read as: the digits are rounded first and scaled
then, so the last place can differ from the nearest. -/
def ofDecimal (digits : Nat) (places : Int) : Option Binary64 := do
  let x ← ofNat digits
  if places < 0 then some (x.shrink (-places).toNat)
  else if places ≤ 308 then x.mul (powerOfTen places.toNat)
  else if x.significand = 0 then some x
  else none

end Binary64

end IdCompaction.Decimal
