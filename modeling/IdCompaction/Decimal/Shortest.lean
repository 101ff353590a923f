import IdCompaction.Decimal.Binary64

/-!
# Shortest decimals

The shortest decimal of a magnitude has the fewest digits among the decimals that read back as the
magnitude, and is the nearest of those, an even one if two are equally near. It is found one length
at a time: if any decimal of a length reads back, then one of the magnitude's two neighbours of that
length does.
-/

namespace IdCompaction.Decimal

/-- The decimal `digits * 10 ^ places`. -/
structure Digits where
  digits : Nat
  places : Int
  deriving DecidableEq

/-- How decimals are written out. -/
structure DecimalStyle where
  /-- The least exponent of the first digit that is written without an exponent. -/
  leastPlain : Int
  /-- The greatest such exponent. -/
  greatestPlain : Int

namespace Binary64

/-- The exponent of the greatest power of ten not above `num / den`. -/
def decimalExponent (num den : Nat) : Int :=
  if den ≤ num then (toString (num / den)).length - 1
  else
    -- 400 places are enough for every magnitude
    match (List.range 400).find? fun places => den ≤ num * Nat.pow 10 places with
    | some places => -(places : Int)
    | none => 0

/-- Whether the decimal `digits * 10 ^ places` reads back as the magnitude: it lies no farther than
half way to either neighbour, and exactly half way only if the significand is even. -/
def readsBack (x : Binary64) (digits : Nat) (places : Int) : Bool :=
  -- everything in quarters of the last binary place
  let quarter : Int := x.exponent - 2
  let (unitNum, unitDen) := scaled 1 1 quarter
  let (tenNum, tenDen) :=
    if 0 ≤ places then (Nat.pow 10 places.toNat, 1) else (1, Nat.pow 10 (-places).toNat)
  let num := digits * tenNum * unitNum
  let den := tenDen * unitDen
  let below := if x.significand = leastNormal ∧ leastExponent < x.exponent then 1 else 2
  let least := (4 * x.significand - below) * den
  let most := (4 * x.significand + 2) * den
  if x.significand % 2 = 0 then least ≤ num && num ≤ most else least < num && num < most

/-- The decimal of a given length that reads back and is nearest, if there is one. -/
def ofLength? (x : Binary64) (length : Nat) : Option Digits :=
  let (num, den) := x.ratio
  let places := decimalExponent num den - ((length : Int) - 1)
  let (n, d) := if 0 ≤ places then (num, den * Nat.pow 10 places.toNat)
    else (num * Nat.pow 10 (-places).toNat, den)
  let low := n / d
  let high := low + 1
  match x.readsBack low places, x.readsBack high places with
  | true, true => some ⟨roundHalfEven n d, places⟩
  | true, false => some ⟨low, places⟩
  | false, true => some ⟨high, places⟩
  | false, false => none

/-- The shortest decimal; seventeen digits are always enough. -/
def shortest (x : Binary64) : Digits :=
  if x.significand = 0 then ⟨0, 0⟩
  else ((List.range' 1 17).findSome? x.ofLength?).getD ⟨0, 0⟩

end Binary64

namespace Digits

/-- The digits without trailing zeros, as text, and the exponent of the first digit. -/
def normal (d : Digits) : List Char × Int :=
  let all := (toString d.digits).toList
  let kept := (all.reverse.dropWhile (· = '0')).reverse
  (if kept.isEmpty then ['0'] else kept, d.places + all.length - 1)

/-- Writes a decimal in a style. Plain forms have at least one digit on each side of the point; an
exponent has its sign and no more digits than it needs. -/
def write (style : DecimalStyle) (d : Digits) : String :=
  let (digits, exponent) := d.normal
  let text := String.ofList
  if style.leastPlain ≤ exponent ∧ exponent ≤ style.greatestPlain then
    if exponent < 0 then "0." ++ text (List.replicate ((-exponent).toNat - 1) '0' ++ digits)
    else
      let whole := exponent.toNat + 1
      let front := digits.take whole ++ List.replicate (whole - digits.length) '0'
      let back := digits.drop whole
      text front ++ "." ++ (if back.isEmpty then "0" else text back)
  else
    let back := digits.drop 1
    let mantissa := text (digits.take 1) ++ (if back.isEmpty then "" else "." ++ text back)
    mantissa ++ "e" ++ (if exponent < 0 then "-" else "+") ++ toString exponent.natAbs

end Digits

end IdCompaction.Decimal
