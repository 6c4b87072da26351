import Stencil.Numeric.Shortest

namespace Stencil.Numeric

/-!
# Writing numbers

Integers are written in decimal.  A fractional number is written by its shortest
digits, and a style says everything that the digits leave open: where positional
writing ends, how a whole number is marked, what stands for the numbers that are
not finite.  Fixed places are a style of their own, exact and without exponent.
-/

-- Powers of numbers are those of the core library, whatever else is imported.
attribute [local instance (high)] instPowNat

/-- The decimal text of an integer. -/
def integerText (n : Int) : List Char :=
  if n < 0 then '-' :: Nat.toDigits 10 n.natAbs else Nat.toDigits 10 n.natAbs

/-- What the digits of a number leave open. -/
structure Style where
  ties : TieRule
  /-- The least and greatest exponent written without one; none bounds nothing. -/
  positional : Option (Int × Int)
  /-- What follows the last digit of a whole number written positionally. -/
  wholeMark : List Char
  /-- Whether negative zero keeps its sign. -/
  signedZero : Bool
  nanText : List Char
  infinityText : List Char
  negativeInfinityText : List Char

/-- Digits with the point at its place and zeros as needed. -/
def positionalText (wholeMark : List Char) (d : Decimal) : List Char :=
  if d.exponent < 0 then
    ['0', '.'] ++ List.replicate ((-d.exponent).toNat - 1) '0' ++ d.digits
  else
    let whole := d.exponent.toNat + 1
    if d.digits.length ≤ whole then
      d.digits ++ List.replicate (whole - d.digits.length) '0' ++ wholeMark
    else d.digits.take whole ++ '.' :: d.digits.drop whole

/-- One digit before the point, and the exponent with its sign. -/
def exponentText (d : Decimal) : List Char :=
  let fraction := if d.digits.length ≤ 1 then [] else '.' :: d.digits.drop 1
  let sign := if d.exponent < 0 then [] else ['+']
  d.digits.take 1 ++ fraction ++ 'e' :: (sign ++ integerText d.exponent)

/-- The text of a positive number of units. -/
def Style.magnitudeText (style : Style) (units : Nat) : List Char :=
  let d := shortest style.ties units
  let plain :=
    match style.positional with
    | none => true
    | some (least, greatest) => least ≤ d.exponent && d.exponent ≤ greatest
  if plain then positionalText style.wholeMark d else exponentText d

/-- The text of a number. -/
def Style.text (style : Style) : Binary64 → List Char
  | .nan => style.nanText
  | .infinite negative => if negative then style.negativeInfinityText else style.infinityText
  | .finite negative 0 =>
    (if negative && style.signedZero then ['-'] else []) ++ '0' :: style.wholeMark
  | .finite negative units =>
    (if negative then ['-'] else []) ++ style.magnitudeText units

/-! ## Fixed places -/

/-- The text of `n` divided by `10 ^ places`, with all its places. -/
def placedText (places n : Nat) : List Char :=
  let digits := Nat.toDigits 10 n
  let padded := List.replicate (places + 1 - digits.length) '0' ++ digits
  if places = 0 then padded
  else padded.take (padded.length - places) ++ '.' :: padded.drop (padded.length - places)

/-- A number with exactly so many places, rounded from its exact value with ties
to even.  The sign stays when everything else is rounded away. -/
def fixedText (places : Nat) : Binary64 → List Char
  | .nan => ['N', 'a', 'N']
  | .infinite negative => if negative then ['-', 'i', 'n', 'f'] else ['i', 'n', 'f']
  | .finite negative units =>
    (if negative then ['-'] else []) ++
      placedText places (divideNearest (units * 10 ^ places) Binary64.unitsPerOne)

end Stencil.Numeric
