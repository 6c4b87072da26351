import Stencil.Numeric.Binary64

namespace Stencil.Numeric

/-!
# Reading numerals

Two readers for the numerals people write in templates and payload strings.  An
integer is a sign and digits and has to fit in 64 bits; anything larger is left
to the other reader.  A fractional numeral allows a point with digits on either
side, an exponent, and the names of the infinities and of not-a-number in any
case.  Both read the whole text or nothing.
-/

-- Powers of numbers are those of the core library, whatever else is imported.
attribute [local instance (high)] instPowNat

/-- The least and greatest integers of 64 bits. -/
def integerLeast : Int := -(2 ^ (63 : Nat))

@[inherit_doc integerLeast]
def integerGreatest : Int := 2 ^ (63 : Nat) - 1

/-- The number a run of digits stands for. -/
def digitsValue (digits : List Char) : Nat :=
  digits.foldl (fun n c => 10 * n + (c.toNat - 48)) 0

/-- Split a leading sign off; true for a minus. -/
def splitSign : List Char → Bool × List Char
  | '-' :: rest => (true, rest)
  | '+' :: rest => (false, rest)
  | cs => (false, cs)

/-- At least one digit and nothing else. -/
def isDigits (cs : List Char) : Bool := !cs.isEmpty && cs.all Char.isDigit

/-- Read an integer of 64 bits. -/
def readInteger? (cs : List Char) : Option Int :=
  let (negative, digits) := splitSign cs
  if isDigits digits then
    let n : Int := if negative then -(digitsValue digits : Int) else digitsValue digits
    if integerLeast ≤ n ∧ n ≤ integerGreatest then some n else none
  else none

/-! ## Fractional numerals -/

/-- The number nearest to `significand × 10 ^ exponent`.  Exponents far outside
the format are settled by the number of digits, so they cost nothing. -/
def ofDecimal (negative : Bool) (significand : Nat) (exponent : Int) : Binary64 :=
  let magnitude := ((Nat.toDigits 10 significand).length : Int) + exponent
  if significand = 0 then .finite negative 0
  else if 310 < magnitude then .infinite negative
  else if magnitude < -330 then .finite negative 0
  else
    .ofUnits negative (significand * 10 ^ exponent.toNat * Binary64.unitsPerOne)
      (10 ^ (-exponent).toNat)

/-- Read an exponent: nothing, or the letter with a sign and digits. -/
def readExponent? : List Char → Option Int
  | [] => some 0
  | c :: rest =>
    if c == 'e' || c == 'E' then
      let (negative, digits) := splitSign rest
      if isDigits digits then
        some (if negative then -(digitsValue digits : Int) else digitsValue digits)
      else none
    else none

/-- Read a numeral without sign: digits with at most one point among them and at
least one digit, then the exponent. -/
def readMagnitude? (negative : Bool) (cs : List Char) : Option Binary64 :=
  let whole := cs.takeWhile Char.isDigit
  let afterWhole := cs.dropWhile Char.isDigit
  let (fraction, rest) :=
    match afterWhole with
    | '.' :: tail => (tail.takeWhile Char.isDigit, tail.dropWhile Char.isDigit)
    | tail => ([], tail)
  if whole.isEmpty && fraction.isEmpty then none
  else
    (readExponent? rest).map fun exponent =>
      ofDecimal negative (digitsValue (whole ++ fraction)) (exponent - fraction.length)

/-- Read a fractional numeral. -/
def readBinary64? (cs : List Char) : Option Binary64 :=
  let (negative, rest) := splitSign cs
  let lowered := rest.map Char.toLower
  if lowered = ['i', 'n', 'f'] ∨ lowered = ['i', 'n', 'f', 'i', 'n', 'i', 't', 'y'] then
    some (.infinite negative)
  else if lowered = ['n', 'a', 'n'] then some .nan
  else readMagnitude? negative rest

end Stencil.Numeric
