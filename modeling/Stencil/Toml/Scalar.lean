import Stencil.Numeric.Numeral
import Stencil.Text.Splitting

namespace Stencil.Toml

open Numeric

/-!
# Plain scalars of TOML

Numbers, truth values and dates are written without quotes.  Only their form is
checked here.  Integers may have any base that has a mark and up to 128 bits, a
fractional number has to be finite unless it is written as infinite, and a date
has to exist.
-/

-- Powers of numbers are those of the core library, whatever else is imported.
attribute [local instance (high)] instPowNat

/-! ## Numbers -/

/-- Hexadecimal digits. -/
def isHexDigit (c : Char) : Bool :=
  c.isDigit || ('a' ≤ c && c ≤ 'f') || ('A' ≤ c && c ≤ 'F')

/-- The value of a hexadecimal digit. -/
def hexDigitValue (c : Char) : Nat :=
  if c.isDigit then c.toNat - 48 else (c.toLower.toNat - 97) + 10

/-- The digits of a number, in which single underscores may stand between two
digits. -/
def digits? (isDigit : Char → Bool) (cs : List Char) : Option (List Char) :=
  let parts := Text.splitAll '_' cs
  if parts.all fun part => !part.isEmpty && part.all isDigit then some parts.flatten else none

/-- The digits of a whole number in base ten, which has no superfluous zeros. -/
def wholeDigits? (cs : List Char) : Option (List Char) :=
  (digits? Char.isDigit cs).filter fun digits => digits.length = 1 || digits.head? != some '0'

/-- The value of digits in some base. -/
def baseValue (base : Nat) (digits : List Char) : Nat :=
  digits.foldl (fun n c => base * n + hexDigitValue c) 0

/-- An integer with the mark of a base other than ten. -/
def isMarkedInteger : List Char → Bool
  | '0' :: 'x' :: rest => fits 16 (digits? isHexDigit rest)
  | '0' :: 'o' :: rest => fits 8 (digits? (fun c => '0' ≤ c && c ≤ '7') rest)
  | '0' :: 'b' :: rest => fits 2 (digits? (fun c => c == '0' || c == '1') rest)
  | _ => false
where
  fits (base : Nat) : Option (List Char) → Bool
    | none => false
    | some digits => baseValue base digits < 2 ^ (128 : Nat)

/-- An integer in base ten. -/
def isInteger (cs : List Char) : Bool :=
  let (negative, rest) := splitSign cs
  match wholeDigits? rest with
  | none => false
  | some digits => digitsValue digits < (if negative then 2 ^ (127 : Nat) + 1 else 2 ^ (128 : Nat))

/-- The exponent of a number, with its letter, or nothing. -/
def exponent? : List Char → Option Int
  | [] => some 0
  | c :: rest =>
    if c == 'e' || c == 'E' then
      let (negative, digits) := splitSign rest
      (digits? Char.isDigit digits).map fun digits =>
        if negative then -(digitsValue digits : Int) else digitsValue digits
    else none

/-- The fraction of a number, with its point, or nothing. -/
def fraction? : List Char → Option (List Char)
  | [] => some []
  | c :: rest => if c == '.' then digits? Char.isDigit rest else none

/-- A fractional number: with a fraction, an exponent or both. -/
def isFractional (cs : List Char) : Bool :=
  let (_, rest) := splitSign cs
  let mantissa := rest.takeWhile fun c => c != 'e' && c != 'E'
  let whole := mantissa.takeWhile (· != '.')
  if rest = ['i', 'n', 'f'] || rest = ['n', 'a', 'n'] then true
  else if whole.length = rest.length then false
  else
    match wholeDigits? whole, fraction? (mantissa.drop whole.length),
      exponent? (rest.drop mantissa.length) with
    | some whole, some fraction, some exponent =>
      (ofDecimal false (digitsValue (whole ++ fraction)) (exponent - fraction.length)).isFinite
    | _, _, _ => false

/-! ## Dates and times -/

/-- A number of so many digits at the front. -/
def leadingNumber? (count : Nat) (cs : List Char) : Option (Nat × List Char) :=
  let digits := cs.take count
  if digits.length = count && digits.all Char.isDigit then
    some (digitsValue digits, cs.drop count)
  else none

/-- One character at the front. -/
def expect (accepted : Char → Bool) : List Char → Option (List Char)
  | [] => none
  | c :: rest => if accepted c then some rest else none

/-- The number of days of a month. -/
def daysOf (year month : Nat) : Nat :=
  if month = 2 then
    (if year % 4 = 0 ∧ (year % 100 ≠ 0 ∨ year % 400 = 0) then 29 else 28)
  else if month = 4 ∨ month = 6 ∨ month = 9 ∨ month = 11 then 30
  else 31

/-- What follows a date. -/
def skipDate? (cs : List Char) : Option (List Char) := do
  let (year, rest) ← leadingNumber? 4 cs
  let (month, rest) ← leadingNumber? 2 (← expect (· == '-') rest)
  let (day, rest) ← leadingNumber? 2 (← expect (· == '-') rest)
  if 1 ≤ month ∧ month ≤ 12 ∧ 1 ≤ day ∧ day ≤ daysOf year month then some rest
  else none

/-- What follows hours and minutes. -/
def skipMinutes? (cs : List Char) : Option (List Char) := do
  let (hour, rest) ← leadingNumber? 2 cs
  let (minute, rest) ← leadingNumber? 2 (← expect (· == ':') rest)
  if hour < 24 ∧ minute < 60 then some rest else none

/-- What follows a fraction of a second, if there is one. -/
def skipFraction? : List Char → Option (List Char)
  | '.' :: rest =>
    if (rest.takeWhile Char.isDigit).isEmpty then none else some (rest.dropWhile Char.isDigit)
  | rest => some rest

/-- What follows a time of day; the seconds may be left out. -/
def skipTime? (cs : List Char) : Option (List Char) := do
  let rest ← skipMinutes? cs
  match rest with
  | ':' :: rest =>
    let (second, rest) ← leadingNumber? 2 rest
    if second ≤ 60 then skipFraction? rest else none
  | rest => some rest

/-- Whether this is an offset from universal time, or nothing. -/
def isZone : List Char → Bool
  | [] => true
  | ['Z'] => true
  | ['z'] => true
  | '+' :: rest => skipMinutes? rest == some []
  | '-' :: rest => skipMinutes? rest == some []
  | _ => false

/-- A date, a time of day, or both with an offset or without. -/
def isMoment (cs : List Char) : Bool :=
  match skipDate? cs with
  | some [] => true
  | some (c :: rest) =>
    (c == 'T' || c == 't' || c == ' ') && ((skipTime? rest).map isZone == some true)
  | none => skipTime? cs == some []

/-! ## All plain scalars -/

/-- Whether this is a number, truth value or date. -/
def isPlain (cs : List Char) : Bool :=
  cs = ['t', 'r', 'u', 'e'] || cs = ['f', 'a', 'l', 's', 'e'] || isInteger cs
    || isMarkedInteger cs || isFractional cs || isMoment cs

end Stencil.Toml
