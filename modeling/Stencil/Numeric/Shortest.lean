import Stencil.Numeric.Binary64

namespace Stencil.Numeric

/-!
# Shortest decimal forms

Among the decimals that read back as a given finite number there is a least
number of significant digits, and among those with that many digits a nearest.
A decimal reads back exactly if it lies between the midpoints to the two
neighbouring numbers, the midpoints included when the significand is even.

For one digit, two digits and so on the candidates are the two neighbours of the
value on the decimal grid with that many digits; the first grid with a candidate
between the midpoints wins.  Two candidates equally near are an exact tie, which
the caller decides.
-/

-- Powers of numbers are those of the core library, whatever else is imported.
attribute [local instance (high)] instPowNat

/-- Which of two equally near candidates is taken. -/
inductive TieRule where
  /-- The one farther from zero. -/
  | away
  /-- The one whose last digit is even. -/
  | even
  deriving DecidableEq, Repr

/-- Significant digits `d₀ d₁ d₂ …` standing for `d₀.d₁d₂… × 10 ^ exponent`. -/
structure Decimal where
  digits : List Char
  exponent : Int
  deriving DecidableEq, Repr

/-! ## The decimal magnitude -/

/-- Whether `10 ^ exponent` is at most the value of `units`. -/
def powerAtMost (exponent : Int) (units : Nat) : Bool :=
  Binary64.unitsPerOne * 10 ^ exponent.toNat ≤ units * 10 ^ (-exponent).toNat

/-- The exponent of the first significant digit, from the binary length of the
number.  The estimate is at most one off, which two comparisons mend. -/
def decimalExponent (units : Nat) : Int :=
  let estimate := ((units.log2 : Int) - 1074) * 30103 / 100000
  if powerAtMost (estimate + 1) units then estimate + 1
  else if powerAtMost estimate units then estimate
  else estimate - 1

/-! ## Candidates on a grid -/

/-- A number with the midpoints to its neighbours, in quarters of a unit. -/
structure Vicinity where
  below : Nat
  value : Nat
  above : Nat
  /-- Whether the midpoints themselves read back as the number. -/
  closed : Bool

/-- The vicinity of a positive number.  Below a power of two the neighbours are
twice as close as above it. -/
def Vicinity.of (units : Nat) : Vicinity :=
  let spacing := 2 ^ Binary64.excessBits units
  let narrow := units == spacing * 2 ^ (52 : Nat) && spacing != 1
  { below := 4 * units - (if narrow then spacing else 2 * spacing)
    value := 4 * units
    above := 4 * units + 2 * spacing
    closed := units / spacing % 2 == 0 }

/-- The multiples of `10 ^ grid` next to the number that read back, nearest
first as far as `ties` tells. -/
def candidate? (ties : TieRule) (near : Vicinity) (grid : Int) : Option Nat :=
  let step := 4 * Binary64.unitsPerOne * 10 ^ grid.toNat
  let scale := 10 ^ (-grid).toNat
  let inside (n : Nat) : Bool :=
    if near.closed then near.below * scale ≤ n * step && n * step ≤ near.above * scale
    else near.below * scale < n * step && n * step < near.above * scale
  let low := near.value * scale / step
  let high := low + 1
  match inside low, inside high with
  | false, false => none
  | true, false => some low
  | false, true => some high
  | true, true =>
    match compare (2 * (near.value * scale)) ((low + high) * step) with
    | .lt => some low
    | .gt => some high
    | .eq =>
      match ties with
      | .away => some high
      | .even => some (if low % 2 == 0 then low else high)

/-- The first grid with a candidate, from `fine` grids below the exponent on.
Seventeen digits always suffice, so the search does not run out. -/
def searchGrids (ties : TieRule) (near : Vicinity) (exponent : Int) : Nat → Nat → Nat × Int
  | _, 0 => (0, 0)
  | fine, fuel + 1 =>
    let grid := exponent - fine
    match candidate? ties near grid with
    | some n => (n, grid)
    | none => searchGrids ties near exponent (fine + 1) fuel

/-- The digits of `n` without the zeros at its end. -/
def significantDigits (n : Nat) : List Char :=
  ((Nat.toDigits 10 n).reverse.dropWhile (· == '0')).reverse

/-- The shortest decimal that reads back as this positive number of units. -/
def shortest (ties : TieRule) (units : Nat) : Decimal :=
  let found := searchGrids ties (.of units) (decimalExponent units) 0 17
  { digits := significantDigits found.1
    exponent := found.2 + ((Nat.toDigits 10 found.1).length : Int) - 1 }

end Stencil.Numeric
