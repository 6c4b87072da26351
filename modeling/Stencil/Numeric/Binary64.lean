import Stencil.Numeric.Rounding

namespace Stencil.Numeric

/-!
# Binary floating point of 64 bits

Fractional numbers are those of the IEEE format `binary64`.  Every finite number
of that format is a whole multiple of its smallest positive number, `2 ^ -1074`,
and is represented by that multiple and a sign.  So a value has one
representation, comparing is comparing natural numbers, and the operations can
be computed inside proofs; nothing depends on the machine's own arithmetic.

Results are rounded to 53 significant bits, ties to even.  Numbers that were
rounded are never larger than the format allows: from `2 ^ 1024` on they are
infinite.
-/

-- Powers of numbers are those of the core library, whatever else is imported.
attribute [local instance (high)] instPowNat

/-- A number of the format.  There is one not-a-number: its payload bits are
not observable. -/
inductive Binary64 where
  /-- The result of no meaningful operation; unequal to everything. -/
  | nan
  /-- Positive or negative infinity. -/
  | infinite (negative : Bool)
  /-- So many units of `2 ^ -1074`, negated if `negative`; zero has both signs. -/
  | finite (negative : Bool) (units : Nat)
  deriving DecidableEq, Repr, Inhabited

namespace Binary64

/-! ## Rounding into the format -/

/-- How many units make one. -/
def unitsPerOne : Nat := 2 ^ (1074 : Nat)

/-- Positive numbers of at least this many units are infinite. -/
def overflowUnits : Nat := 2 ^ (2098 : Nat)

/-- The number of bits by which `n` is longer than a significand of 53 bits. -/
def excessBits (n : Nat) : Nat := n.log2 + 1 - 53

/-- The quotient `num / den`, rounded to a number of units with 53 significant bits. -/
def roundUnits (num den : Nat) : Nat :=
  let grain := 2 ^ excessBits (num / den)
  divideNearest num (den * grain) * grain

/-- The number of the format nearest to `num / den` units. -/
def ofUnits (negative : Bool) (num den : Nat) : Binary64 :=
  let units := roundUnits num den
  if units < overflowUnits then .finite negative units else .infinite negative

/-- Positive zero. -/
def zero : Binary64 := .finite false 0

/-- The number nearest to an integer. -/
def ofInt (n : Int) : Binary64 := ofUnits (n < 0) (n.natAbs * unitsPerOne) 1

/-- The number nearest to a natural number. -/
def ofNat (n : Nat) : Binary64 := ofUnits false (n * unitsPerOne) 1

/-! ## Classes and order -/

/-- Neither infinite nor not-a-number. -/
def isFinite : Binary64 → Bool
  | .finite _ _ => true
  | _ => false

/-- Not-a-number. -/
def isNaN : Binary64 → Bool
  | .nan => true
  | _ => false

/-- A place on the number line: the sign first, then the distance from zero.
Both zeros have the same place. -/
def compareSigned (left : Bool × Nat) (right : Bool × Nat) : Ordering :=
  match left, right with
  | (false, a), (false, b) => compare a b
  | (true, a), (true, b) => compare b a
  | (false, a), (true, b) => if a = 0 ∧ b = 0 then .eq else .gt
  | (true, a), (false, b) => if a = 0 ∧ b = 0 then .eq else .lt

/-- The order of two numbers, absent if one is not a number. -/
def compare? : Binary64 → Binary64 → Option Ordering
  | .nan, _ => none
  | _, .nan => none
  | .infinite a, .infinite b => some (compareSigned (a, 1) (b, 1))
  | .infinite a, .finite _ _ => some (if a then .lt else .gt)
  | .finite _ _, .infinite b => some (if b then .gt else .lt)
  | .finite a m, .finite b n => some (compareSigned (a, m) (b, n))

/-- Less than zero; false for both zeros. -/
def isNegative (x : Binary64) : Bool := x.compare? zero == some .lt

/-- Equality of numbers: both zeros are equal, and not-a-number is not even
equal to itself. -/
def equals (x y : Binary64) : Bool := x.compare? y == some .eq

/-! ## Operations -/

/-- The sum of two multiples of the unit, with its sign.  A sum of zero is
negative only if both terms are. -/
def addSigned (left : Bool × Nat) (right : Bool × Nat) : Bool × Nat :=
  match left, right with
  | (a, m), (b, n) =>
    if a = b then (a, m + n)
    else if n < m then (a, m - n)
    else if m < n then (b, n - m)
    else (false, 0)

/-- The rounded sum. -/
def add : Binary64 → Binary64 → Binary64
  | .nan, _ => .nan
  | _, .nan => .nan
  | .infinite a, .infinite b => if a = b then .infinite a else .nan
  | .infinite a, .finite _ _ => .infinite a
  | .finite _ _, .infinite b => .infinite b
  | .finite a m, .finite b n =>
    let sum := addSigned (a, m) (b, n)
    ofUnits sum.1 sum.2 1

/-- The integer next to `x` on the way to zero, if `x` is finite. -/
def truncate? : Binary64 → Option Int
  | .finite negative units =>
    let whole : Int := (units / unitsPerOne : Nat)
    some (if negative then -whole else whole)
  | _ => none

/-! ## The interchange encoding -/

/-- The number with the given sign, exponent and fraction bits. -/
def ofBits (bits : Nat) : Binary64 :=
  let negative := bits / 2 ^ (63 : Nat) % 2 == 1
  let exponent := bits / 2 ^ (52 : Nat) % 2 ^ (11 : Nat)
  let fraction := bits % 2 ^ (52 : Nat)
  if exponent = 2047 then (if fraction = 0 then .infinite negative else .nan)
  else if exponent = 0 then .finite negative fraction
  else .finite negative ((2 ^ (52 : Nat) + fraction) * 2 ^ (exponent - 1))

/-- The exponent and fraction bits of a finite number.  Below `2 ^ 52` units
they are the units themselves. -/
def magnitudeBits (units : Nat) : Nat :=
  if units < 2 ^ (52 : Nat) then units
  else
    let shift := units.log2 - 52
    shift * 2 ^ (52 : Nat) + units / 2 ^ shift

/-- The bits of a number; not-a-number is quiet and positive. -/
def toBits : Binary64 → Nat
  | .nan => 2047 * 2 ^ (52 : Nat) + 2 ^ (51 : Nat)
  | .infinite negative => (if negative then 2 ^ (63 : Nat) else 0) + 2047 * 2 ^ (52 : Nat)
  | .finite negative units => (if negative then 2 ^ (63 : Nat) else 0) + magnitudeBits units

end Binary64

end Stencil.Numeric
