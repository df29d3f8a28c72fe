/-!
# Double-precision numbers

A finite number of double precision is a sign, a significand below `2 ^ 53` and a power of two. This
file rounds a quotient of natural numbers to such a number and finds the shortest decimal that lies
nearest to it among all decimals that round back to it.
-/

namespace ImportAlias

/-- A finite number of double precision: `significand * 2 ^ exponent`, with a sign that zero has
too. -/
structure Binary where
  negative : Bool
  significand : Nat
  exponent : Int
deriving DecidableEq, Inhabited

namespace Binary

/-- The number of binary digits of a significand. -/
def precision : Nat := 53

/-- The exponent of the smallest positive number. -/
def leastExponent : Int := -1074

/-- The exponent of the greatest number. -/
def greatestExponent : Int := 971

/-- The numerator of `2 ^ exponent` as a fraction. -/
def powerNumerator (exponent : Int) : Nat :=
  Nat.pow 2 exponent.toNat

/-- The denominator of `2 ^ exponent` as a fraction. -/
def powerDenominator (exponent : Int) : Nat :=
  Nat.pow 2 (-exponent).toNat

/-- The quotient rounded to the nearest natural number, a half to the even one. -/
def roundQuotient (numerator denominator : Nat) : Nat :=
  let quotient := numerator / denominator
  let doubled := 2 * (numerator % denominator)
  if doubled < denominator then quotient
  else if denominator < doubled then quotient + 1
  else if quotient % 2 = 0 then quotient
  else quotient + 1

/-- The exponent with which the significand of a positive quotient fills the precision, but no less
than the least one. -/
def exponentOf (numerator denominator : Nat) : Int :=
  let guess : Int := (numerator.log2 : Int) - (denominator.log2 : Int) - (precision : Int)
  let scaled (exponent : Int) : Nat :=
    numerator * powerDenominator exponent / (denominator * powerNumerator exponent)
  let exponent := if scaled guess < Nat.pow 2 precision then guess else guess + 1
  max leastExponent exponent

/-- The number nearest to a quotient, a half to the even significand; none when it is too great. -/
def ofQuotient? (negative : Bool) (numerator denominator : Nat) : Option Binary :=
  if numerator = 0 then
    some ⟨negative, 0, leastExponent⟩
  else
    let exponent := exponentOf numerator denominator
    let significand :=
      roundQuotient (numerator * powerDenominator exponent) (denominator * powerNumerator exponent)
    let rounded : Binary :=
      if significand = Nat.pow 2 precision then ⟨negative, Nat.pow 2 (precision - 1), exponent + 1⟩
      else ⟨negative, significand, exponent⟩
    if greatestExponent < rounded.exponent then none else some rounded

/-- The numerator of the absolute value as a fraction. -/
def numerator (value : Binary) : Nat :=
  value.significand * powerNumerator value.exponent

/-- The denominator of the absolute value as a fraction. -/
def denominator (value : Binary) : Nat :=
  powerDenominator value.exponent

/-- The decimal digits of a number and the place of the point: `0.digits * 10 ^ point`. -/
structure Digits where
  digits : List Char
  point : Int
deriving DecidableEq, Inhabited

/-- Whether a fraction lies between the midpoints to the two neighbours of a positive number; a
midpoint itself counts when the significand is even. -/
def roundsFrom (value : Binary) (top bottom : Nat) : Bool :=
  let quarter := 4 * powerNumerator value.exponent
  let unit := powerDenominator value.exponent
  let lowerGap :=
    if value.significand = Nat.pow 2 (precision - 1) ∧ leastExponent < value.exponent then 1 else 2
  -- both bounds in quarters of the last place
  let least := (4 * value.significand - lowerGap) * powerNumerator value.exponent * bottom
  let greatest := (4 * value.significand + 2) * powerNumerator value.exponent * bottom
  let point := 4 * top * unit
  if quarter = 0 then false
  else if value.significand % 2 = 0 then least ≤ point && point ≤ greatest
  else least < point && point < greatest

/-- The place of the point of a positive fraction: the least `point` with the fraction below
`10 ^ point`, looked for from a start upwards. -/
def pointFrom (top bottom : Nat) : Nat → Int → Int
  | 0, point => point
  | fuel + 1, point =>
    if top * Nat.pow 10 (-point).toNat < bottom * Nat.pow 10 point.toNat then point
    else pointFrom top bottom fuel (point + 1)

/-- The decimal of a given number of digits that lies nearest to a positive number, if it rounds
back to it; a half goes to the even digit. -/
def nearestDecimal? (value : Binary) (point : Int) (count : Nat) : Option Nat :=
  let grid := point - (count : Int)
  let top := value.numerator * Nat.pow 10 (-grid).toNat
  let bottom := value.denominator * Nat.pow 10 grid.toNat
  let fits (candidate : Nat) : Bool :=
    value.roundsFrom (candidate * Nat.pow 10 grid.toNat) (Nat.pow 10 (-grid).toNat)
  let below := top / bottom
  let nearest := roundQuotient top bottom
  if fits nearest then some nearest
  else if fits below then some below
  else if fits (below + 1) then some (below + 1)
  else none

/-- The shortest decimal, searched from a number of digits upwards. -/
def shortestFrom (value : Binary) (point : Int) : Nat → Nat → Nat × Nat
  | 0, count => (((value.nearestDecimal? point count).getD 0), count)
  | fuel + 1, count =>
    match value.nearestDecimal? point count with
    | some decimal => (decimal, count)
    | none => value.shortestFrom point fuel (count + 1)

/-- The fewest digits that round back to the number, and of those the nearest. -/
def shortest (value : Binary) : Digits :=
  if value.significand = 0 then ⟨['0'], 1⟩
  else
    let point := pointFrom value.numerator value.denominator 700 (-330)
    let (decimal, count) := value.shortestFrom point 17 1
    let written := Nat.toDigits 10 decimal
    -- rounding up to a power of ten writes one digit more
    let point := point + ((written.length : Int) - (count : Int))
    let significant := (written.reverse.dropWhile (· = '0')).reverse
    ⟨significant, point⟩

end Binary

end ImportAlias
