import ImportAlias.Decimal.Binary

/-!
# Decimal notation

Numbers of double precision are written with the fewest digits that read back. From `10 ^ -5` up to
`10 ^ 16` the notation is positional and always has a fraction; beyond, it is scientific with a sign
on every exponent.
-/

namespace ImportAlias

namespace Binary

/-- The greatest power of ten that is the bound of positional notation. -/
def positionalAbove : Int := 16

/-- Positional notation starts above ten to this power. -/
def positionalBelow : Int := -5

/-- An exponent with its sign. -/
def exponentChars (exponent : Int) : List Char :=
  (if exponent < 0 then '-' else '+') :: Nat.toDigits 10 exponent.natAbs

/-- The notation of digits with a point. -/
def Digits.chars (decimal : Digits) : List Char :=
  let count : Int := decimal.digits.length
  if 0 < decimal.point ∧ decimal.point ≤ positionalAbove then
    if count ≤ decimal.point then
      decimal.digits ++ List.replicate (decimal.point - count).toNat '0' ++ ['.', '0']
    else
      decimal.digits.take decimal.point.toNat ++ '.' :: decimal.digits.drop decimal.point.toNat
  else if positionalBelow < decimal.point ∧ decimal.point ≤ 0 then
    '0' :: '.' :: List.replicate (-decimal.point).toNat '0' ++ decimal.digits
  else
    match decimal.digits with
    | [] => ['0']
    | [digit] => digit :: 'e' :: exponentChars (decimal.point - 1)
    | digit :: rest => digit :: '.' :: rest ++ 'e' :: exponentChars (decimal.point - 1)

/-- The notation of a number of double precision. -/
def chars (value : Binary) : List Char :=
  let written := value.shortest.chars
  if value.negative then '-' :: written else written

end Binary

end ImportAlias
