/-
# Floating-point numbers of 64 bits

A finite number is a whole number of steps of a power of two. Reading takes an
exact decimal to the nearest number, a tie going to the even count of steps.
Writing takes the fewest decimal digits that read back as the same number, and
of those the nearest one. Both are computed in whole numbers, so no rounding
happens on the way.
-/

namespace TapeCompiler.Number

/-- A floating-point number of 64 bits. A finite one is `steps * 2 ^ scale`, with its sign kept
apart so that zero has two forms. -/
inductive Binary64
  | finite (negative : Bool) (steps : Nat) (scale : Int)
  | infinite (negative : Bool)
  | nan
  deriving DecidableEq, Repr

namespace Binary64

/-- The least exponent of a step. -/
def leastScale : Int := -1074

/-- The greatest exponent of a step. -/
def greatestScale : Int := 971

/-- The least number of steps that is written with a full mantissa. -/
def leastNormal : Nat := 4503599627370496

/-- The numerator of a power, which is the power itself for an exponent that is not negative. -/
def raised (base : Nat) (exponent : Int) : Nat := Nat.pow base exponent.toNat

/-- The denominator of a power, which is one for an exponent that is not negative. -/
def lowered (base : Nat) (exponent : Int) : Nat := Nat.pow base (-exponent).toNat

/-- The quotient of two whole numbers, rounded to the nearest whole number; a tie goes to the
even one. -/
def roundQuotient (numerator denominator : Nat) : Nat :=
  let quotient := numerator / denominator
  let twice := 2 * (numerator % denominator)
  if twice < denominator then quotient
  else if denominator < twice then quotient + 1
  -- On a tie an odd quotient goes up.
  else quotient + quotient % 2

/-- The number of steps of size `2 ^ scale` nearest to a quotient. -/
def stepsAt (numerator denominator : Nat) (scale : Int) : Nat :=
  roundQuotient (numerator * lowered 2 scale) (denominator * raised 2 scale)

/-- The number nearest to a positive quotient. -/
def ofQuotient (negative : Bool) (numerator denominator : Nat) : Binary64 :=
  let estimate : Int := (Nat.log2 numerator : Int) - (Nat.log2 denominator : Int) - 53
  -- At this scale the quotient has 53 or 54 bits, so one scale up is always enough.
  let below := numerator * lowered 2 estimate / (denominator * raised 2 estimate)
  let scale := max (if 2 * leastNormal ≤ below then estimate + 1 else estimate) leastScale
  let steps := stepsAt numerator denominator scale
  -- Rounding up may reach the next power of two, which the next scale writes.
  let rounded := if steps = 2 * leastNormal then (leastNormal, scale + 1) else (steps, scale)
  if greatestScale < rounded.2 then infinite negative
  else finite negative rounded.1 rounded.2

/-- The number nearest to `digits * 10 ^ exponent`. Numbers far outside the range are told by
their size alone. -/
def ofDecimal (negative : Bool) (digits : Nat) (exponent : Int) : Binary64 :=
  let magnitude : Int := (Nat.log2 digits : Int) * 30103 / 100000 + exponent
  if digits = 0 ∨ magnitude < -400 then finite negative 0 leastScale
  else if 400 < magnitude then infinite negative
  else ofQuotient negative (digits * raised 10 exponent) (lowered 10 exponent)

/-- The whole number that a run of digit characters denotes. -/
def digitsValue (digits : List Char) : Nat :=
  digits.foldl (fun total c => 10 * total + (c.toNat - 48)) 0

/-- The number a decimal literal denotes, from its sign, the digits before and behind the point,
and its exponent. -/
def ofLiteral (negative : Bool) (whole fraction : List Char) (exponent : Int) : Binary64 :=
  ofDecimal negative (digitsValue (whole ++ fraction)) (exponent - fraction.length)

/-- The whole number a finite number is cut to, towards zero. -/
def truncate? : Binary64 → Option Int
  | finite negative steps scale =>
    let size : Nat := steps * raised 2 scale / lowered 2 scale
    some (if negative then -(size : Int) else size)
  | _ => none

/-! ## The fewest digits -/

/-- How `digits * 10 ^ exponent` compares with `steps * 2 ^ scale`. -/
def compareDecimal (digits : Nat) (exponent : Int) (steps : Nat) (scale : Int) : Ordering :=
  compare (digits * raised 10 exponent * lowered 2 scale)
    (steps * raised 2 scale * lowered 10 exponent)

/-- Whether `digits * 10 ^ exponent` is nearest to the number `steps * 2 ^ scale`: it lies
between the midpoints to the two neighbours, and on one of them only if the count of steps is
even. Below a power of two the lower neighbour is half as far away. -/
def readsBack (steps : Nat) (scale : Int) (digits : Nat) (exponent : Int) : Bool :=
  -- At a quarter of the step all midpoints are whole numbers of steps.
  let narrow := steps = leastNormal ∧ leastScale < scale
  let lower := compareDecimal digits exponent (if narrow then 4 * steps - 1 else 4 * steps - 2)
    (scale - 2)
  let upper := compareDecimal digits exponent (4 * steps + 2) (scale - 2)
  let onMidpoint := steps % 2 == 0
  (lower == .gt || (onMidpoint && lower == .eq)) &&
    (upper == .lt || (onMidpoint && upper == .eq))

/-- The least power of ten above a positive number, by its exponent. -/
def tenPowerAbove (steps : Nat) (scale : Int) : Int :=
  -- The decimal logarithm of two is about 0.30103; the estimate is off by one at most.
  let estimate : Int := (((Nat.log2 steps : Int) + scale) * 30103).fdiv 100000
  (([estimate - 1, estimate, estimate + 1].find? fun power =>
    compareDecimal 1 power steps scale == .gt)).getD (estimate + 2)

/-- The decimal of a given number of digits nearest to a positive number, if one of the two
around it reads back. -/
def digitsAt? (steps : Nat) (scale power : Int) (count : Nat) : Option (Nat × Int) :=
  let exponent := power - count
  let below := steps * raised 2 scale * lowered 10 exponent /
    (lowered 2 scale * raised 10 exponent)
  match readsBack steps scale below exponent, readsBack steps scale (below + 1) exponent with
  | false, false => none
  | true, false => some (below, exponent)
  | false, true => some (below + 1, exponent)
  | true, true =>
    -- The nearer of the two is taken, and the even one if they are equally near.
    match compareDecimal (2 * below + 1) exponent (2 * steps) scale with
    | .lt => some (below + 1, exponent)
    | .gt => some (below, exponent)
    | .eq => some (below + below % 2, exponent)

/-- The fewest digits that read back as a positive number, with their exponent. Seventeen
digits always do; the exact decimal stands in for the search that fails. -/
def shortest (steps : Nat) (scale : Int) : Nat × Int :=
  ((List.range 17).findSome? fun count =>
    digitsAt? steps scale (tenPowerAbove steps scale) (count + 1)).getD
      (steps * raised 2 scale * lowered 5 scale, min scale 0)

/-! ## Written form -/

/-- Digit characters without the zeros at their end. -/
def dropTrailingZeros (digits : List Char) : List Char :=
  (digits.reverse.dropWhile (· == '0')).reverse

/-- Digits written with a point in place: the point stands `point` digits from the left. -/
def positional (digits : List Char) (point : Int) : List Char :=
  if point ≤ 0 then '0' :: '.' :: (List.replicate (-point).toNat '0' ++ digits)
  else if (digits.length : Int) ≤ point then
    digits ++ List.replicate (point.toNat - digits.length) '0' ++ ['.', '0']
  else digits.take point.toNat ++ '.' :: digits.drop point.toNat

/-- Digits written with a signed exponent of at least two digits. -/
def scientific (digits : List Char) (point : Int) : List Char :=
  let exponent := point - 1
  let size := (toString exponent.natAbs).toList
  let padded := if size.length < 2 then '0' :: size else size
  digits.take 1 ++ (if digits.length ≤ 1 then [] else '.' :: digits.drop 1) ++
    'e' :: (if exponent < 0 then '-' else '+') :: padded

/-- The written form: positional from a ten-thousandth up to sixteen digits before the point,
with an exponent outside that range. A whole number keeps a zero behind its point. -/
def text : Binary64 → String
  | nan => "nan"
  | infinite negative => if negative then "-inf" else "inf"
  | finite negative steps scale =>
    let unsigned :=
      if steps = 0 then "0.0" else
        let (digits, exponent) := shortest steps scale
        let all := (toString digits).toList
        let point : Int := all.length + exponent
        let kept := dropTrailingZeros all
        String.ofList
          (if -4 < point ∧ point ≤ 16 then positional kept point else scientific kept point)
    if negative then "-" ++ unsigned else unsigned

end Binary64

end TapeCompiler.Number
