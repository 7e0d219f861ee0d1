/-!
# The shortest decimal of a double

A finite double stands for an interval of reals, those that round to it. The decimal
written for it is the one with the fewest digits in that interval, and of those the
nearest to the double. Everything here is exact arithmetic on natural numbers.

The bounds of the interval are kept in quarter units, where a unit is the weight of
the last binary digit: the double itself is `4 * significand` of them.
-/

namespace DesignRecipe

/-- A decimal `digits * 10 ^ exponent`. -/
structure Decimal where
  digits : Nat
  exponent : Int
deriving DecidableEq, Repr

namespace Decimal

/-- Which of two equally near decimals is taken. -/
inductive Tie
  | even
  | up
deriving DecidableEq, Repr

/-- The magnitude of a finite double: `significand * 2 ^ exponent`. At the low edge of
a binade the next smaller double is only half as far away as the next larger one. -/
structure Magnitude where
  significand : Nat
  exponent : Int
  lowEdge : Bool
deriving DecidableEq, Repr

/-- The magnitude that the bits of a finite double stand for. -/
def Magnitude.ofBits (bits : UInt64) : Magnitude :=
  let biased := ((bits >>> 52) &&& 0x7FF).toNat
  let fraction := (bits &&& 0xFFFFFFFFFFFFF).toNat
  if biased = 0 then ⟨fraction, -1074, false⟩
  else ⟨0x10000000000000 + fraction, (biased : Int) - 1075, fraction = 0 && biased > 1⟩

/-- The least quarter unit of the interval that rounds to the magnitude. -/
def Magnitude.low (x : Magnitude) : Nat := 4 * x.significand - (if x.lowEdge then 1 else 2)

/-- The greatest quarter unit of the interval that rounds to the magnitude. -/
def Magnitude.high (x : Magnitude) : Nat := 4 * x.significand + 2

/-- A quarter unit of the magnitude as a fraction of `10 ^ grid`, numerator and
denominator. -/
def Magnitude.quarterOn (x : Magnitude) (grid : Int) : Nat × Nat :=
  let binary := x.exponent - 2
  (Nat.pow 2 binary.toNat * Nat.pow 10 (-grid).toNat,
    Nat.pow 2 (-binary).toNat * Nat.pow 10 grid.toNat)

/-- Whether `digits * 10 ^ grid` rounds to the magnitude. The ends of the interval
belong to it exactly when the significand is even. -/
def Magnitude.readsBack (x : Magnitude) (grid : Int) (digits : Nat) : Bool :=
  let (num, den) := x.quarterOn grid
  if x.significand % 2 = 0 then
    x.low * num ≤ digits * den && digits * den ≤ x.high * num
  else
    x.low * num < digits * den && digits * den < x.high * num

/-- The nearer of the two neighbours of the magnitude on the grid `10 ^ grid` that
reads back, if one does. -/
def Magnitude.onGrid (x : Magnitude) (tie : Tie) (grid : Int) : Option Decimal :=
  let (num, den) := x.quarterOn grid
  let exact := 4 * x.significand * num
  let below := exact / den
  let above := below + 1
  match x.readsBack grid below, x.readsBack grid above with
  | false, false => none
  | true, false => some ⟨below, grid⟩
  | false, true => some ⟨above, grid⟩
  | true, true =>
    match compare (2 * exact) ((below + above) * den), tie with
    | .lt, _ => some ⟨below, grid⟩
    | .gt, _ => some ⟨above, grid⟩
    | .eq, .up => some ⟨above, grid⟩
    | .eq, .even => some ⟨if below % 2 = 0 then below else above, grid⟩

/-- A power of ten that is not below the magnitude, found from its binary length. -/
def Magnitude.topGrid (x : Magnitude) : Int :=
  ((x.significand.log2 + 1 : Nat) + x.exponent) * 30103 / 100000 + 1

/-- The magnitude itself as a decimal. -/
def Magnitude.exact (x : Magnitude) : Decimal :=
  ⟨x.significand * Nat.pow 2 x.exponent.toNat * Nat.pow 5 (-x.exponent).toNat, min x.exponent 0⟩

/-- **The shortest decimal of a magnitude**: the first grid, from the coarsest on, with a
neighbour that reads back. Nineteen grids below the top one leave seventeen digits,
which always suffice; were they not to, the exact decimal is taken. -/
def Magnitude.shortest (x : Magnitude) (tie : Tie) : Decimal :=
  ((List.range 20).findSome? fun (step : Nat) => x.onGrid tie (x.topGrid - step)).getD x.exact

end Decimal

end DesignRecipe
