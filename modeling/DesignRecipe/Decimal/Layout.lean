import DesignRecipe.Decimal.Shortest
import DesignRecipe.Text.Basic

/-!
# Laying out a decimal

How the shortest decimal of a double is written: with a point, or with an exponent.
The decisions that differ between formats are the fields of a record, and the format
that writes numbers names its own value of it.
-/

namespace DesignRecipe.Decimal

/-- The decisions of a number format. -/
structure Layout where
  /-- Leading digits from this power of ten on are written with a point. -/
  plainFrom : Int
  /-- Leading digits from this power of ten on are written with an exponent. -/
  plainBelow : Int
  /-- The least number of digits of an exponent. -/
  exponentWidth : Nat
  /-- Which of two equally near shortest decimals is written. -/
  tie : Tie

/-- Zeros in front, up to a width. -/
def padLeft (width : Nat) (digits : Text) : Text :=
  List.replicate (width - digits.length) '0' ++ digits

/-- The digits with a point, `exponent` being the weight of the last one. There is at
least one digit on either side of the point. -/
def positional (digits : Text) (exponent : Int) : Text :=
  if 0 ≤ exponent then digits ++ List.replicate exponent.toNat '0' ++ ['.', '0']
  else
    let places := (-exponent).toNat
    let padded := padLeft (places + 1) digits
    padded.take (padded.length - places) ++ ['.'] ++ padded.drop (padded.length - places)

/-- One digit, the others after a point, and the exponent of the first, always
signed. -/
def scientific (layout : Layout) (digits : Text) (leading : Int) : Text :=
  let mantissa :=
    match digits with
    | first :: second :: more => first :: '.' :: second :: more
    | short => short
  let sign := if leading < 0 then '-' else '+'
  mantissa ++ ['e', sign] ++ padLeft layout.exponentWidth (Text.ofNat leading.natAbs)

/-- The text of a decimal that is not zero. -/
def write (layout : Layout) (d : Decimal) : Text :=
  let digits := Text.ofNat d.digits
  let leading := d.exponent + digits.length - 1
  if layout.plainFrom ≤ leading && leading < layout.plainBelow then
    positional digits d.exponent
  else scientific layout digits leading

/-- **The text of a finite double.** Zero keeps its sign. -/
def writeFinite (layout : Layout) (x : Float) : Text :=
  let bits := x.toBits
  let magnitude := Magnitude.ofBits bits
  let sign : Text := if bits >>> 63 = 0 then [] else ['-']
  if magnitude.significand = 0 then sign ++ "0.0"
  else sign ++ write layout (magnitude.shortest layout.tie)

end DesignRecipe.Decimal
