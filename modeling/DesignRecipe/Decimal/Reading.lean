import DesignRecipe.Text.Basic

/-!
# Reading a double

The texts that denote a double: an optional sign, then digits with at most one point
among or around them and an optional exponent, or one of the words for infinity and
for not-a-number in any ASCII case. The value is the double nearest to the number
denoted, a tie going to the even one.
-/

namespace DesignRecipe.Decimal

/-- The number that a text of digits denotes. -/
def digitsValue (digits : Text) : Nat := Nat.ofDigitChars 10 digits 0

/-- The double nearest to `digits * 10 ^ exponent`. Beyond the range of doubles the
power is not computed: the value is zero or infinity. -/
def nearest (digits : Nat) (exponent : Int) : Float :=
  let leading := (Text.ofNat digits).length + exponent
  if digits = 0 || leading < -400 then 0
  else if 400 < leading then Float.ofBits 0x7FF0000000000000
  else Float.ofScientific digits (exponent < 0) exponent.natAbs

/-- Reads an exponent part: nothing at all, or `e`, an optional sign and digits. -/
def readExponent : Text → Option Int
  | [] => some 0
  | mark :: rest =>
    if mark = 'e' || mark = 'E' then
      let (negative, digits) :=
        match rest with
        | '-' :: digits => (true, digits)
        | '+' :: digits => (false, digits)
        | digits => (false, digits)
      if digits.isEmpty || !digits.all Char.isDigit then none
      else
        let size : Int := digitsValue digits
        some (if negative then -size else size)
    else none

/-- Reads a number without sign: digits, a point among them or not, an exponent or
not. At least one digit stands before or after the point. -/
def readNumber (s : Text) : Option Float :=
  let whole := s.takeWhile Char.isDigit
  let rest := s.dropWhile Char.isDigit
  let (fraction, rest) :=
    match rest with
    | '.' :: more => (more.takeWhile Char.isDigit, more.dropWhile Char.isDigit)
    | _ => ([], rest)
  if whole.isEmpty && fraction.isEmpty then none
  else
    (readExponent rest).map fun exponent =>
      nearest (digitsValue (whole ++ fraction)) (exponent - fraction.length)

/-- Reads a number or a special value without sign. -/
def readUnsigned (s : Text) : Option Float :=
  match s.map Char.toLower with
  | ['n', 'a', 'n'] => some (Float.ofBits 0x7FF8000000000000)
  | ['i', 'n', 'f'] | ['i', 'n', 'f', 'i', 'n', 'i', 't', 'y'] =>
    some (Float.ofBits 0x7FF0000000000000)
  | _ => readNumber s

/-- **Reads a double**, or rejects the text. -/
def read : Text → Option Float
  | '-' :: s => (readUnsigned s).map Neg.neg
  | '+' :: s => readUnsigned s
  | s => readUnsigned s

end DesignRecipe.Decimal
