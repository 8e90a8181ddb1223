import ItemSearch.Decimal.Shortest

/-!
# The written form of a number

A finite number is written with the digits of its shortest decimal, either
positionally or with a power of ten.  A `Layout` says which orders of magnitude
are positional and how the details look.  Three layouts are in use: one for
messages and well-known text, one for JSON text and one for lists of numbers
inside messages.

## Main definitions

* `Decimal.Layout`, with the values `plain`, `json` and `listing`;
* `Decimal.Layout.chars`, `Decimal.Layout.text`: the written form of a number;
* `Decimal.Layout.intChars`: the written form of an integer, the same in all
  layouts.
-/

namespace ItemSearch

namespace Decimal

/-- The decisions that turn a number's digits into text. -/
structure Layout where
  /-- The orders of magnitude that are written without an exponent, from the
  first one up to but not including the second; all of them if there is no
  range. -/
  positionalOrders : Option (Int × Int)
  /-- A whole number that is written positionally ends in `.0`. -/
  pointZero : Bool
  /-- A positive exponent is written with its sign. -/
  plusSign : Bool
  /-- Which of two equally near shortest decimals is written. -/
  tie : Tie

namespace Layout

/-- Always positional, and a whole number has no point: `42`, `-0`,
`0.0000001`. -/
def plain : Layout := ⟨none, false, false, .up⟩

/-- The JSON form: `42.0`, `0.00001`, `1e+16`, `9.999e-6`. -/
def json : Layout := ⟨some (-5, 16), true, true, .toEven⟩

/-- The form inside a list of numbers: `42.0`, `0.0001`, `1e16`, `1e-5`. -/
def listing : Layout := ⟨some (-4, 16), true, false, .up⟩

/-- Whether numbers of this order of magnitude are written without an
exponent. -/
def isPositional (layout : Layout) (order : Int) : Bool :=
  match layout.positionalOrders with
  | none => true
  | some (first, last) => decide (first ≤ order ∧ order < last)

/-- Digits with the decimal point put `exponent` places to the right of the last
one. -/
def positional (pointZero : Bool) (digits : List Char) (exponent : Int) :
    List Char :=
  if 0 ≤ exponent then
    digits ++ List.replicate exponent.toNat '0' ++
      if pointZero then ['.', '0'] else []
  else
    let places := (-exponent).toNat
    if places < digits.length then
      digits.take (digits.length - places) ++
        '.' :: digits.drop (digits.length - places)
    else
      '0' :: '.' :: (List.replicate (places - digits.length) '0' ++ digits)

/-- Digits with the point after the first one, and the power of ten of that
first digit. -/
def withExponent (plusSign : Bool) (digits : List Char) (order : Int) :
    List Char :=
  let fraction := digits.drop 1
  let sign := if order < 0 then ['-'] else if plusSign then ['+'] else []
  digits.take 1 ++ (if fraction.isEmpty then [] else '.' :: fraction) ++
    'e' :: (sign ++ Nat.toDigits 10 order.natAbs)

/-- The written form of a decimal. -/
def decimalChars (layout : Layout) (d : Decimal) : List Char :=
  let digits := Nat.toDigits 10 d.digits
  let order := digits.length + d.exponent - 1
  if layout.isPositional order then
    positional layout.pointZero digits d.exponent
  else
    withExponent layout.plusSign digits order

/-- The sign of a written number. -/
def sign (negative : Bool) : List Char :=
  if negative then ['-'] else []

/-- The written form of an integer. -/
def intChars (n : Int) : List Char :=
  sign (n < 0) ++ Nat.toDigits 10 n.natAbs

/-- The written form of a number. -/
def chars (layout : Layout) (v : Binary64) : List Char :=
  match v with
  | .nan => ['N', 'a', 'N']
  | .infinite negative => sign negative ++ ['i', 'n', 'f']
  | .finite negative .. =>
      sign negative ++ layout.decimalChars (shortest layout.tie v)

/-- The written form of a number. -/
def text (layout : Layout) (v : Binary64) : String :=
  String.ofList (layout.chars v)

end Layout

end Decimal

/-- The written form of a number in messages. -/
def Binary64.text (v : Binary64) : String :=
  Decimal.Layout.plain.text v

end ItemSearch
