import ItemSearch.Decimal.Shortest

/-!
# Reading numbers

A numeral is a run of digits, a fraction behind a point and a power of ten
behind an `e`; each part may be absent, and which absences are admitted is for
the reader of a format to say.  Here the lenient reading is defined: one digit
somewhere before the exponent is enough, a sign may lead, and the words for an
infinity and for not-a-number are known in any letter case.

## Main definitions

* `Decimal.Numeral`, `Decimal.Numeral.ofChars?`: the parts of an unsigned
  numeral;
* `Decimal.Numeral.decimal`: its value;
* `Binary64.ofChars?`, `Binary64.ofText?`: the number that a text stands for.
-/

namespace ItemSearch

namespace Decimal

/-- The parts of an unsigned numeral. -/
structure Numeral where
  /-- The digits before the point. -/
  whole : List Char
  /-- The digits behind the point, if there is a point. -/
  fraction : Option (List Char)
  /-- The power of ten, if one is written. -/
  exponent : Option Int
  deriving DecidableEq

namespace Numeral

/-- Takes a leading sign off: whether it is a minus, and the rest. -/
def splitSign : List Char → Bool × List Char
  | '-' :: rest => (true, rest)
  | '+' :: rest => (false, rest)
  | cs => (false, cs)

/-- The value of a non-empty run of digits. -/
def natOfChars? (cs : List Char) : Option Nat :=
  if cs ≠ [] ∧ cs.all Char.isDigit then
    some (Nat.ofDigitChars 10 cs 0)
  else
    none

/-- The value of a signed run of digits. -/
def intOfChars? (cs : List Char) : Option Int :=
  let (negative, digits) := splitSign cs
  (natOfChars? digits).map fun n => if negative then -(n : Int) else n

/-- Takes the fraction off that follows the whole digits. -/
def splitFraction : List Char → Option (List Char) × List Char
  | '.' :: rest =>
      (some (rest.takeWhile Char.isDigit), rest.dropWhile Char.isDigit)
  | cs => (none, cs)

/-- The parts of a text that is a numeral up to missing digits. -/
def ofChars? (cs : List Char) : Option Numeral :=
  let whole := cs.takeWhile Char.isDigit
  let (fraction, rest) := splitFraction (cs.dropWhile Char.isDigit)
  match rest with
  | [] => some ⟨whole, fraction, none⟩
  | mark :: power =>
      if mark = 'e' ∨ mark = 'E' then
        (intOfChars? power).map fun exponent => ⟨whole, fraction, some exponent⟩
      else
        none

/-- All digits of a numeral, the point left out. -/
def digits (n : Numeral) : List Char :=
  n.whole ++ n.fraction.getD []

/-- The value of a numeral. -/
def decimal (n : Numeral) : Decimal where
  digits := Nat.ofDigitChars 10 n.digits 0
  exponent := n.exponent.getD 0 - (n.fraction.getD []).length

end Numeral

end Decimal

namespace Binary64

/-- The number that a text stands for, rounded to nearest.  A text past the
range stands for an infinity. -/
def ofChars? (cs : List Char) : Option Binary64 :=
  let (negative, body) := Decimal.Numeral.splitSign cs
  let word := body.map Char.toLower
  if word = "inf".toList ∨ word = "infinity".toList then
    some (.infinite negative)
  else if word = "nan".toList then
    some .nan
  else do
    let numeral ← Decimal.Numeral.ofChars? body
    if numeral.digits = [] then
      none
    else
      some (numeral.decimal.toBinary64 negative)

/-- The number that a text stands for, rounded to nearest. -/
def ofText? (text : String) : Option Binary64 :=
  ofChars? text.toList

end Binary64

end ItemSearch
