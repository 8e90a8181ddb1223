/-!
# Binary64 numbers

The 64-bit floating-point numbers, held exactly: a sign, a significand and a
power of two.  A number has one representation here, because a finite one
carries a proof that its significand fits 53 bits and fills them unless the
exponent is already the least one.  So `=` is identity, which tells the two
zeros apart, and the numeric comparisons are defined through `key?`.

Every rational has a nearest binary64 number, and of two equally near ones the
one with the even significand is taken.  The step is exact: the rational is
scaled by the power of two that leaves a 53-bit whole part, or by the least
power of all where numbers get sparse, and the scaled value is rounded to a
whole number.

## Main definitions

* `Binary64`: not-a-number, the two infinities and the finite numbers;
* `Binary64.magnitude`: the exact size of a finite number, as a rational;
* `Binary64.key?`: the place of a number on the line, in units of the least
  positive number;
* `Binary64.numEq`, `Binary64.numLt`: numeric comparison, false as soon as an
  operand is no number;
* `Binary64.least`, `Binary64.greatest`: the smaller and the larger of two
  numbers, passing over an operand that is no number;
* `Binary64.toInt?`: the integer that a number equals, if there is one;
* `Binary64.binaryOrder`: the power of two just below a positive rational;
* `Binary64.round`: the nearest number to a rational size under a sign, infinite
  from `2 ^ 1024` less half a step on;
* `Binary64.ofInt`, `Binary64.ofDecimal`: the nearest number to an integer and
  to a decimal.
-/

namespace ItemSearch

-- Powers of natural numbers and integers are those of the core library in all
-- of the namespace, whatever is imported beside it.
attribute [scoped instance (10000)] instPowNat

/-- A significand and an exponent that represent a finite number in the only
admitted way. -/
def Binary64.Canonical (significand : Nat) (exponent : Int) : Prop :=
  significand < 2 ^ (53 : Nat) ∧ -1074 ≤ exponent ∧ exponent ≤ 971 ∧
    (2 ^ (52 : Nat) ≤ significand ∨ exponent = -1074)

instance (significand : Nat) (exponent : Int) :
    Decidable (Binary64.Canonical significand exponent) :=
  inferInstanceAs (Decidable (_ ∧ _))

/-- A floating-point number of 64 bits. -/
inductive Binary64 where
  /-- Not a number. -/
  | nan
  /-- One of the two infinities. -/
  | infinite (negative : Bool)
  /-- The number `± significand * 2 ^ exponent`. -/
  | finite (negative : Bool) (significand : Nat) (exponent : Int)
      (canonical : Binary64.Canonical significand exponent)
  deriving DecidableEq

namespace Binary64

/-- The zero of the given sign. -/
def zero (negative : Bool) : Binary64 :=
  .finite negative 0 (-1074) (by decide)

/-- Neither an infinity nor not-a-number. -/
def isFinite : Binary64 → Bool
  | .finite .. => true
  | _ => false

/-- Whether the sign is a minus; not-a-number has none. -/
def isNegative : Binary64 → Bool
  | .nan => false
  | .infinite negative => negative
  | .finite negative .. => negative

/-- The finite number with these parts, and the infinity of its sign for any
other parts. -/
def ofParts (negative : Bool) (significand : Nat) (exponent : Int) : Binary64 :=
  if canonical : Canonical significand exponent then
    .finite negative significand exponent canonical
  else
    .infinite negative

/-- The exact size of a finite number. -/
def magnitude : Binary64 → Rat
  | .finite _ significand exponent _ => significand * (2 : Rat) ^ exponent
  | _ => 0

@[simp] theorem isFinite_nan : nan.isFinite = false := rfl

@[simp] theorem isFinite_infinite (negative : Bool) :
    (infinite negative).isFinite = false := rfl

@[simp] theorem isFinite_finite (negative : Bool) (significand : Nat)
    (exponent : Int) (canonical : Canonical significand exponent) :
    (finite negative significand exponent canonical).isFinite = true := rfl

@[simp] theorem isFinite_zero (negative : Bool) :
    (zero negative).isFinite = true := rfl

theorem ofParts_of_canonical (negative : Bool) {significand : Nat}
    {exponent : Int} (canonical : Canonical significand exponent) :
    ofParts negative significand exponent =
      .finite negative significand exponent canonical :=
  dif_pos canonical

/-! ## Numeric comparison -/

/-- Where the infinities stand: past every finite number, each of which is below
`2 ^ 53 * 2 ^ 2045` units in size. -/
def horizon : Int := 2 ^ (2098 : Nat)

/-- The place of a number on the line, counted in units of `2 ^ (-1074)`, the
least positive number. -/
def key? : Binary64 → Option Int
  | .nan => none
  | .infinite negative => some (if negative then -horizon else horizon)
  | .finite negative significand exponent _ =>
      let units : Int := significand * 2 ^ (exponent + 1074).toNat
      some (if negative then -units else units)

/-- Numeric equality: the two zeros are equal, and not-a-number differs from
everything. -/
def numEq (a b : Binary64) : Bool :=
  match a.key?, b.key? with
  | some x, some y => x == y
  | _, _ => false

/-- Numeric order: not-a-number is neither below nor above anything. -/
def numLt (a b : Binary64) : Bool :=
  match a.key?, b.key? with
  | some x, some y => decide (x < y)
  | _, _ => false

/-- The smaller of two numbers, the first one on a tie; not-a-number gives way
to the other. -/
def least (a b : Binary64) : Binary64 :=
  if a = .nan then b else if b.numLt a then b else a

/-- The larger of two numbers, the first one on a tie; not-a-number gives way to
the other. -/
def greatest (a b : Binary64) : Binary64 :=
  if a = .nan then b else if a.numLt b then b else a

@[simp] theorem key?_nan : nan.key? = none := rfl

theorem key?_eq_none_iff {a : Binary64} : a.key? = none ↔ a = .nan := by
  cases a <;> simp [key?]

@[simp] theorem least_nan_right (a : Binary64) : least a .nan = a := by
  cases a <;> simp [least, numLt]

@[simp] theorem greatest_nan_right (a : Binary64) : greatest a .nan = a := by
  cases a <;> simp [greatest, numLt]

/-! ## Integers among the numbers -/

/-- The integer that a number equals, if it equals one; both zeros equal `0`. -/
def toInt? : Binary64 → Option Int
  | .finite negative significand exponent _ =>
      let size? : Option Nat :=
        if 0 ≤ exponent then
          some (significand * 2 ^ exponent.toNat)
        else if significand % 2 ^ (-exponent).toNat = 0 then
          some (significand / 2 ^ (-exponent).toNat)
        else
          none
      size?.map fun size => if negative then -(size : Int) else size
  | _ => none

/-! ## Rounding -/

/-- The exponent of the greatest power of two that is at most `q`, for positive
`q`.  The binary lengths of numerator and denominator give it up to one. -/
def binaryOrder (q : Rat) : Int :=
  let estimate : Int := (q.num.natAbs.log2 : Int) - q.den.log2
  if (2 : Rat) ^ estimate ≤ q then estimate else estimate - 1

/-- The whole number nearest to a non-negative rational, the even one of two
equally near. -/
def nearestEven (q : Rat) : Nat :=
  let whole := q.floor.toNat
  let rest := q - whole
  if rest < 1 / 2 then whole
  else if 1 / 2 < rest then whole + 1
  else if whole % 2 = 0 then whole
  else whole + 1

/-- The exponent of the grid on which a size is rounded: the one that gives the
size 53 bits, and no less than the least exponent. -/
def gridExponent (q : Rat) : Int :=
  if q < (2 : Rat) ^ (-1022 : Int) then -1074 else binaryOrder q - 52

/-- The number nearest to the non-negative size `q`, under the given sign.  A
significand that is rounded up to 54 bits moves to the next grid. -/
def round (negative : Bool) (q : Rat) : Binary64 :=
  let exponent := gridExponent q
  let significand := nearestEven (q * (2 : Rat) ^ (-exponent))
  if significand = 2 ^ (53 : Nat) then
    ofParts negative (2 ^ (52 : Nat)) (exponent + 1)
  else
    ofParts negative significand exponent

/-- The number nearest to an integer; `0` gives the positive zero. -/
def ofInt (n : Int) : Binary64 :=
  round (n < 0) n.natAbs

/-- The number nearest to `± digits * 10 ^ exponent`.  An exponent past the
range of the numbers is cut back to one that still is past it, so that the power
of ten stays small: a size is infinite from `10 ^ 309` on, and `0` below
`10 ^ (-324)`. -/
def ofDecimal (negative : Bool) (digits : Nat) (exponent : Int) : Binary64 :=
  let exponent := min exponent 400
  let exponent := max exponent (-(digits.log2 : Int) - 400)
  round negative (digits * (10 : Rat) ^ exponent)

end Binary64

end ItemSearch
