import ItemSearch.Binary64.Basic

/-!
# The shortest decimal of a binary64 number

Many decimals round to one binary64 number.  Among them the shortest one is
wanted: the decimal grids are tried from coarse to fine, and on each grid only
the two neighbours of the exact value can be the nearest decimal that rounds
back, so these two are tested by rounding them.  Whatever is found has passed
that test, which is why a written number reads back as itself.

## Main definitions

* `Decimal`: a whole count of a power of ten;
* `Decimal.toBinary64`: the number that a decimal rounds to;
* `Decimal.neighbours`: the two decimals of a grid around a value, the nearer
  one first;
* `Decimal.shortest`: the decimal of the coarsest grid that rounds to a number;
* `Decimal.exact`: the decimal that is equal to a finite number.
-/

namespace ItemSearch

/-- The decimal `digits * 10 ^ exponent`. -/
structure Decimal where
  digits : Nat
  exponent : Int
  deriving DecidableEq

namespace Decimal

/-- Which of two equally near decimals is preferred. -/
inductive Tie where
  /-- The larger one. -/
  | up
  /-- The one whose last digit is even. -/
  | toEven
  deriving DecidableEq

/-- The number that a decimal rounds to, under the given sign. -/
def toBinary64 (negative : Bool) (d : Decimal) : Binary64 :=
  Binary64.ofDecimal negative d.digits d.exponent

/-- The decimals with last place `10 ^ place` just below and just above a
non-negative value, the nearer one first; the value itself if it lies on the
grid. -/
def neighbours (tie : Tie) (q : Rat) (place : Int) : List Decimal :=
  let scaled := q / (10 : Rat) ^ place
  let below := scaled.floor.toNat
  let rest := scaled - below
  let lower : Decimal := ⟨below, place⟩
  let upper : Decimal := ⟨below + 1, place⟩
  if rest < 1 / 2 || (rest == 1 / 2 && tie == .toEven && below % 2 == 0) then
    [lower, upper]
  else
    [upper, lower]

/-- The last places worth trying for a positive value, from coarse to fine.
Seventeen digits always suffice, and the leading place, estimated from the
binary order by `log 2 = 0.30103`, is known up to one. -/
def places (q : Rat) : List Int :=
  let leading := Binary64.binaryOrder q * 30103 / 100000
  (List.range 19).map fun step => leading + 2 - (step : Nat)

/-- The decimal that equals a finite number: a negative power of two is a power
of five over a power of ten. -/
def exact : Binary64 → Decimal
  | .finite _ significand exponent _ =>
      if 0 ≤ exponent then
        ⟨significand * 2 ^ exponent.toNat, 0⟩
      else
        ⟨significand * 5 ^ (-exponent).toNat, exponent⟩
  | _ => ⟨0, 0⟩

/-- The shortest decimal that rounds to the number `v`, the nearest to it among
those. -/
def shortest (tie : Tie) (v : Binary64) : Decimal :=
  if v.magnitude = 0 then
    ⟨0, 0⟩
  else
    let found? := (places v.magnitude).findSome? fun place =>
      (neighbours tie v.magnitude place).find? fun d =>
        d.toBinary64 v.isNegative = v
    found?.getD (exact v)

end Decimal

end ItemSearch
