import Mathlib
import ItemSearch.Binary64.Basic

/-!
# The integers among the numbers

A finite number is a dyadic rational, and `toInt?` finds the integer that it is
equal to by shifting its significand.  Here the same is said by the exact
values, so that what is done with the integer can be read without the
representation.

## Main results

* `toInt?_eq_some_iff`: the integer that a number equals, by its exact value.
-/

namespace ItemSearch.Binary64

/-- The exact value of a finite number. -/
def toRat (v : Binary64) : Rat :=
  if v.isNegative then -v.magnitude else v.magnitude

/-- A significand shifted to the right is whole when nothing but zeros is
shifted out. -/
private theorem mul_zpow_neg_eq_iff {significand size k : Nat} :
    (significand : Rat) * (2 : Rat) ^ (-(k : Int)) = size ↔
      significand % 2 ^ k = 0 ∧ significand / 2 ^ k = size := by
  have hpow : (2 : Rat) ^ k ≠ 0 := by positivity
  have hpos : 0 < 2 ^ k := by positivity
  rw [zpow_neg, zpow_natCast, ← div_eq_mul_inv, div_eq_iff hpow]
  constructor
  · intro h
    obtain rfl : significand = size * 2 ^ k := by exact_mod_cast h
    exact ⟨Nat.mul_mod_left _ _, Nat.mul_div_cancel _ hpos⟩
  · intro h
    rcases h with ⟨hmod, rfl⟩
    exact_mod_cast (Nat.div_mul_cancel (Nat.dvd_of_mod_eq_zero hmod)).symm

/-- The whole number that a size is equal to. -/
private theorem size_eq_some_iff {significand size : Nat} {exponent : Int} :
    (if 0 ≤ exponent then some (significand * 2 ^ exponent.toNat)
      else if significand % 2 ^ (-exponent).toNat = 0 then
        some (significand / 2 ^ (-exponent).toNat)
      else none) = some size ↔
        (significand : Rat) * (2 : Rat) ^ exponent = size := by
  by_cases hexp : 0 ≤ exponent
  · obtain ⟨k, rfl⟩ := Int.eq_ofNat_of_zero_le hexp
    rw [if_pos hexp, Option.some.injEq, zpow_natCast, Int.toNat_natCast]
    constructor
    · intro heq
      subst heq
      push_cast
      rfl
    · intro h
      exact_mod_cast h
  · obtain ⟨k, hk⟩ := Int.eq_ofNat_of_zero_le (show 0 ≤ -exponent by omega)
    obtain rfl : exponent = -(k : Int) := by omega
    rw [if_neg hexp, mul_zpow_neg_eq_iff, Int.neg_neg, Int.toNat_natCast]
    split
    · rename_i hmod
      simp [hmod]
    · rename_i hmod
      simp [hmod]

/-- The integer under a sign is the whole number under that sign. -/
private theorem signed_eq_iff {negative : Bool} {q : Rat} (hq : 0 ≤ q)
    {n : Int} :
    (∃ size : Nat, q = size ∧ (if negative then -(size : Int) else size) = n) ↔
      (if negative then -q else q) = n := by
  constructor
  · intro h
    rcases h with ⟨size, rfl, rfl⟩
    split <;> simp
  · intro h
    have hsize : ∀ m : Int, q = m → q = m.toNat ∧ (m.toNat : Int) = m := by
      intro m heq
      subst heq
      have hm : 0 ≤ m := by exact_mod_cast hq
      have hcast : (m.toNat : Int) = m := Int.toNat_of_nonneg hm
      exact ⟨by exact_mod_cast hcast.symm, hcast⟩
    cases negative with
    | false =>
        obtain ⟨hvalue, hcast⟩ := hsize n h
        exact ⟨n.toNat, hvalue, hcast⟩
    | true =>
        have hneg : q = (-n : Int) := by
          push_cast
          rw [← h]
          simp
        obtain ⟨hvalue, hcast⟩ := hsize (-n) hneg
        refine ⟨(-n).toNat, hvalue, ?_⟩
        rw [if_pos rfl, hcast, neg_neg]

/-- **The integer that a number equals**: it is finite, and its exact value is
that integer. -/
theorem toInt?_eq_some_iff {v : Binary64} {n : Int} :
    v.toInt? = some n ↔ v.isFinite = true ∧ v.toRat = n := by
  cases v with
  | nan => simp [toInt?]
  | infinite negative => simp [toInt?]
  | finite negative significand exponent hcan =>
      have hsize : (finite negative significand exponent hcan).toInt? = some n ↔
          ∃ size : Nat, (significand : Rat) * (2 : Rat) ^ exponent = size ∧
            (if negative then -(size : Int) else size) = n := by
        simp only [← size_eq_some_iff, toInt?, Option.map_eq_some_iff, bind,
          pure, Option.bind_eq_some_iff, Option.some.injEq]
        constructor
        · intro h
          rcases h with ⟨_, ⟨size, hsize, rfl⟩, hn⟩
          exact ⟨size, hsize, hn⟩
        · intro h
          rcases h with ⟨size, hsize, hn⟩
          exact ⟨size, ⟨size, hsize, rfl⟩, hn⟩
      have hq : (0 : Rat) ≤ significand * (2 : Rat) ^ exponent := by positivity
      rw [hsize, signed_eq_iff hq, isFinite_finite, eq_self, true_and]
      rfl

end ItemSearch.Binary64
