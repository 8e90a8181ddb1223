import Mathlib
import ItemSearch.Decimal.Shortest
import ItemSearch.Proofs.Binary64.Rounding

/-!
# The shortest decimal rounds back

Rounding a decimal cuts an exponent back that is past the range of the numbers.
A decimal whose exponent is not cut back is rounded by its value alone, so two
spellings of one value stand for one number.  The shortest decimal of a finite
number is such a decimal, and it rounds to that number: either it has been
tested, or it is the exact one, and a finite number is its own rounding.

## Main results

* `toBinary64_congr`: decimals of one value round to one number.
* `inRange_shortest`: the exponent of a shortest decimal is not cut back.
* `toBinary64_shortest`: the shortest decimal rounds back.
-/

namespace ItemSearch.Decimal

/-- The rational that a decimal is equal to. -/
def value (d : Decimal) : Rat :=
  d.digits * (10 : Rat) ^ d.exponent

/-- The exponent of a decimal is small enough, and large enough for its digits,
to be taken as it is. -/
structure InRange (d : Decimal) : Prop where
  upper : d.exponent ≤ 400
  lower : -(d.digits.log2 : Int) - 400 ≤ d.exponent

theorem toBinary64_of_inRange {d : Decimal} (hd : d.InRange) (negative : Bool) :
    d.toBinary64 negative = Binary64.round negative d.value := by
  have hupper := hd.upper
  have hlower := hd.lower
  unfold toBinary64 Binary64.ofDecimal value
  dsimp only
  rw [Int.min_eq_left hupper, Int.max_eq_left hlower]

/-- Decimals of one value round to one number. -/
theorem toBinary64_congr {d d' : Decimal} (hd : d.InRange) (hd' : d'.InRange)
    (hvalue : d.value = d'.value) (negative : Bool) :
    d.toBinary64 negative = d'.toBinary64 negative := by
  rw [toBinary64_of_inRange hd, toBinary64_of_inRange hd', hvalue]

/-! ## The exact decimal -/

/-- The exact decimal of a finite number has the value of that number. -/
theorem value_exact {v : Binary64} (hv : v.isFinite = true) :
    (exact v).value = v.magnitude := by
  cases v with
  | nan => simp at hv
  | infinite negative => simp at hv
  | finite negative significand exponent hcan =>
      unfold exact Binary64.magnitude value
      dsimp only
      split
      · rename_i hexp
        obtain ⟨k, rfl⟩ := Int.eq_ofNat_of_zero_le hexp
        push_cast
        simp
      · rename_i hexp
        obtain ⟨k, hk⟩ := Int.eq_ofNat_of_zero_le (show 0 ≤ -exponent by omega)
        obtain rfl : exponent = -(k : Int) := by omega
        have hten : (10 : Rat) = 2 * 5 := by norm_num
        have hfive : (5 : Rat) ^ k * (5 ^ k)⁻¹ = 1 :=
          mul_inv_cancel₀ (by positivity)
        push_cast
        simp only [neg_neg, Int.toNat_natCast, zpow_neg, zpow_natCast]
        rw [hten, mul_pow, mul_inv]
        linear_combination (significand : Rat) * (2 ^ k)⁻¹ * hfive

/-- The digits of the exact decimal of a small number are long enough for its
exponent. -/
theorem inRange_exact {v : Binary64} (hv : v.magnitude ≠ 0) :
    (exact v).InRange := by
  cases v with
  | nan => simp [Binary64.magnitude] at hv
  | infinite negative => simp [Binary64.magnitude] at hv
  | finite negative significand exponent hcan =>
      have hsig : significand ≠ 0 := by
        intro heq
        subst heq
        simp [Binary64.magnitude] at hv
      unfold exact
      dsimp only
      split
      · exact ⟨by dsimp only; omega, by dsimp only; omega⟩
      · rename_i hexp
        have hpow :
            2 ^ (-exponent).toNat ≤ significand * 5 ^ (-exponent).toNat :=
          calc 2 ^ (-exponent).toNat
              ≤ 5 ^ (-exponent).toNat := Nat.pow_le_pow_left (by omega) _
            _ ≤ significand * 5 ^ (-exponent).toNat :=
              Nat.le_mul_of_pos_left _ (Nat.pos_of_ne_zero hsig)
        have hlog : (-exponent).toNat ≤
            (significand * 5 ^ (-exponent).toNat).log2 :=
          (Nat.le_log2 (by positivity)).2 hpow
        exact ⟨by dsimp only; omega, by dsimp only; omega⟩

theorem toBinary64_exact {v : Binary64} (hv : v.isFinite = true)
    (hne : v.magnitude ≠ 0) : (exact v).toBinary64 v.isNegative = v := by
  rw [toBinary64_of_inRange (inRange_exact hne), value_exact hv,
    Binary64.round_magnitude hv]

/-! ## The grids that are tried -/

theorem exponent_of_mem_neighbours {tie : Tie} {q : Rat} {place : Int}
    {d : Decimal} (hd : d ∈ neighbours tie q place) : d.exponent = place := by
  unfold neighbours at hd
  dsimp only at hd
  split at hd <;>
    · simp only [List.mem_cons, List.not_mem_nil, or_false] at hd
      rcases hd with rfl | rfl <;> rfl

/-- The places that are tried for a finite number are well inside the range. -/
theorem bounds_of_mem_places {v : Binary64} (hv : v.isFinite = true)
    (hne : v.magnitude ≠ 0) {place : Int}
    (hplace : place ∈ places v.magnitude) :
    -400 ≤ place ∧ place ≤ 400 := by
  cases v with
  | nan => simp at hv
  | infinite negative => simp at hv
  | finite negative significand exponent hcan =>
      have hsig : 1 ≤ significand := by
        rcases Nat.eq_zero_or_pos significand with rfl | hpos
        · simp [Binary64.magnitude] at hne
        · exact hpos
      have hlow : (2 : Rat) ^ (-1074 : Int) ≤
          significand * (2 : Rat) ^ exponent := by
        have hone : (1 : Rat) ≤ significand := by exact_mod_cast hsig
        calc (2 : Rat) ^ (-1074 : Int)
            ≤ (2 : Rat) ^ exponent :=
              zpow_le_zpow_right₀ (by norm_num) hcan.2.1
          _ ≤ significand * (2 : Rat) ^ exponent :=
              le_mul_of_one_le_left (by positivity) hone
      have hpos : (0 : Rat) < significand * (2 : Rat) ^ exponent :=
        lt_of_lt_of_le (by positivity) hlow
      have hup :
          Binary64.binaryOrder (significand * (2 : Rat) ^ exponent) < 1024 :=
        (zpow_lt_zpow_iff_right₀ (by norm_num)).1
          ((Binary64.two_pow_binaryOrder_le hpos).trans_lt
            (Binary64.magnitude_lt hcan))
      have hdown : -1074 <
          Binary64.binaryOrder (significand * (2 : Rat) ^ exponent) + 1 :=
        (zpow_lt_zpow_iff_right₀ (by norm_num)).1
          (hlow.trans_lt (Binary64.lt_two_pow_binaryOrder hpos))
      simp only [places, Binary64.magnitude, List.mem_map,
        List.mem_range] at hplace
      obtain ⟨step, hstep, rfl⟩ := hplace
      omega

/-! ## The shortest decimal -/

/-- What is known of a shortest decimal of a number other than a zero: it has
been found on a grid and tested there, or it is the exact one. -/
theorem shortest_cases (tie : Tie) {v : Binary64} (hne : v.magnitude ≠ 0) :
    (∃ place ∈ places v.magnitude, (shortest tie v).exponent = place ∧
      (shortest tie v).toBinary64 v.isNegative = v) ∨
    shortest tie v = exact v := by
  unfold shortest
  rw [if_neg hne]
  dsimp only
  cases hfound : (places v.magnitude).findSome? fun place =>
      (neighbours tie v.magnitude place).find? fun d =>
        d.toBinary64 v.isNegative = v with
  | none => exact .inr rfl
  | some d =>
      obtain ⟨place, hplace, hfind⟩ := List.exists_of_findSome?_eq_some hfound
      have hmem := List.mem_of_find?_eq_some hfind
      have htest : d.toBinary64 v.isNegative = v := by
        simpa using List.find?_some hfind
      exact .inl ⟨place, hplace, exponent_of_mem_neighbours hmem, htest⟩

theorem inRange_shortest (tie : Tie) {v : Binary64} (hv : v.isFinite = true) :
    (shortest tie v).InRange := by
  by_cases hzero : v.magnitude = 0
  · rw [shortest, if_pos hzero]
    exact ⟨by decide, by decide⟩
  · rcases shortest_cases tie hzero with ⟨place, hplace, hexp, -⟩ | hexact
    · obtain ⟨hlow, hhigh⟩ := bounds_of_mem_places hv hzero hplace
      exact ⟨by omega, by omega⟩
    · rw [hexact]
      exact inRange_exact hzero

/-- **The shortest decimal of a finite number rounds to that number.** -/
theorem toBinary64_shortest (tie : Tie) {v : Binary64}
    (hv : v.isFinite = true) :
    (shortest tie v).toBinary64 v.isNegative = v := by
  by_cases hzero : v.magnitude = 0
  · have hvalue : (shortest tie v).value = v.magnitude := by
      rw [shortest, if_pos hzero, hzero]
      simp [value]
    rw [toBinary64_of_inRange (inRange_shortest tie hv), hvalue,
      Binary64.round_magnitude hv]
  · rcases shortest_cases tie hzero with ⟨-, -, -, htest⟩ | hexact
    · exact htest
    · rw [hexact]
      exact toBinary64_exact hv hzero

end ItemSearch.Decimal
