import Mathlib
import ItemSearch.Binary64.Basic

/-!
# Rounding keeps the numbers that are there

A rational size that is the size of a finite number rounds to that number.  The
binary order is pinned down by the two powers of two around a size, the order
fixes the grid, and on its own grid a number is a whole count of steps.

## Main results

* `binaryOrder_eq_iff`: the order is the exponent of the power of two just below
  a size.
* `gridExponent_of_canonical`: the grid of a finite number is the one of its
  exponent.
* `round_magnitude`: a finite number is its own rounding.
* `isFinite_round`: a size below `2 ^ 1023` is rounded to a finite number.
* `two_zpow_le_magnitude_round`: a size is not rounded below a power of two.
-/

namespace ItemSearch.Binary64

/-! ## The binary order -/

private theorem two_zpow_pos (e : Int) : (0 : Rat) < (2 : Rat) ^ e :=
  zpow_pos (by norm_num) e

/-- A natural number lies between the two powers of two that its binary length
names. -/
private theorem log2_bounds {n : Nat} (hn : n ≠ 0) :
    (2 : Rat) ^ (n.log2 : Int) ≤ n ∧ (n : Rat) < (2 : Rat) ^
    ((n.log2 : Int) + 1) := by
  constructor
  · rw [zpow_natCast]
    exact_mod_cast Nat.log2_self_le hn
  · rw [← Nat.cast_succ, zpow_natCast]
    exact_mod_cast Nat.lt_log2_self

/-- The binary lengths of numerator and denominator give the order of a quotient
up to one. -/
private theorem quotient_bounds {a b : Nat} (ha : a ≠ 0) (hb : b ≠ 0) :
    (2 : Rat) ^ ((a.log2 : Int) - b.log2 - 1) < a / b ∧
      (a : Rat) / b < (2 : Rat) ^ ((a.log2 : Int) - b.log2 + 1) := by
  obtain ⟨haLe, haLt⟩ := log2_bounds ha
  obtain ⟨hbLe, hbLt⟩ := log2_bounds hb
  have hbPos : (0 : Rat) < b := (two_zpow_pos _).trans_le hbLe
  constructor
  · rw [lt_div_iff₀ hbPos]
    calc (2 : Rat) ^ ((a.log2 : Int) - b.log2 - 1) * b
        < (2 : Rat) ^ ((a.log2 : Int) - b.log2 - 1) *
            (2 : Rat) ^ ((b.log2 : Int) + 1) :=
          mul_lt_mul_of_pos_left hbLt (two_zpow_pos _)
      _ = (2 : Rat) ^ (a.log2 : Int) := by
          rw [← zpow_add₀ (by norm_num)]
          congr 1
          omega
      _ ≤ a := haLe
  · rw [div_lt_iff₀ hbPos]
    calc (a : Rat)
        < (2 : Rat) ^ ((a.log2 : Int) + 1) := haLt
      _ = (2 : Rat) ^ ((a.log2 : Int) - b.log2 + 1) *
            (2 : Rat) ^ (b.log2 : Int) := by
          rw [← zpow_add₀ (by norm_num)]
          congr 1
          omega
      _ ≤ (2 : Rat) ^ ((a.log2 : Int) - b.log2 + 1) * b :=
          mul_le_mul_of_nonneg_left hbLe (two_zpow_pos _).le

/-- The estimate that `binaryOrder` starts from is off by at most one. -/
private theorem estimate_bounds {q : Rat} (hq : 0 < q) :
    (2 : Rat) ^ ((q.num.natAbs.log2 : Int) - q.den.log2 - 1) < q ∧
      q < (2 : Rat) ^ ((q.num.natAbs.log2 : Int) - q.den.log2 + 1) := by
  have hnum : 0 < q.num := Rat.num_pos.2 hq
  have hquot : (q.num.natAbs : Rat) / q.den = q := by
    rw [← Int.cast_natCast, Int.natAbs_of_nonneg hnum.le, Rat.num_div_den]
  have hbounds := quotient_bounds (a := q.num.natAbs) (by omega) q.den_nz
  rwa [hquot] at hbounds

theorem two_pow_binaryOrder_le {q : Rat} (hq : 0 < q) :
    (2 : Rat) ^ binaryOrder q ≤ q := by
  unfold binaryOrder
  dsimp only
  split
  · assumption
  · exact (estimate_bounds hq).1.le

theorem lt_two_pow_binaryOrder {q : Rat} (hq : 0 < q) :
    q < (2 : Rat) ^ (binaryOrder q + 1) := by
  unfold binaryOrder
  dsimp only
  split
  · exact (estimate_bounds hq).2
  · rename_i hlt
    rw [Int.sub_add_cancel]
    exact not_le.1 hlt

/-- The binary order of a size is the exponent of the power of two just below
it. -/
theorem binaryOrder_eq_iff {q : Rat} (hq : 0 < q) {e : Int} :
    binaryOrder q = e ↔ (2 : Rat) ^ e ≤ q ∧ q < (2 : Rat) ^ (e + 1) := by
  constructor
  · intro heq
    subst heq
    exact ⟨two_pow_binaryOrder_le hq, lt_two_pow_binaryOrder hq⟩
  · intro h
    rcases h with ⟨hle, hlt⟩
    have hup : binaryOrder q < e + 1 :=
      (zpow_lt_zpow_iff_right₀ (by norm_num)).1
        ((two_pow_binaryOrder_le hq).trans_lt hlt)
    have hdown : e < binaryOrder q + 1 :=
      (zpow_lt_zpow_iff_right₀ (by norm_num)).1
        (hle.trans_lt (lt_two_pow_binaryOrder hq))
    omega

/-! ## The grid of a finite number -/

/-- A canonical size is below `2 ^ 1024`. -/
theorem magnitude_lt {significand : Nat} {exponent : Int}
    (hcan : Canonical significand exponent) :
    (significand : Rat) * (2 : Rat) ^ exponent < (2 : Rat) ^ (1024 : Int) := by
  have hsig : (significand : Rat) < (2 : Rat) ^ (53 : Int) := by
    exact_mod_cast hcan.1
  calc (significand : Rat) * (2 : Rat) ^ exponent
      < (2 : Rat) ^ (53 : Int) * (2 : Rat) ^ exponent :=
        mul_lt_mul_of_pos_right hsig (two_zpow_pos _)
    _ = (2 : Rat) ^ (53 + exponent) := (zpow_add₀ (by norm_num) _ _).symm
    _ ≤ (2 : Rat) ^ (1024 : Int) :=
        zpow_le_zpow_right₀ (by norm_num) (by have := hcan.2.2.1; omega)

/-- A finite number whose significand fills 53 bits lies between the two powers
of two that its exponent names. -/
private theorem magnitude_bounds {significand : Nat} (exponent : Int)
    (hlow : 2 ^ 52 ≤ significand) (hhigh : significand < 2 ^ 53) :
    (2 : Rat) ^ (exponent + 52) ≤ significand * (2 : Rat) ^ exponent ∧
      significand * (2 : Rat) ^ exponent < (2 : Rat) ^ (exponent + 52 + 1) := by
  have hsigLe : (2 : Rat) ^ (52 : Int) ≤ significand := by exact_mod_cast hlow
  have hsigLt : (significand : Rat) < (2 : Rat) ^ (53 : Int) := by
    exact_mod_cast hhigh
  constructor
  · rw [Int.add_comm, zpow_add₀ (by norm_num)]
    exact mul_le_mul_of_nonneg_right hsigLe (two_zpow_pos _).le
  · rw [show exponent + 52 + 1 = 53 + exponent by omega,
      zpow_add₀ (by norm_num)]
    exact mul_lt_mul_of_pos_right hsigLt (two_zpow_pos _)

/-- The size of a finite number is rounded on the grid of its exponent. -/
theorem gridExponent_of_canonical {significand : Nat} {exponent : Int}
    (hcan : Canonical significand exponent) :
    gridExponent (significand * (2 : Rat) ^ exponent) = exponent := by
  obtain ⟨hhigh, hmin, -, hfull⟩ := hcan
  unfold gridExponent
  by_cases hlow : 2 ^ 52 ≤ significand
  · obtain ⟨hge, hlt⟩ := magnitude_bounds exponent hlow hhigh
    have hnormal : (2 : Rat) ^ (-1022 : Int) ≤
        significand * (2 : Rat) ^ exponent :=
      (zpow_le_zpow_right₀ (by norm_num) (by omega)).trans hge
    have hpos : (0 : Rat) < significand * (2 : Rat) ^ exponent :=
      (two_zpow_pos _).trans_le hge
    rw [if_neg (not_lt.2 hnormal), (binaryOrder_eq_iff hpos).2 ⟨hge, hlt⟩]
    omega
  · have hexp : exponent = -1074 := hfull.resolve_left hlow
    have hsig : (significand : Rat) < (2 : Rat) ^ (52 : Int) := by
      exact_mod_cast not_le.1 hlow
    have hsmall : significand * (2 : Rat) ^ exponent <
        (2 : Rat) ^ (-1022 : Int) := by
      rw [hexp, show (-1022 : Int) = 52 + -1074 by norm_num,
        zpow_add₀ (by norm_num)]
      exact mul_lt_mul_of_pos_right hsig (two_zpow_pos _)
    rw [if_pos hsmall, hexp]

/-! ## Rounding -/

/-- A whole number is the nearest whole number to itself. -/
theorem nearestEven_natCast (n : Nat) : nearestEven (n : Rat) = n := by
  have hfloor : (n : Rat).floor.toNat = n := by
    rw [← Int.cast_natCast, Rat.floor_intCast, Int.toNat_natCast]
  simp [nearestEven, hfloor]

theorem round_of_canonical (negative : Bool) {significand : Nat}
    {exponent : Int}
    (hcan : Canonical significand exponent) :
    round negative (significand * (2 : Rat) ^ exponent) =
      .finite negative significand exponent hcan := by
  have hscale : (significand : Rat) * (2 : Rat) ^ exponent *
      (2 : Rat) ^ (-exponent) = significand := by
    rw [mul_assoc, ← zpow_add₀ (by norm_num), Int.add_right_neg, zpow_zero,
      mul_one]
  unfold round
  dsimp only
  rw [gridExponent_of_canonical hcan, hscale, nearestEven_natCast,
    if_neg (Nat.ne_of_lt hcan.1), ofParts_of_canonical negative hcan]

/-- **A finite number is its own rounding.** -/
theorem round_magnitude {v : Binary64} (hv : v.isFinite = true) :
    round v.isNegative v.magnitude = v := by
  cases v with
  | nan => simp at hv
  | infinite negative => simp at hv
  | finite negative significand exponent hcan =>
      exact round_of_canonical negative hcan

/-! ## Rounding within the range -/

/-- Rounding to a whole number does not go past a whole number above. -/
theorem nearestEven_le {q : Rat} (hq : 0 ≤ q) {n : Nat} (h : q ≤ n) :
    nearestEven q ≤ n := by
  have hwhole : (q.floor.toNat : Rat) ≤ q := by
    have hfloor : ((q.floor.toNat : Int) : Rat) = q.floor := by
      rw [Int.toNat_of_nonneg (Rat.le_floor_iff.2 (by simpa using hq))]
    rw [← Int.cast_natCast, hfloor]
    exact Rat.floor_le q
  have hle : q.floor.toNat ≤ n := by exact_mod_cast hwhole.trans h
  unfold nearestEven
  dsimp only
  rcases hle.lt_or_eq with hlt | heq
  · split_ifs <;> omega
  · have hsmall : q - (q.floor.toNat : Rat) < 1 / 2 := by
      rw [heq]
      linarith
    rw [if_pos hsmall]
    exact hle

/-- Rounding to a whole number does not go past a whole number below. -/
theorem le_nearestEven {q : Rat} {n : Nat} (h : (n : Rat) ≤ q) :
    n ≤ nearestEven q := by
  have hfloor : (n : Int) ≤ q.floor := Rat.le_floor_iff.2 (by exact_mod_cast h)
  have hwhole : n ≤ q.floor.toNat := by omega
  unfold nearestEven
  dsimp only
  split_ifs <;> omega

/-- A size below `2 ^ k` is scaled below `2 ^ (k - e)` by a grid of exponent
`e`. -/
private theorem scaled_lt {q : Rat} {k e : Int} (h : q < (2 : Rat) ^ k) :
    q * (2 : Rat) ^ (-e) < (2 : Rat) ^ (k - e) := by
  rw [Int.sub_eq_add_neg, zpow_add₀ (by norm_num)]
  exact mul_lt_mul_of_pos_right h (two_zpow_pos _)

private theorem le_scaled {q : Rat} {k e : Int} (h : (2 : Rat) ^ k ≤ q) :
    (2 : Rat) ^ (k - e) ≤ q * (2 : Rat) ^ (-e) := by
  rw [Int.sub_eq_add_neg, zpow_add₀ (by norm_num)]
  exact mul_le_mul_of_nonneg_right h (two_zpow_pos _).le

/-- The steps of its grid that a size is rounded to: no more than 53 bits of
them, or one more, and no fewer unless the grid is the least one. -/
theorem roundedSteps_bounds {q : Rat} (hq : 0 ≤ q)
    (hlt : q < (2 : Rat) ^ (1023 : Int)) :
    (-1074 ≤ gridExponent q ∧ gridExponent q ≤ 970) ∧
      nearestEven (q * (2 : Rat) ^ (-gridExponent q)) ≤ 2 ^ 53 ∧
      (2 ^ 52 ≤ nearestEven (q * (2 : Rat) ^ (-gridExponent q)) ∨
        gridExponent q = -1074) := by
  have hscaled : 0 ≤ q * (2 : Rat) ^ (-gridExponent q) :=
    mul_nonneg hq (two_zpow_pos _).le
  by_cases hsmall : q < (2 : Rat) ^ (-1022 : Int)
  · have hgrid : gridExponent q = -1074 := if_pos hsmall
    have hsteps :
        q * (2 : Rat) ^ (-gridExponent q) < (2 : Rat) ^ (52 : Int) := by
      have h := scaled_lt (e := gridExponent q) hsmall
      rwa [hgrid] at h ⊢
    have hround : nearestEven (q * (2 : Rat) ^ (-gridExponent q)) ≤ 2 ^ 52 :=
      nearestEven_le hscaled (by exact_mod_cast hsteps.le)
    exact ⟨by omega, by omega, .inr hgrid⟩
  · have hpos : 0 < q := (two_zpow_pos _).trans_le (not_lt.1 hsmall)
    have hgrid : gridExponent q = binaryOrder q - 52 := if_neg hsmall
    have hge : (-1022 : Int) < binaryOrder q + 1 :=
      (zpow_lt_zpow_iff_right₀ (by norm_num)).1
        ((not_lt.1 hsmall).trans_lt (lt_two_pow_binaryOrder hpos))
    have hle : binaryOrder q < 1023 :=
      (zpow_lt_zpow_iff_right₀ (by norm_num)).1
        ((two_pow_binaryOrder_le hpos).trans_lt hlt)
    have hupper :
        q * (2 : Rat) ^ (-gridExponent q) < (2 : Rat) ^ (53 : Int) := by
      have h := scaled_lt (e := gridExponent q) (lt_two_pow_binaryOrder hpos)
      rwa [show binaryOrder q + 1 - gridExponent q = 53 by omega] at h
    have hlower :
        (2 : Rat) ^ (52 : Int) ≤ q * (2 : Rat) ^ (-gridExponent q) := by
      have h := le_scaled (e := gridExponent q) (two_pow_binaryOrder_le hpos)
      rwa [show binaryOrder q - gridExponent q = 52 by omega] at h
    exact ⟨by omega, nearestEven_le hscaled (by exact_mod_cast hupper.le),
      .inl (le_nearestEven (by exact_mod_cast hlower))⟩

/-- A size is rounded to 53 full bits on a grid that is not finer than its own,
unless it is below the normal numbers. -/
theorem exists_round_eq_finite (negative : Bool) {q : Rat} (hq : 0 ≤ q)
    (hlt : q < (2 : Rat) ^ (1023 : Int)) :
    ∃ significand exponent, ∃ hcan : Canonical significand exponent,
      round negative q = .finite negative significand exponent hcan ∧
        ((2 : Rat) ^ (-1022 : Int) ≤ q →
          2 ^ 52 ≤ significand ∧ binaryOrder q - 52 ≤ exponent) := by
  obtain ⟨⟨hmin, hmax⟩, hbits, hfull⟩ := roundedSteps_bounds hq hlt
  have hnormal : (2 : Rat) ^ (-1022 : Int) ≤ q →
      gridExponent q = binaryOrder q - 52 ∧
        2 ^ 52 ≤ nearestEven (q * (2 : Rat) ^ (-gridExponent q)) := by
    intro hge
    have hgrid : gridExponent q = binaryOrder q - 52 := if_neg (not_lt.2 hge)
    have hpos : 0 < q := (two_zpow_pos _).trans_le hge
    have hlower := le_scaled (e := gridExponent q) (two_pow_binaryOrder_le hpos)
    rw [show binaryOrder q - gridExponent q = 52 by omega] at hlower
    exact ⟨hgrid, le_nearestEven (by exact_mod_cast hlower)⟩
  unfold round
  dsimp only
  split
  · have hcan : Canonical (2 ^ 52) (gridExponent q + 1) :=
      ⟨by norm_num, by omega, by omega, .inl le_rfl⟩
    refine ⟨_, _, hcan, ofParts_of_canonical negative hcan,
      fun hge => ⟨le_rfl, ?_⟩⟩
    have := (hnormal hge).1
    omega
  · rename_i hne
    have hcan : Canonical (nearestEven (q * (2 : Rat) ^ (-gridExponent q)))
        (gridExponent q) :=
      ⟨Nat.lt_of_le_of_ne hbits hne, hmin, by omega, hfull⟩
    refine ⟨_, _, hcan, ofParts_of_canonical negative hcan, fun hge => ?_⟩
    obtain ⟨hgrid, hsteps⟩ := hnormal hge
    exact ⟨hsteps, hgrid.ge⟩

/-- **A size within the range is rounded to a finite number.** -/
theorem isFinite_round (negative : Bool) {q : Rat} (hq : 0 ≤ q)
    (hlt : q < (2 : Rat) ^ (1023 : Int)) :
    (round negative q).isFinite = true := by
  obtain ⟨significand, exponent, hcan, hround, -⟩ :=
    exists_round_eq_finite negative hq hlt
  rw [hround, isFinite_finite]

/-- **Rounding does not go below a power of two** that a size is not below. -/
theorem two_zpow_le_magnitude_round (negative : Bool) {q : Rat} {k : Int}
    (hk : -1022 ≤ k)
    (hle : (2 : Rat) ^ k ≤ q) (hlt : q < (2 : Rat) ^ (1023 : Int)) :
    (2 : Rat) ^ k ≤ (round negative q).magnitude := by
  have hpos : 0 < q := (two_zpow_pos k).trans_le hle
  have hnormal : (2 : Rat) ^ (-1022 : Int) ≤ q :=
    (zpow_le_zpow_right₀ (by norm_num) hk).trans hle
  obtain ⟨significand, exponent, hcan, hround, hbounds⟩ :=
    exists_round_eq_finite negative hpos.le hlt
  obtain ⟨hsignificand, hexponent⟩ := hbounds hnormal
  have horder : k < binaryOrder q + 1 :=
    (zpow_lt_zpow_iff_right₀ (by norm_num)).1
      (hle.trans_lt (lt_two_pow_binaryOrder hpos))
  rw [hround]
  calc (2 : Rat) ^ k
      ≤ (2 : Rat) ^ (52 + exponent) :=
        zpow_le_zpow_right₀ (by norm_num) (by omega)
    _ = (2 : Rat) ^ (52 : Int) * (2 : Rat) ^ exponent :=
      zpow_add₀ (by norm_num) _ _
    _ ≤ significand * (2 : Rat) ^ exponent :=
        mul_le_mul_of_nonneg_right (by exact_mod_cast hsignificand)
          (two_zpow_pos _).le

/-- An integer of no more than 64 bits is rounded to a finite number. -/
theorem isFinite_ofInt {n : Int} (hlower : -2 ^ 63 ≤ n) (hupper : n < 2 ^ 64) :
    (ofInt n).isFinite = true := by
  have hsize : n.natAbs < 2 ^ 64 := by omega
  have hlt : (n.natAbs : Rat) < (2 : Rat) ^ (1023 : Int) :=
    calc (n.natAbs : Rat) < (2 : Rat) ^ (64 : Int) := by exact_mod_cast hsize
      _ ≤ (2 : Rat) ^ (1023 : Int) :=
        zpow_le_zpow_right₀ (by norm_num) (by norm_num)
  exact isFinite_round _ (Nat.cast_nonneg _) hlt

end ItemSearch.Binary64
