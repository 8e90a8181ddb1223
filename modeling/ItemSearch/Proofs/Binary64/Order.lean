import Mathlib
import ItemSearch.Binary64.Basic

/-!
# The order of the numbers

Numbers are compared by their places on the line, so the two zeros are equal,
and not-a-number, which has no place, is not below or above anything, not even
itself.  The smaller and the larger of two numbers are always one of the two.

Taking the smaller of two numbers again with either of them changes nothing, and
so for the larger one; and the two come out as they went in exactly if they were
in order.

Two finite numbers in their order span a stretch of the line.  A stretch is
widened to a further number by taking the smaller one on its lower end and the
larger one on its upper end, and it stays a stretch.

## Main results

* `numLe_refl`, `numLe_trans`: order among the numbers.
* `least_numLe_left`, `least_numLe_right`, `numLe_greatest_left`,
  `numLe_greatest_right`: the smaller and the larger number are on their sides
  of both.
* `least_least_left`, `greatest_greatest_left`: one of two numbers, chosen
  again.
* `numEq_least_greatest_iff`: two numbers that are in order already.
* `IsSpan.widen`: a stretch of the line, widened to one more number.
-/

namespace ItemSearch.Binary64

/-- Numeric order or equality, false as soon as an operand is no number. -/
def numLe (a b : Binary64) : Bool :=
  a.numLt b || a.numEq b

variable {a b c : Binary64}

theorem numLe_iff :
    a.numLe b = true ↔ ∃ x y, a.key? = some x ∧ b.key? = some y ∧ x ≤ y := by
  unfold numLe numLt numEq
  cases a.key? <;> cases b.key? <;> simp [le_iff_lt_or_eq]

theorem numLe_of_numLt (h : a.numLt b = true) : a.numLe b = true := by
  rw [numLe, h, Bool.true_or]

theorem numLe_refl (ha : a ≠ .nan) : a.numLe a = true := by
  obtain ⟨x, hx⟩ := Option.ne_none_iff_exists'.1 (mt key?_eq_none_iff.1 ha)
  exact numLe_iff.2 ⟨x, x, hx, hx, le_rfl⟩

theorem numLe_trans (hab : a.numLe b = true) (hbc : b.numLe c = true) :
    a.numLe c = true := by
  obtain ⟨x, y, hx, hy, hxy⟩ := numLe_iff.1 hab
  obtain ⟨y', z, hy', hz, hyz⟩ := numLe_iff.1 hbc
  obtain rfl : y = y' := Option.some.inj (hy.symm.trans hy')
  exact numLe_iff.2 ⟨x, z, hx, hz, hxy.trans hyz⟩

theorem numLt_iff :
    a.numLt b = true ↔ ∃ x y, a.key? = some x ∧ b.key? = some y ∧ x < y := by
  unfold numLt
  cases a.key? <;> cases b.key? <;> simp

/-- Two numbers are in one of the two orders. -/
theorem numLe_of_not_numLt (ha : a ≠ .nan) (hb : b ≠ .nan)
    (h : ¬ b.numLt a = true) :
    a.numLe b = true := by
  obtain ⟨x, hx⟩ := Option.ne_none_iff_exists'.1 (mt key?_eq_none_iff.1 ha)
  obtain ⟨y, hy⟩ := Option.ne_none_iff_exists'.1 (mt key?_eq_none_iff.1 hb)
  refine numLe_iff.2 ⟨x, y, hx, hy, not_lt.1 fun hlt => ?_⟩
  exact h (numLt_iff.2 ⟨y, x, hy, hx, hlt⟩)

theorem numEq_of_numLe (hab : a.numLe b = true) (hba : b.numLe a = true) :
    a.numEq b = true := by
  obtain ⟨x, y, hx, hy, hxy⟩ := numLe_iff.1 hab
  obtain ⟨y', x', hy', hx', hyx⟩ := numLe_iff.1 hba
  obtain rfl : x = x' := Option.some.inj (hx.symm.trans hx')
  obtain rfl : y = y' := Option.some.inj (hy.symm.trans hy')
  simp [numEq, hx, hy, le_antisymm hxy hyx]

theorem ne_nan_of_numLe (h : a.numLe b = true) : a ≠ .nan ∧ b ≠ .nan := by
  obtain ⟨x, y, hx, hy, -⟩ := numLe_iff.1 h
  constructor
  · rintro rfl
    cases hx
  · rintro rfl
    cases hy

theorem ne_nan_of_isFinite (ha : a.isFinite = true) : a ≠ .nan := by
  intro heq
  subst heq
  cases ha

/-! ## The smaller and the larger of two numbers -/

theorem least_eq_or (a b : Binary64) : a.least b = a ∨ a.least b = b := by
  unfold least
  split
  · exact .inr rfl
  · split
    · exact .inr rfl
    · exact .inl rfl

theorem greatest_eq_or (a b : Binary64) :
    a.greatest b = a ∨ a.greatest b = b := by
  unfold greatest
  split
  · exact .inr rfl
  · split
    · exact .inr rfl
    · exact .inl rfl

theorem isFinite_least (ha : a.isFinite = true) (hb : b.isFinite = true) :
    (a.least b).isFinite = true := by
  rcases least_eq_or a b with heq | heq <;> rwa [heq]

theorem isFinite_greatest (ha : a.isFinite = true) (hb : b.isFinite = true) :
    (a.greatest b).isFinite = true := by
  rcases greatest_eq_or a b with heq | heq <;> rwa [heq]

theorem least_numLe_left (ha : a ≠ .nan) (b : Binary64) :
    (a.least b).numLe a = true := by
  unfold least
  rw [if_neg ha]
  split
  next hlt => exact numLe_of_numLt hlt
  · exact numLe_refl ha

theorem least_numLe_right (a : Binary64) (hb : b ≠ .nan) :
    (a.least b).numLe b = true := by
  unfold least
  split
  · exact numLe_refl hb
  next ha =>
    split
    · exact numLe_refl hb
    next hlt => exact numLe_of_not_numLt ha hb hlt

theorem numLe_greatest_right (a : Binary64) (hb : b ≠ .nan) :
    b.numLe (a.greatest b) = true := by
  unfold greatest
  split
  · exact numLe_refl hb
  next ha =>
    split
    · exact numLe_refl hb
    next hlt => exact numLe_of_not_numLt hb ha hlt

theorem numLe_greatest_left (ha : a ≠ .nan) (b : Binary64) :
    a.numLe (a.greatest b) = true := by
  unfold greatest
  rw [if_neg ha]
  split
  next hlt => exact numLe_of_numLt hlt
  · exact numLe_refl ha

/-! ## Choosing again -/

theorem not_numLt_of_numLt (h : a.numLt b = true) : b.numLt a = false := by
  obtain ⟨x, y, hx, hy, hxy⟩ := numLt_iff.1 h
  unfold numLt
  rw [hx, hy]
  exact decide_eq_false (not_lt.2 hxy.le)

theorem ne_nan_of_numLt (h : a.numLt b = true) : a ≠ .nan ∧ b ≠ .nan := by
  obtain ⟨x, y, hx, hy, -⟩ := numLt_iff.1 h
  constructor
  · intro heq
    rw [heq] at hx
    cases hx
  · intro heq
    rw [heq] at hy
    cases hy

@[simp] theorem least_self (a : Binary64) : a.least a = a :=
  (or_self_iff).1 (least_eq_or a a)

@[simp] theorem greatest_self (a : Binary64) : a.greatest a = a :=
  (or_self_iff).1 (greatest_eq_or a a)

/-- The number that is chosen of two is chosen in the other order, too. -/
theorem least_eq_of_eq_right (h : a.least b = b) : b.least a = b := by
  by_cases ha : a = .nan
  · rw [ha, least_nan_right]
  by_cases hlt : b.numLt a = true
  · unfold least
    rw [if_neg (ne_nan_of_numLt hlt).1, not_numLt_of_numLt hlt]
    rfl
  · unfold least at h
    rw [if_neg ha, if_neg hlt] at h
    rw [h, least_self]

theorem greatest_eq_of_eq_right (h : a.greatest b = b) : b.greatest a = b := by
  by_cases ha : a = .nan
  · rw [ha, greatest_nan_right]
  by_cases hlt : a.numLt b = true
  · unfold greatest
    rw [if_neg (ne_nan_of_numLt hlt).2, not_numLt_of_numLt hlt]
    rfl
  · unfold greatest at h
    rw [if_neg ha, if_neg hlt] at h
    rw [h, greatest_self]

@[simp] theorem least_least_left (a b : Binary64) :
    (a.least b).least a = a.least b := by
  rcases least_eq_or a b with h | h
  · rw [h, least_self]
  · rw [h, least_eq_of_eq_right h]

@[simp] theorem least_least_right (a b : Binary64) :
    (a.least b).least b = a.least b := by
  rcases least_eq_or a b with h | h
  · rw [h, h]
  · rw [h, least_self]

@[simp] theorem greatest_greatest_left (a b : Binary64) :
    (a.greatest b).greatest a = a.greatest b := by
  rcases greatest_eq_or a b with h | h
  · rw [h, greatest_self]
  · rw [h, greatest_eq_of_eq_right h]

@[simp] theorem greatest_greatest_right (a b : Binary64) :
    (a.greatest b).greatest b = a.greatest b := by
  rcases greatest_eq_or a b with h | h
  · rw [h, h]
  · rw [h, greatest_self]

/-- Two numbers are in order exactly if the smaller one is the first and the
larger one the second. -/
theorem numEq_least_greatest_iff :
    (a.least b).numEq a = true ∧ (a.greatest b).numEq b = true ↔
      a.numLe b = true := by
  by_cases ha : a = .nan
  · subst ha
    simp [numEq, numLe, numLt]
  by_cases hb : b = .nan
  · subst hb
    simp [numEq, numLe, numLt]
  obtain ⟨x, hx⟩ := Option.ne_none_iff_exists'.1 (mt key?_eq_none_iff.1 ha)
  obtain ⟨y, hy⟩ := Option.ne_none_iff_exists'.1 (mt key?_eq_none_iff.1 hb)
  have hab : a.numLt b = decide (x < y) := by rw [numLt, hx, hy]
  have hba : b.numLt a = decide (y < x) := by rw [numLt, hx, hy]
  unfold least greatest numLe
  rw [if_neg ha, if_neg ha, hab, hba]
  rcases lt_trichotomy x y with h | h | h
  · simp [numEq, hx, hy, h, h.not_gt]
  · simp [numEq, hx, hy, h]
  · simp [numEq, hx, hy, h, h.not_gt, h.ne']

/-! ## Stretches of the line -/

/-- Two finite numbers, the first one not above the second one. -/
structure IsSpan (low high : Binary64) : Prop where
  finite_low : low.isFinite = true
  finite_high : high.isFinite = true
  ordered : low.numLe high = true

theorem isSpan_self (ha : a.isFinite = true) : IsSpan a a :=
  ⟨ha, ha, numLe_refl (ne_nan_of_isFinite ha)⟩

theorem IsSpan.widen {low high : Binary64} (h : IsSpan low high)
    (ha : a.isFinite = true) : IsSpan (low.least a) (high.greatest a) := by
  have hlow : (low.least a).numLe low = true :=
    least_numLe_left (ne_nan_of_isFinite h.finite_low) a
  have hhigh : high.numLe (high.greatest a) = true :=
    numLe_greatest_left (ne_nan_of_isFinite h.finite_high) a
  exact
    { finite_low := isFinite_least h.finite_low ha
      finite_high := isFinite_greatest h.finite_high ha
      ordered := numLe_trans (numLe_trans hlow h.ordered) hhigh }

end ItemSearch.Binary64
