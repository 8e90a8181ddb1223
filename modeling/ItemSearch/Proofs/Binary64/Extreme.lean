import Mathlib
import ItemSearch.Proofs.Binary64.Order

/-!
# The least and the greatest of some numbers

A number that is chosen again and again, between the one so far and the next
one, ends up as one of all.  Not-a-number gives way wherever it comes up, first
or later, so the end is not-a-number only if there was nothing else, and
otherwise no number is beyond it.

What is said of the least number is said of the greatest one with the order
turned round, so the choice and the order are parameters here.  `Chooses` is
what one choice has to do, and the two choices between numbers do it.

Which numbers there are settles the end, up to the sign of a zero: their order
and how often they come up do not matter.

## Main results

* `Chooses.step`: one more number.
* `chooses_least`, `chooses_greatest`: both choices between numbers.
* `IsLeastOf.alike`, `IsGreatestOf.alike`: numbers at the same end of the same
  numbers.
-/

namespace ItemSearch.Binary64

/-! ## One end of some numbers -/

/-- The number is one of the numbers, it is not-a-number only if all of them
are, and the numbers among them are all on its other side. -/
structure IsExtreme (Before : Binary64 → Binary64 → Prop)
    (numbers : List Binary64) (v : Binary64) : Prop where
  mem : v ∈ numbers
  nan_iff : v = .nan ↔ ∀ w ∈ numbers, w = .nan
  before : ∀ w ∈ numbers, w ≠ .nan → Before v w

/-- No number among the numbers is below the number. -/
abbrev IsLeastOf : List Binary64 → Binary64 → Prop :=
  IsExtreme fun v w => v.numLe w = true

/-- No number among the numbers is above the number. -/
abbrev IsGreatestOf : List Binary64 → Binary64 → Prop :=
  IsExtreme fun v w => w.numLe v = true

theorem isExtreme_singleton {Before : Binary64 → Binary64 → Prop}
    (hrefl : ∀ {a}, a ≠ .nan → Before a a) (v : Binary64) :
    IsExtreme Before [v] v where
  mem := List.mem_singleton_self v
  nan_iff := by simp
  before w hw hne := by
    obtain rfl := List.mem_singleton.1 hw
    exact hrefl hne

/-! ## Choosing -/

/-- The choice is between two numbers, passes over not-a-number and is on the
same side of both. -/
structure Chooses (Before : Binary64 → Binary64 → Prop)
    (choose : Binary64 → Binary64 → Binary64) : Prop where
  eq_or : ∀ a b, choose a b = a ∨ choose a b = b
  eq_nan : ∀ {a b}, choose a b = .nan → a = .nan ∧ b = .nan
  left : ∀ {a} b, a ≠ .nan → Before (choose a b) a
  right : ∀ {b} a, b ≠ .nan → Before (choose a b) b
  trans : ∀ {a b c}, Before a b → Before b c → Before a c

section Step

variable {Before : Binary64 → Binary64 → Prop}
  {choose : Binary64 → Binary64 → Binary64}
  {numbers : List Binary64} {v : Binary64}

/-- **One more number**: what is chosen between the end so far and the number is
the end. -/
theorem Chooses.step (h : Chooses Before choose)
    (hv : IsExtreme Before numbers v)
    (w : Binary64) : IsExtreme Before (numbers ++ [w]) (choose v w) := by
  have hmem : choose v w ∈ numbers ++ [w] := by
    rcases h.eq_or v w with heq | heq
    · rw [heq]
      exact List.mem_append_left _ hv.mem
    · rw [heq]
      simp
  refine
    { mem := hmem
      nan_iff := ⟨fun hnan => ?_, fun hall => hall _ hmem⟩
      before := ?_ }
  · obtain ⟨hvNan, rfl⟩ := h.eq_nan hnan
    intro u hu
    rcases List.mem_append.1 hu with hu | hu
    · exact hv.nan_iff.1 hvNan u hu
    · exact List.mem_singleton.1 hu
  · intro u hu hne
    rcases List.mem_append.1 hu with hu | hu
    · have hvNe : v ≠ .nan := fun hnan => hne (hv.nan_iff.1 hnan u hu)
      exact h.trans (h.left w hvNe) (hv.before u hu hne)
    · obtain rfl := List.mem_singleton.1 hu
      exact h.right v hne

end Step

theorem chooses_least : Chooses (fun v w => v.numLe w = true) least where
  eq_or := least_eq_or
  eq_nan {a b} h := by
    by_cases ha : a = .nan
    · subst ha
      exact ⟨rfl, h⟩
    · exact absurd h (ne_nan_of_numLe (least_numLe_left ha b)).1
  left b ha := least_numLe_left ha b
  right a hb := least_numLe_right a hb
  trans := numLe_trans

theorem chooses_greatest : Chooses (fun v w => w.numLe v = true) greatest where
  eq_or := greatest_eq_or
  eq_nan {a b} h := by
    by_cases ha : a = .nan
    · subst ha
      exact ⟨rfl, h⟩
    · exact absurd h (ne_nan_of_numLe (numLe_greatest_left ha b)).2
  left b ha := numLe_greatest_left ha b
  right a hb := numLe_greatest_right a hb
  trans hab hbc := numLe_trans hbc hab

/-! ## The same numbers -/

/-- Numeric equality in which not-a-number is equal to itself. -/
def Alike (a b : Binary64) : Prop :=
  a.numEq b = true ∨ a = .nan ∧ b = .nan

section Same

variable {numbers others : List Binary64} {v w : Binary64}

/-- Two numbers at the same end of the same numbers are not-a-number, or each of
them is before the other. -/
theorem IsExtreme.mutual {Before : Binary64 → Binary64 → Prop}
    (hv : IsExtreme Before numbers v) (hw : IsExtreme Before others w)
    (hsame : ∀ u, u ∈ numbers ↔ u ∈ others) :
    v = .nan ∧ w = .nan ∨ Before v w ∧ Before w v := by
  by_cases hnan : v = .nan
  · refine .inl ⟨hnan, hw.nan_iff.2 fun u hu => ?_⟩
    exact hv.nan_iff.1 hnan u ((hsame u).2 hu)
  · have hwNe : w ≠ .nan := by
      intro hwNan
      exact hnan (hw.nan_iff.1 hwNan v ((hsame v).1 hv.mem))
    exact .inr ⟨hv.before w ((hsame w).2 hw.mem) hwNe,
      hw.before v ((hsame v).1 hv.mem) hnan⟩

theorem IsLeastOf.alike (hv : IsLeastOf numbers v) (hw : IsLeastOf others w)
    (hsame : ∀ u, u ∈ numbers ↔ u ∈ others) : v.Alike w := by
  rcases hv.mutual hw hsame with hnan | ⟨hvw, hwv⟩
  · exact .inr hnan
  · exact .inl (numEq_of_numLe hvw hwv)

theorem IsGreatestOf.alike (hv : IsGreatestOf numbers v)
    (hw : IsGreatestOf others w)
    (hsame : ∀ u, u ∈ numbers ↔ u ∈ others) : v.Alike w := by
  rcases hv.mutual hw hsame with hnan | ⟨hwv, hvw⟩
  · exact .inr hnan
  · exact .inl (numEq_of_numLe hvw hwv)

end Same

end ItemSearch.Binary64
