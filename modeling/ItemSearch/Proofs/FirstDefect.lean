import Mathlib
import ItemSearch.Proofs.Outcome

/-!
# The first defect on a way

A computation that goes through a list, place by place, and stops at the first
place where something is wrong comes to the error of that place.  Whether
something is wrong at a place may depend on the places before it, so a defect is
a relation between the places that were passed, the place itself and an error.
What a single step of the computation refuses then settles what the whole
computation refuses, and with what.

## Main results

* `Outcome.foldlM_eq_error_iff`: a fold fails where a step fails after steps
  that succeed.
* `foldlM_eq_error_iff_firstDefect`: a fold whose steps refuse exactly the
  defects fails with the first one.
* `flawless_of_foldlM_eq_ok`, `exists_ok_of_flawless`: it succeeds where there
  is none.
-/

namespace ItemSearch

variable {σ α ε : Type}

/-- A fold fails with the error of the first step that fails. -/
theorem Outcome.foldlM_eq_error_iff {step : σ → α → Except ε σ}
    {places : List α} {s : σ}
    {e : ε} :
    places.foldlM step s = .error e ↔
      ∃ before place after s', places = before ++ place :: after ∧
        before.foldlM step s = .ok s' ∧ step s' place = .error e := by
  induction places generalizing s with
  | nil =>
      constructor
      · intro h
        cases h
      · rintro ⟨before, place, after, s', hsplit, -⟩
        simp at hsplit
  | cons head rest ih =>
      rw [List.foldlM_cons, Outcome.bind_eq_error_iff]
      constructor
      · rintro (hhead | ⟨s₁, hhead, hrest⟩)
        · exact ⟨[], head, rest, s, rfl, rfl, hhead⟩
        · obtain ⟨before, place, after, s', rfl, hbefore, hplace⟩ := ih.1 hrest
          refine ⟨head :: before, place, after, s', rfl, ?_, hplace⟩
          rw [List.foldlM_cons]
          exact Outcome.bind_eq_ok_iff.2 ⟨s₁, hhead, hbefore⟩
      · rintro ⟨before, place, after, s', hsplit, hbefore, hplace⟩
        cases before with
        | nil =>
            obtain ⟨rfl, rfl⟩ := List.cons.inj hsplit
            obtain rfl := Except.ok.inj hbefore
            exact .inl hplace
        | cons first before =>
            obtain ⟨rfl, rfl⟩ := List.cons.inj hsplit
            rw [List.foldlM_cons] at hbefore
            obtain ⟨s₁, hhead, hbefore⟩ := Outcome.bind_eq_ok_iff.1 hbefore
            exact .inr ⟨s₁, hhead,
              ih.2 ⟨before, place, after, s', rfl, hbefore, hplace⟩⟩

/-! ## Defects -/

section Defect

variable (Defect : List α → α → ε → Prop)

/-- At no place of the list is anything wrong. -/
def Flawless (places : List α) : Prop :=
  ∀ before place after, places = before ++ place :: after →
    ∀ e, ¬ Defect before place e

/-- The error is a defect of a place with none before it. -/
def FirstDefect (places : List α) (e : ε) : Prop :=
  ∃ before place after, places = before ++ place :: after ∧
    Flawless Defect before ∧ Defect before place e

theorem FirstDefect.exists_mem {Defect : List α → α → ε → Prop}
    {places : List α} {e : ε}
    (h : FirstDefect Defect places e) :
    ∃ before, ∃ place ∈ places, Defect before place e := by
  obtain ⟨before, place, after, rfl, -, hdefect⟩ := h
  exact ⟨before, place, by simp, hdefect⟩

end Defect

section Pass

variable {Defect : List α → α → ε → Prop} {step : σ → α → Except ε σ} {s : σ}

/-- What a step refuses after the steps before it is exactly what is wrong
there. -/
def Refuses (step : σ → α → Except ε σ) (s : σ)
    (Defect : List α → α → ε → Prop) : Prop :=
  ∀ before s', before.foldlM step s = .ok s' →
    ∀ place e, step s' place = .error e ↔ Defect before place e

theorem flawless_of_foldlM_eq_ok (hstep : Refuses step s Defect)
    {places : List α} {s' : σ}
    (h : places.foldlM step s = .ok s') : Flawless Defect places := by
  rintro before place after rfl e hdefect
  rw [List.foldlM_append] at h
  obtain ⟨s₁, hbefore, hrest⟩ := Outcome.bind_eq_ok_iff.1 h
  rw [List.foldlM_cons] at hrest
  obtain ⟨s₂, hplace, -⟩ := Outcome.bind_eq_ok_iff.1 hrest
  have hrefused := (hstep before s₁ hbefore place e).2 hdefect
  rw [hplace] at hrefused
  cases hrefused

theorem exists_ok_of_flawless (hstep : Refuses step s Defect) {places : List α}
    (h : Flawless Defect places) : ∃ s', places.foldlM step s = .ok s' := by
  cases hpass : places.foldlM step s with
  | ok s' => exact ⟨s', rfl⟩
  | error e =>
      obtain ⟨before, place, after, s', rfl, hbefore, hplace⟩ :=
        Outcome.foldlM_eq_error_iff.1 hpass
      exact absurd ((hstep before s' hbefore place e).1 hplace)
        (h before place after rfl e)

/-- **A pass fails with the first defect on its way.** -/
theorem foldlM_eq_error_iff_firstDefect (hstep : Refuses step s Defect)
    {places : List α}
    {e : ε} :
    places.foldlM step s = .error e ↔ FirstDefect Defect places e := by
  rw [Outcome.foldlM_eq_error_iff]
  constructor
  · rintro ⟨before, place, after, s', hsplit, hbefore, hplace⟩
    exact ⟨before, place, after, hsplit, flawless_of_foldlM_eq_ok hstep hbefore,
      (hstep before s' hbefore place e).1 hplace⟩
  · rintro ⟨before, place, after, hsplit, hflawless, hdefect⟩
    obtain ⟨s', hbefore⟩ := exists_ok_of_flawless hstep hflawless
    exact ⟨before, place, after, s', hsplit, hbefore,
      (hstep before s' hbefore place e).2 hdefect⟩

end Pass

end ItemSearch
