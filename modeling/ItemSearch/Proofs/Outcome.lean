import Mathlib

/-!
# Outcomes

How a computation that may fail comes to its outcome: a sequence succeeds when
each of its steps does, and it fails with the error of its first failing step.

## Main results

* `bind_eq_ok_iff`, `map_eq_ok_iff`: success of two steps.
* `mapM_eq_ok_iff`, `exists_mapM_eq_ok_iff`: success on every item of a list.
* `mapM_eq_error_iff`: an error on a list is the error of its first item with
  one.
* `erase_mapM_eq_foldlM`: a check of every item as one pass over all their
  parts.
* `FailsOnly.bind`, `FailsOnly.mapM`: what all errors of the steps have in
  common, all errors of the whole have in common.
-/

namespace ItemSearch.Outcome

variable {ε α β : Type}

@[simp] theorem pure_eq_ok_iff {a b : α} :
    (pure a : Except ε α) = .ok b ↔ a = b := by
  simp [pure, Except.pure]

theorem bind_eq_ok_iff {x : Except ε α} {f : α → Except ε β} {b : β} :
    x >>= f = .ok b ↔ ∃ a, x = .ok a ∧ f a = .ok b := by
  cases x with
  | error e => simp [bind, Except.bind]
  | ok a => simp [bind, Except.bind]

theorem map_eq_ok_iff {x : Except ε α} {f : α → β} {b : β} :
    f <$> x = .ok b ↔ ∃ a, x = .ok a ∧ f a = b := by
  cases x with
  | error e => simp [Functor.map, Except.map]
  | ok a => simp [Functor.map, Except.map]

theorem bind_eq_error_iff {x : Except ε α} {f : α → Except ε β} {e : ε} :
    x >>= f = .error e ↔ x = .error e ∨ ∃ a, x = .ok a ∧ f a = .error e := by
  cases x with
  | error e => simp [bind, Except.bind]
  | ok a => simp [bind, Except.bind]

theorem map_eq_error_iff {x : Except ε α} {f : α → β} {e : ε} :
    f <$> x = .error e ↔ x = .error e := by
  cases x with
  | error e => simp [Functor.map, Except.map]
  | ok a => simp [Functor.map, Except.map]

theorem mapM_eq_ok_iff {f : α → Except ε β} {xs : List α} {ys : List β} :
    xs.mapM f = .ok ys ↔ List.Forall₂ (fun x y => f x = .ok y) xs ys := by
  induction xs generalizing ys with
  | nil =>
      rw [List.mapM_nil, List.forall₂_nil_left_iff]
      constructor
      · intro h
        exact (Except.ok.inj h).symm
      · intro heq
        subst heq
        rfl
  | cons x xs ih =>
      rw [List.mapM_cons, bind_eq_ok_iff]
      constructor
      · intro h
        rcases h with ⟨y, hy, htail⟩
        rcases bind_eq_ok_iff.1 htail with ⟨tail, hrest, hcons⟩
        obtain rfl := Except.ok.inj hcons
        exact .cons hy (ih.1 hrest)
      · intro h
        rcases List.forall₂_cons_left_iff.1 h with ⟨y, tail, hy, hrest, rfl⟩
        exact ⟨y, hy, bind_eq_ok_iff.2 ⟨tail, ih.2 hrest, rfl⟩⟩

/-- A list succeeds when each of its items does. -/
theorem exists_mapM_eq_ok_iff {f : α → Except ε β} {xs : List α} :
    (∃ ys, xs.mapM f = .ok ys) ↔ ∀ x ∈ xs, ∃ y, f x = .ok y := by
  simp only [mapM_eq_ok_iff]
  induction xs with
  | nil => simp
  | cons x xs ih =>
      rw [List.forall_mem_cons, ← ih]
      constructor
      · intro h
        rcases h with ⟨ys, h⟩
        rcases List.forall₂_cons_left_iff.1 h with ⟨y, tail, hy, hrest, -⟩
        exact ⟨⟨y, hy⟩, tail, hrest⟩
      · intro h
        rcases h with ⟨⟨y, hy⟩, tail, hrest⟩
        exact ⟨y :: tail, .cons hy hrest⟩

/-- What all results of the items have in common, all results on a list have in
common. -/
theorem forall_mem_of_mapM_eq_ok {f : α → Except ε β} {P : β → Prop}
    (hf : ∀ x y, f x = .ok y → P y) {xs : List α} {ys : List β}
    (h : xs.mapM f = .ok ys) :
    ∀ y ∈ ys, P y := by
  have hforall := mapM_eq_ok_iff.1 h
  clear h
  induction hforall with
  | nil => simp
  | cons hfirst _ ih => exact List.forall_mem_cons.2 ⟨hf _ _ hfirst, ih⟩

/-- An error on a list is the error of the first item that has one. -/
theorem mapM_eq_error_iff {f : α → Except ε β} {xs : List α} {e : ε} :
    xs.mapM f = .error e ↔
      ∃ before x after, xs = before ++ x :: after ∧
        (∀ y ∈ before, ∃ b, f y = .ok b) ∧
        f x = .error e := by
  induction xs with
  | nil =>
      constructor
      · intro h
        cases h
      · rintro ⟨before, x, after, hsplit, -⟩
        simp at hsplit
  | cons x xs ih =>
      rw [List.mapM_cons, bind_eq_error_iff]
      constructor
      · rintro (hx | ⟨y, hy, htail⟩)
        · exact ⟨[], x, xs, rfl, by simp, hx⟩
        · rcases bind_eq_error_iff.1 htail with hrest | ⟨ys, -, hpure⟩
          · obtain ⟨before, x', after, rfl, hbefore, hx'⟩ := ih.1 hrest
            exact ⟨x :: before, x', after, rfl,
              List.forall_mem_cons.2 ⟨⟨y, hy⟩, hbefore⟩, hx'⟩
          · cases hpure
      · rintro ⟨before, x', after, hsplit, hbefore, hx'⟩
        cases before with
        | nil =>
            obtain ⟨rfl, rfl⟩ := List.cons.inj hsplit
            exact .inl hx'
        | cons first before =>
            obtain ⟨rfl, rfl⟩ := List.cons.inj hsplit
            rcases List.forall_mem_cons.1 hbefore with ⟨⟨y, hy⟩, hbefore⟩
            exact .inr ⟨y, hy,
              bind_eq_error_iff.2 (.inl
                (ih.2 ⟨before, x', after, rfl, hbefore, hx'⟩))⟩

theorem exists_of_mapM_eq_error {f : α → Except ε β} {xs : List α} {e : ε}
    (h : xs.mapM f = .error e) : ∃ x ∈ xs, f x = .error e := by
  obtain ⟨before, x, after, rfl, -, hx⟩ := mapM_eq_error_iff.1 h
  exact ⟨x, by simp, hx⟩

/-- Where each item is checked by a pass over its parts, a list is checked by a
pass over the parts of its items, one item after the other. -/
theorem erase_mapM_eq_foldlM {γ : Type} {f : α → Except ε β}
    {parts : α → List γ}
    {check : Unit → γ → Except ε Unit}
    (h : ∀ x, (fun _ => ()) <$> f x = (parts x).foldlM check ()) (xs : List α) :
    (fun _ => ()) <$> xs.mapM f = (xs.flatMap parts).foldlM check () := by
  induction xs with
  | nil => rfl
  | cons x xs ih =>
      rw [List.mapM_cons, List.flatMap_cons, List.foldlM_append, ← h]
      cases f x with
      | error e => rfl
      | ok y =>
          show (fun _ => ()) <$> (xs.mapM f >>= fun ys => pure (y :: ys)) =
            (xs.flatMap parts).foldlM check ()
          rw [← ih]
          cases xs.mapM f <;> rfl

/-! ## What all errors have in common -/

/-- Whatever error a computation comes to has the property. -/
def FailsOnly (P : ε → Prop) (x : Except ε α) : Prop :=
  ∀ e, x = .error e → P e

variable {P : ε → Prop}

theorem failsOnly_ok (a : α) : FailsOnly P (.ok a) := by
  intro e h
  cases h

theorem failsOnly_error {e : ε} (he : P e) :
    FailsOnly P (.error e : Except ε α) := by
  intro e' h
  cases h
  exact he

theorem FailsOnly.bind {x : Except ε α} {f : α → Except ε β}
    (hx : FailsOnly P x)
    (hf : ∀ a, FailsOnly P (f a)) : FailsOnly P (x >>= f) := by
  intro e h
  rcases bind_eq_error_iff.1 h with hfail | ⟨a, -, hfail⟩
  · exact hx e hfail
  · exact hf a e hfail

theorem FailsOnly.map {x : Except ε α} (hx : FailsOnly P x) (f : α → β) :
    FailsOnly P (f <$> x) := by
  intro e h
  exact hx e (map_eq_error_iff.1 h)

theorem FailsOnly.mapM {f : α → Except ε β} (hf : ∀ a, FailsOnly P (f a))
    (xs : List α) : FailsOnly P (xs.mapM f) := by
  intro e h
  obtain ⟨x, -, hx⟩ := exists_of_mapM_eq_error h
  exact hf x e hx

end ItemSearch.Outcome
