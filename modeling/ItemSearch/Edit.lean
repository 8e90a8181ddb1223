import ItemSearch.Journal

/-!
# Edits

Work that changes a state in place.  It keeps a journal, and it may fail on the
way; then whatever it has changed by that time stays changed.  Whoever needs the
state as it was works on a copy and takes the copy over at the end.

## Main definitions

* `Edited`: what an edit noted, what came of it, and the state that it left;
* `Edit`: an edit, as what it does with each state;
* `Edit.onCopy`: an edit of a copy of the state;
* `Edit.onto`: the state that an edit makes of another one, unless it fails.
-/

namespace ItemSearch

/-- What an edit noted, what came of it, and what it made of the state. -/
structure Edited (ω ε σ α : Type) extends Journaled ω ε α where
  /-- The state that is left, also where the edit has failed. -/
  left : σ

/-- Work on a state in place. -/
@[ext] structure Edit (ω ε σ α : Type) where
  /-- What the work does with a state. -/
  run : σ → Edited ω ε σ α

namespace Edit

variable {ω ε σ α β : Type}

-- An edit that fails hands on the state that it has reached, not the first one.
instance : Monad (Edit ω ε σ) where
  pure a := ⟨fun s => ⟨pure a, s⟩⟩
  bind x f := ⟨fun s =>
    let first := x.run s
    match first.outcome with
    | .ok a =>
        let rest := (f a).run first.left
        ⟨⟨first.events ++ rest.events, rest.outcome⟩, rest.left⟩
    | .error e => ⟨⟨first.events, .error e⟩, first.left⟩⟩

instance : MonadStateOf σ (Edit ω ε σ) where
  get := ⟨fun s => ⟨pure s, s⟩⟩
  set s := ⟨fun _ => ⟨pure (), s⟩⟩
  modifyGet f := ⟨fun s => ⟨pure (f s).1, (f s).2⟩⟩

instance : MonadExceptOf ε (Edit ω ε σ) where
  throw e := ⟨fun s => ⟨throw e, s⟩⟩
  tryCatch x handle := ⟨fun s =>
    let first := x.run s
    match first.outcome with
    | .ok _ => first
    | .error e =>
        let rest := (handle e).run first.left
        ⟨⟨first.events ++ rest.events, rest.outcome⟩, rest.left⟩⟩

/-- Work that leaves the state alone. -/
instance : MonadLift (Journaled ω ε) (Edit ω ε σ) where
  monadLift work := ⟨fun s => ⟨work, s⟩⟩

/-- Notes one event. -/
def note (event : ω) : Edit ω ε σ Unit :=
  ⟨fun s => ⟨Journaled.note event, s⟩⟩

/-- An edit of a copy of the state.  Its journal is kept; what came of it and
the copy are handed over, and the state itself is left alone. -/
def onCopy (x : Edit ω ε σ α) : Edit ω ε σ (Except ε α × σ) :=
  ⟨fun s =>
    let tried := x.run s
    ⟨⟨tried.events, .ok (tried.outcome, tried.left)⟩, s⟩⟩

/-- The state that an edit makes of another one, unless it fails. -/
def onto (x : Edit ω ε σ α) (s : σ) : Journaled ω ε σ :=
  let edited := x.run s
  ⟨edited.events, (fun _ => edited.left) <$> edited.outcome⟩

/-! ## One step after the other -/

theorem bind_of_ok {x : Edit ω ε σ α} {s : σ} {a : α}
    (ok : (x.run s).outcome = .ok a) (f : α → Edit ω ε σ β) :
    (x >>= f).run s =
      let rest := (f a).run (x.run s).left
      ⟨⟨(x.run s).events ++ rest.events, rest.outcome⟩, rest.left⟩ := by
  simp only [bind, ok]

theorem bind_of_error {x : Edit ω ε σ α} {s : σ} {e : ε}
    (failed : (x.run s).outcome = .error e) (f : α → Edit ω ε σ β) :
    (x >>= f).run s = ⟨⟨(x.run s).events, .error e⟩, (x.run s).left⟩ := by
  simp only [bind, failed]

theorem run_note_bind (event : ω) (f : Unit → Edit ω ε σ β) (s : σ) :
    (note event >>= f).run s =
      ⟨⟨event :: ((f ()).run s).events, ((f ()).run s).outcome⟩,
        ((f ()).run s).left⟩ := rfl

/-- What comes behind an edit of a copy goes on with the state as it was. -/
theorem run_onCopy_bind (x : Edit ω ε σ α) (f : Except ε α × σ → Edit ω ε σ β)
    (s : σ) :
    (x.onCopy >>= f).run s =
      let rest := (f ((x.run s).outcome, (x.run s).left)).run s
      ⟨⟨(x.run s).events ++ rest.events, rest.outcome⟩, rest.left⟩ := rfl

/-- A check that fails ends the work where it stands. -/
theorem run_check_bind_of_error {check : Except ε α} {e : ε}
    (failed : check = .error e) (f : α → Edit ω ε σ β) (s : σ) :
    ((liftM check : Edit ω ε σ α) >>= f).run s = ⟨⟨[], .error e⟩, s⟩ := by
  subst failed
  rfl

theorem run_check_bind_of_ok {check : Except ε α} {a : α} (ok : check = .ok a)
    (f : α → Edit ω ε σ β) (s : σ) :
    ((liftM check : Edit ω ε σ α) >>= f).run s = (f a).run s := by
  subst ok
  rfl

instance : LawfulMonad (Edit ω ε σ) :=
  LawfulMonad.mk' _
    (by
      intro α x
      ext s : 2
      show (x >>= pure).run s = x.run s
      cases came : (x.run s).outcome with
      | ok a =>
          rw [bind_of_ok came]
          show (⟨⟨(x.run s).events ++ [], .ok a⟩, (x.run s).left⟩ :
            Edited ω ε σ α) = x.run s
          rw [List.append_nil, ← came]
      | error e => rw [bind_of_error came, ← came])
    (by
      intro α β a f
      ext s : 2
      simp [bind, pure])
    (by
      intro α β γ x f g
      ext s : 2
      cases first : (x.run s).outcome with
      | error e => simp only [bind, first]
      | ok a =>
          cases second : ((f a).run (x.run s).left).outcome <;>
            simp [bind, first, second])

/-! ## What an edit makes of a state -/

theorem onto_note_bind (event : ω) (f : Unit → Edit ω ε σ β) (s : σ) :
    (note event >>= f).onto s =
      ⟨event :: ((f ()).onto s).events, ((f ()).onto s).outcome⟩ := rfl

theorem onto_get_bind (f : σ → Edit ω ε σ β) (s : σ) :
    (get >>= f).onto s = (f s).onto s := rfl

/-- The second step goes on with the state that the first one makes. -/
theorem onto_bind (x : Edit ω ε σ Unit) (f : Unit → Edit ω ε σ β) (s : σ) :
    (x >>= f).onto s = x.onto s >>= (f ()).onto := by
  cases came : (x.run s).outcome with
  | ok a =>
      have made : (x.onto s).outcome = .ok (x.run s).left := by
        simp only [onto, came]
        rfl
      rw [Journaled.bind_of_ok made, onto, bind_of_ok came]
      rfl
  | error e =>
      have made : (x.onto s).outcome = .error e := by
        simp only [onto, came]
        rfl
      rw [Journaled.bind_of_error made, onto, bind_of_error came]
      rfl

theorem onto_lift_of_ok {work : Journaled ω ε α} {a : α}
    (ok : work.outcome = .ok a) (s : σ) :
    (liftM work : Edit ω ε σ α).onto s = ⟨work.events, .ok s⟩ := by
  have kept : (fun _ => s) <$> work.outcome = .ok s := by rw [ok]; rfl
  exact congrArg (Journaled.mk work.events) kept

/-- A check leaves the state alone, and it notes nothing. -/
theorem outcome_onto_check_bind (check : Except ε α)
    (f : α → Edit ω ε σ β) (s : σ) :
    (((liftM check : Edit ω ε σ α) >>= f).onto s).outcome =
      check >>= fun a => ((f a).onto s).outcome := by
  cases check <;> rfl

theorem onto_forM (f : β → Edit ω ε σ PUnit) (bs : List β) (s : σ) :
    (forM bs f).onto s = bs.foldlM (fun s b => (f b).onto s) s := by
  induction bs generalizing s with
  | nil => rfl
  | cons b bs ih =>
      rw [List.forM_cons, onto_bind, List.foldlM_cons]
      exact congrArg _ (funext ih)

theorem outcome_onto_of_ok {x : Edit ω ε σ α} {s : σ} {a : α}
    (ok : (x.run s).outcome = .ok a) :
    (x.onto s).outcome = .ok (x.run s).left := by
  simp only [onto, ok]
  rfl

theorem outcome_onto_of_error {x : Edit ω ε σ α} {s : σ} {e : ε}
    (failed : (x.run s).outcome = .error e) :
    (x.onto s).outcome = .error e := by
  simp only [onto, failed]
  rfl

/-- What an edit makes of a state is what it leaves if it succeeds. -/
theorem of_outcome_onto_eq_ok {x : Edit ω ε σ α} {s s' : σ}
    (made : (x.onto s).outcome = .ok s') :
    (∃ a, (x.run s).outcome = .ok a) ∧ (x.run s).left = s' := by
  cases came : (x.run s).outcome with
  | ok a =>
      rw [outcome_onto_of_ok came] at made
      exact ⟨⟨a, rfl⟩, Except.ok.inj made⟩
  | error e =>
      rw [outcome_onto_of_error came] at made
      cases made

/-- What an edit is refused for does not depend on whether it is of interest
what it makes of the state. -/
theorem outcome_onto_eq_error_iff {x : Edit ω ε σ α} {s : σ} {e : ε} :
    (x.onto s).outcome = .error e ↔ (x.run s).outcome = .error e := by
  cases came : (x.run s).outcome with
  | ok a => simp [outcome_onto_of_ok came]
  | error e' => simp [outcome_onto_of_error came]

/-- **What a pass that fails leaves** is what the step that fails leaves of the
state that the steps before it have made. -/
theorem left_forM_of_error {f : β → Edit ω ε σ PUnit} {bs : List β}
    {s : σ} {e : ε} (failed : ((forM bs f).run s).outcome = .error e) :
    ∃ before b after s', bs = before ++ b :: after ∧
      before.foldlM (fun s b => ((f b).onto s).outcome) s = .ok s' ∧
      ((f b).run s').outcome = .error e ∧
      ((forM bs f).run s).left = ((f b).run s').left := by
  induction bs generalizing s with
  | nil => cases failed
  | cons b bs ih =>
      rw [List.forM_cons] at failed ⊢
      cases came : ((f b).run s).outcome with
      | error e' =>
          rw [bind_of_error came] at failed ⊢
          obtain rfl := Except.error.inj failed
          exact ⟨[], b, bs, s, rfl, rfl, came, rfl⟩
      | ok a =>
          rw [bind_of_ok came] at failed ⊢
          obtain ⟨before, b', after, s', rfl, passed, refused, left⟩ :=
            ih failed
          refine ⟨b :: before, b', after, s', rfl, ?_, refused, left⟩
          rw [List.foldlM_cons, outcome_onto_of_ok came]
          exact passed

end Edit

end ItemSearch
