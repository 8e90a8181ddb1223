import Mathlib
import ItemSearch.Query.Compile
import ItemSearch.Proofs.Outcome

/-!
# Filling a query in place

The compiler adds values to a query in place.  For what a filter comes to it is
enough to know the query that each step makes, so a step is looked at as a
function from queries to outcomes, which is what it is `onto` a query.

The steps leave a query half filled when they fail.  They work on a copy,
though, and the copy takes the place of the query at the end only;
`compileInto_of_error` and `compileInto_of_ok` are all that the rest of the
development knows of this.

## Main results

* `Condition.onto_fill`, `Condition.apply_equals`, `Condition.apply_oneOf`: the
  step for one condition.
* `compileInto_of_error`, `compileInto_of_ok`: what compiling does with the
  copy.
* `Query.after_of_error`, `Query.after_of_ok`: what it leaves of the query.
-/

namespace ItemSearch

/-! ## Edits that note nothing -/

namespace Edit

variable {ω ε σ α β : Type}

/-- The edit notes nothing, whether it succeeds or fails. -/
def Silent (x : Edit ω ε σ α) : Prop :=
  ∀ s, (x.run s).events = []

theorem Silent.bind {x : Edit ω ε σ α} {f : α → Edit ω ε σ β} (hx : Silent x)
    (hf : ∀ a, Silent (f a)) : Silent (x >>= f) := by
  intro s
  cases h : (x.run s).outcome with
  | ok a =>
      rw [bind_of_ok h]
      simp only [hx s, hf a _, List.append_nil]
  | error e =>
      rw [bind_of_error h]
      exact hx s

theorem silent_check (check : Except ε α) :
    Silent (liftM check : Edit ω ε σ α) :=
  fun _ => rfl

theorem silent_throw (e : ε) : Silent (throw e : Edit ω ε σ α) :=
  fun _ => rfl

theorem silent_get : Silent (get : Edit ω ε σ σ) :=
  fun _ => rfl

theorem silent_set (s : σ) : Silent (set s : Edit ω ε σ PUnit) :=
  fun _ => rfl

theorem silent_modify (f : σ → σ) : Silent (modify f : Edit ω ε σ PUnit) :=
  fun _ => rfl

theorem silent_forM {f : β → Edit ω ε σ PUnit} (hf : ∀ b, Silent (f b))
    (bs : List β) : Silent (forM bs f : Edit ω ε σ PUnit) := by
  induction bs with
  | nil => exact fun _ => rfl
  | cons b bs ih => exact (hf b).bind fun _ => ih

/-- Of an edit that notes nothing only its outcome is of interest. -/
theorem Silent.onto_eq {x : Edit ω ε σ α} (hx : Silent x) (s : σ) :
    x.onto s = Journaled.quiet (x.onto s).outcome := by
  simp only [onto, Journaled.quiet, hx s]

end Edit

/-! ## Conditions -/

namespace Condition

variable {limits : Limits}

/-- What adding a value list to a query comes to. -/
def pushAll (p : Property) (q : Query) (values : List Scalar) :
    Except FilterError Query :=
  ((p.fill values).onto q).outcome

/-- What adding a condition to a query comes to. -/
def apply (limits : Limits) (c : Condition) (q : Query) :
    Except FilterError Query :=
  ((c.fill limits).onto q).outcome

/-- The step for one value of a list. -/
private theorem outcome_onto_push (p : Property) (q : Query) (value : Scalar) :
    ((do
        let coerced ← p.coerce value
        modify (·.push p.field coerced) : QueryEdit Unit).onto q).outcome =
      (q.push p.field ·) <$> p.coerce value :=
  Edit.outcome_onto_check_bind _ _ _

theorem pushAll_eq_foldlM (p : Property) (q : Query) (values : List Scalar) :
    pushAll p q values =
      values.foldlM (fun q value => (q.push p.field ·) <$> p.coerce value)
        q := by
  rw [pushAll, Property.fill, Edit.onto_forM, Journaled.outcome_foldlM]
  simp only [outcome_onto_push]

theorem apply_equals (limits : Limits) (name : String) (value : Scalar)
    (q : Query) :
    (equals name value).apply limits q =
      Property.resolve name >>= fun p =>
        if p.kind = .orbitDirection then p.direction value >>= q.restrict
        else (q.push p.field ·) <$> p.coerce value := by
  rw [apply, fill, Edit.outcome_onto_check_bind]
  refine bind_congr fun p => ?_
  split
  · rw [Edit.outcome_onto_check_bind]
    refine bind_congr fun d => ?_
    rw [Edit.onto_get_bind, Edit.outcome_onto_check_bind]
    exact bind_pure _
  · exact outcome_onto_push p q value

theorem apply_oneOf (limits : Limits) (name : String) (values : List Scalar)
    (q : Query) :
    (oneOf name values).apply limits q =
      if values = [] then .error (.noValues name)
      else if limits.listLength < values.length then
        .error (.listTooLong values.length limits.listLength)
      else Property.resolve name >>= fun p =>
        if p.kind.takesList then
          pushAll p q values
        else
          .error (.takesNoList p) := by
  rw [apply, fill]
  split
  · rfl
  split
  · rfl
  rw [Edit.outcome_onto_check_bind]
  refine bind_congr fun p => ?_
  split <;> rfl

theorem silent_fill (c : Condition) : Edit.Silent (c.fill limits) := by
  have hpush : ∀ (p : Property) (value : Scalar), Edit.Silent (do
      let coerced ← p.coerce value
      modify (·.push p.field coerced) : QueryEdit Unit) := fun p value =>
    (Edit.silent_check _).bind fun _ => Edit.silent_modify _
  cases c with
  | equals name value =>
      refine (Edit.silent_check _).bind fun p => ?_
      split
      · refine (Edit.silent_check _).bind fun direction =>
          Edit.silent_get.bind fun q => ?_
        exact (Edit.silent_check _).bind fun _ => Edit.silent_set _
      · exact hpush p value
  | oneOf name values =>
      rw [fill]
      split
      · exact Edit.silent_throw _
      split
      · exact Edit.silent_throw _
      refine (Edit.silent_check _).bind fun p => ?_
      split
      · exact Edit.silent_forM (hpush p) values
      · exact Edit.silent_throw _

/-- A condition notes nothing, so that only its outcome matters. -/
theorem onto_fill (c : Condition) (q : Query) :
    (c.fill limits).onto q = Journaled.quiet (c.apply limits q) :=
  (silent_fill c).onto_eq q

end Condition

/-! ## The copy -/

namespace Filter

variable {limits : Limits} {f : Filter} {q r : Query} {e : FilterError}

/-- **A copy with a defect is thrown away.**  However far it has been filled,
the query itself is handed on. -/
theorem compileInto_of_error
    (h : ((fill limits limits.depth f).run q).outcome = .error e) :
    (compileInto limits f).run q =
      ⟨⟨.compiling f ::
        (((fill limits limits.depth f).run q).events ++ [.failed e]),
        .error e⟩, q⟩ := by
  rw [compileInto, Edit.run_note_bind, Edit.run_onCopy_bind, h]
  rfl

/-- **A copy that is complete takes the place of the query.** -/
theorem compileInto_of_ok
    (h : ((fill limits limits.depth f).run q).outcome = .ok ()) :
    (compileInto limits f).run q =
      let work := (fill limits limits.depth f).run q
      ⟨⟨.compiling f :: (work.events ++ [.compiled work.left]), .ok ()⟩,
       work.left⟩ := by
  rw [compileInto, Edit.run_note_bind, Edit.run_onCopy_bind, h]
  rfl

/-- Compiling is refused for what the work on the copy is refused for. -/
theorem compileInto_eq_error_iff :
    ((compileInto limits f).run q).outcome = .error e ↔
      ((fill limits limits.depth f).run q).outcome = .error e := by
  cases h : ((fill limits limits.depth f).run q).outcome with
  | ok _ => simp [compileInto_of_ok h]
  | error e' => simp [compileInto_of_error h]

theorem compile_of_error
    (h : ((fill limits limits.depth f).onto q).outcome = .error e) :
    compile limits f q =
      ⟨.compiling f ::
        (((fill limits limits.depth f).onto q).events ++ [.failed e]),
        .error e⟩ := by
  rw [Edit.outcome_onto_eq_error_iff] at h
  rw [compile, Edit.onto, compileInto_of_error h]
  rfl

theorem compile_of_ok
    (h : ((fill limits limits.depth f).onto q).outcome = .ok r) :
    compile limits f q =
      ⟨.compiling f ::
        (((fill limits limits.depth f).onto q).events ++ [.compiled r]),
        .ok r⟩ := by
  obtain ⟨⟨_, hok⟩, rfl⟩ := Edit.of_outcome_onto_eq_ok h
  rw [compile, Edit.onto, compileInto_of_ok hok]
  rfl

/-- A filter compiles into what filling the copy comes to. -/
theorem outcome_compile (limits : Limits) (f : Filter) (q : Query) :
    (compile limits f q).outcome =
      ((fill limits limits.depth f).onto q).outcome := by
  cases h : ((fill limits limits.depth f).onto q).outcome with
  | ok r => rw [compile_of_ok h]
  | error e => rw [compile_of_error h]

end Filter

namespace Query

variable {limits : Limits} {q r : Query} {f : Filter} {e : FilterError}

theorem after_of_ok (h : (f.compile limits q).outcome = .ok r) :
    q.after limits f = r :=
  (Edit.of_outcome_onto_eq_ok h).2

theorem after_of_error (h : (f.compile limits q).outcome = .error e) :
    q.after limits f = q := by
  have hfill : ((f.fill limits limits.depth).run q).outcome = .error e :=
    Filter.compileInto_eq_error_iff.1 (Edit.outcome_onto_eq_error_iff.1 h)
  rw [after, Filter.compileInto_of_error hfill]

end Query

end ItemSearch
