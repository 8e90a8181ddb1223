import Mathlib
import ItemSearch.Proofs.Query.Defect

/-!
# What a failure leaves behind

A filter is compiled by adding to a query in place.  Where the work stops at a
defect, the values of all conditions before it have been added by then, and so
have those values of a list that stand before the first one that does not fit:
`left_fill_of_error` says what is left.  It is a copy that is filled like this,
and it is thrown away with the defect, so that nothing of it shows in the query.

## Main results

* `Edit.Atomic.onCopy_bind`: what is done to a copy does not count for the
  state.
* `Condition.left_fill_of_error`: what is left by a condition that is refused.
* `left_fillNode_of_error`, `left_fill_of_error`: what is left by a node, and by
  a pass over the nodes.
* `compile_refuses`: what a filter is refused for, and what is left of the
  query.
-/

namespace ItemSearch

/-! ## Edits that are made as a whole or not at all -/

namespace Edit

variable {ω ε σ α β : Type}

/-- Where the edit fails, it leaves the state as it was. -/
def Atomic (x : Edit ω ε σ α) : Prop :=
  ∀ s e, (x.run s).outcome = .error e → (x.run s).left = s

theorem atomic_throw (e : ε) : Atomic (throw e : Edit ω ε σ α) :=
  fun _ _ _ => rfl

theorem atomic_set (s : σ) : Atomic (set s : Edit ω ε σ PUnit) := by
  intro _ _ h
  cases h

theorem atomic_modify (f : σ → σ) : Atomic (modify f : Edit ω ε σ PUnit) := by
  intro _ _ h
  cases h

theorem Atomic.get_bind {f : σ → Edit ω ε σ β} (hf : ∀ s, Atomic (f s)) :
    Atomic (get >>= f) :=
  fun s e h => hf s s e h

theorem Atomic.note_bind (event : ω) {f : Unit → Edit ω ε σ β}
    (hf : Atomic (f ())) : Atomic (note event >>= f) :=
  fun s e h => hf s e h

theorem Atomic.check_bind (check : Except ε α) {f : α → Edit ω ε σ β}
    (hf : ∀ a, Atomic (f a)) : Atomic ((liftM check : Edit ω ε σ α) >>= f) := by
  intro s e h
  cases check with
  | ok a => exact hf a s e h
  | error e' => rfl

/-- **What is done to a copy does not count for the state**: if nothing that
comes behind can fail halfway, then neither can the whole. -/
theorem Atomic.onCopy_bind (x : Edit ω ε σ α)
    {f : Except ε α × σ → Edit ω ε σ β} (hf : ∀ r, Atomic (f r)) :
    Atomic (x.onCopy >>= f) := by
  intro s e h
  rw [run_onCopy_bind] at h ⊢
  exact hf _ s e h

end Edit

variable {limits : Limits} {q : Query} {e : FilterError}

/-- Where nothing is left of some entries, the query is as it was. -/
theorem Query.exists_prefix_of_eq {r : Query}
    (entries : List (String × FieldValue)) (h : r = q) :
    ∃ leading, leading <+: entries ∧ r = q.extend leading [] :=
  ⟨[], List.nil_prefix, by rw [h, extend_nil]⟩

/-! ## Conditions -/

/-- What stands in a list before the first value that does not fit has been
added. -/
theorem Property.left_fill_of_error {p : Property} {values : List Scalar}
    (h : ((p.fill values).run q).outcome = .error e) :
    ∃ before value after, values = before ++ value :: after ∧
      p.kind.coerce? value = none ∧
      ((p.fill values).run q).left =
        q.extend (before.filterMap fun s => (p.kind.coerce? s).map (p.field, ·))
          [] := by
  obtain ⟨before, value, after, r, hsplit, hbefore, hvalue, hleft⟩ :=
    Edit.left_forM_of_error h
  have hpushed : Condition.pushAll p q before = .ok r := by
    rw [Condition.pushAll, fill, Edit.onto_forM, Journaled.outcome_foldlM]
    exact hbefore
  refine ⟨before, value, after, hsplit, ?_⟩
  cases hcoerce : p.kind.coerce? value with
  | some coerced =>
      have hok : p.coerce value = .ok coerced := by rw [coerce, hcoerce]
      rw [Edit.run_check_bind_of_ok hok] at hvalue
      cases hvalue
  | none =>
      have hrefused : p.coerce value = .error (.wrongType value p) := by
        rw [coerce, hcoerce]
      refine ⟨rfl, ?_⟩
      rw [fill, hleft, Edit.run_check_bind_of_error hrefused]
      exact (Condition.pushAll_eq_ok_iff.1 hpushed).2.symm

namespace Condition

/-- An equality adds its value at the end, so that nothing is left of it when it
is refused. -/
theorem atomic_fill_equals (name : String) (value : Scalar) :
    Edit.Atomic ((equals name value).fill limits) := by
  refine Edit.Atomic.check_bind _ fun p => ?_
  split
  · refine .check_bind _ fun direction => .get_bind fun q => ?_
    exact .check_bind _ fun restricted => Edit.atomic_set restricted
  · exact .check_bind _ fun coerced => Edit.atomic_modify _

/-- **A condition that is refused** leaves the first of its values. -/
theorem left_fill_of_error {c : Condition}
    (h : ((c.fill limits).run q).outcome = .error e) :
    ∃ leading, leading <+: c.entries ∧
      ((c.fill limits).run q).left = q.extend leading [] := by
  have hnothing : ((c.fill limits).run q).left = q →
      ∃ leading, leading <+: c.entries ∧
        ((c.fill limits).run q).left = q.extend leading [] :=
    Query.exists_prefix_of_eq c.entries
  cases c with
  | equals name value => exact hnothing (atomic_fill_equals name value q e h)
  | oneOf name values =>
      by_cases hnil : values = []
      · exact hnothing (by rw [fill, if_pos hnil]; rfl)
      by_cases hlong : limits.listLength < values.length
      · exact hnothing (by rw [fill, if_neg hnil, if_pos hlong]; rfl)
      cases hp : Property.resolve name with
      | error _ =>
          refine hnothing ?_
          rw [fill, if_neg hnil, if_neg hlong, Edit.run_check_bind_of_error hp]
      | ok p =>
          have hfound : Property.find? name = some p :=
            Property.find?_eq_some_iff.2 (Property.resolve_eq_ok_iff.1 hp)
          have hrun : ((oneOf name values).fill limits).run q =
              (if p.kind.takesList then p.fill values
                else throw (.takesNoList p)).run q := by
            rw [fill, if_neg hnil, if_neg hlong, Edit.run_check_bind_of_ok hp]
          by_cases htakes : p.kind.takesList = true
          · rw [if_pos htakes] at hrun
            rw [hrun] at h ⊢
            obtain ⟨before, value, after, rfl, -, hleft⟩ :=
              p.left_fill_of_error h
            refine ⟨_, ?_, hleft⟩
            rw [entries_of_find? (c := oneOf name _) hfound, scalars,
              List.filterMap_append]
            exact List.prefix_append _ _
          · rw [if_neg htakes] at hrun
            exact hnothing (by rw [hrun]; rfl)

end Condition

/-! ## Filters -/

namespace Filter

/-- The values that the conditions at some nodes stand for. -/
def entriesAt (nodes : List (Nat × Filter)) : List (String × FieldValue) :=
  (nodes.filterMap fun node => node.2.leaf?).flatMap Condition.entries

/-- The directions that the conditions at some nodes name. -/
def directionsAt (nodes : List (Nat × Filter)) : List OrbitDirection :=
  (nodes.filterMap fun node => node.2.leaf?).flatMap Condition.directions

/-- A node that is refused leaves the first values of its condition, if it is
one. -/
theorem left_fillNode_of_error {node : Nat × Filter}
    (h : ((fillNode limits node).run q).outcome = .error e) :
    ∃ leading, leading <+: entriesAt [node] ∧
      ((fillNode limits node).run q).left = q.extend leading [] := by
  have hnothing : ((fillNode limits node).run q).left = q →
      ∃ leading, leading <+: entriesAt [node] ∧
        ((fillNode limits node).run q).left = q.extend leading [] :=
    Query.exists_prefix_of_eq (entriesAt [node])
  by_cases hdeep : limits.depth < node.1
  · exact hnothing (by rw [fillNode, if_pos hdeep]; rfl)
  obtain ⟨depth, f⟩ := node
  cases f with
  | condition c =>
      rw [fillNode, if_neg hdeep, Edit.run_note_bind] at h ⊢
      have hentries : entriesAt [(depth, condition c)] = c.entries := by
        simp [entriesAt, leaf?]
      rw [hentries]
      exact Condition.left_fill_of_error h
  | junction connective operands =>
      refine hnothing ?_
      rw [fillNode, if_neg hdeep, Edit.run_note_bind]
      by_cases hnil : operands = []
      · simp only [hnil, if_true]
        rfl
      · simp only [hnil, if_false]
        rfl

/-- **A pass that stops at a defect** leaves what the conditions before it have
added, and with it the first values of the condition that has the defect. -/
theorem left_fill_of_error {f : Filter}
    (h : ((fill limits limits.depth f).run q).outcome = .error e) :
    ∃ before node after leading, f.nodes = before ++ node :: after ∧
      DefectAt limits (namedBefore q before) node e.kind e ∧
      leading <+: entriesAt [node] ∧
      ((fill limits limits.depth f).run q).left =
        q.extend (entriesAt before ++ leading) (directionsAt before) := by
  have hpass : fill limits limits.depth f = forM f.nodes (fillNode limits) :=
    fill_eq_forM (Nat.add_comm _ _) f
  rw [hpass] at h ⊢
  obtain ⟨before, node, after, r, hsplit, hbefore, hnode, hleft⟩ :=
    Edit.left_forM_of_error h
  have hdefect := (refuses_visit limits q before r hbefore node e).1
    (Edit.outcome_onto_eq_error_iff.2 hnode)
  obtain ⟨leading, hleading, hrest⟩ := left_fillNode_of_error hnode
  have hr := (foldlM_visit_eq_ok_iff.1 hbefore).2
  obtain ⟨-, -, rfl⟩ := Condition.foldlM_apply_eq_ok_iff.1 hr
  refine ⟨before, node, after, leading, hsplit, hdefect, hleading, ?_⟩
  rw [hleft, hrest, Query.extend_extend, List.append_nil]
  rfl

theorem atomic_compileInto (limits : Limits) (f : Filter) :
    Edit.Atomic (compileInto limits f) := by
  refine .note_bind _ <| .onCopy_bind _ ?_
  rintro ⟨outcome | _, scratch⟩
  · exact .note_bind _ (Edit.atomic_throw _)
  · intro s e h
    cases h

/-- **A filter is refused for the first of its nodes that has a defect**, and
then the query that was to be added to keeps its fields in their order, their
values and its direction, however much of the filter has got as far as the
copy. -/
theorem compile_refuses (limits : Limits) (f : Filter) (q : Query) :
    (∀ e, ((compileInto limits f).run q).outcome = .error e ↔
      FirstDefect (fun before node e =>
        DefectAt limits (namedBefore q before) node e.kind e) f.nodes e) ∧
    (∀ e, ((compileInto limits f).run q).outcome = .error e →
      ((compileInto limits f).run q).left.fieldNames = q.fieldNames ∧
        (∀ field,
          ((compileInto limits f).run q).left.values? field = q.values? field) ∧
        ((compileInto limits f).run q).left.direction = q.direction) := by
  refine ⟨fun e => ?_, fun e h => ?_⟩
  · rw [← Edit.outcome_onto_eq_error_iff]
    exact compile_eq_error_iff
  · rw [atomic_compileInto limits f q e h]
    exact ⟨rfl, fun _ => rfl, rfl⟩

/-- The second direction is the defect.  The copy has a second platform and the
first direction by then, and the query has nothing of them. -/
theorem compile_refuses_conflict :
    let f := junction .all
      [.condition (.equals "platform" (.string "SA")),
       .condition (.equals "sat:orbit_state" (.string "ascending")),
       .condition (.equals "sat:orbit_state" (.string "Descending"))]
    let q := Query.empty.push "platform" (.string "SB")
    let scratch := ((fill default 32 f).run q).left
    let left := ((compileInto default f).run q).left
    ((compileInto default f).run q).outcome =
        .error (.directionConflict .ascending .descending) ∧
      scratch.values? "platform" = some [.string "SB", .string "SA"] ∧
      scratch.direction = some .ascending ∧
      left.values? "platform" = some [.string "SB"] ∧ left.direction = none := by
  intro f q scratch left
  have refused : ((compileInto default f).run q).outcome =
      .error (.directionConflict .ascending .descending) := rfl
  obtain ⟨-, values, direction⟩ := (compile_refuses default f q).2 _ refused
  exact ⟨refused, rfl, rfl, values "platform", direction⟩

end Filter

end ItemSearch
