import Mathlib
import ItemSearch.Proofs.Query.Defect
import ItemSearch.Proofs.Query.Reordering

/-!
# Queries as histories

A query can also be filled by hand, with values for any fields and with
directions in any order.  Whatever was done to it, it is what `Query.extend`
makes of the values and the directions that came up: a direction that is refused
leaves everything as it is, as does one that comes up again.  So all that can be
observed of a query can be read off its history.

The order of calls shows in the order of fields and in the order of the values
of each field, and the first of these makes no difference to equality.  Two
queries are equal when their histories are, seen from each field alone.

## Main results

* `leave_eq_extend`, `run_eq_extend`: one call, and any number of them.
* `lists_eq_map`: the lists of a query by its other observations.
* `same_iff`: equality by the values of each field.
* `ofCalls_recorded`: what is observed after a history, what is refused on the
  way, and which histories come to equal queries.
-/

namespace ItemSearch.Query

open ValueLists

variable {q r : Query}

/-! ## What is observed -/

theorem values?_eq_none_iff {field : String} :
    q.values? field = none ↔ field ∉ q.fieldNames := by
  constructor
  · intro hnone hmem
    obtain ⟨⟨field', values⟩, hentry, rfl⟩ := List.mem_map.1 hmem
    rw [values?_eq_some_iff.2 hentry] at hnone
    cases hnone
  · exact lookup_eq_none_of_not_mem

/-- The lists of a query are its fields, each with its values. -/
theorem lists_eq_map (q : Query) :
    q.lists = q.fieldNames.map fun field =>
      (field, (q.values? field).getD []) := by
  rw [fieldNames, List.map_map]
  refine (List.map_id q.lists).symm.trans
    (List.map_congr_left fun entry hentry => ?_)
  simp [values?_eq_some_iff.2 (show (entry.1, entry.2) ∈ q.lists from hentry)]

/-- **Equal queries have the same values for each field and the same
direction**, and the order of fields is not asked for. -/
theorem same_iff :
    q.same r = true ↔
      (∀ field, q.values? field = r.values? field) ∧
      q.direction = r.direction := by
  constructor
  · intro h
    simp only [same, Bool.and_eq_true, beq_iff_eq, List.all_eq_true] at h
    obtain ⟨⟨hdirection, hlength⟩, hlists⟩ := h
    refine ⟨fun field => ?_, hdirection⟩
    have hsub : q.fieldNames ⊆ r.fieldNames := by
      intro name hname
      obtain ⟨entry, hentry, rfl⟩ := List.mem_map.1 hname
      exact List.mem_map_of_mem (values?_eq_some_iff.1 (hlists entry hentry))
    -- as many fields on both sides, so that no field is on the other side alone
    have hcount : r.fieldNames.length ≤ q.fieldNames.length := by
      simp [fieldNames, hlength]
    have hperm := (List.subperm_of_subset q.nodup hsub).perm_of_length_le hcount
    by_cases hmem : field ∈ q.fieldNames
    · obtain ⟨entry, hentry, rfl⟩ := List.mem_map.1 hmem
      rw [hlists entry hentry, values?_eq_some_iff.2 hentry]
    · rw [values?_eq_none_iff.2 hmem,
        values?_eq_none_iff.2 (mt hperm.mem_iff.2 hmem)]
  · rintro ⟨hvalues, hdirection⟩
    have hmem : ∀ field, field ∈ q.fieldNames ↔ field ∈ r.fieldNames := by
      intro field
      rw [← not_iff_not, ← values?_eq_none_iff, ← values?_eq_none_iff, hvalues]
    have hperm := (List.perm_ext_iff_of_nodup q.nodup r.nodup).2 hmem
    exact same_of_observations hperm hvalues hdirection

/-! ## Calls -/

/-- What can be done to a query by hand. -/
inductive Call where
  /-- One more value for a field. -/
  | push (field : String) (value : FieldValue)
  /-- A direction is asked for. -/
  | setDirection (direction : OrbitDirection)

namespace Call

/-- What a call comes to. -/
def outcome (q : Query) : Call → Except FilterError Query
  | .push field value => .ok (q.push field value)
  | .setDirection direction => q.restrict direction

/-- The query that a call leaves: the one that it comes to, or the old one if it
is refused. -/
def leave (q : Query) (call : Call) : Query :=
  match call.outcome q with
  | .ok r => r
  | .error _ => q

theorem leave_of_ok {call : Call} (h : call.outcome q = .ok r) :
    call.leave q = r := by
  rw [leave, h]

theorem leave_of_error {call : Call} {e : FilterError}
    (h : call.outcome q = .error e) :
    call.leave q = q := by
  rw [leave, h]

/-- The value that a call adds, with its field. -/
def entry? : Call → Option (String × FieldValue)
  | .push field value => some (field, value)
  | .setDirection _ => none

/-- The direction that a call asks for. -/
def direction? : Call → Option OrbitDirection
  | .push _ _ => none
  | .setDirection direction => some direction

end Call

/-- The query that calls leave, one after the other. -/
def run (q : Query) (calls : List Call) : Query :=
  calls.foldl Call.leave q

/-- The query that calls on the empty query leave. -/
def ofCalls (calls : List Call) : Query :=
  empty.run calls

/-- The values that calls add, each with its field, in the order of the
calls. -/
def pushes (calls : List Call) : List (String × FieldValue) :=
  calls.filterMap Call.entry?

/-- The directions that calls ask for, in the order of the calls. -/
def directionsAsked (calls : List Call) : List OrbitDirection :=
  calls.filterMap Call.direction?

/-- **What one call does**: a value is put behind the others, and a direction
counts if it is the first one, whether or not it is refused. -/
theorem leave_eq_extend (q : Query) (call : Call) :
    call.leave q = q.extend call.entry?.toList call.direction?.toList := by
  cases call with
  | push field value => exact extend_push q field value
  | setDirection d =>
      cases h : (Call.setDirection d).outcome q with
      | ok r =>
          rw [Call.leave_of_ok h]
          exact (restrict_eq_ok_iff.1 h).2.symm
      | error e =>
          obtain ⟨existing, hexisting, -⟩ := restrict_eq_error_iff.1 h
          rw [Call.leave_of_error h]
          exact eq_of_parts rfl (by simp [extend, Call.direction?, hexisting])

/-- **What any number of calls do** is what they add and ask for, taken
together. -/
theorem run_eq_extend (q : Query) (calls : List Call) :
    q.run calls = q.extend (pushes calls) (directionsAsked calls) := by
  induction calls generalizing q with
  | nil => exact (extend_nil q).symm
  | cons call calls ih =>
      have hstep : q.run (call :: calls) = (call.leave q).run calls := rfl
      have hpushes :
          call.entry?.toList ++ pushes calls = pushes (call :: calls) := by
        cases call <;> rfl
      have hdirections : call.direction?.toList ++ directionsAsked calls =
          directionsAsked (call :: calls) := by
        cases call <;> rfl
      rw [hstep, ih, leave_eq_extend, extend_extend, hpushes, hdirections]

/-! ## What a history comes to -/

theorem values?_ofCalls (calls : List Call) (field : String) :
    (ofCalls calls).values? field =
      if field ∈ (pushes calls).map Prod.fst then
        some (valuesFor field (pushes calls))
      else none := by
  rw [ofCalls, run_eq_extend, values?_extend]
  rfl

theorem fieldNames_ofCalls (calls : List Call) :
    (ofCalls calls).fieldNames = ((pushes calls).map Prod.fst).eraseDups := by
  rw [ofCalls, run_eq_extend, fieldNames_extend]
  rfl

theorem direction_ofCalls (calls : List Call) :
    (ofCalls calls).direction = (directionsAsked calls).head? := by
  rw [ofCalls, run_eq_extend, direction_extend]
  rfl

theorem valuesFor_eq_nil_iff {field : String}
    {entries : List (String × FieldValue)} :
    valuesFor field entries = [] ↔ field ∉ entries.map Prod.fst := by
  rw [List.eq_nil_iff_forall_not_mem]
  simp only [mem_valuesFor_iff, List.mem_map, not_exists, not_and, Prod.forall]
  constructor
  · rintro h name value hentry rfl
    exact h value hentry
  · intro h value hentry
    exact h field value hentry rfl

/-- What is observed of a query that has been filled by the given calls. -/
structure Records (calls : List Call) (q : Query) : Prop where
  /-- A field has no values exactly if there was no call with one for it. -/
  untouched :
    ∀ field, q.values? field = none ↔ ∀ value, Call.push field value ∉ calls
  /-- These are all values that there was a call with, in the order of the
  calls. -/
  values : ∀ field value, Call.push field value ∈ calls →
    q.values? field = some (valuesFor field (pushes calls))
  /-- The fields stand in the order of the first calls for them. -/
  lists : q.lists = ((pushes calls).map Prod.fst).eraseDups.map fun field =>
    (field, valuesFor field (pushes calls))
  /-- The first direction counts. -/
  direction : q.direction = (directionsAsked calls).head?
  /-- Each field counts once, and so does the direction. -/
  size : q.size = ((pushes calls).map Prod.fst).toFinset.card +
    if directionsAsked calls = [] then 0 else 1
  /-- The service is told the values of the fields, and the direction behind
  them. -/
  pairs : q.pairs =
    q.lists.map (fun entry => (entry.1, entry.2.map FieldValue.text)) ++
    (directionsAsked calls).head?.toList.map fun direction =>
      ("flightDirection", [direction.text])

theorem push_mem_iff {calls : List Call} {field : String} {value : FieldValue} :
    Call.push field value ∈ calls ↔ (field, value) ∈ pushes calls := by
  rw [pushes, List.mem_filterMap]
  constructor
  · exact fun h => ⟨_, h, rfl⟩
  · rintro ⟨call, hcall, hentry⟩
    cases call with
    | push field' value' =>
        obtain ⟨rfl, rfl⟩ := Prod.mk.inj (Option.some.inj hentry)
        exact hcall
    | setDirection d => cases hentry

theorem records_ofCalls (calls : List Call) :
    Records calls (ofCalls calls) := by
  have hlists : (ofCalls calls).lists =
      ((pushes calls).map Prod.fst).eraseDups.map fun field =>
        (field, valuesFor field (pushes calls)) := by
    rw [lists_eq_map, fieldNames_ofCalls]
    refine List.map_congr_left fun field hfield => ?_
    rw [values?_ofCalls, if_pos (List.mem_eraseDups.1 hfield), Option.getD_some]
  have htouched : ∀ field, field ∈ (pushes calls).map Prod.fst ↔
      ∃ value, Call.push field value ∈ calls := by
    simp [push_mem_iff]
  refine ⟨fun field => ?_, fun field value hcall => ?_, hlists,
    direction_ofCalls calls, ?_, ?_⟩
  · rw [values?_eq_none_iff, fieldNames_ofCalls, List.mem_eraseDups, htouched,
      not_exists]
  · rw [values?_ofCalls, if_pos ((htouched field).2 ⟨value, hcall⟩)]
  · have hfields : ((pushes calls).map Prod.fst).eraseDups.length =
        ((pushes calls).map Prod.fst).toFinset.card := by
      have hnodup : ((pushes calls).map Prod.fst).eraseDups.Nodup := by
        rw [← fieldNames_ofCalls]
        exact (ofCalls calls).nodup
      rw [← List.toFinset_card_of_nodup hnodup]
      exact congrArg Finset.card (Finset.ext fun field => by simp)
    rw [size, hlists, List.length_map, hfields, direction_ofCalls]
    cases directionsAsked calls <;> simp
  · rw [pairs, direction_ofCalls]
    rfl

/-- Whether values have been added to a field, and which, is settled by the
values that there were calls with. -/
theorem values?_ofCalls_eq_iff {calls calls' : List Call} {field : String} :
    (ofCalls calls).values? field = (ofCalls calls').values? field ↔
      valuesFor field (pushes calls) = valuesFor field (pushes calls') := by
  have hnil : ∀ calls, valuesFor field (pushes calls) = [] ↔
      field ∉ (pushes calls).map Prod.fst := fun _ => valuesFor_eq_nil_iff
  rw [values?_ofCalls, values?_ofCalls]
  by_cases hmem : field ∈ (pushes calls).map Prod.fst
  · by_cases hmem' : field ∈ (pushes calls').map Prod.fst
    · rw [if_pos hmem, if_pos hmem', Option.some.injEq]
    · have hne : valuesFor field (pushes calls) ≠ [] :=
        mt (hnil calls).1 (not_not.2 hmem)
      simp [hmem, hmem', (hnil calls').2 hmem', hne]
  · by_cases hmem' : field ∈ (pushes calls').map Prod.fst
    · have hne : valuesFor field (pushes calls') ≠ [] :=
        mt (hnil calls').1 (not_not.2 hmem')
      simp [hmem, hmem', (hnil calls).2 hmem, hne.symm]
    · rw [if_neg hmem, if_neg hmem', (hnil calls).2 hmem, (hnil calls').2 hmem',
        eq_self, eq_self]

/-! ## What is refused on the way -/

/-- What a direction comes to that is asked for after other calls. -/
inductive Answer (calls : List Call) (d : OrbitDirection) :
    Except FilterError Query → Prop where
  /-- The first direction is taken. -/
  | first (hnone : directionsAsked calls = []) :
      Answer calls d (.ok (ofCalls (calls ++ [.setDirection d])))
  /-- The same direction once more makes no difference. -/
  | again (hfirst : (directionsAsked calls).head? = some d) :
      Answer calls d (.ok (ofCalls calls))
  /-- Another direction is refused. -/
  | refused {first : OrbitDirection}
      (hfirst : (directionsAsked calls).head? = some first)
      (hne : first ≠ d) : Answer calls d (.error (.directionConflict first d))

theorem run_concat (q : Query) (calls : List Call) (call : Call) :
    q.run (calls ++ [call]) = call.leave (q.run calls) := by
  rw [run, List.foldl_concat]
  rfl

theorem answer_setDirection (calls : List Call) (d : OrbitDirection) :
    Answer calls d ((Call.setDirection d).outcome (ofCalls calls)) := by
  have hdirection := direction_ofCalls calls
  cases h : (Call.setDirection d).outcome (ofCalls calls) with
  | ok r =>
      obtain ⟨hagree, hr⟩ := restrict_eq_ok_iff.1 h
      cases hasked : (directionsAsked calls).head? with
      | none =>
          have hleft : r = ofCalls (calls ++ [.setDirection d]) := by
            rw [ofCalls, run_concat]
            exact (Call.leave_of_ok h).symm
          rw [hleft]
          exact .first (List.head?_eq_none_iff.1 hasked)
      | some first =>
          rw [hdirection, hasked] at hagree
          obtain rfl : first = d := hagree first (by simp) d (by simp)
          have hsame : r = ofCalls calls := by
            rw [← hr]
            exact eq_of_parts rfl (by simp [extend, hdirection, hasked])
          rw [hsame]
          exact .again hasked
  | error e =>
      obtain ⟨first, hfirst, hne, rfl⟩ := restrict_eq_error_iff.1 h
      exact .refused (hdirection.symm.trans hfirst) hne

/-- **What a history comes to**: all observations of the query are read off the
calls; a direction other than the first one is refused as a conflict and leaves
everything as it is; and two histories come to equal queries if each field has
been given the same values in the same order and the directions are the same,
where a text is no integer. -/
theorem ofCalls_recorded :
    (∀ calls, Records calls (ofCalls calls)) ∧
    (∀ calls d, Answer calls d ((Call.setDirection d).outcome (ofCalls calls)) ∧
      ∀ e, (Call.setDirection d).outcome (ofCalls calls) = .error e →
        e.kind = .conflictingConstraint ∧
          ofCalls (calls ++ [.setDirection d]) = ofCalls calls) ∧
    (∀ calls calls', (ofCalls calls).same (ofCalls calls') = true ↔
      (∀ field,
        valuesFor field (pushes calls) = valuesFor field (pushes calls')) ∧
        (ofCalls calls).direction = (ofCalls calls').direction) ∧
    ∀ text n, FieldValue.string text ≠ .integer n := by
  refine ⟨records_ofCalls,
    fun calls d => ⟨answer_setDirection calls d, fun e h => ⟨?_, ?_⟩⟩,
    fun calls calls' => ?_, ?_⟩
  · obtain ⟨first, -, -, rfl⟩ := restrict_eq_error_iff.1 h
    rfl
  · rw [ofCalls, run_concat]
    exact Call.leave_of_error h
  · rw [same_iff]
    exact and_congr_left fun _ => forall_congr' fun field =>
      values?_ofCalls_eq_iff
  · intro text n h
    cases h

/-- Fields stand in the order of the first calls for them, and the calls for
other fields in between make no difference to equality. -/
example :
    let calls : List Call := [.push "b" (.string "x"), .push "a" (.integer 1),
      .setDirection .descending, .push "b" (.string "x"),
      .setDirection .ascending]
    let calls' : List Call := [.setDirection .descending,
      .push "a" (.integer 1), .push "b" (.string "x"), .push "b" (.string "x")]
    (ofCalls calls).pairs =
        [("b", ["x", "x"]), ("a", ["1"]), ("flightDirection", ["DESCENDING"])] ∧
      (ofCalls calls).same (ofCalls calls') = true := by
  decide

end ItemSearch.Query
