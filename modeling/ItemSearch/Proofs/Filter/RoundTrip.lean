import Mathlib
import ItemSearch.Proofs.Filter.Defect
import ItemSearch.Proofs.Filter.Nodes
import ItemSearch.Proofs.Json.Numeral

/-!
# Filters in JSON and back

A filter comes back from its JSON form as it was, if the reader's limits admit
it and its numbers are finite; a number that is not has only `null` for a JSON
form.  What is asked of a filter for this is asked of each of its nodes,
`ExpressibleAt`, and every node of a filter that was read has it: such a filter
can be written and read again, and stays the same.

The writer uses one name for each operator, so that a filter that does not come
back is refused as malformed and never for an operator.

## Main results

* `standsFor_toJson_iff`: the JSON form of a filter stands for this filter or
  for none.
* `expressibleAt_of_standsFor`: what is read can be written.
* `nodesFrom_toJson`: the nodes of the JSON form are the JSON forms of the
  nodes.
* `ofJson_toJson`: which filters come back.
-/

namespace ItemSearch

/-! ## Scalars -/

namespace Scalar

/-- The scalar is neither an infinity nor not-a-number. -/
def IsFinite (s : Scalar) : Prop :=
  ∀ v, s = .float v → v.isFinite = true

theorem isFinite_of_standsFor {v : Json} {s : Scalar} (h : StandsFor v s) :
    s.IsFinite := by
  rintro w rfl
  cases h with
  | float hother => exact Json.Number.isFinite_toBinary64 _

theorem ofJson?_toJson {s : Scalar} (h : s.IsFinite) :
    ofJson? s.toJson = some s := by
  cases s with
  | string text => rfl
  | bool b => rfl
  | integer n => rw [toJson, Json.ofInt64, ofJson?, int64?_toInt]
  | float v => rw [toJson, Json.ofBinary64, dif_pos (h v rfl), ofJson?]

/-- The JSON form of a scalar stands for this scalar, or for none if it is not
finite. -/
theorem standsFor_toJson_iff {s t : Scalar} :
    StandsFor s.toJson t ↔ t = s ∧ s.IsFinite := by
  rw [← ofJson?_eq_some_iff]
  constructor
  · intro h
    have hfinite : s.IsFinite := by
      rintro v rfl
      by_contra hnot
      rw [toJson, Json.ofBinary64, dif_neg hnot] at h
      cases h
    exact ⟨Option.some.inj (h.symm.trans (ofJson?_toJson hfinite)), hfinite⟩
  · rintro ⟨rfl, hfinite⟩
    exact ofJson?_toJson hfinite

end Scalar

/-- Where the form of each item stands for that item or for none, the forms of a
list stand for that list or for none. -/
theorem forall₂_map_left_iff_of_exact {α β : Type} {R : β → α → Prop}
    {form : α → β}
    {P : α → Prop} {xs ys : List α}
    (h : ∀ x ∈ xs, ∀ y, R (form x) y ↔ y = x ∧ P x) :
    List.Forall₂ R (xs.map form) ys ↔ ys = xs ∧ ∀ x ∈ xs, P x := by
  induction xs generalizing ys with
  | nil => simp
  | cons x xs ih =>
      rw [List.forall_mem_cons] at h
      obtain ⟨hx, hxs⟩ := h
      rw [List.map_cons, List.forall₂_cons_left_iff, List.forall_mem_cons]
      simp only [hx, ih hxs]
      constructor
      · rintro ⟨y, tail, ⟨rfl, hy⟩, ⟨rfl, htail⟩, rfl⟩
        exact ⟨rfl, hy, htail⟩
      · rintro ⟨rfl, hy, htail⟩
        exact ⟨x, xs, ⟨rfl, hy⟩, ⟨rfl, htail⟩, rfl⟩

/-! ## Names -/

namespace Operator

/-- The name that an operator is written with. -/
def word : Operator → String
  | .equals => "="
  | .oneOf => "in"
  | .junction connective => connective.word

theorem isNamedBy_word (operator : Operator) :
    operator.IsNamedBy operator.word := by
  refine ⟨operator.word, ?_, ?_⟩
  · cases operator <;> simp [names, word]
  · rcases operator with _ | _ | (_ | _) <;> rfl

end Operator

/-- What is asked of a condition for it to come back from its JSON form: its
numbers are finite, and a list in it is neither empty nor longer than the
limit. -/
def Condition.Expressible (limits : Limits) : Condition → Prop
  | .equals _ value => value.IsFinite
  | .oneOf _ values =>
      (1 ≤ values.length ∧ values.length ≤ limits.listLength) ∧
        ∀ value ∈ values, value.IsFinite

namespace Filter

open Outcome Json

variable {limits : Limits}

/-- What is asked of a node: it is not too deep, its condition comes back, and
it has operands if it is a junction. -/
def ExpressibleAt (limits : Limits) (node : Nat × Filter) : Prop :=
  node.1 ≤ limits.depth ∧
    match node.2 with
    | .condition c => c.Expressible limits
    | .junction _ operands => operands ≠ []

/-- What a filter has to be like to come back from its JSON form. -/
def Expressible (limits : Limits) (f : Filter) : Prop :=
  ∀ node ∈ f.nodes, ExpressibleAt limits node

theorem expressibleAt_nodesFrom_junction {depth : Nat} {connective : Connective}
    {operands : List Filter} :
    (∀ node ∈ nodesFrom depth (.junction connective operands),
      ExpressibleAt limits node) ↔
      (depth ≤ limits.depth ∧ operands ≠ []) ∧
        ∀ f ∈ operands, ∀ node ∈ f.nodesFrom (depth + 1),
          ExpressibleAt limits node := by
  rw [nodesFrom_junction, List.forall_mem_cons, List.forall_mem_flatMap]
  rfl

/-! ## What is written -/

/-- The operator of the outermost node. -/
def operator : Filter → Operator
  | .condition (.equals _ _) => .equals
  | .condition (.oneOf _ _) => .oneOf
  | .junction connective _ => .junction connective

/-- The arguments of the outermost node, as they are written. -/
def arguments : Filter → List Json
  | .condition (.equals property value) =>
      [propertyReference property, value.toJson]
  | .condition (.oneOf property values) =>
      [propertyReference property, .array (values.map Scalar.toJson)]
  | .junction _ operands => operands.map toJson

theorem hasParts_toJson (f : Filter) :
    f.toJson.HasParts f.operator.word f.arguments := by
  have hnode : f.toJson = node f.operator.word f.arguments := by
    match f with
    | .condition (.equals _ _) => exact toJson_condition _
    | .condition (.oneOf _ _) => exact toJson_condition _
    | .junction connective operands => exact toJson_junction connective operands
  rw [hnode]
  exact ⟨rfl, rfl⟩

theorem content_toJson (f : Filter) :
    content limits f.toJson =
      argumentContent limits f.operator.word f.arguments f.operator :=
  content_of_hasParts f.hasParts_toJson f.operator.isNamedBy_word

/-- A written condition has the content that was written, or none. -/
theorem hasContent_condition_toJson_iff {c : Condition} {written : Content} :
    HasContent limits (condition c).toJson written ↔
      written = .condition c ∧ c.Expressible limits := by
  rw [← content_eq_ok_iff, content_toJson]
  cases c with
  | equals property value =>
      show (fun value => Content.condition (.equals property value)) <$>
        readScalar "=" value.toJson = .ok written ↔ _
      rw [map_eq_ok_iff]
      simp only [readScalar_eq_ok_iff, Scalar.standsFor_toJson_iff,
        Condition.Expressible]
      constructor
      · rintro ⟨_, ⟨rfl, hfinite⟩, rfl⟩
        exact ⟨rfl, hfinite⟩
      · rintro ⟨rfl, hfinite⟩
        exact ⟨value, ⟨rfl, hfinite⟩, rfl⟩
  | oneOf property values =>
      have hlist :
          ∀ values',
            readList limits (.array (values.map Scalar.toJson)) = .ok values' ↔
          values' = values ∧
            (Condition.oneOf property values).Expressible limits := by
        intro values'
        have hvalues :
            List.Forall₂ Scalar.StandsFor (values.map Scalar.toJson) values' ↔
            values' = values ∧ ∀ value ∈ values, value.IsFinite :=
          forall₂_map_left_iff_of_exact fun _ _ _ => Scalar.standsFor_toJson_iff
        rw [readList_eq_ok_iff]
        simp only [array.injEq, exists_eq_left', List.length_map, hvalues,
          Condition.Expressible]
        exact and_left_comm
      show (fun values => Content.condition (.oneOf property values)) <$>
        readList limits (.array (values.map Scalar.toJson)) = .ok written ↔ _
      rw [map_eq_ok_iff]
      simp only [hlist]
      constructor
      · rintro ⟨_, ⟨rfl, hexpressible⟩, rfl⟩
        exact ⟨rfl, hexpressible⟩
      · rintro ⟨rfl, hexpressible⟩
        exact ⟨values, ⟨rfl, hexpressible⟩, rfl⟩

theorem hasContent_junction_toJson_iff {connective : Connective}
    {operands : List Filter}
    {written : Content} :
    HasContent limits (junction connective operands).toJson written ↔
      written = .junction connective (operands.map toJson) ∧ operands ≠ [] := by
  have hcontent : content limits (junction connective operands).toJson =
      if operands.map toJson = [] then .error (.noOperands connective.word)
      else .ok (.junction connective (operands.map toJson)) := content_toJson _
  rw [← content_eq_ok_iff, hcontent]
  by_cases hnil : operands = []
  · simp [hnil]
  · simp [hnil, eq_comm]

/-! ## What is read -/

/-- **The JSON form of a filter stands for this filter or for none**, and for
this one when each of its nodes is expressible. -/
theorem standsFor_toJson_iff {depth : Nat} {f g : Filter} :
    StandsFor limits depth f.toJson g ↔
      g = f ∧ ∀ node ∈ f.nodesFrom depth, ExpressibleAt limits node := by
  induction f using induction generalizing depth g with
  | condition c =>
      have hnode :
          (∀ node ∈ nodesFrom depth (.condition c), ExpressibleAt limits node) ↔
          depth ≤ limits.depth ∧ c.Expressible limits := by
        simp [ExpressibleAt]
      rw [hnode]
      constructor
      · intro h
        cases h with
        | condition hdepth hcontent =>
            obtain ⟨heq, hc⟩ := hasContent_condition_toJson_iff.1 hcontent
            obtain rfl := Content.condition.inj heq
            exact ⟨rfl, hdepth, hc⟩
        | junction _ hcontent _ _ =>
            obtain ⟨heq, -⟩ := hasContent_condition_toJson_iff.1 hcontent
            cases heq
      · rintro ⟨rfl, hdepth, hc⟩
        exact .condition hdepth (hasContent_condition_toJson_iff.2 ⟨rfl, hc⟩)
  | junction connective operands ih =>
      have hoperands : ∀ gs, List.Forall₂ (StandsFor limits (depth + 1))
          (operands.map toJson) gs ↔
          gs = operands ∧
            ∀ f ∈ operands, ∀ node ∈ f.nodesFrom (depth + 1),
              ExpressibleAt limits node :=
        fun gs => forall₂_map_left_iff_of_exact fun f hf g => ih f hf
      rw [expressibleAt_nodesFrom_junction]
      constructor
      · intro h
        cases h with
        | condition _ hcontent =>
            obtain ⟨heq, -⟩ := hasContent_junction_toJson_iff.1 hcontent
            cases heq
        | junction hdepth hcontent hlength hstands =>
            obtain ⟨heq, hne⟩ := hasContent_junction_toJson_iff.1 hcontent
            obtain ⟨rfl, rfl⟩ := Content.junction.inj heq
            have hall :=
              List.forall₂_iff_zip.2 ⟨hlength, fun hmem => hstands _ _ hmem⟩
            obtain ⟨rfl, hbelow⟩ := (hoperands _).1 hall
            exact ⟨rfl, ⟨hdepth, hne⟩, hbelow⟩
      · rintro ⟨rfl, ⟨hdepth, hne⟩, hbelow⟩
        have hall :=
          List.forall₂_iff_zip.1 ((hoperands operands).2 ⟨rfl, hbelow⟩)
        exact .junction hdepth
          (hasContent_junction_toJson_iff.2 ⟨rfl, hne⟩) hall.1
          fun arg f hmem => hall.2 hmem

theorem expressible_of_hasContent {v : Json} {c : Condition}
    (h : HasContent limits v (.condition c)) : c.Expressible limits := by
  cases h with
  | equals _ _ _ hvalue => exact Scalar.isFinite_of_standsFor hvalue
  | oneOf _ _ _ hlength hvalues =>
      rw [hvalues.length_eq] at hlength
      refine ⟨hlength, fun value hvalue => ?_⟩
      obtain ⟨item, hitem⟩ :=
        exists_forall₂_iff.1 ⟨_, hvalues.flip⟩ value hvalue
      exact Scalar.isFinite_of_standsFor hitem

/-- **What is read can be written**: the nodes of a filter that some value
stands for are expressible. -/
theorem expressibleAt_of_standsFor {depth : Nat} {v : Json} {f : Filter}
    (h : StandsFor limits depth v f) :
    ∀ node ∈ f.nodesFrom depth, ExpressibleAt limits node := by
  induction h with
  | condition hdepth hcontent =>
      simpa [ExpressibleAt] using ⟨hdepth, expressible_of_hasContent hcontent⟩
  | @junction depth v connective args operands hdepth hcontent hlength _ ih =>
      have hpaired :
          operands.Forall₂ (fun f arg => (arg, f) ∈ args.zip operands) args :=
        (List.forall₂_iff_zip.2 ⟨hlength, id⟩).flip
      have hne : operands ≠ [] := by
        rw [← List.length_pos_iff, ← hlength, List.length_pos_iff]
        cases hcontent with
        | junction _ _ hargs => exact hargs
      rw [expressibleAt_nodesFrom_junction]
      refine ⟨⟨hdepth, hne⟩, fun f hf => ?_⟩
      obtain ⟨arg, hmem⟩ := exists_forall₂_iff.1 ⟨args, hpaired⟩ f hf
      exact ih arg f hmem

/-! ## What is refused -/

theorem operands_toJson_condition (c : Condition) :
    (condition c).toJson.operands = [] := by
  rw [operands_of_hasParts (hasParts_toJson _) (Operator.isNamedBy_word _)]
  cases c <;> rfl

theorem operands_toJson_junction (connective : Connective)
    (operands : List Filter) :
    (junction connective operands).toJson.operands = operands.map toJson :=
  operands_of_hasParts (hasParts_toJson (junction connective operands))
    (Operator.isNamedBy_word _)

/-- The nodes of the JSON form of a filter are the JSON forms of its nodes. -/
theorem nodesFrom_toJson (depth : Nat) (f : Filter) :
    f.toJson.nodesFrom depth =
      (f.nodesFrom depth).map fun node => (node.1, node.2.toJson) := by
  induction f using induction generalizing depth with
  | condition c =>
      rw [Json.nodesFrom_eq, operands_toJson_condition, nodesFrom_condition]
      rfl
  | junction connective operands ih =>
      rw [Json.nodesFrom_eq, operands_toJson_junction, nodesFrom_junction,
        List.map_cons, List.map_flatMap, List.flatMap_map]
      exact congrArg _ (List.flatMap_congr fun f hf => ih f hf (depth + 1))

/-- A filter has a known operator at every node, so that no node of its JSON
form is refused for one. -/
theorem kind_of_nodeDefect_toJson {depth : Nat} {f : Filter}
    {kind : FailureKind}
    {e : FilterError} (h : NodeDefect limits (depth, f.toJson) kind e) :
    kind = .malformedFilter := by
  cases h with
  | tooDeep _ => rfl
  | parts _ _ => rfl
  | @unknownOperator _ _ name args _ hparts hnone =>
      have hop : some (Json.string name) = some (.string f.operator.word) :=
        hparts.1.symm.trans f.hasParts_toJson.1
      obtain rfl := Json.string.inj (Option.some.inj hop)
      exact absurd f.operator.isNamedBy_word (hnone f.operator)
  | arguments _ _ _ _ => rfl

theorem kind_of_ofJson_toJson {f : Filter} {e : FilterError}
    (h : ofJson limits f.toJson = .error e) : e.kind = .malformedFilter := by
  obtain ⟨_, place, hplace, hdefect⟩ := (ofJson_eq_error_iff.1 h).exists_mem
  rw [Json.nodes, nodesFrom_toJson, List.mem_map] at hplace
  obtain ⟨node, -, rfl⟩ := hplace
  exact kind_of_nodeDefect_toJson hdefect

/-! ## Whole filters -/

theorem ofJson_toJson_eq_ok_iff {f g : Filter} :
    ofJson limits f.toJson = .ok g ↔ g = f ∧ Expressible limits f := by
  rw [ofJson_eq_ok_iff, standsFor_toJson_iff]
  rfl

theorem expressible_of_ofJson {v : Json} {f : Filter}
    (h : ofJson limits v = .ok f) :
    Expressible limits f :=
  expressibleAt_of_standsFor (ofJson_eq_ok_iff.1 h)

/-- **Writing and reading back**: an expressible filter comes back as it was,
any other one is refused as malformed, and every filter that is read is
expressible. -/
theorem ofJson_toJson (limits : Limits) (f : Filter) :
    (ofJson limits f.toJson = .ok f ↔ Expressible limits f) ∧
    ((∃ e, ofJson limits f.toJson = .error e ∧ e.kind = .malformedFilter) ↔
      ¬ Expressible limits f) ∧
    (∀ v, ofJson limits v = .ok f →
      Expressible limits f ∧ ofJson limits f.toJson = .ok f) := by
  have hback : Expressible limits f → ofJson limits f.toJson = .ok f :=
    fun hexpressible => ofJson_toJson_eq_ok_iff.2 ⟨rfl, hexpressible⟩
  refine ⟨⟨expressible_of_ofJson, hback⟩, ?_, fun v hread => ?_⟩
  · constructor
    · rintro ⟨e, hfails, -⟩ hexpressible
      rw [hback hexpressible] at hfails
      cases hfails
    · intro hnot
      cases hread : ofJson limits f.toJson with
      | ok g => exact absurd (ofJson_toJson_eq_ok_iff.1 hread).2 hnot
      | error e => exact ⟨e, rfl, kind_of_ofJson_toJson hread⟩
  · exact ⟨expressible_of_ofJson hread, hback (expressible_of_ofJson hread)⟩

/-- A negative zero stays one, and an integer stays apart from it. -/
example :
    let f :=
      condition (.oneOf "sat:relative_orbit" [.float (.zero true), .integer 0])
    ofJson default f.toJson = .ok f := rfl

end Filter

end ItemSearch
