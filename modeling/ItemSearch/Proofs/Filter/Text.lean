import Mathlib
import ItemSearch.Proofs.Filter.RoundTrip
import ItemSearch.Proofs.Json.Reading

/-!
# Filters in JSON text and back

Two limits meet here.  The reader of filters counts the levels of the filter,
and the reader of JSON text counts the arrays and objects that are open.  A
condition takes three of these, its node, the list of its arguments and the
property or the list of values in it, and each junction around it takes two
more.  The default depth of filters therefore stays far below what the text may
nest, and the limit of the text refuses no filter that the limit of the filters
would let pass.  Where the text is refused nonetheless, the filter is too deep
by its own limit and is refused as malformed either way.

## Main results

* `hasDistinctKeys_toJson`: the JSON form of a filter reads back as JSON.
* `nesting_toJson_le`: how deep the JSON form of a filter nests.
* `ofText_text_eq_ok_iff`: which filters come back from their text, for any
  limits.
* `ofText_default_text`: the same for the default limits, with all refusals.
-/

namespace ItemSearch

/-! ## Scalars in text -/

namespace Scalar

theorem hasDistinctKeys_toJson (s : Scalar) : s.toJson.HasDistinctKeys := by
  cases s with
  | string value => exact .string value
  | integer value => exact .number _
  | float value =>
      rw [toJson, Json.ofBinary64]
      split
      · exact .number _
      · exact .null
  | bool value => exact .bool value

@[simp] theorem nesting_toJson (s : Scalar) : s.toJson.nesting = 0 := by
  cases s with
  | string value => simp [toJson, Json.nesting]
  | integer value => simp [toJson, Json.ofInt64, Json.nesting]
  | float value =>
      rw [toJson, Json.ofBinary64]
      split <;> simp [Json.nesting]
  | bool value => simp [toJson, Json.nesting]

/-- A scalar comes back from its text with its type. -/
theorem ofJson?_ofText?_text {s : Scalar} (hs : s.IsFinite) (limit : Nat) :
    (Json.ofText? limit s.toJson.text).bind ofJson? = some s := by
  rw [Json.ofText?_text s.hasDistinctKeys_toJson, nesting_toJson,
    if_pos (Nat.zero_le limit), Option.bind_some, ofJson?_toJson hs]

end Scalar

namespace Filter

open Json

variable {limits : Limits}

/-! ## The JSON form of a filter as JSON -/

theorem hasDistinctKeys_node {operator : String} {arguments : List Json}
    (h : ∀ v ∈ arguments, v.HasDistinctKeys) :
    (node operator arguments).HasDistinctKeys :=
  .object (by simp) (List.forall_mem_cons.2 ⟨.string operator,
    List.forall_mem_singleton.2 (.array h)⟩)

theorem hasDistinctKeys_propertyReference (name : String) :
    (propertyReference name).HasDistinctKeys :=
  .object (by simp) (List.forall_mem_singleton.2 (.string name))

/-- The JSON form of a filter has no key twice in one object. -/
theorem hasDistinctKeys_toJson (f : Filter) : f.toJson.HasDistinctKeys := by
  induction f using induction with
  | condition c =>
      rw [toJson_condition]
      cases c with
      | equals property value =>
          exact hasDistinctKeys_node (List.forall_mem_cons.2
            ⟨hasDistinctKeys_propertyReference property,
              List.forall_mem_singleton.2 value.hasDistinctKeys_toJson⟩)
      | oneOf property values =>
          have hvalues :
              (Json.array (values.map Scalar.toJson)).HasDistinctKeys :=
            .array (List.forall_mem_map.2 fun value _ =>
              value.hasDistinctKeys_toJson)
          exact hasDistinctKeys_node (List.forall_mem_cons.2
            ⟨hasDistinctKeys_propertyReference property,
             List.forall_mem_singleton.2 hvalues⟩)
  | junction connective operands ih =>
      rw [toJson_junction]
      exact hasDistinctKeys_node (List.forall_mem_map.2 ih)

/-! ## How deep the JSON form nests -/

theorem nesting_node (operator : String) (arguments : List Json) :
    (node operator arguments).nesting = itemNesting arguments + 2 := by
  simp [node, nesting, memberNesting]

theorem nesting_conditionJson (c : Condition) :
    (conditionJson c).nesting = 3 := by
  cases c with
  | equals property value =>
      simp [conditionJson, nesting_node, propertyReference, nesting,
        itemNesting, memberNesting]
  | oneOf property values =>
      have hvalues : itemNesting (values.map Scalar.toJson) = 0 :=
        Nat.le_zero.1 (itemNesting_le_iff.2
          (List.forall_mem_map.2 fun value _ => by simp))
      simp [conditionJson, nesting_node, propertyReference, nesting,
        itemNesting, memberNesting, hvalues]

/-- **Each level of a filter takes two levels of JSON**, and its conditions one
more. -/
theorem nesting_toJson_le (f : Filter) :
    f.toJson.nesting ≤ 2 * f.depth + 1 := by
  induction f using induction with
  | condition c =>
      rw [toJson_condition, nesting_conditionJson, depth]
  | junction connective operands ih =>
      have hbelow :
          itemNesting (operands.map toJson) ≤ 2 * operandDepth operands + 1 :=
        itemNesting_le_iff.2 (List.forall_mem_map.2 fun f hf =>
          (ih f hf).trans (by have := operandDepth_le_iff.1 le_rfl f hf; omega))
      rw [toJson_junction, nesting_node, depth]
      omega

/-! ## Reading the text -/

theorem ofText_text (limits : Limits) (f : Filter) :
    ofText limits f.toJson.text =
      if f.toJson.nesting ≤ nestingLimit then
        ofJson limits f.toJson
      else
        .error .notJson := by
  rw [ofText, ofText?_text f.hasDistinctKeys_toJson]
  by_cases h : f.toJson.nesting ≤ nestingLimit
  · rw [if_pos h, if_pos h]
  · rw [if_neg h, if_neg h]

/-- **Which filters come back from their text**, and as what. -/
theorem ofText_text_eq_ok_iff {f g : Filter} :
    ofText limits f.toJson.text = .ok g ↔
      g = f ∧ Expressible limits f ∧ f.toJson.nesting ≤ nestingLimit := by
  rw [ofText_text]
  by_cases h : f.toJson.nesting ≤ nestingLimit
  · rw [if_pos h, ofJson_toJson_eq_ok_iff]
    exact ⟨fun ⟨heq, hf⟩ => ⟨heq, hf, h⟩, fun ⟨heq, hf, _⟩ => ⟨heq, hf⟩⟩
  · rw [if_neg h]
    constructor
    · intro hok
      cases hok
    · rintro ⟨-, -, hnesting⟩
      exact absurd hnesting h

/-- Whichever of the two readers refuses the text, it is refused as
malformed. -/
theorem kind_of_ofText_text {f : Filter} {e : FilterError}
    (h : ofText limits f.toJson.text = .error e) :
    e.kind = .malformedFilter := by
  rw [ofText_text] at h
  split at h
  · exact kind_of_ofJson_toJson h
  · cases h
    rfl

theorem nesting_toJson_le_nestingLimit {f : Filter}
    (h : ∀ node ∈ f.nodes, node.1 ≤ 32) :
    f.toJson.nesting ≤ nestingLimit := by
  have hdepth : f.depth ≤ 32 :=
    (depth_le_iff 1).2 fun node hnode => by have := h node hnode; omega
  have hnesting := nesting_toJson_le f
  rw [nestingLimit]
  omega

/-- **A filter in text and back, under the default limits.**  It comes back as
it was if no node is deeper than 32 levels, no junction is empty, each list has
from 1 to 1000 values and each number is finite, and is refused as malformed
otherwise.  The limit on the nesting of the text refuses no filter of up to 32
levels, and no scalar changes its type in the text. -/
theorem ofText_default_text (f : Filter) :
    (ofText default f.toJson.text = .ok f ↔ Expressible default f) ∧
    ((∃ e, ofText default f.toJson.text = .error e ∧
      e.kind = .malformedFilter) ↔
      ¬ Expressible default f) ∧
    (∀ g, ofText default f.toJson.text = .ok g → g = f) ∧
    ((∀ node ∈ f.nodes, node.1 ≤ 32) →
      Json.ofText? nestingLimit f.toJson.text = some f.toJson) ∧
    (∀ s : Scalar, s.IsFinite →
      (Json.ofText? nestingLimit s.toJson.text).bind Scalar.ofJson? =
        some s) := by
  have hback :
      Expressible default f → ofText default f.toJson.text = .ok f := fun hf =>
    ofText_text_eq_ok_iff.2
      ⟨rfl, hf,
       nesting_toJson_le_nestingLimit fun node hnode => (hf node hnode).1⟩
  refine ⟨⟨fun hok => (ofText_text_eq_ok_iff.1 hok).2.1, hback⟩,
    ⟨?_, fun hnot => ?_⟩,
    fun g hok => (ofText_text_eq_ok_iff.1 hok).1, fun hdepth => ?_,
    fun s hs => Scalar.ofJson?_ofText?_text hs nestingLimit⟩
  · rintro ⟨e, hfails, -⟩ hf
    rw [hback hf] at hfails
    cases hfails
  · cases hread : ofText default f.toJson.text with
    | ok g => exact absurd (ofText_text_eq_ok_iff.1 hread).2.1 hnot
    | error e => exact ⟨e, rfl, kind_of_ofText_text hread⟩
  · rw [ofText?_text f.hasDistinctKeys_toJson,
      if_pos (nesting_toJson_le_nestingLimit hdepth)]

end Filter

end ItemSearch
