import Mathlib
import ItemSearch.Proofs.Filter.RoundTrip
import ItemSearch.Proofs.Query.Defect

/-!
# Filters compiled from JSON and as they are

Depth, operands and list lengths are checked twice, once where a filter is read
and once where it is compiled, and numbers that are not finite do not get as far
as the compiler when a filter comes from JSON.  The two ways agree all the same.
A filter that compiles is expressible, so that it comes back from its JSON form;
and what the compiler still checks of the shape of an expressible filter never
fails.

## Main results

* `expressible_of_compilable`: what compiles can be written and read back.
* `kind_ne_of_defectAt`: an expressible node is never malformed for the
  compiler.
* `compileJson_toJson`: what the two ways have in common.
-/

namespace ItemSearch

/-- A value that a field takes is finite. -/
theorem FieldKind.Takes.isFinite {kind : FieldKind} {s : Scalar}
    (h : kind.Takes s) :
    s.IsFinite := by
  rintro v rfl
  rcases h with ⟨value, hvalue⟩ | ⟨-, d, text, htext, -⟩
  · cases hvalue with
    | float hfinite _ => exact hfinite
  · cases htext

namespace Condition

variable {limits : Limits} {c : Condition}

theorem expressible_of_admissible (h : c.Admissible limits) :
    c.Expressible limits := by
  obtain ⟨p, -, -, hvalues⟩ := h
  cases c with
  | equals name value => exact hvalues.isFinite
  | oneOf name values =>
      obtain ⟨hlength, -, htakes⟩ := hvalues
      exact ⟨hlength, fun value hvalue => (htakes value hvalue).isFinite⟩

/-- The list of an expressible condition is as the compiler wants it. -/
theorem kind_ne_of_defect (hc : c.Expressible limits)
    {named : List OrbitDirection}
    {kind : FailureKind} {e : FilterError} (h : c.Defect limits named kind e) :
    kind ≠ .malformedFilter := by
  cases h with
  | noValues name =>
      have hlength : 1 ≤ [].length := hc.1.1
      cases hlength
  | listTooLong hlong => exact absurd hc.1.2 (Nat.not_le.2 hlong)
  | _ =>
      intro heq
      cases heq

end Condition

namespace Filter

variable {limits : Limits} {f : Filter}

/-- **What compiles can be written and read back.** -/
theorem expressible_of_compilable {q : Query} (h : f.Compilable limits q) :
    Expressible limits f := by
  intro node hnode
  refine ⟨h.depth node hnode, ?_⟩
  obtain ⟨depth, g⟩ := node
  cases g with
  | condition c =>
      have hmem : c ∈ f.conditions := by
        rw [conditions_eq_filterMap_nodesFrom f 1]
        exact List.mem_filterMap.2 ⟨_, hnode, rfl⟩
      exact Condition.expressible_of_admissible (h.conditions c hmem)
  | junction connective operands =>
      exact h.operands _ hnode connective operands rfl

/-- An expressible node is refused by the compiler for its meaning only. -/
theorem kind_ne_of_defectAt {node : Nat × Filter}
    (hnode : ExpressibleAt limits node)
    {named : List OrbitDirection} {kind : FailureKind} {e : FilterError}
    (h : DefectAt limits named node kind e) : kind ≠ .malformedFilter := by
  cases h with
  | tooDeep hdeep => exact absurd hnode.1 (Nat.not_le.2 hdeep)
  | emptyJunction _ => exact absurd rfl hnode.2
  | condition _ hdefect => exact Condition.kind_ne_of_defect hnode.2 hdefect

/-- Compiling an expressible filter never finds it malformed, into whatever
query. -/
theorem kind_ne_of_compile (hf : Expressible limits f) {q : Query}
    {e : FilterError}
    (h : (f.compile limits q).outcome = .error e) :
    e.kind ≠ .malformedFilter := by
  obtain ⟨_, node, hmem, hdefect⟩ := (compile_eq_error_iff.1 h).exists_mem
  exact kind_ne_of_defectAt (hf node hmem) hdefect

theorem outcome_compileJson (v : Json) :
    (compileJson limits v).outcome =
      ofJson limits v >>= fun f => (f.compile limits .empty).outcome :=
  Journaled.outcome_bind _ _

/-- An expressible filter compiles from its JSON form as it does itself. -/
theorem outcome_compileJson_toJson (hf : Expressible limits f) :
    (compileJson limits f.toJson).outcome =
      (f.compile limits .empty).outcome := by
  rw [outcome_compileJson, ofJson_toJson_eq_ok_iff.2 ⟨rfl, hf⟩]
  rfl

/-- **The two ways agree**: a filter compiles from its JSON form into what it
compiles into itself, an expressible one also fails with the same error, and one
that has been read is never malformed for the compiler. -/
theorem compileJson_toJson (limits : Limits) (f : Filter) :
    (∀ r, (compileJson limits f.toJson).outcome = .ok r ↔
      (f.compile limits .empty).outcome = .ok r) ∧
    (Expressible limits f →
      ∀ e, (compileJson limits f.toJson).outcome = .error e ↔
      (f.compile limits .empty).outcome = .error e) ∧
    (∀ v, ofJson limits v = .ok f →
      ∀ q e, (f.compile limits q).outcome = .error e →
        e.kind ≠ .malformedFilter) := by
  refine ⟨fun r => ⟨fun h => ?_, fun h => ?_⟩, fun hf e => ?_,
    fun v hv q e h => ?_⟩
  · rw [outcome_compileJson] at h
    obtain ⟨g, hread, hcompile⟩ := Outcome.bind_eq_ok_iff.1 h
    obtain ⟨rfl, -⟩ := ofJson_toJson_eq_ok_iff.1 hread
    exact hcompile
  · have hcompilable := (compile_eq_ok_iff_extend.1 h).1
    rw [outcome_compileJson_toJson (expressible_of_compilable hcompilable), h]
  · rw [outcome_compileJson_toJson hf]
  · exact kind_ne_of_compile (expressible_of_ofJson hv) h

end Filter

end ItemSearch
