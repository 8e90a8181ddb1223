import Mathlib
import ItemSearch.Proofs.Query.Accumulation

/-!
# Filters compiled one after the other

A junction adds the values of its operands from left to right, whatever it joins
them by, so it is compiled into what its operands are compiled into one after
the other.  The nodes of an operand stand one level deeper inside the junction,
and that is the only difference: an operand that nests as deep as the limit
allows is refused there.

An attempt that fails leaves the query as it is.  So of any number of attempts
only those that succeed count, each of them appends to what is there, and
together they come to the same as one junction of all of them.

## Main results

* `outcome_compile_junction`: a junction as the sequence of its operands.
* `Query.extends_after`: an attempt appends to a query.
* `Query.foldlM_admitted`: the attempts that succeed, without the others.
* `Query.afterAll_admitted`: what a run of attempts comes to.
-/

namespace ItemSearch

namespace Filter

variable {limits : Limits} {q : Query}

/-! ## Junctions as sequences -/

/-- A node that is not at the limit is visited one level deeper as where it
is. -/
theorem outcome_visit_succ {node : Nat × Filter} (h : node.1 < limits.depth) :
    (visit limits q (node.1 + 1, node.2)).outcome =
      (visit limits q node).outcome := by
  have hdeeper : ¬ limits.depth < node.1 + 1 := by omega
  have hhere : ¬ limits.depth < node.1 := by omega
  rw [outcome_visit, outcome_visit, if_neg hdeeper, if_neg hhere]

theorem foldlM_visit_succ {nodes : List (Nat × Filter)}
    (h : ∀ node ∈ nodes, node.1 < limits.depth) :
    (nodes.map fun node => (node.1 + 1, node.2)).foldlM
        (fun q node => (visit limits q node).outcome) q =
      nodes.foldlM (fun q node => (visit limits q node).outcome) q := by
  induction nodes generalizing q with
  | nil => rfl
  | cons node nodes ih =>
      rcases List.forall_mem_cons.1 h with ⟨hnode, hnodes⟩
      rw [List.map_cons, List.foldlM_cons, List.foldlM_cons,
        outcome_visit_succ hnode]
      exact bind_congr fun q' => ih hnodes

/-- An operand of a junction that stands at the top is compiled as by itself,
unless it nests as deep as the limit allows. -/
theorem foldlM_visit_operand {f : Filter} (h : f.depth < limits.depth) :
    (nodesFrom 2 f).foldlM (fun q node => (visit limits q node).outcome) q =
      (f.compile limits q).outcome := by
  have hnodes : ∀ node ∈ f.nodes, node.1 < limits.depth := by
    intro node hnode
    have hnode := (depth_le_iff 1).1 (Nat.le_refl f.depth) node hnode
    omega
  have hshift : nodesFrom 2 f = f.nodes.map fun node => (node.1 + 1, node.2) :=
    nodesFrom_succ 1 f
  rw [hshift, foldlM_visit_succ hnodes, outcome_compile_eq_foldlM]

/-- **A junction is compiled as the sequence of its operands**, as long as none
of them nests as deep as the limit allows. -/
theorem outcome_compile_junction {connective : Connective}
    {operands : List Filter}
    (hne : operands ≠ []) (hdepth : ∀ f ∈ operands, f.depth < limits.depth) :
    ((junction connective operands).compile limits q).outcome =
      operands.foldlM (fun q f => (f.compile limits q).outcome) q := by
  have hlevel : ¬ limits.depth < 1 := Nat.not_lt.2 limits.depth_pos
  have hoperands :
      ∀ (fs : List Filter) (q : Query), (∀ f ∈ fs, f.depth < limits.depth) →
      (fs.flatMap (nodesFrom 2)).foldlM
        (fun q node => (visit limits q node).outcome) q =
        fs.foldlM (fun q f => (f.compile limits q).outcome) q := by
    intro fs
    induction fs with
    | nil => exact fun q _ => rfl
    | cons f fs ih =>
        intro q hfs
        rcases List.forall_mem_cons.1 hfs with ⟨hf, hrest⟩
        rw [List.flatMap_cons, List.foldlM_append, List.foldlM_cons,
          foldlM_visit_operand hf]
        exact bind_congr fun q' => ih q' hrest
  rw [outcome_compile_eq_foldlM, nodes, nodesFrom_junction, List.foldlM_cons,
    outcome_visit, if_neg hlevel, ← hoperands operands q hdepth]
  simp only [if_neg hne]
  rfl

end Filter

/-! ## Runs -/

namespace Query

variable {limits : Limits} {q r s : Query}

/-- The query that is left by attempts to compile filters into it, one after the
other. -/
def afterAll (limits : Limits) (q : Query) (fs : List Filter) : Query :=
  fs.foldl (after limits) q

/-- The filters that compile when an attempt is made at each of them, one after
the other. -/
def admitted (limits : Limits) (q : Query) : List Filter → List Filter
  | [] => []
  | f :: fs =>
      let rest := admitted limits (q.after limits f) fs
      if (f.compile limits q).outcome.isOk then f :: rest else rest

theorem admitted_cons_of_ok {f : Filter} (fs : List Filter)
    (h : (f.compile limits q).outcome = .ok r) :
    admitted limits q (f :: fs) = f :: admitted limits r fs := by
  rw [admitted, after_of_ok h, h]
  rfl

theorem admitted_cons_of_error {f : Filter} (fs : List Filter) {e : FilterError}
    (h : (f.compile limits q).outcome = .error e) :
    admitted limits q (f :: fs) = admitted limits q fs := by
  rw [admitted, after_of_error h, h]
  rfl

/-- The attempts that succeed also do so without the others, and come to the
same. -/
theorem foldlM_admitted (limits : Limits) (q : Query) (fs : List Filter) :
    (admitted limits q fs).foldlM (fun q f => (f.compile limits q).outcome) q =
      .ok (q.afterAll limits fs) := by
  induction fs generalizing q with
  | nil => rfl
  | cons f fs ih =>
      have hrun :
          q.afterAll limits (f :: fs) = (q.after limits f).afterAll limits fs :=
            rfl
      rw [hrun]
      cases h : (f.compile limits q).outcome with
      | ok r =>
          rw [admitted_cons_of_ok fs h, after_of_ok h, List.foldlM_cons, h]
          exact ih r
      | error e =>
          rw [admitted_cons_of_error fs h, after_of_error h]
          exact ih q

/-! ## Nothing is taken back -/

/-- The second query holds what the first one does, and more may have been
appended to the fields and to the values of each field. -/
structure Extends (q r : Query) : Prop where
  /-- New fields stand behind the old ones. -/
  fieldNames : q.fieldNames <+: r.fieldNames
  /-- New values of a field stand behind the old ones. -/
  values : ∀ field values, q.values? field = some values →
    ∃ values', r.values? field = some values' ∧ values <+: values'
  /-- A direction stays. -/
  direction : ∀ d, q.direction = some d → r.direction = some d

theorem Extends.refl (q : Query) : q.Extends q :=
  ⟨List.prefix_rfl, fun _ values h => ⟨values, h, List.prefix_rfl⟩,
   fun _ h => h⟩

theorem Extends.trans (hqr : q.Extends r) (hrs : r.Extends s) :
    q.Extends s := by
  refine ⟨hqr.fieldNames.trans hrs.fieldNames, ?_, fun d hd =>
    hrs.direction d (hqr.direction d hd)⟩
  intro field values hvalues
  obtain ⟨values', hvalues', hprefix⟩ := hqr.values field values hvalues
  obtain ⟨values'', hvalues'', hprefix'⟩ := hrs.values field values' hvalues'
  exact ⟨values'', hvalues'', hprefix.trans hprefix'⟩

theorem extends_extend (q : Query) (entries : List (String × FieldValue))
    (directions : List OrbitDirection) :
    q.Extends (q.extend entries directions) := by
  refine ⟨?_, ?_, ?_⟩
  · rw [fieldNames_extend, List.eraseDups_append]
    have hold : q.fieldNames.eraseDups = q.fieldNames :=
      eraseDups_of_nodup q.nodup
    rw [hold]
    exact List.prefix_append _ _
  · intro field values hvalues
    rw [values?_extend]
    by_cases hmem : field ∈ entries.map Prod.fst
    · rw [if_pos hmem, hvalues]
      exact ⟨_, rfl, List.prefix_append _ _⟩
    · rw [if_neg hmem]
      exact ⟨values, hvalues, List.prefix_rfl⟩
  · intro d hd
    simp [hd]

/-- **An attempt appends to a query**, if it does anything to it. -/
theorem extends_after (limits : Limits) (q : Query) (f : Filter) :
    q.Extends (q.after limits f) := by
  cases h : (f.compile limits q).outcome with
  | ok r =>
      obtain ⟨-, rfl⟩ := Filter.compile_eq_ok_iff_extend.1 h
      rw [after_of_ok h]
      exact extends_extend q _ _
  | error e =>
      rw [after_of_error h]
      exact .refl q

theorem extends_afterAll (limits : Limits) (q : Query) (fs : List Filter) :
    q.Extends (q.afterAll limits fs) := by
  induction fs generalizing q with
  | nil => exact .refl q
  | cons f fs ih =>
      exact (extends_after limits q f).trans (ih (q.after limits f))

/-- **What a run of attempts comes to**: those that succeed come to the same
without the others; what has been reached on the way is extended and never
rewritten; and, unless one of them nests as deep as the limit allows, all of
them in one junction come to the same. -/
theorem afterAll_admitted (limits : Limits) (q : Query) (fs : List Filter) :
    (admitted limits q fs).foldlM (fun q f => (f.compile limits q).outcome) q =
        .ok (q.afterAll limits fs) ∧
      (∀ before, before <+: fs →
        (q.afterAll limits before).Extends (q.afterAll limits fs)) ∧
      (admitted limits q fs ≠ [] →
        (∀ f ∈ admitted limits q fs, f.depth < limits.depth) →
        ((Filter.junction .all (admitted limits q fs)).compile
          limits q).outcome = .ok (q.afterAll limits fs)) := by
  refine ⟨foldlM_admitted limits q fs, ?_, ?_⟩
  · rintro before ⟨later, rfl⟩
    have hsplit : q.afterAll limits (before ++ later) =
        (q.afterAll limits before).afterAll limits later := List.foldl_append
    rw [hsplit]
    exact extends_afterAll limits _ later
  · intro hne hdepth
    rw [Filter.outcome_compile_junction hne hdepth]
    exact foldlM_admitted limits q fs

/-- Attempts of which the second one names another direction than the first. -/
private def attempts : List Filter :=
  [.condition (.equals "sat:orbit_state" (.string "ascending")),
   .condition (.equals "sat:orbit_state" (.string "descending")),
   .junction .any
     [.condition (.equals "platform" (.string "SA")),
      .condition (.oneOf "platform" [.string "SB", .string "SA"])]]

/-- What is left of the attempts. -/
private def leftBy : Query :=
  ⟨[("platform", [.string "SA", .string "SB", .string "SA"])], some .ascending,
   by simp⟩

theorem afterAll_admitted_conflict :
    (admitted default .empty attempts).length = 2 ∧
      ((Filter.junction .all (admitted default .empty attempts)).compile
        default .empty).outcome = .ok leftBy := by
  have hne : admitted default .empty attempts ≠ [] := List.cons_ne_nil _ _
  have hdepth :
      ∀ f ∈ admitted default .empty attempts,
        f.depth < (default : Limits).depth := by
    have hall : (admitted default .empty attempts).all
        (fun f => f.depth < (default : Limits).depth) = true := by decide
    simpa using hall
  exact ⟨rfl, (afterAll_admitted default .empty attempts).2.2 hne hdepth⟩

end Query

end ItemSearch
