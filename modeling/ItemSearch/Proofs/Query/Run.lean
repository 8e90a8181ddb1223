import Mathlib
import ItemSearch.Proofs.Filter.Nodes
import ItemSearch.Proofs.FirstDefect
import ItemSearch.Proofs.Query.Filling

/-!
# Compiling as one pass over the nodes

The compiler recurses over the levels of a filter.  What it does is one step for
each node, in the order of `Filter.nodes`, with the query as the only state and
the depth limit checked at each step.  `fill_eq_forM` states this of the edits,
with all that they note and leave behind; `onto_fill_eq_foldlM` states it of the
query that they make, so that a statement about compiling is one about a fold
over a list, and a step of the proof is one about `visit`.

## Main results

* `fill_eq_forM`, `onto_fill_eq_foldlM`: the recursion is a pass over the nodes.
* `visit_eq_ok_iff`: when a step succeeds.
* `compile_eq_ok_iff_foldlM`: compiling succeeds when every node is well placed
  and the conditions apply one after the other.
* `events_compile`, `events_compile_of_error`: what is noted by then.
-/

namespace ItemSearch.Filter

variable {limits : Limits}

/-! ## The pass -/

/-- What is done in place at one node, which stands at the given depth. -/
def fillNode (limits : Limits) (node : Nat × Filter) : QueryEdit Unit :=
  if limits.depth < node.1 then
    throw (.tooDeep limits.depth)
  else do
    Edit.note (.applying node.2)
    match node.2 with
    | .condition c => c.fill limits
    | .junction connective operands =>
        if operands = [] then
          throw .emptyJunction
        else
          noteAcrossFields connective operands

/-- What is made of a query at one node. -/
def visit (limits : Limits) (q : Query) (node : Nat × Filter) :
    Journaled CompileEvent FilterError Query :=
  (fillNode limits node).onto q

/-- **The recursion is a pass over the nodes.**  The levels that are left and
the depth of a node add up to one more than the limit. -/
theorem fill_eq_forM {levels depth : Nat}
    (h : depth + levels = limits.depth + 1)
    (f : Filter) :
    fill limits levels f = forM (nodesFrom depth f) (fillNode limits) := by
  induction levels generalizing depth f with
  | zero =>
      obtain ⟨rest, hnodes⟩ := exists_nodesFrom_eq_cons depth f
      have hdeep : limits.depth < depth := by omega
      rw [hnodes, List.forM_cons, fillNode, if_pos hdeep]
      rfl
  | succ levels ih =>
      have hlevel : ¬ limits.depth < depth := by omega
      cases f with
      | condition c =>
          rw [nodesFrom_condition, List.forM_cons, fillNode, if_neg hlevel,
            fill]
          simp only [List.forM_nil, bind_assoc]
          exact bind_congr fun _ => (bind_pure _).symm
      | junction connective operands =>
          have hbelow : depth + 1 + levels = limits.depth + 1 := by omega
          have hoperands : ∀ fs : List Filter, forM fs (fill limits levels) =
              forM (fs.flatMap (nodesFrom (depth + 1))) (fillNode limits) := by
            intro fs
            induction fs with
            | nil => rfl
            | cons f fs ihRest =>
                rw [List.forM_cons, List.flatMap_cons, List.forM_append,
                  ih hbelow f, ihRest]
          rw [nodesFrom_junction, List.forM_cons, fillNode, if_neg hlevel, fill]
          simp only [bind_assoc]
          refine bind_congr fun _ => ?_
          split
          · rfl
          · rw [hoperands]

theorem onto_fill_eq_foldlM (f : Filter) (q : Query) :
    (fill limits limits.depth f).onto q = f.nodes.foldlM (visit limits) q := by
  rw [fill_eq_forM (Nat.add_comm _ _), Edit.onto_forM]
  rfl

theorem outcome_compile_eq_foldlM (f : Filter) (q : Query) :
    (compile limits f q).outcome =
      f.nodes.foldlM (fun q node => (visit limits q node).outcome) q := by
  rw [outcome_compile, onto_fill_eq_foldlM, Journaled.outcome_foldlM]

/-! ## One node -/

section Node

variable {q : Query} {depth : Nat} {connective : Connective}
  {operands : List Filter}

theorem visit_of_tooDeep {node : Nat × Filter} (h : limits.depth < node.1) :
    visit limits q node = throw (.tooDeep limits.depth) := by
  rw [visit, fillNode, if_pos h]
  rfl

theorem visit_condition (h : depth ≤ limits.depth) (c : Condition) :
    visit limits q (depth, .condition c) =
      ⟨[.applying (.condition c)], c.apply limits q⟩ := by
  rw [visit, fillNode, if_neg (Nat.not_lt.2 h), Edit.onto_note_bind,
    c.onto_fill]
  rfl

theorem visit_emptyJunction (h : depth ≤ limits.depth) :
    visit limits q (depth, .junction connective []) =
      ⟨[.applying (.junction connective [])], .error .emptyJunction⟩ := by
  rw [visit, fillNode, if_neg (Nat.not_lt.2 h), Edit.onto_note_bind]
  rfl

theorem outcome_noteAcrossFields (connective : Connective)
    (operands : List Filter) :
    (noteAcrossFields connective operands).outcome = .ok () := by
  unfold noteAcrossFields
  dsimp only
  split <;> rfl

theorem visit_junction (h : depth ≤ limits.depth) (hne : operands ≠ []) :
    visit limits q (depth, .junction connective operands) =
      ⟨.applying (.junction connective operands) ::
        (noteAcrossFields connective operands).events, .ok q⟩ := by
  rw [visit, fillNode, if_neg (Nat.not_lt.2 h), Edit.onto_note_bind]
  dsimp only
  rw [if_neg hne,
    Edit.onto_lift_of_ok (outcome_noteAcrossFields connective operands)]

end Node

/-! ## Passes that succeed -/

theorem outcome_visit (q : Query) (node : Nat × Filter) :
    (visit limits q node).outcome =
      if limits.depth < node.1 then .error (.tooDeep limits.depth)
      else match node.2 with
        | .condition c => c.apply limits q
        | .junction _ operands =>
            if operands = [] then
              .error .emptyJunction
            else
              .ok q := by
  by_cases hdeep : limits.depth < node.1
  · rw [visit_of_tooDeep hdeep, if_pos hdeep]
    rfl
  · have hlevel : node.1 ≤ limits.depth := Nat.not_lt.1 hdeep
    rw [if_neg hdeep]
    obtain ⟨depth, f⟩ := node
    cases f with
    | condition c => rw [visit_condition hlevel]
    | junction connective operands =>
        by_cases hnil : operands = []
        · subst hnil
          rw [visit_emptyJunction hlevel]
          rfl
        · rw [visit_junction hlevel hnil]
          exact (if_neg hnil).symm

/-- The node is not too deep, and it has operands if it is a junction. -/
def WellPlaced (limits : Limits) (node : Nat × Filter) : Prop :=
  node.1 ≤ limits.depth ∧
    ∀ connective operands, node.2 = .junction connective operands →
      operands ≠ []

theorem visit_eq_ok_iff {q r : Query} {node : Nat × Filter} :
    (visit limits q node).outcome = .ok r ↔
      WellPlaced limits node ∧
        node.2.leaf?.toList.foldlM (fun q c => c.apply limits q) q = .ok r := by
  rw [outcome_visit]
  obtain ⟨depth, f⟩ := node
  unfold WellPlaced
  by_cases hdeep : limits.depth < depth
  · simp [hdeep, Nat.not_le.2 hdeep]
  · rw [if_neg hdeep]
    have hlevel : depth ≤ limits.depth := Nat.not_lt.1 hdeep
    cases f with
    | condition c => simp [hlevel, leaf?]
    | junction connective operands =>
        by_cases hnil : operands = []
        · simp [hnil]
        · simp [hnil, hlevel, leaf?]

/-- A pass succeeds when every node is well placed and the conditions at the
nodes apply one after the other. -/
theorem foldlM_visit_eq_ok_iff {nodes : List (Nat × Filter)} {q r : Query} :
    nodes.foldlM (fun q node => (visit limits q node).outcome) q = .ok r ↔
      (∀ node ∈ nodes, WellPlaced limits node) ∧
        (nodes.filterMap fun node => node.2.leaf?).foldlM
          (fun q c => c.apply limits q) q = .ok r := by
  induction nodes generalizing q with
  | nil => simp
  | cons node nodes ih =>
      have hleaves : (node :: nodes).filterMap (fun node => node.2.leaf?) =
          node.2.leaf?.toList ++ nodes.filterMap fun node => node.2.leaf? := by
        rw [List.filterMap_cons]
        cases node.2.leaf? <;> rfl
      rw [List.foldlM_cons, Outcome.bind_eq_ok_iff, hleaves, List.foldlM_append,
        Outcome.bind_eq_ok_iff]
      simp only [visit_eq_ok_iff, ih, List.forall_mem_cons]
      constructor
      · intro h
        rcases h with ⟨q', ⟨hnode, hq'⟩, hnodes, hr⟩
        exact ⟨⟨hnode, hnodes⟩, q', hq', hr⟩
      · intro h
        rcases h with ⟨⟨hnode, hnodes⟩, q', hq', hr⟩
        exact ⟨q', ⟨hnode, hq'⟩, hnodes, hr⟩

/-- Compiling succeeds when every node is well placed and the conditions apply
one after the other. -/
theorem compile_eq_ok_iff_foldlM {f : Filter} {q r : Query} :
    (compile limits f q).outcome = .ok r ↔
      (∀ node ∈ f.nodes, WellPlaced limits node) ∧
        f.conditions.foldlM (fun q c => c.apply limits q) q = .ok r := by
  rw [outcome_compile_eq_foldlM, foldlM_visit_eq_ok_iff, nodes,
    ← conditions_eq_filterMap_nodesFrom]

/-! ## What is noted on the way -/

/-- What is noted at a node at which nothing is wrong. -/
def nodeEvents (f : Filter) : List CompileEvent :=
  .applying f ::
    match f with
    | .condition _ => []
    | .junction connective operands =>
        (noteAcrossFields connective operands).events

theorem events_visit {q r : Query} {node : Nat × Filter}
    (h : (visit limits q node).outcome = .ok r) :
    (visit limits q node).events = nodeEvents node.2 := by
  rcases visit_eq_ok_iff.1 h with ⟨⟨hlevel, hoperands⟩, -⟩
  obtain ⟨depth, f⟩ := node
  cases f with
  | condition c => rw [visit_condition hlevel, nodeEvents]
  | junction connective operands =>
      rw [visit_junction hlevel (hoperands connective operands rfl), nodeEvents]

theorem events_foldlM_visit {nodes : List (Nat × Filter)} {q r : Query}
    (h : (nodes.foldlM (visit limits) q).outcome = .ok r) :
    (nodes.foldlM (visit limits) q).events = nodes.flatMap fun node =>
      nodeEvents node.2 := by
  induction nodes generalizing q with
  | nil => rfl
  | cons node nodes ih =>
      rw [List.foldlM_cons] at h ⊢
      rw [Journaled.outcome_bind] at h
      rcases Outcome.bind_eq_ok_iff.1 h with ⟨q', hq', hrest⟩
      rw [Journaled.bind_of_ok hq', List.flatMap_cons, events_visit hq',
        ih hrest]

/-- A filter that compiles is noted node by node. -/
theorem events_compile {f : Filter} {q r : Query}
    (h : (compile limits f q).outcome = .ok r) :
    (compile limits f q).events =
      .compiling f ::
        (f.nodes.flatMap (fun node => nodeEvents node.2) ++ [.compiled r]) := by
  rw [outcome_compile] at h
  rw [compile_of_ok h, onto_fill_eq_foldlM,
    events_foldlM_visit (onto_fill_eq_foldlM f q ▸ h)]

/-- A node that is refused is noted as one that came up, unless it is too
deep. -/
theorem events_visit_of_error {q : Query} {e : FilterError}
    {node : Nat × Filter}
    (h : (visit limits q node).outcome = .error e) :
    (visit limits q node).events =
      if limits.depth < node.1 then [] else [.applying node.2] := by
  by_cases hdeep : limits.depth < node.1
  · rw [visit_of_tooDeep hdeep, if_pos hdeep]
    rfl
  · have hlevel : node.1 ≤ limits.depth := Nat.not_lt.1 hdeep
    rw [outcome_visit, if_neg hdeep] at h
    rw [if_neg hdeep]
    obtain ⟨depth, f⟩ := node
    cases f with
    | condition c => rw [visit_condition hlevel]
    | junction connective operands =>
        dsimp only at h
        split_ifs at h with hnil
        subst hnil
        rw [visit_emptyJunction hlevel]

/-- A pass that fails notes the nodes before the one that is refused. -/
theorem events_foldlM_visit_of_error {nodes : List (Nat × Filter)} {q : Query}
    {e : FilterError}
    (h : (nodes.foldlM (visit limits) q).outcome = .error e) :
    ∃ before node after r, nodes = before ++ node :: after ∧
      before.foldlM (fun q node => (visit limits q node).outcome) q = .ok r ∧
      (visit limits r node).outcome = .error e ∧
      (nodes.foldlM (visit limits) q).events =
        before.flatMap (fun node => nodeEvents node.2) ++
          (visit limits r node).events := by
  rw [Journaled.outcome_foldlM] at h
  obtain ⟨before, node, after, r, rfl, hbefore, hnode⟩ :=
    Outcome.foldlM_eq_error_iff.1 h
  refine ⟨before, node, after, r, rfl, hbefore, hnode, ?_⟩
  have hpass : (before.foldlM (visit limits) q).outcome = .ok r := by
    rw [Journaled.outcome_foldlM, hbefore]
  rw [List.foldlM_append, Journaled.bind_of_ok hpass, List.foldlM_cons,
    Journaled.bind_of_error hnode, events_foldlM_visit hpass]

/-- A filter that does not compile is noted node by node, up to the one that is
refused. -/
theorem events_compile_of_error {f : Filter} {q : Query} {e : FilterError}
    (h : (compile limits f q).outcome = .error e) :
    ∃ before node after r, f.nodes = before ++ node :: after ∧
      before.foldlM (fun q node => (visit limits q node).outcome) q = .ok r ∧
      (visit limits r node).outcome = .error e ∧
      (compile limits f q).events =
        .compiling f :: (before.flatMap (fun node => nodeEvents node.2) ++
          (visit limits r node).events ++ [.failed e]) := by
  rw [outcome_compile] at h
  obtain ⟨before, node, after, r, hsplit, hbefore, hnode, hevents⟩ :=
    events_foldlM_visit_of_error (onto_fill_eq_foldlM f q ▸ h)
  refine ⟨before, node, after, r, hsplit, hbefore, hnode, ?_⟩
  rw [compile_of_error h, onto_fill_eq_foldlM, hevents]

end ItemSearch.Filter
