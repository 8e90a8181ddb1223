import Mathlib
import ItemSearch.Proofs.Query.Defect
import ItemSearch.Proofs.Query.Fields

/-!
# What the compiler warns of

A junction of alternatives that touches several fields is warned of when the
pass comes to it, before its operands are tried.  So the warnings of a pass are
those of the nodes that it has come through, in their order, and the node that
it stops at has not been warned of: it is a condition, or it is refused before
its fields are looked at.

A junction that is compiled by itself is warned of if and only if its query is
on more than one field, since the query is on the fields that are touched.

## Main results

* `broad_iff`: the junctions that are warned of, by the number of their fields.
* `filterMap_nodeEvents`: the warning at one node.
* `warnedOf_of_compile`, `exists_warnedOf_of_compile`: the warnings of a pass.
* `notes_warn_of_any`: the warning about the outermost junction.
* `compile_warns`: all of this for any filter and any query.
-/

namespace ItemSearch

/-- The warning about alternatives across these fields. -/
def Note.acrossFields (fields : List String) : Note :=
  ⟨.warn, "'or' across fields [" ++ String.intercalate ", " fields ++
    "] is compiled as a conjunction of per-field lists"⟩

/-- The fields that an event warns of. -/
def CompileEvent.across? : CompileEvent → Option (List String)
  | .acrossFields fields => some fields
  | _ => none

/-- Only alternatives across fields are as urgent as a warning. -/
theorem notes_warn_eq {α : Type} (x : Journaled CompileEvent FilterError α) :
    x.notes .warn =
      (x.events.filterMap CompileEvent.across?).map Note.acrossFields := by
  obtain ⟨events, outcome⟩ := x
  unfold Journaled.notes
  dsimp only
  induction events with
  | nil => rfl
  | cons event events ih =>
      rw [List.filter_cons, List.filterMap_cons]
      cases event with
      | acrossFields fields =>
          simp only [Noted.level, Level.rank, CompileEvent.across?,
            List.map_cons, ← ih]
          rfl
      | _ =>
          simp only [Noted.level, Level.rank, CompileEvent.across?, ← ih]
          rfl

namespace Filter

variable {limits : Limits}

/-! ## Junctions across fields -/

/-- A junction of alternatives that touches two fields at least. -/
def Broad (f : Filter) : Prop :=
  (∃ operands, f = .junction .any operands) ∧
    ∃ a b, a ≠ b ∧ f.Touches a ∧ f.Touches b

theorem broad_iff {f : Filter} :
    f.Broad ↔
      (∃ operands, f = .junction .any operands) ∧ 1 < f.fields.length := by
  have hfields := listsFields_fields f
  refine and_congr_right fun _ => ?_
  rw [← List.toFinset_card_of_nodup hfields.nodup, Finset.one_lt_card_iff]
  simp only [List.mem_toFinset, hfields.touched]
  constructor
  · rintro ⟨a, b, hne, ha, hb⟩
    exact ⟨a, b, ha, hb, hne⟩
  · rintro ⟨a, b, ha, hb, hne⟩
    exact ⟨a, b, hne, ha, hb⟩

theorem broad_any_iff {operands : List Filter} :
    (junction .any operands).Broad ↔
      1 < (junction .any operands).fields.length := by
  rw [broad_iff, and_iff_right ⟨operands, rfl⟩]

theorem not_broad_condition (c : Condition) : ¬ (condition c).Broad := by
  rintro ⟨⟨_, h⟩, -⟩
  cases h

theorem not_broad_all (operands : List Filter) :
    ¬ (junction .all operands).Broad := by
  rintro ⟨⟨_, h⟩, -⟩
  cases h

instance : DecidablePred Broad
  | .condition c => isFalse (not_broad_condition c)
  | .junction .all operands => isFalse (not_broad_all operands)
  | .junction .any _ => decidable_of_iff _ broad_any_iff.symm

/-- What a node touches is touched by the whole filter. -/
theorem touches_of_mem_nodesFrom {f : Filter} {depth : Nat}
    {node : Nat × Filter}
    (hnode : node ∈ nodesFrom depth f) {field : String}
    (h : node.2.Touches field) :
    f.Touches field := by
  induction f using induction generalizing depth with
  | condition c =>
      rw [nodesFrom_condition, List.mem_singleton] at hnode
      subst hnode
      exact h
  | junction connective operands ih =>
      rw [nodesFrom_junction, List.mem_cons] at hnode
      rcases hnode with rfl | hbelow
      · exact h
      · obtain ⟨g, hg, hnode⟩ := List.mem_flatMap.1 hbelow
        obtain ⟨c, hc, htouches⟩ := ih g hg hnode
        refine ⟨c, ?_, htouches⟩
        rw [conditions_junction]
        exact List.mem_flatMap.2 ⟨g, hg, hc⟩

/-! ## The warnings of a pass -/

/-- The broad nodes among some nodes have one warning each, in the same order,
and it lists the fields of the node. -/
def WarnedOf (nodes : List (Nat × Filter)) (notes : List Note) : Prop :=
  List.Forall₂
    (fun node note => ∃ fields,
      node.2.ListsFields fields ∧ note = .acrossFields fields)
    (nodes.filter fun node => Broad node.2) notes

theorem warnedOf_iff {nodes : List (Nat × Filter)} {notes : List Note} :
    WarnedOf nodes notes ↔
      notes = (nodes.filter fun node => Broad node.2).map fun node =>
        .acrossFields node.2.fields := by
  unfold WarnedOf
  simp only [listsFields_iff, exists_eq_left]
  rw [eq_comm, ← List.forall₂_eq_eq_eq, List.forall₂_map_left_iff]
  simp only [eq_comm]

/-- **One node** is warned of if it is broad. -/
theorem filterMap_nodeEvents (f : Filter) :
    (nodeEvents f).filterMap CompileEvent.across? = if f.Broad then [f.fields]
      else [] := by
  cases f with
  | condition c => rw [if_neg (not_broad_condition c)]; rfl
  | junction connective operands =>
      cases connective with
      | all => rw [if_neg (not_broad_all operands)]; rfl
      | any =>
          have hfields : fieldsOf (operands.flatMap conditions) =
              (junction .any operands).fields := by
                rw [fields, conditions_junction]
          by_cases hbroad : (junction .any operands).Broad
          · have hlength := broad_any_iff.1 hbroad
            simp [nodeEvents, noteAcrossFields, hfields, hlength, hbroad,
              List.filterMap_cons, CompileEvent.across?]
          · have hlength := mt broad_any_iff.2 hbroad
            simp [nodeEvents, noteAcrossFields, hfields, hlength, hbroad,
              CompileEvent.across?]

/-- **A run over nodes** warns of the broad ones. -/
theorem filterMap_flatMap_nodeEvents (nodes : List (Nat × Filter)) :
    (nodes.flatMap fun node => nodeEvents node.2).filterMap
      CompileEvent.across? =
      (nodes.filter fun node => Broad node.2).map fun node =>
        node.2.fields := by
  induction nodes with
  | nil => rfl
  | cons node nodes ih =>
      rw [List.flatMap_cons, List.filterMap_append, filterMap_nodeEvents, ih,
        List.filter_cons]
      by_cases hbroad : node.2.Broad <;> simp [hbroad]

/-- The node that a pass stops at is not warned of. -/
theorem filterMap_events_visit_of_error {q : Query} {e : FilterError}
    {node : Nat × Filter}
    (h : (visit limits q node).outcome = .error e) :
    (visit limits q node).events.filterMap CompileEvent.across? = [] := by
  rw [events_visit_of_error h]
  split <;> rfl

theorem warnedOf_of_compile {f : Filter} {q r : Query}
    (h : (f.compile limits q).outcome = .ok r) :
    WarnedOf f.nodes ((f.compile limits q).notes .warn) := by
  rw [warnedOf_iff, notes_warn_eq, events_compile h, List.filterMap_cons,
    List.filterMap_append, filterMap_flatMap_nodeEvents]
  simp [List.filterMap_cons, CompileEvent.across?]

theorem exists_warnedOf_of_compile {f : Filter} {q : Query} {e : FilterError}
    (h : (f.compile limits q).outcome = .error e) :
    ∃ before node after, f.nodes = before ++ node :: after ∧
      Flawless (fun before node e =>
        DefectAt limits (namedBefore q before) node e.kind e) before ∧
      DefectAt limits (namedBefore q before) node e.kind e ∧
      WarnedOf before ((f.compile limits q).notes .warn) := by
  obtain ⟨before, node, after, r, hsplit, hbefore, hnode, hevents⟩ :=
    events_compile_of_error h
  have hrefuses := refuses_visit limits q
  refine ⟨before, node, after, hsplit,
    flawless_of_foldlM_eq_ok hrefuses hbefore,
    (hrefuses before r hbefore node e).1 hnode, ?_⟩
  rw [warnedOf_iff, notes_warn_eq, hevents, List.filterMap_cons,
    List.filterMap_append, List.filterMap_append, filterMap_flatMap_nodeEvents,
    filterMap_events_visit_of_error hnode]
  simp [List.filterMap_cons, CompileEvent.across?]

/-! ## The outermost junction -/

/-- Alternatives on one field have no broad node among them. -/
theorem filter_broad_eq_nil {operands : List Filter}
    (h : ¬ (junction .any operands).Broad) :
    ((junction .any operands).nodes.filter fun node => Broad node.2) = [] := by
  rw [List.filter_eq_nil_iff]
  intro node hnode hbroad
  obtain ⟨-, a, b, hne, ha, hb⟩ := of_decide_eq_true hbroad
  exact h ⟨⟨operands, rfl⟩, a, b, hne, touches_of_mem_nodesFrom hnode ha,
    touches_of_mem_nodesFrom hnode hb⟩

/-- **Alternatives are warned of first** if their query is on more than one
field, and else nothing is. -/
theorem notes_warn_of_any {operands : List Filter} {r : Query}
    (h : ((junction .any operands).compile limits .empty).outcome = .ok r) :
    let notes := ((junction .any operands).compile limits .empty).notes .warn
    (1 < r.size ↔
      ∃ rest, notes = .acrossFields (junction .any operands).fields :: rest) ∧
      (¬ 1 < r.size → notes = []) := by
  intro notes
  have hnotes := warnedOf_iff.1 (warnedOf_of_compile h)
  have hsize : (junction .any operands).Broad ↔ 1 < r.size := by
    rw [broad_any_iff, (isOn_fields_of_compile h).size]
  -- a broad operand would make the junction broad
  have hquiet : ¬ 1 < r.size → notes = [] := by
    intro hnarrow
    show ((junction .any operands).compile limits .empty).notes .warn = []
    rw [hnotes, filter_broad_eq_nil (mt hsize.1 hnarrow)]
    rfl
  refine ⟨⟨fun hlarge => ?_, ?_⟩, hquiet⟩
  · obtain ⟨rest, hnodes⟩ := exists_nodesFrom_eq_cons 1 (junction .any operands)
    rw [nodes, hnodes, List.filter_cons,
      if_pos (decide_eq_true (hsize.2 hlarge)), List.map_cons] at hnotes
    exact ⟨_, hnotes⟩
  · rintro ⟨rest, hrest⟩
    by_contra hnarrow
    rw [hquiet hnarrow] at hrest
    cases hrest

/-! ## All filters -/

/-- **The warnings of a compilation** are about the broad nodes that it comes
through, one about each and in their order: all of them if it succeeds, and
those before the node that is refused if it fails.  The fields that are
collected for this are the ones that a query of its own would be on. -/
theorem compile_warns (limits : Limits) (f : Filter) (q : Query) :
    (∀ r, (f.compile limits q).outcome = .ok r →
      WarnedOf f.nodes ((f.compile limits q).notes .warn)) ∧
    (∀ e, (f.compile limits q).outcome = .error e →
      ∃ before node after, f.nodes = before ++ node :: after ∧
        Flawless (fun before node e =>
          DefectAt limits (namedBefore q before) node e.kind e) before ∧
        DefectAt limits (namedBefore q before) node e.kind e ∧
        WarnedOf before ((f.compile limits q).notes .warn)) ∧
    ∀ g r, (compile limits g .empty).outcome = .ok r →
      r.IsOn g.fields ∧
      ∀ operands, g = .junction .any operands →
        (1 < r.size ↔
          ∃ rest, (compile limits g .empty).notes .warn =
            .acrossFields g.fields :: rest) ∧
        (¬ 1 < r.size → (compile limits g .empty).notes .warn = []) := by
  refine ⟨fun r => warnedOf_of_compile, fun e => exists_warnedOf_of_compile,
    fun g r h =>
    ⟨isOn_fields_of_compile h, ?_⟩⟩
  rintro operands rfl
  exact notes_warn_of_any h

/-- The outer alternatives are warned of before the inner ones, and those behind
the unknown property are not reached. -/
example :
    let inner := junction .any
      [.condition (.equals "sat:orbit_state" (.string "ascending")),
       .condition (.equals "platform" (.string "SA"))]
    let f := junction .any
      [.condition (.oneOf "sar:polarizations" [.string "VV", .string "VH"]),
       inner, .condition (.equals "unknown" (.bool true)), inner]
    (f.compile default .empty).outcome = .error (.unknownProperty "unknown") ∧
      (f.compile default .empty).notes .warn =
        [.acrossFields ["polarization", "flightDirection", "platform"],
         .acrossFields ["flightDirection", "platform"]] :=
  ⟨rfl, by decide⟩

end Filter

end ItemSearch
