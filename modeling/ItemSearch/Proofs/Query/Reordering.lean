import Mathlib
import ItemSearch.Proofs.Query.Exactness

/-!
# Filters with their operands reordered

The compiler goes through a filter from left to right, and what it adds to comes
first at every step.  When operands change places it passes other queries on its
way, and it may stop at another node.  Still, whether it stops at all, and what
the query holds in the end, is settled by what it comes by and not by the order.

What it comes by are the outlines of the nodes, `Outline`.  A reordering
permutes them, at whatever depth it takes place, and all else follows from this
one fact.  Only the values of a field stand in the order of the conditions.
They keep it if the operands that change places do not have a listed field in
common, since then the values of each field stem from one of them.

## Main results

* `Reordered.perm_outlines`: a reordering permutes the outlines of the nodes.
* `compilable_iff_of_perm`: the outlines settle whether a filter compiles.
* `rearranged_extend`: they settle what its query holds, up to the order of
  values.
* `valuesFor_of_reordered_apart`: the order of values that reorderings keep.
* `compile_reordered`: what two orders of a filter have in common.
-/

namespace ItemSearch

/-! ## Queries that hold the same in another order -/

namespace Query

/-- The queries are on the same fields and have the same direction, and the
values of each field are the same in some order. -/
structure Rearranged (q r : Query) : Prop where
  fieldNames : q.fieldNames.Perm r.fieldNames
  direction : q.direction = r.direction
  values : ∀ field, Option.Rel List.Perm (q.values? field) (r.values? field)

/-- The order of fields makes no difference to equality. -/
theorem same_of_observations {q r : Query}
    (hfields : q.fieldNames.Perm r.fieldNames)
    (hvalues : ∀ field, q.values? field = r.values? field)
    (hdirection : q.direction = r.direction) : q.same r = true := by
  have hlength : q.lists.length = r.lists.length := by
    simpa only [fieldNames, List.length_map] using hfields.length_eq
  have hlists : ∀ entry ∈ q.lists, r.values? entry.1 = some entry.2 := by
    intro entry hentry
    rw [← hvalues]
    exact values?_eq_some_iff.2 hentry
  simpa [same, hdirection, hlength] using hlists

end Query

theorem Agree.perm {directions other : List OrbitDirection}
    (h : Agree directions)
    (hperm : directions.Perm other) : Agree other :=
  fun d hd e he => h d (hperm.mem_iff.2 hd) e (hperm.mem_iff.2 he)

/-- Of directions that agree, any may come first. -/
theorem Agree.head?_eq {directions other : List OrbitDirection}
    (h : Agree directions)
    (hperm : directions.Perm other) : directions.head? = other.head? := by
  cases directions with
  | nil => rw [List.nil_perm.1 hperm]
  | cons d rest =>
      cases other with
      | nil => exact absurd hperm.length_eq (by simp)
      | cons e rest' =>
          have hsame : d = e := h d (by simp) e (hperm.mem_iff.2 (by simp))
          rw [List.head?_cons, List.head?_cons, hsame]

/-- Where no two of some lists have anything in them, their order does not show
when they are joined. -/
theorem flatten_eq_of_perm {α : Type} {lists other : List (List α)}
    (h : lists.Perm other)
    (hone : lists.Pairwise fun xs ys => xs = [] ∨ ys = []) :
    lists.flatten = other.flatten := by
  induction h with
  | nil => rfl
  | cons xs _ ih =>
      rw [List.flatten_cons, List.flatten_cons,
        ih (List.pairwise_cons.1 hone).2]
  | swap xs ys rest =>
      have hfirst : ys = [] ∨ xs = [] :=
        (List.pairwise_cons.1 hone).1 xs (by simp)
      rcases hfirst with rfl | rfl <;> simp
  | trans h _ ih ih' =>
      rw [ih hone, ih' (h.pairwise hone fun hxs => hxs.symm)]

/-- Lists that are put together from permuted parts are permuted. -/
theorem flatMap_perm_of_forall₂ {α β γ : Type} {xs : List α} {ys : List β}
    {parts : α → List γ} {parts' : β → List γ}
    (h : List.Forall₂ (fun x y => (parts x).Perm (parts' y)) xs ys) :
    (xs.flatMap parts).Perm (ys.flatMap parts') := by
  rw [List.flatMap_def, List.flatMap_def]
  refine List.Perm.flatten_congr ?_
  rwa [List.forall₂_map_left_iff, List.forall₂_map_right_iff]

namespace Filter

/-! ## Reorderings -/

/-- The second filter is the first one with the operands of any number of its
junctions in another order, where those of each junction on which this is done
are allowed. -/
inductive Reordered (allowed : List Filter → Prop) :
    Filter → Filter → Prop where
  | condition (c : Condition) : Reordered allowed (.condition c) (.condition c)
  /-- Each operand is reordered in its place, and then they may change
  places. -/
  | junction {connective : Connective}
      {operands inPlace operands' : List Filter}
      (hlength : operands.length = inPlace.length)
      (hinside : ∀ f g, (f, g) ∈ operands.zip inPlace → Reordered allowed f g)
      (horder : inPlace = operands' ∨
        (allowed operands ∧ inPlace.Perm operands')) :
      Reordered allowed (.junction connective operands)
        (.junction connective operands')

variable {allowed : List Filter → Prop} {f g : Filter}

/-- What holds for a condition, and for a junction as soon as it holds for the
operands in their places, holds for every reordering. -/
theorem Reordered.induction {P : Filter → Filter → Prop}
    (condition : ∀ c, P (.condition c) (.condition c))
    (junction : ∀ connective {operands inPlace operands' : List Filter},
      List.Forall₂ P operands inPlace →
      (inPlace = operands' ∨ (allowed operands ∧ inPlace.Perm operands')) →
      P (.junction connective operands) (.junction connective operands'))
    (h : Reordered allowed f g) : P f g := by
  induction h with
  | condition c => exact condition c
  | junction hlength _ horder ih =>
      exact junction _ (List.forall₂_iff_zip.2
        ⟨hlength, fun hmem => ih _ _ hmem⟩) horder

/-- Operands reordered in their places, one by one, before they change
places. -/
theorem Reordered.of_forall₂ {connective : Connective}
    {operands inPlace operands' : List Filter}
    (hinside : List.Forall₂ (Reordered allowed) operands inPlace)
    (horder : inPlace = operands' ∨
      (allowed operands ∧ inPlace.Perm operands')) :
    Reordered allowed (.junction connective operands)
      (.junction connective operands') := by
  obtain ⟨hlength, hzip⟩ := List.forall₂_iff_zip.1 hinside
  exact .junction hlength (fun _ _ hmem => hzip hmem) horder

theorem perm_of_order {operands inPlace operands' : List Filter}
    (h : inPlace = operands' ∨ (allowed operands ∧ inPlace.Perm operands')) :
    inPlace.Perm operands' := by
  rcases h with rfl | ⟨-, hperm⟩
  · exact .refl _
  · exact hperm

/-- Where more is allowed, a reordering is still one. -/
theorem Reordered.mono {more : List Filter → Prop}
    (hmore : ∀ operands, allowed operands →
    more operands) (h : Reordered allowed f g) : Reordered more f g := by
  induction h with
  | condition c => exact .condition c
  | junction hlength _ horder ih =>
      exact .junction hlength ih (horder.imp_right fun h => ⟨hmore _ h.1, h.2⟩)

/-! ## Outlines -/

/-- Whether a filter is a junction without operands. -/
def hollow : Filter → Bool
  | .junction _ [] => true
  | _ => false

/-- What of a node does not depend on the order of its operands. -/
structure Outline where
  depth : Nat
  leaf? : Option Condition
  hollow : Bool

/-- The outline of a node. -/
def outline (node : Nat × Filter) : Outline :=
  ⟨node.1, node.2.leaf?, node.2.hollow⟩

theorem hollow_junction_iff {connective : Connective} {operands : List Filter} :
    (junction connective operands).hollow = true ↔ operands = [] := by
  cases operands <;> simp [hollow]

/-- **A reordering permutes the outlines of the nodes.** -/
theorem Reordered.perm_outlines (h : Reordered allowed f g) (depth : Nat) :
    ((nodesFrom depth f).map outline).Perm
      ((nodesFrom depth g).map outline) := by
  refine Reordered.induction (P := fun f g => ∀ depth,
    ((nodesFrom depth f).map outline).Perm
      ((nodesFrom depth g).map outline)) ?_ ?_ h depth
  · intro c depth
    exact .refl _
  · intro connective operands inPlace operands' hinside horder depth
    have hperm := perm_of_order horder
    have hlength : operands.length = operands'.length :=
      hinside.length_eq.trans hperm.length_eq
    have hhead : outline (depth, .junction connective operands) =
        outline (depth, .junction connective operands') := by
      have hhollow : (Filter.junction connective operands).hollow =
          (Filter.junction connective operands').hollow := by
        rw [Bool.eq_iff_iff, hollow_junction_iff, hollow_junction_iff,
          ← List.length_eq_zero_iff, ← List.length_eq_zero_iff, hlength]
      simp only [outline, leaf?, hhollow]
    have hbelow :
        (operands.flatMap fun f => (nodesFrom (depth + 1) f).map outline).Perm
        (operands'.flatMap fun f => (nodesFrom (depth + 1) f).map outline) :=
      (flatMap_perm_of_forall₂
        (hinside.imp fun _ _ hfg => hfg (depth + 1))).trans
        (hperm.flatMap_right _)
    rw [nodesFrom_junction, nodesFrom_junction, List.map_cons, List.map_cons,
      List.map_flatMap, List.map_flatMap, hhead]
    exact hbelow.cons _

theorem conditions_eq_filterMap_outlines (f : Filter) :
    f.conditions = (f.nodes.map outline).filterMap Outline.leaf? := by
  rw [List.filterMap_map]
  exact conditions_eq_filterMap_nodesFrom f 1

section Outlines

variable (hperm : (f.nodes.map outline).Perm (g.nodes.map outline))
include hperm

theorem perm_conditions : f.conditions.Perm g.conditions := by
  rw [conditions_eq_filterMap_outlines f, conditions_eq_filterMap_outlines g]
  exact hperm.filterMap _

theorem perm_entries : f.entries.Perm g.entries :=
  (perm_conditions hperm).flatMap_right _

theorem perm_directions : f.directions.Perm g.directions :=
  (perm_conditions hperm).flatMap_right _

theorem exists_node_outline_eq {node : Nat × Filter} (hnode : node ∈ f.nodes) :
    ∃ node' ∈ g.nodes, outline node' = outline node :=
  List.mem_map.1 (hperm.mem_iff.1 (List.mem_map_of_mem hnode))

/-- Each thing that is asked of a filter is asked of the outlines of its
nodes. -/
theorem compilable_of_perm {limits : Limits} {q : Query}
    (h : g.Compilable limits q) :
    f.Compilable limits q := by
  refine ⟨?_, ?_, ?_, ?_⟩
  · intro node hnode
    obtain ⟨node', hnode', heq⟩ := exists_node_outline_eq hperm hnode
    have hdepth : node'.1 = node.1 := congrArg Outline.depth heq
    rw [← hdepth]
    exact h.depth node' hnode'
  · intro node hnode connective operands hjunction hnil
    obtain ⟨⟨depth', node'⟩, hnode', heq⟩ := exists_node_outline_eq hperm hnode
    have hhollow : node'.hollow = true := by
      have hsame : node'.hollow = node.2.hollow := congrArg Outline.hollow heq
      rw [hsame, hjunction, hollow_junction_iff, hnil]
    cases node' with
    | condition c => cases hhollow
    | junction connective' operands' =>
        exact h.operands _ hnode' connective' operands' rfl
          (hollow_junction_iff.1 hhollow)
  · intro c hc
    exact h.conditions c ((perm_conditions hperm).mem_iff.1 hc)
  · exact h.directions.perm ((perm_directions hperm).symm.append_left _)

end Outlines

/-! ## What a reordered filter adds -/

theorem perm_valuesFor (h : f.entries.Perm g.entries) (field : String) :
    (ValueLists.valuesFor field f.entries).Perm
      (ValueLists.valuesFor field g.entries) :=
  (h.filter _).map _

/-- **The outlines settle what the query holds**, up to the order of values. -/
theorem rearranged_extend {limits : Limits} {q : Query}
    (hperm : (f.nodes.map outline).Perm (g.nodes.map outline))
    (hcompilable : f.Compilable limits q) :
    (q.extend f.entries f.directions).Rearranged
      (q.extend g.entries g.directions) := by
  have hentries := perm_entries hperm
  have hfield :
      ∀ field, field ∈ f.entries.map Prod.fst ↔
        field ∈ g.entries.map Prod.fst :=
    fun field => (hentries.map _).mem_iff
  refine ⟨?_, ?_, ?_⟩
  · refine (List.perm_ext_iff_of_nodup (q.extend _ _).nodup
      (q.extend _ _).nodup).2 ?_
    intro field
    show field ∈ (q.extend _ _).fieldNames ↔ field ∈ (q.extend _ _).fieldNames
    rw [Query.fieldNames_extend, Query.fieldNames_extend, List.mem_eraseDups,
      List.mem_eraseDups, List.mem_append, List.mem_append, hfield]
  · rw [Query.direction_extend, Query.direction_extend]
    exact hcompilable.directions.head?_eq
      ((perm_directions hperm).append_left _)
  · intro field
    rw [Query.values?_extend, Query.values?_extend]
    by_cases hmem : field ∈ f.entries.map Prod.fst
    · rw [if_pos hmem, if_pos ((hfield field).1 hmem)]
      exact .some ((perm_valuesFor hentries field).append_left _)
    · rw [if_neg hmem, if_neg fun h => hmem ((hfield field).2 h)]
      cases q.values? field with
      | none => exact .none
      | some values => exact .some (.refl _)

theorem valuesFor_flatMap (field : String) (operands : List Filter) :
    ValueLists.valuesFor field (operands.flatMap entries) =
      (operands.map fun f => ValueLists.valuesFor field f.entries).flatten := by
  rw [ValueLists.valuesFor, List.filter_flatMap, List.map_flatMap,
    List.flatMap_def]
  rfl

/-- Of operands that are apart, one at most has values for a field. -/
theorem Apart.pairwise_valuesFor {operands : List Filter} (h : Apart operands)
    (field : String) :
    (operands.map fun f => ValueLists.valuesFor field f.entries).Pairwise
      fun xs ys => xs = [] ∨ ys = [] := by
  have htouches : ∀ {f : Filter}, ValueLists.valuesFor field f.entries ≠ [] →
      f.Touches field ∧ field ≠ Property.directionField := by
    intro f hne
    obtain ⟨value, hvalue⟩ := List.exists_mem_of_ne_nil _ hne
    exact touches_of_mem_entries (ValueLists.mem_valuesFor_iff.1 hvalue)
  rw [List.pairwise_map]
  refine h.imp fun {f g} hfg => ?_
  by_contra hboth
  obtain ⟨hf, hg⟩ := not_or.1 hboth
  exact hfg field (htouches hf).2 ⟨(htouches hf).1, (htouches hg).1⟩

/-- **Operands that are apart may change places**, and each field has its values
in the same order. -/
theorem valuesFor_of_reordered_apart (h : Reordered Apart f g)
    (field : String) :
    ValueLists.valuesFor field f.entries =
      ValueLists.valuesFor field g.entries := by
  refine Reordered.induction (P := fun f g =>
    ValueLists.valuesFor field f.entries =
      ValueLists.valuesFor field g.entries) ?_ ?_ h
  · intro c
    rfl
  · intro connective operands inPlace operands' hinside horder
    have hsame : (operands.map fun f => ValueLists.valuesFor field f.entries) =
        inPlace.map fun f => ValueLists.valuesFor field f.entries := by
      rw [← List.forall₂_eq_eq_eq, List.forall₂_map_left_iff,
        List.forall₂_map_right_iff]
      exact hinside
    rw [entries_junction, entries_junction, valuesFor_flatMap,
      valuesFor_flatMap]
    rcases horder with rfl | ⟨hapart, hperm⟩
    · rw [hsame]
    · have hone := hapart.pairwise_valuesFor field
      rw [hsame] at hone ⊢
      exact flatten_eq_of_perm (hperm.map _) hone

theorem same_extend_of_apart (h : Reordered Apart f g) {limits : Limits}
    {q : Query}
    (hcompilable : f.Compilable limits q) :
    (q.extend f.entries f.directions).same (q.extend g.entries g.directions) =
      true := by
  have hperm := h.perm_outlines 1
  have hrearranged := rearranged_extend hperm hcompilable
  refine Query.same_of_observations hrearranged.fieldNames ?_
    hrearranged.direction
  intro field
  have hfield :
      field ∈ f.entries.map Prod.fst ↔ field ∈ g.entries.map Prod.fst :=
    ((perm_entries hperm).map _).mem_iff
  rw [Query.values?_extend, Query.values?_extend,
    valuesFor_of_reordered_apart h]
  simp only [hfield]

/-! ## Two orders of a filter -/

/-- **The order of operands shows only within the lists of fields.**  If a
filter and a reordering of it are compiled into the same query, then both
succeed or neither does; they have the same fields, the same direction and the
same values in each field, up to their order; and if only operands without a
listed field in common change places, the queries are the same. -/
theorem compile_reordered (h : Reordered (fun _ => True) f g) (limits : Limits)
    (q : Query) :
    ((∃ r, (f.compile limits q).outcome = .ok r) ↔
      ∃ s, (g.compile limits q).outcome = .ok s) ∧
    ∀ r s, (f.compile limits q).outcome = .ok r →
      (g.compile limits q).outcome = .ok s →
      r.Rearranged s ∧ (Reordered Apart f g → r.same s = true) := by
  have hperm : (f.nodes.map outline).Perm (g.nodes.map outline) :=
    h.perm_outlines 1
  refine ⟨?_, ?_⟩
  · simp only [compile_eq_ok_iff_extend, exists_and_left, exists_eq', and_true]
    exact ⟨compilable_of_perm hperm.symm, compilable_of_perm hperm⟩
  · intro r s hr hs
    obtain ⟨hcompilable, rfl⟩ := compile_eq_ok_iff_extend.1 hr
    obtain ⟨-, rfl⟩ := compile_eq_ok_iff_extend.1 hs
    exact ⟨rearranged_extend hperm hcompilable,
      fun hapart => same_extend_of_apart hapart hcompilable⟩

/-- A conjunction with another one inside. -/
private def inOrder : Filter :=
  .junction .all
    [.junction .all
      [.condition (.oneOf "platform" [.string "SB", .string "SA"]),
       .condition (.equals "sat:orbit_state" (.string "ascending"))],
     .condition (.equals "sat:relative_orbit" (.integer 17))]

/-- The same with the operands of both in another order. -/
private def turned : Filter :=
  .junction .all
    [.condition (.equals "sat:relative_orbit" (.integer 17)),
     .junction .all
      [.condition (.equals "sat:orbit_state" (.string "ascending")),
       .condition (.oneOf "platform" [.string "SB", .string "SA"])]]

/-- What the first one is compiled into. -/
private def inOrderLists : Query :=
  ⟨[("platform", [.string "SB", .string "SA"]),
      ("relativeOrbit", [.integer 17])],
    some .ascending, by simp⟩

/-- What the second one is compiled into. -/
private def turnedLists : Query :=
  ⟨[("relativeOrbit", [.integer 17]),
      ("platform", [.string "SB", .string "SA"])],
    some .ascending, by simp⟩

/-- Two operands change places. -/
private theorem reordered_pair {connective : Connective} {x x' y y' : Filter}
    (hallowed : allowed [x, y]) (hx : Reordered allowed x x')
    (hy : Reordered allowed y y') :
    Reordered allowed (.junction connective [x, y])
      (.junction connective [y', x']) := by
  have hinside : List.Forall₂ (Reordered allowed) [x, y] [x', y'] :=
    .cons hx (.cons hy .nil)
  exact .of_forall₂ hinside (.inr ⟨hallowed, .swap y' x' []⟩)

theorem compile_reordered_nested :
    inOrderLists.Rearranged turnedLists ∧ inOrderLists.same turnedLists = true ∧
      inOrderLists ≠ turnedLists := by
  have hapart : Reordered Apart inOrder turned := by
    refine reordered_pair (apart_of_pairwise (by decide)) ?_ (.condition _)
    exact reordered_pair (apart_of_pairwise (by decide)) (.condition _)
      (.condition _)
  have hany : Reordered (fun _ => True) inOrder turned :=
    hapart.mono fun _ _ => trivial
  have hok : (inOrder.compile default .empty).outcome = .ok inOrderLists := rfl
  have hok' : (turned.compile default .empty).outcome = .ok turnedLists := rfl
  obtain ⟨hrearranged, hsame⟩ :=
    (compile_reordered hany default .empty).2 _ _ hok hok'
  exact ⟨hrearranged, hsame hapart, by decide⟩

end Filter

end ItemSearch
