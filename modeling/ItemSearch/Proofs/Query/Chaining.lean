import Mathlib
import ItemSearch.Proofs.Query.Sequence

/-!
# Chains of calls

Filters are built by calls, each of which joins one more filter to what is
there.  As long as the calls are of one connective they go on filling the
operands of one junction, and what the chain starts from is taken apart if it is
such a junction itself.  So a chain does not nest deeper the longer it gets.

An operand stands one level deeper than the chain, and what the chain starts
from may have been taken apart.  Neither shows when the chain is compiled: it
comes to what its links come to one after the other, or it is refused for the
first link that is refused.

## Main results

* `chain_eq_junction`: a chain is one junction.
* `exists_depth_junction`: how deep a junction nests.
* `compileInTurn_spread`: what a chain starts from may be taken apart.
* `outcome_compile_chain`: a chain is compiled as the sequence of its links.
* `compile_chain`: the same, with the shape of the chain and what it leaves
  behind.
-/

namespace ItemSearch.Filter

open Outcome

variable {limits : Limits} {q : Query} {connective : Connective} {f : Filter}
  {fs : List Filter}

/-! ## The shape of a chain -/

/-- The call that joins one more filter. -/
def call : Connective → Filter → Filter → Filter
  | .all => Filter.and
  | .any => Filter.or

theorem call_eq_join (connective : Connective) :
    call connective = join connective := by
  cases connective <;> rfl

/-- Calls of one connective, one after the other, from a first filter on. -/
def chain (connective : Connective) (f : Filter) (fs : List Filter) : Filter :=
  fs.foldl (call connective) f

/-- What a first filter contributes to the operands of a chain: its own operands
if it is a junction of the same sort, else itself. -/
def spread (connective : Connective) : Filter → List Filter
  | .junction c operands =>
      if c = connective then
        operands
      else
        [.junction c operands]
  | .condition c => [.condition c]

theorem spread_junction_same (operands : List Filter) :
    (junction connective operands).spread connective = operands :=
  if_pos rfl

theorem spread_junction_of_ne {c : Connective} (h : c ≠ connective)
    (operands : List Filter) :
    (junction c operands).spread connective = [.junction c operands] :=
  if_neg h

theorem join_eq_junction (connective : Connective) (f g : Filter) :
    f.join connective g = junction connective (f.spread connective ++ [g]) := by
  cases f with
  | condition c => rfl
  | junction c operands =>
      by_cases hsame : c = connective
      · subst hsame
        rw [join_same, spread_junction_same]
      · rw [spread_junction_of_ne hsame, join, if_neg hsame]
        rfl

/-- **A chain is one junction**, however long it is. -/
theorem chain_eq_junction (hne : fs ≠ []) :
    chain connective f fs =
      junction connective (f.spread connective ++ fs) := by
  unfold chain
  rw [call_eq_join]
  induction fs generalizing f with
  | nil => exact absurd rfl hne
  | cons g rest ih =>
      rw [List.foldl_cons, join_eq_junction]
      cases rest with
      | nil => rfl
      | cons next rest =>
          rw [ih (List.cons_ne_nil next rest), spread_junction_same,
            List.append_assoc, List.singleton_append]

/-- Among some filters there is one that nests as deep as the deepest of
them. -/
theorem exists_depth_eq_operandDepth (hne : fs ≠ []) :
    ∃ f ∈ fs, f.depth = operandDepth fs := by
  induction fs with
  | nil => exact absurd rfl hne
  | cons g rest ih =>
      rw [operandDepth]
      by_cases hfirst : operandDepth rest ≤ g.depth
      · exact ⟨g, by simp, (Nat.max_eq_left hfirst).symm⟩
      · have hrest : rest ≠ [] := by
          rintro rfl
          exact hfirst (Nat.zero_le _)
        obtain ⟨deepest, hmem, hdepth⟩ := ih hrest
        refine ⟨deepest, by simp [hmem], ?_⟩
        rw [hdepth, Nat.max_eq_right (Nat.le_of_not_le hfirst)]

/-- A junction nests one level deeper than the deepest of its operands. -/
theorem exists_depth_junction {operands : List Filter} (hne : operands ≠ []) :
    ∃ deepest ∈ operands,
      (junction connective operands).depth = 1 + deepest.depth ∧
      ∀ g ∈ operands, g.depth ≤ deepest.depth := by
  obtain ⟨deepest, hmem, hdepth⟩ := exists_depth_eq_operandDepth hne
  refine ⟨deepest, hmem, ?_, ?_⟩
  · rw [depth, hdepth, Nat.add_comm]
  · rw [← operandDepth_le_iff, hdepth]

/-! ## Compiling a chain -/

/-- Filters that are compiled one after the other, each into what the one before
it left; the first one that is refused ends it. -/
def compileInTurn (limits : Limits) (q : Query) (fs : List Filter) :
    Except FilterError Query :=
  fs.foldlM (fun q f => (f.compile limits q).outcome) q

/-- What a chain starts from may be taken apart: its operands come to what it
comes to itself, unless there are none. -/
theorem compileInTurn_spread (hne : f ≠ junction connective [])
    (hdepth : ∀ g ∈ f.spread connective, g.depth < limits.depth) :
    compileInTurn limits q (f.spread connective) =
      (f.compile limits q).outcome := by
  have hone : ∀ g :
      Filter, compileInTurn limits q [g] = (g.compile limits q).outcome := by
    intro g
    rw [compileInTurn, List.foldlM_cons]
    simp only [List.foldlM_nil, bind_pure]
  cases f with
  | condition c => exact hone _
  | junction c operands =>
      by_cases hsame : c = connective
      · subst hsame
        rw [spread_junction_same] at hdepth ⊢
        have hoperands : operands ≠ [] := by
          rintro rfl
          exact hne rfl
        exact (outcome_compile_junction hoperands hdepth).symm
      · rw [spread_junction_of_ne hsame]
        exact hone _

/-- **A chain is compiled as the sequence of its links**, as long as it does not
nest too deep and does not start from a junction of its own sort that has no
operands. -/
theorem outcome_compile_chain (hfs : fs ≠ []) (hne : f ≠ junction connective [])
    (hdepth : (chain connective f fs).depth ≤ limits.depth) :
    ((chain connective f fs).compile limits q).outcome =
      compileInTurn limits q (f :: fs) := by
  rw [chain_eq_junction hfs] at hdepth ⊢
  have hoperands : f.spread connective ++ fs ≠ [] := by simp [hfs]
  have hbelow : ∀ g ∈ f.spread connective ++ fs, g.depth < limits.depth := by
    intro g hg
    obtain ⟨deepest, -, hchain, hall⟩ := exists_depth_junction hoperands
    have hle := hall g hg
    rw [hchain] at hdepth
    omega
  have hfirst :=
    compileInTurn_spread (q := q) hne fun g hg =>
      hbelow g (List.mem_append_left _ hg)
  rw [outcome_compile_junction hoperands hbelow, List.foldlM_append]
  unfold compileInTurn at hfirst ⊢
  rw [hfirst, List.foldlM_cons]

/-- **A chain of calls**: it is one junction, which nests one level deeper than
the deepest operand; it compiles into what its links come to one after the
other; and where one of them is refused, it is refused for the first such one,
with the query left as it was. -/
theorem compile_chain (limits : Limits) (q : Query) (connective : Connective)
    (f : Filter) {fs : List Filter} (hfs : fs ≠ []) :
    chain connective f fs = junction connective (f.spread connective ++ fs) ∧
    (∃ deepest ∈ f.spread connective ++ fs,
      (chain connective f fs).depth = 1 + deepest.depth ∧
        ∀ g ∈ f.spread connective ++ fs, g.depth ≤ deepest.depth) ∧
    ((chain connective f fs).depth ≤ limits.depth → f ≠ junction connective [] →
      (∀ r, ((chain connective f fs).compile limits q).outcome = .ok r ↔
        compileInTurn limits q (f :: fs) = .ok r) ∧
      (∀ e, ((chain connective f fs).compile limits q).outcome = .error e ↔
        ∃ before link after r, f :: fs = before ++ link :: after ∧
          compileInTurn limits q before = .ok r ∧
          (link.compile limits r).outcome = .error e) ∧
      (∀ e, ((chain connective f fs).compile limits q).outcome = .error e →
        q.after limits (chain connective f fs) = q)) := by
  have hshape :
      chain connective f fs = junction connective (f.spread connective ++ fs) :=
    chain_eq_junction hfs
  refine ⟨hshape, ?_, fun hdepth hne => ?_⟩
  · rw [hshape]
    exact exists_depth_junction (by simp [hfs])
  · have houtcome := outcome_compile_chain (q := q) hfs hne hdepth
    refine ⟨fun r =>
      by rw [houtcome], fun e => ?_, fun e => Query.after_of_error⟩
    rw [houtcome]
    exact foldlM_eq_error_iff

/-- Alternatives within one field. -/
private def oneOfTwo : Filter :=
  .junction .any
    [.condition (.equals "platform" (.string "SA")),
     .condition (.equals "platform" (.string "SB"))]

/-- Two directions, of which the second one is not the first. -/
private def bothDirections : List Filter :=
  [.condition (.equals "sat:orbit_state" (.string "ascending")),
   .condition (.equals "sat:orbit_state" (.string "Descending"))]

/-- Limits that the chain of these just keeps to. -/
private def threeLevels : Limits :=
  .atLeastOne (some 3) none

theorem compile_chain_conflict :
    (chain .all oneOfTwo bothDirections).depth = 3 ∧
      ((chain .all oneOfTwo bothDirections).compile
        threeLevels .empty).outcome =
          .error (.directionConflict .ascending .descending) ∧
      Query.empty.after threeLevels (chain .all oneOfTwo bothDirections) =
        .empty := by
  have hdepth : (chain .all oneOfTwo bothDirections).depth = 3 := by decide
  have hlevels :
      (chain .all oneOfTwo bothDirections).depth ≤ threeLevels.depth := by
    decide
  have hother : oneOfTwo ≠ .junction .all [] := by
    intro h
    cases h
  obtain ⟨-, hrefused, hkept⟩ :=
    (compile_chain threeLevels .empty .all oneOfTwo
      (List.cons_ne_nil _ _ : bothDirections ≠ [])).2.2 hlevels hother
  have houtcome := (hrefused (.directionConflict .ascending .descending)).2
    ⟨[oneOfTwo, .condition (.equals "sat:orbit_state" (.string "ascending"))],
      _, [], _, rfl, rfl, rfl⟩
  exact ⟨hdepth, houtcome, hkept _ houtcome⟩

end ItemSearch.Filter
