import Mathlib
import ItemSearch.Proofs.Query.Meaning

/-!
# Filters that a query expresses exactly

A query finds items that a filter does not hold for as soon as two operands of a
conjunction are on one field: their values are listed together, and the list is
read as alternatives.  Where no two operands have a listed field in common this
does not happen.  A listed value of the item then stems from the operand that is
on the field, so that an item that a conjunction's query finds is found by that
of every operand.  The direction needs no such condition, since all conditions
on it name the same one.

A junction of alternatives that touches one field is read as it is meant,
because the item's value stems from one of the operands.

## Main results

* `listed_all`, `exists_listed_any`: what a junction lists, by its operands.
* `accepts_of_listed`: an item that has listed values everywhere satisfies the
  filter.
* `accepts_iff_of_compile`: which filters a query expresses exactly.
-/

namespace ItemSearch

namespace Condition

variable {item : Item} {c : Condition}

theorem accepts_of_mem_entries {field : String} {value : FieldValue}
    (h : (field, value) ∈ c.entries) (hitem : item.value field = some value) :
    c.accepts item = true := by
  obtain ⟨p, hp, rfl, s, hs, hvalue⟩ := mem_entries_iff.1 h
  have hhas : item.has p s = true := by
    rw [Item.has, if_neg (kind_ne_of_coerce? hvalue), hvalue]
    simpa using hitem
  rw [accepts, hp]
  exact List.any_eq_true.2 ⟨s, hs, hhas⟩

theorem accepts_of_mem_directions {d : OrbitDirection} (h : d ∈ c.directions)
    (hitem : item.direction = some d) : c.accepts item = true := by
  obtain ⟨p, hp, hkind⟩ := exists_property_of_mem_directions h
  rw [directions_of_find? hp hkind, List.mem_filterMap] at h
  obtain ⟨s, hs, hd⟩ := h
  have hdirection : p.direction s = .ok d := by
    cases hs : p.direction s with
    | error e =>
        rw [hs] at hd
        cases hd
    | ok d' =>
        rw [hs] at hd
        exact congrArg _ (Option.some.inj hd)
  have hhas : item.has p s = true := by
    rw [Item.has, if_pos hkind, hdirection]
    simpa using hitem
  rw [accepts, hp]
  exact List.any_eq_true.2 ⟨s, hs, hhas⟩

/-- An admissible condition lists a value or names a direction. -/
theorem exists_entry_or_direction {limits : Limits} (h : c.Admissible limits) :
    (∃ entry, entry ∈ c.entries) ∨ ∃ d, d ∈ c.directions := by
  obtain ⟨p, hp, hname, hvalues⟩ := h
  have hfind : Property.find? c.property = some p :=
    Property.find?_eq_some_iff.2 ⟨hp, hname⟩
  obtain ⟨s, hs, htakes⟩ : ∃ s ∈ c.scalars, p.kind.Takes s := by
    cases c with
    | equals name value => exact ⟨value, List.mem_singleton_self value, hvalues⟩
    | oneOf name values =>
        obtain ⟨⟨hlength, -⟩, -, hall⟩ := hvalues
        obtain ⟨s, hs⟩ := List.exists_mem_of_length_pos hlength
        exact ⟨s, hs, hall s hs⟩
  rcases htakes with ⟨value, hvalue⟩ | ⟨hkind, d, hd⟩
  · have hcoerce := FieldKind.coerce?_eq_some_iff.2 hvalue
    exact .inl ⟨(p.field, value),
      mem_entries_iff.2 ⟨p, hfind, rfl, s, hs, hcoerce⟩⟩
  · refine .inr ⟨d, ?_⟩
    rw [directions_of_find? hfind hkind, List.mem_filterMap]
    exact ⟨s, hs, by rw [Property.direction_eq_ok_iff.2 hd]; rfl⟩

/-- Values are never listed for the direction. -/
theorem ne_directionField_of_mem_entries {field : String} {value : FieldValue}
    (h : (field, value) ∈ c.entries) :
    c.Touches field ∧ field ≠ Property.directionField := by
  obtain ⟨p, hp, rfl, s, -, hvalue⟩ := mem_entries_iff.1 h
  refine ⟨⟨p, hp, rfl⟩, fun hfield => ?_⟩
  exact kind_ne_of_coerce? hvalue
    ((Property.field_eq_directionField_iff (Property.mem_table_of_find? hp)).1
      hfield)

end Condition

namespace Filter

variable {item : Item}

/-- Some condition of the filter is on the property of this field. -/
def Touches (f : Filter) (field : String) : Prop :=
  ∃ c ∈ f.conditions, c.Touches field

/-- A junction of which all operands have to hold has no two different ones on
the same field, other than that of the direction. -/
def Separate (f : Filter) : Prop :=
  ∀ operands, f = .junction .all operands →
    ∀ g ∈ operands, ∀ h ∈ operands, g ≠ h →
      ∀ field, field ≠ Property.directionField →
        ¬ (g.Touches field ∧ h.Touches field)

/-- The item has one of the values that are listed for each field, and all
directions that are named. -/
structure Listed (item : Item) (f : Filter) : Prop where
  value : ∀ field v, (field, v) ∈ f.entries →
    ∃ v', (field, v') ∈ f.entries ∧ item.value field = some v'
  direction : ∀ d ∈ f.directions, item.direction = some d

theorem touches_of_mem_entries {f : Filter} {field : String}
    {value : FieldValue}
    (h : (field, value) ∈ f.entries) :
    f.Touches field ∧ field ≠ Property.directionField := by
  obtain ⟨c, hc, hentry⟩ := List.mem_flatMap.1 h
  obtain ⟨htouches, hne⟩ := Condition.ne_directionField_of_mem_entries hentry
  exact ⟨⟨c, hc, htouches⟩, hne⟩

/-- No two operands are on the same field, other than that of the direction. -/
def Apart (operands : List Filter) : Prop :=
  operands.Pairwise fun f g =>
    ∀ field, field ≠ Property.directionField →
      ¬ (f.Touches field ∧ g.Touches field)

/-- Operands whose lists of fields are disjoint, but for the direction, are
apart. -/
theorem apart_of_pairwise {operands : List Filter}
    (h : operands.Pairwise fun f g =>
      ∀ field ∈ f.fields, field ∈ g.fields → field = Property.directionField) :
    Apart operands := by
  refine h.imp fun {f g} hfields field hne htouches => hne (hfields field ?_ ?_)
  · exact mem_fieldsOf_iff.2 htouches.1
  · exact mem_fieldsOf_iff.2 htouches.2

/-- Operands that are apart at every two places are separate where they
differ. -/
theorem Apart.separate {operands : List Filter} (h : Apart operands) :
    Separate (.junction .all operands) := by
  intro operands' heq g hg g' hg' hdiffer
  obtain ⟨-, rfl⟩ := junction.inj heq
  have hsymm : Std.Symm fun f g : Filter =>
      ∀ field, field ≠ Property.directionField →
        ¬ (f.Touches field ∧ g.Touches field) :=
    ⟨fun f g hfg field hne htouches => hfg field hne htouches.symm⟩
  exact h.forall hg hg' hdiffer

/-- Operands that are on different fields, one by one, are separate. -/
theorem separate_of_pairwise {operands : List Filter}
    (h : operands.Pairwise fun g h =>
      ∀ field ∈ g.fields, field ∈ h.fields → field = Property.directionField) :
    Separate (.junction .all operands) :=
  (apart_of_pairwise h).separate

theorem separate_condition (c : Condition) : Separate (.condition c) := by
  intro operands h
  cases h

theorem separate_any (operands : List Filter) :
    Separate (.junction .any operands) := by
  intro operands' h
  cases h

/-! ## Junctions -/

/-- The value that an item has in a field of a conjunction is listed by the one
operand that is on the field. -/
theorem listed_all {operands : List Filter}
    (hseparate : Separate (.junction .all operands))
    (h : Listed item (.junction .all operands)) :
    ∀ g ∈ operands, Listed item g := by
  obtain ⟨hvalue, hdirection⟩ := h
  rw [entries_junction] at hvalue
  rw [directions_junction] at hdirection
  intro g hg
  refine ⟨fun field v hv => ?_,
    fun d hd => hdirection d (List.mem_flatMap.2 ⟨g, hg, hd⟩)⟩
  obtain ⟨v', hv', hitem⟩ := hvalue field v (List.mem_flatMap.2 ⟨g, hg, hv⟩)
  obtain ⟨g', hg', hentry⟩ := List.mem_flatMap.1 hv'
  obtain ⟨htouches, hne⟩ := touches_of_mem_entries hv
  obtain ⟨htouches', -⟩ := touches_of_mem_entries hentry
  have hsame : g = g' := by
    by_contra hdiffer
    exact hseparate operands rfl g hg g' hg' hdiffer field hne
      ⟨htouches, htouches'⟩
  exact ⟨v', hsame ▸ hentry, hitem⟩

/-- Where alternatives touch one field only, the value that an item has in it is
listed by one of them; and where none is listed, any of them will do. -/
theorem exists_listed_any {operands : List Filter} (hne : operands ≠ [])
    (hnarrow : Narrow (.junction .any operands))
    (h : Listed item (.junction .any operands)) :
    ∃ g ∈ operands, Listed item g := by
  obtain ⟨hvalue, hdirection⟩ := h
  rw [entries_junction] at hvalue
  rw [directions_junction] at hdirection
  have hdirections :
      ∀ g ∈ operands, ∀ d ∈ g.directions, item.direction = some d :=
    fun g hg d hd => hdirection d (List.mem_flatMap.2 ⟨g, hg, hd⟩)
  have hfield : ∀ {g field v}, g ∈ operands → (field, v) ∈ g.entries →
      field ∈ fieldsOf (operands.flatMap conditions) := by
    intro g field v hg hv
    obtain ⟨⟨c, hc, htouches⟩, -⟩ := touches_of_mem_entries hv
    exact mem_fieldsOf_iff.2 ⟨c, List.mem_flatMap.2 ⟨g, hg, hc⟩, htouches⟩
  cases hentries : operands.flatMap entries with
  | nil =>
      obtain ⟨g, hg⟩ := List.exists_mem_of_ne_nil operands hne
      refine ⟨g, hg, fun field v hv => ?_, hdirections g hg⟩
      have hmem := List.mem_flatMap.2 ⟨g, hg, hv⟩
      rw [hentries] at hmem
      cases hmem
  | cons entry rest =>
      obtain ⟨v, hv, hitem⟩ := hvalue entry.1 entry.2 (by simp [hentries])
      obtain ⟨g, hg, hentry⟩ := List.mem_flatMap.1 hv
      refine ⟨g, hg, fun field w hw => ?_, hdirections g hg⟩
      obtain rfl : field = entry.1 :=
        hnarrow operands rfl field (hfield hg hw) entry.1 (hfield hg hentry)
      exact ⟨v, hentry, hitem⟩

/-! ## Whole filters -/

/-- What keeps the query of a filter from finding other items at one of its
nodes. -/
structure Faithful (f : Filter) : Prop where
  operands :
    ∀ connective operands, f = .junction connective operands → operands ≠ []
  narrow : Narrow f
  separate : Separate f

/-- **An item that has listed values everywhere satisfies the filter.** -/
theorem accepts_of_listed {limits : Limits} {f : Filter} {depth : Nat}
    (hadmissible : ∀ c ∈ f.conditions, c.Admissible limits)
    (hfaithful : ∀ node ∈ nodesFrom depth f, Faithful node.2)
    (h : Listed item f) :
    f.accepts item = true := by
  induction f using induction generalizing depth with
  | condition c =>
      rw [accepts_condition]
      have hc : c.Admissible limits := hadmissible c (by simp)
      obtain ⟨hvalue, hdirection⟩ := h
      simp only [entries, directions, conditions_condition,
        List.flatMap_singleton]
        at hvalue hdirection
      rcases Condition.exists_entry_or_direction hc with
          ⟨⟨field, v⟩, hentry⟩ | ⟨d, hd⟩
      · obtain ⟨v', hentry', hitem⟩ := hvalue field v hentry
        exact Condition.accepts_of_mem_entries hentry' hitem
      · exact Condition.accepts_of_mem_directions hd (hdirection d hd)
  | junction connective operands ih =>
      rw [nodesFrom_junction, List.forall_mem_cons,
        List.forall_mem_flatMap] at hfaithful
      obtain ⟨⟨hne, hnarrow, hseparate⟩, hbelow⟩ := hfaithful
      have hoperand :
          ∀ g ∈ operands, Listed item g → g.accepts item = true := by
        intro g hg hlisted
        refine ih g hg (fun c hc => hadmissible c ?_) (hbelow g hg) hlisted
        rw [conditions_junction]
        exact List.mem_flatMap.2 ⟨g, hg, hc⟩
      cases connective with
      | all =>
          rw [accepts_all, List.all_eq_true]
          exact fun g hg => hoperand g hg (listed_all hseparate h g hg)
      | any =>
          rw [accepts_any, List.any_eq_true]
          obtain ⟨g, hg, hlisted⟩ :=
            exists_listed_any (hne .any operands rfl) hnarrow h
          exact ⟨g, hg, hoperand g hg hlisted⟩

/-- An item that is found by what a compilable filter adds up to has listed
values everywhere. -/
theorem listed_of_accepts {limits : Limits} {f : Filter}
    (hcompilable : f.Compilable limits .empty)
    (h : (Query.empty.extend f.entries f.directions).accepts item = true) :
    Listed item f := by
  obtain ⟨hvalues, hdirection⟩ := Query.accepts_iff.1 h
  refine ⟨fun field v hv => ?_, fun d hd => ?_⟩
  · have hfield : field ∈ f.entries.map Prod.fst := List.mem_map_of_mem hv
    have hlist : (Query.empty.extend f.entries f.directions).values? field =
        some (ValueLists.valuesFor field f.entries) := by
      rw [Query.values?_extend, if_pos hfield]
      rfl
    obtain ⟨v', hv', hitem⟩ := hvalues field _ hlist
    exact ⟨v', ValueLists.mem_valuesFor_iff.1 hv', hitem⟩
  · obtain ⟨first, hfirst⟩ : ∃ first, f.directions.head? = some first :=
      Option.isSome_iff_exists.1 (by simpa using List.ne_nil_of_mem hd)
    rw [hcompilable.directions d hd first (List.mem_of_mem_head? hfirst)]
    exact hdirection first hfirst

/-- **A query expresses a filter exactly** when nothing is noted and no two
operands of a conjunction share a listed field: it finds the items that the
filter holds for, and no others. -/
theorem accepts_iff_of_compile {limits : Limits} {f : Filter} {r : Query}
    (hok : (f.compile limits .empty).outcome = .ok r)
    (hquiet : ∀ note ∈ (f.compile limits .empty).notes .trace,
      note.level ≠ .warn)
    (hseparate : ∀ node ∈ f.nodes, Separate node.2) (item : Item) :
    r.accepts item = true ↔ f.accepts item = true := by
  obtain ⟨hcompilable, rfl⟩ := compile_eq_ok_iff_extend.1 hok
  have hnarrow := narrow_of_no_warning hok hquiet
  constructor
  · intro h
    have hfaithful :
        ∀ node ∈ nodesFrom 1 f, Faithful node.2 := fun node hnode =>
      ⟨hcompilable.operands node hnode, hnarrow node hnode,
       hseparate node hnode⟩
    exact accepts_of_listed hcompilable.conditions hfaithful
      (listed_of_accepts hcompilable h)
  · intro h
    exact accepts_of_satisfied hcompilable
      (exists_accepting hcompilable.operands hnarrow h)

/-- Alternatives on one field inside a conjunction, and one direction named
twice. -/
private def nested : Filter :=
  .junction .all
    [.junction .any
      [.condition (.equals "platform" (.string "SA")),
       .junction .all
        [.condition (.oneOf "platform" [.string "SB", .string "SC"])]],
     .condition (.equals "sat:relative_orbit" (.integer 17)),
     .condition (.equals "sat:orbit_state" (.string "ascending")),
     .condition (.equals "sat:orbit_state" (.string "ASCENDING"))]

/-- What the conjunction compiles into. -/
private def nestedLists : Query :=
  ⟨[("platform", [.string "SA", .string "SB", .string "SC"]),
      ("relativeOrbit", [.integer 17])],
    some .ascending, by simp⟩

/-- An item of the second alternative. -/
private def foundNested : Item where
  value field :=
    if field = "platform" then some (.string "SC")
    else if field = "relativeOrbit" then some (.integer 17)
    else none
  direction := some .ascending

theorem accepts_iff_of_compile_nested :
    nestedLists.accepts foundNested = true ∧
      nested.accepts foundNested = true := by
  have hok : (nested.compile default .empty).outcome = .ok nestedLists := rfl
  have hquiet :
      ∀ note ∈ (nested.compile default .empty).notes .trace,
        note.level ≠ .warn := by
    decide
  have hseparate : ∀ node ∈ nested.nodes, Separate node.2 := by
    simp only [nested, nodes, nodesFrom_junction, nodesFrom_condition,
      List.flatMap_cons,
      List.flatMap_nil, List.cons_append, List.nil_append, List.forall_mem_cons,
      separate_condition, separate_any, true_and]
    exact ⟨separate_of_pairwise (by decide), separate_of_pairwise (by decide),
      by simp⟩
  have hfound : nestedLists.accepts foundNested = true := by decide
  exact ⟨hfound,
    (accepts_iff_of_compile hok hquiet hseparate foundNested).1 hfound⟩

end Filter

end ItemSearch
