import Mathlib
import ItemSearch.Query.Item
import ItemSearch.Proofs.Query.Accumulation

/-!
# What a compiled filter means

A query asks that each of its fields have one of the listed values, so it loses
an item when a field is listed that the item satisfies no condition on.  A
filter over alternatives does this to an item that satisfies another
alternative, on another field.  The compiler notes such a junction and nothing
else, and that is enough: as long as no junction of alternatives touches two
fields, an item that satisfies a filter satisfies some condition on every field
that the filter touches.

## Main results

* `exists_accepting`: a condition that an item satisfies, for every field.
* `accepts_of_compile`: compiling without a warning loses no item.
-/

namespace ItemSearch

theorem Journaled.mem_notes_iff {ω ε α : Type} [Noted ω] {level : Level}
    {x : Journaled ω ε α} {note : Note} :
    note ∈ x.notes level ↔ ∃ event ∈ x.events,
      (Noted.level event).rank ≤ level.rank ∧
        (⟨Noted.level event, Noted.text event⟩ : Note) = note := by
  simp [Journaled.notes, and_assoc]

/-! ## Conditions and the fields that they touch -/

namespace Condition

/-- The condition is on the property of this field. -/
def Touches (c : Condition) (field : String) : Prop :=
  ∃ p, Property.find? c.property = some p ∧ p.field = field

theorem exists_touches_of_accepts {item : Item} {c : Condition}
    (h : c.accepts item = true) : ∃ field, c.Touches field := by
  unfold accepts at h
  cases hp : Property.find? c.property with
  | none =>
      rw [hp] at h
      cases h
  | some p => exact ⟨p.field, p, hp, rfl⟩

end Condition

namespace Filter

theorem mem_fieldsOf_iff {cs : List Condition} {field : String} :
    field ∈ fieldsOf cs ↔ ∃ c ∈ cs, c.Touches field := by
  unfold fieldsOf Condition.Touches
  rw [List.mem_eraseDups, List.mem_filterMap]
  simp only [Option.map_eq_some_iff]

/-! ## An accepting condition for every field -/

/-- A junction of alternatives that touches one field at most. -/
def Narrow (f : Filter) : Prop :=
  ∀ operands, f = .junction .any operands →
    ∀ field ∈ fieldsOf (operands.flatMap conditions),
      ∀ field' ∈ fieldsOf (operands.flatMap conditions), field = field'

/-- The item satisfies some condition of the filter, and some condition on each
field that the filter touches. -/
def Satisfied (item : Item) (f : Filter) : Prop :=
  (∃ c ∈ f.conditions, c.accepts item = true) ∧
    ∀ c ∈ f.conditions, ∀ field, c.Touches field →
      ∃ c' ∈ f.conditions, c'.accepts item = true ∧ c'.Touches field

theorem satisfied_all {item : Item} {operands : List Filter}
    (hne : operands ≠ [])
    (h : ∀ f ∈ operands, Satisfied item f) :
    Satisfied item (.junction .all operands) := by
  have hmem : ∀ {f c}, f ∈ operands → c ∈ f.conditions →
      c ∈ (junction .all operands).conditions := by
    intro f c hf hc
    rw [conditions_junction]
    exact List.mem_flatMap.2 ⟨f, hf, hc⟩
  refine ⟨?_, ?_⟩
  · obtain ⟨f, hf⟩ := List.exists_mem_of_ne_nil operands hne
    obtain ⟨c, hc, haccepts⟩ := (h f hf).1
    exact ⟨c, hmem hf hc, haccepts⟩
  · intro c hc field htouches
    rw [conditions_junction] at hc
    rcases List.mem_flatMap.1 hc with ⟨f, hf, hcf⟩
    obtain ⟨c', hc', haccepts, htouches'⟩ := (h f hf).2 c hcf field htouches
    exact ⟨c', hmem hf hc', haccepts, htouches'⟩

/-- Where alternatives touch one field only, a condition of the one that holds
is on that field. -/
theorem satisfied_any {item : Item} {operands : List Filter}
    (hnarrow : Narrow (.junction .any operands))
    (h : ∃ f ∈ operands, Satisfied item f) :
    Satisfied item (.junction .any operands) := by
  obtain ⟨f, hf, ⟨c', hc', haccepts⟩, -⟩ := h
  have hmem : c' ∈ operands.flatMap conditions :=
    List.mem_flatMap.2 ⟨f, hf, hc'⟩
  unfold Satisfied
  rw [conditions_junction]
  refine ⟨⟨c', hmem, haccepts⟩, ?_⟩
  intro c hc field htouches
  obtain ⟨field', htouches'⟩ := Condition.exists_touches_of_accepts haccepts
  obtain rfl : field = field' :=
    hnarrow operands rfl field (mem_fieldsOf_iff.2 ⟨c, hc, htouches⟩)
      field' (mem_fieldsOf_iff.2 ⟨c', hmem, htouches'⟩)
  exact ⟨c', hmem, haccepts, htouches'⟩

/-- An item that satisfies a filter without broad alternatives satisfies a
condition on every field that the filter touches. -/
theorem exists_accepting {item : Item} {f : Filter} {depth : Nat}
    (hoperands : ∀ node ∈ nodesFrom depth f, ∀ connective operands,
      node.2 = .junction connective operands → operands ≠ [])
    (hnarrow : ∀ node ∈ nodesFrom depth f, Narrow node.2)
    (haccepts : f.accepts item = true) : Satisfied item f := by
  induction f using induction generalizing depth with
  | condition c =>
      rw [accepts_condition] at haccepts
      unfold Satisfied
      rw [conditions_condition]
      refine ⟨⟨c, by simp, haccepts⟩, ?_⟩
      intro c' hc' field htouches
      obtain rfl := List.mem_singleton.1 hc'
      exact ⟨c', hc', haccepts, htouches⟩
  | junction connective operands ih =>
      rw [nodesFrom_junction] at hoperands hnarrow
      have hhere : (depth, junction connective operands) ∈
          (depth, junction connective operands) ::
            operands.flatMap (nodesFrom (depth + 1)) := by simp
      have hbelow :
          ∀ {f}, f ∈ operands → ∀ {node}, node ∈ nodesFrom (depth + 1) f →
          node ∈ (depth, junction connective operands) ::
            operands.flatMap (nodesFrom (depth + 1)) := by
        intro f hf node hnode
        exact List.mem_cons_of_mem _ (List.mem_flatMap.2 ⟨f, hf, hnode⟩)
      have hoperand :
          ∀ f ∈ operands, f.accepts item = true → Satisfied item f := by
        intro f hf hfAccepts
        exact ih f hf (fun node hnode => hoperands node (hbelow hf hnode))
          (fun node hnode => hnarrow node (hbelow hf hnode)) hfAccepts
      cases connective with
      | all =>
          rw [accepts_all, List.all_eq_true] at haccepts
          exact satisfied_all (hoperands _ hhere .all operands rfl)
            fun f hf => hoperand f hf (haccepts f hf)
      | any =>
          rw [accepts_any, List.any_eq_true] at haccepts
          obtain ⟨f, hf, hfAccepts⟩ := haccepts
          exact satisfied_any (hnarrow _ hhere) ⟨f, hf, hoperand f hf hfAccepts⟩

/-! ## The warning -/

/-- A junction that would have been noted is not there when nothing is noted. -/
theorem narrow_of_no_warning {limits : Limits} {f : Filter} {q r : Query}
    (hok : (f.compile limits q).outcome = .ok r)
    (hquiet : ∀ note ∈ (f.compile limits q).notes .trace, note.level ≠ .warn) :
    ∀ node ∈ f.nodes, Narrow node.2 := by
  intro node hnode operands hjunction field hfield field' hfield'
  by_cases hbroad : 1 < (fieldsOf (operands.flatMap conditions)).length
  · have hnoted :
        CompileEvent.acrossFields (fieldsOf (operands.flatMap conditions)) ∈
        nodeEvents node.2 := by
      rw [hjunction]
      simp [nodeEvents, noteAcrossFields, hbroad]
    have hevent :
        CompileEvent.acrossFields (fieldsOf (operands.flatMap conditions)) ∈
        (f.compile limits q).events := by
      rw [events_compile hok]
      simp only [List.mem_cons, List.mem_append, List.mem_flatMap]
      exact .inr (.inl ⟨node, hnode, hnoted⟩)
    have hrank : (Noted.level (CompileEvent.acrossFields
        (fieldsOf (operands.flatMap conditions)))).rank ≤ Level.trace.rank := by
      simp [Noted.level, Level.rank]
    have hnote := Journaled.mem_notes_iff.2 ⟨_, hevent, hrank, rfl⟩
    exact absurd rfl (hquiet _ hnote)
  · cases hfields : fieldsOf (operands.flatMap conditions) with
    | nil =>
        rw [hfields] at hfield
        cases hfield
    | cons first rest =>
        rw [hfields, List.length_cons] at hbroad
        obtain rfl : rest = [] := List.length_eq_zero_iff.1 (by omega)
        rw [hfields, List.mem_singleton] at hfield hfield'
        rw [hfield, hfield']

end Filter

/-! ## The reading of a query -/

namespace Query

/-- An item is found when each field that has values has the item's among them,
and the direction is the item's. -/
theorem accepts_iff {item : Item} {q : Query} :
    q.accepts item = true ↔
      (∀ field values, q.values? field = some values →
        ∃ value ∈ values, item.value field = some value) ∧
      ∀ d, q.direction = some d → item.direction = some d := by
  unfold accepts
  rw [Bool.and_eq_true, List.all_eq_true]
  refine and_congr ?_ ?_
  · simp only [values?_eq_some_iff, List.any_eq_true, beq_iff_eq, Prod.forall]
  · cases q.direction <;> simp

end Query

/-! ## What a condition adds is what it accepts -/

namespace Condition

variable {c : Condition} {p : Property} {item : Item}

/-- A property whose field takes values is not that of directions. -/
theorem kind_ne_of_coerce? {s : Scalar} {value : FieldValue}
    (h : p.kind.coerce? s = some value) : p.kind ≠ .orbitDirection := by
  intro hkind
  rw [hkind] at h
  cases s <;> cases h

/-- An item that satisfies a condition on a value list has one of the values. -/
theorem exists_entry_of_accepts (hp : Property.find? c.property = some p)
    (hkind : p.kind ≠ .orbitDirection) (h : c.accepts item = true) :
    ∃ value, (p.field, value) ∈ c.entries ∧
      item.value p.field = some value := by
  unfold accepts at h
  simp only [hp, List.any_eq_true] at h
  obtain ⟨s, hs, hhas⟩ := h
  rw [Item.has, if_neg hkind] at hhas
  cases hvalue : p.kind.coerce? s with
  | none =>
      rw [hvalue] at hhas
      cases hhas
  | some value =>
      rw [hvalue] at hhas
      exact ⟨value, mem_entries_iff.2 ⟨p, hp, rfl, s, hs, hvalue⟩,
        by simpa using hhas⟩

/-- An item that satisfies a condition on the direction has the direction that
is named. -/
theorem exists_direction_of_accepts (hp : Property.find? c.property = some p)
    (hkind : p.kind = .orbitDirection) (h : c.accepts item = true) :
    ∃ d ∈ c.directions, item.direction = some d := by
  unfold accepts at h
  simp only [hp, List.any_eq_true] at h
  obtain ⟨s, hs, hhas⟩ := h
  rw [Item.has, if_pos hkind] at hhas
  rw [directions_of_find? hp hkind]
  cases hd : p.direction s with
  | error e =>
      rw [hd] at hhas
      cases hhas
  | ok d =>
      rw [hd] at hhas
      refine ⟨d, List.mem_filterMap.2 ⟨s, hs, ?_⟩, by simpa using hhas⟩
      rw [hd]
      rfl

theorem exists_property_of_mem_directions {d : OrbitDirection}
    (h : d ∈ c.directions) :
    ∃ p, Property.find? c.property = some p ∧ p.kind = .orbitDirection := by
  unfold directions at h
  cases hp : Property.find? c.property with
  | none =>
      rw [hp] at h
      cases h
  | some p =>
      rw [hp] at h
      by_cases hkind : p.kind = .orbitDirection
      · exact ⟨p, rfl, hkind⟩
      · dsimp only at h
        rw [if_neg hkind] at h
        cases h

end Condition

namespace Filter

/-- A condition on a field that a filter touches, which the item satisfies, is
on the same property. -/
theorem exists_accepting_property {f : Filter} {item : Item} {c : Condition}
    {p : Property}
    (hsatisfied : Satisfied item f) (hc : c ∈ f.conditions)
    (hp : Property.find? c.property = some p) :
    ∃ c' ∈ f.conditions, c'.accepts item = true ∧
      Property.find? c'.property = some p := by
  obtain ⟨c', hc', haccepts, p', hp', hfield⟩ :=
    hsatisfied.2 c hc p.field ⟨p, hp, rfl⟩
  have hmem := Property.mem_table_of_find? hp
  have hmem' := Property.mem_table_of_find? hp'
  exact ⟨c', hc', haccepts, Property.eq_of_field_eq hmem' hmem hfield ▸ hp'⟩

/-- An item that satisfies a condition on each field of a compilable filter is
found by what the filter adds up to. -/
theorem accepts_of_satisfied {limits : Limits} {f : Filter} {item : Item}
    (hcompilable : f.Compilable limits .empty) (hsatisfied : Satisfied item f) :
    (Query.empty.extend f.entries f.directions).accepts item = true := by
  refine Query.accepts_iff.2 ⟨?_, ?_⟩
  · intro field values hvalues
    rw [Query.values?_extend] at hvalues
    split at hvalues
    · rename_i hmem
      obtain rfl := Option.some.inj hvalues
      rcases List.mem_map.1 hmem with ⟨⟨_, value⟩, hentry, rfl⟩
      rcases List.mem_flatMap.1 hentry with ⟨c, hc, hcEntry⟩
      rcases Condition.mem_entries_iff.1 hcEntry with ⟨p, hp, rfl, s, -, hvalue⟩
      obtain ⟨c', hc', haccepts, hp'⟩ :=
        exists_accepting_property hsatisfied hc hp
      obtain ⟨value', hentry', hitem⟩ := Condition.exists_entry_of_accepts hp'
        (Condition.kind_ne_of_coerce? hvalue) haccepts
      refine ⟨value', List.mem_append_right _ ?_, hitem⟩
      exact ValueLists.mem_valuesFor_iff.2
        (List.mem_flatMap.2 ⟨c', hc', hentry'⟩)
    · cases hvalues
  · intro d hd
    have hmem : d ∈ f.directions := List.mem_of_mem_head? hd
    rcases List.mem_flatMap.1 hmem with ⟨c, hc, hcDirection⟩
    obtain ⟨p, hp, hkind⟩ :=
      Condition.exists_property_of_mem_directions hcDirection
    obtain ⟨c', hc', haccepts, hp'⟩ :=
      exists_accepting_property hsatisfied hc hp
    obtain ⟨d', hd', hitem⟩ :=
      Condition.exists_direction_of_accepts hp' hkind haccepts
    have hmem' : d' ∈ f.directions := List.mem_flatMap.2 ⟨c', hc', hd'⟩
    rwa [hcompilable.directions d' hmem' d hmem] at hitem

/-- **Compiling without a warning loses no item**: whatever satisfies the filter
is found by the query. -/
theorem accepts_of_compile {limits : Limits} {f : Filter} {r : Query}
    (hok : (f.compile limits .empty).outcome = .ok r)
    (hquiet : ∀ note ∈ (f.compile limits .empty).notes .trace,
      note.level ≠ .warn)
    (item : Item) (haccepts : f.accepts item = true) :
    r.accepts item = true := by
  rcases compile_eq_ok_iff_extend.1 hok with ⟨hcompilable, rfl⟩
  have hnarrow := narrow_of_no_warning hok hquiet
  exact accepts_of_satisfied hcompilable
    (exists_accepting hcompilable.operands hnarrow haccepts)

/-- Alternatives on one field, and a direction. -/
private def alternatives : Filter :=
  .junction .all
    [.junction .any
      [.condition (.equals "platform" (.string "SA")),
       .condition (.oneOf "platform" [.string "SB", .string "SC"])],
     .condition (.equals "sat:orbit_state" (.string "Ascending"))]

/-- What the alternatives compile into. -/
private def listed : Query :=
  ⟨[("platform", [.string "SA", .string "SB", .string "SC"])], some .ascending,
   by simp⟩

/-- An item that satisfies the second alternative. -/
private def found : Item :=
  ⟨fun field =>
      if field = "platform" then
        some (.string "SB")
      else
        none, some .ascending⟩

theorem accepts_of_compile_alternatives :
    alternatives.accepts found = true ∧ listed.accepts found = true := by
  have hok : (alternatives.compile default .empty).outcome = .ok listed := rfl
  have hquiet : ∀ note ∈ (alternatives.compile default .empty).notes .trace,
      note.level ≠ .warn := by decide
  have haccepts : alternatives.accepts found = true := by decide
  exact ⟨haccepts, accepts_of_compile hok hquiet found haccepts⟩

end Filter

end ItemSearch
