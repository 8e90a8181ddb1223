import Mathlib
import ItemSearch.Proofs.Query.Exactness

/-!
# The fields of a filter and of its query

The compiler collects the fields of a filter without a look at its values, to
see whether alternatives are across fields.  The query comes by its fields in
another way, when the values of the conditions are added to it.  Both go through
the conditions from left to right and do the same at each of them: a field that
is new is put behind the others.  Only the direction is collected and not
listed, since it has a place of its own in the query.

## Main results

* `listsFields_iff`: the fields that are collected, by what the conditions
  touch.
* `fieldNames_extend_of_touches`: what one condition does to the fields of a
  query.
* `fieldNames_extend_flatMap`: what any number of them does.
* `isOn_fields_of_compile`: a query is on the fields that its filter touches.
-/

namespace ItemSearch

/-- All names but one, and that one. -/
theorem length_eq_length_filter_ne {names : List String} (h : names.Nodup)
    (name : String) :
    names.length =
      (names.filter fun other => other ≠ name).length + if name ∈ names then 1
        else 0 := by
  have herase : names.erase name = names.filter fun other => other ≠ name := by
    rw [h.erase_eq_filter]
    exact List.filter_congr fun other _ => by simp [bne, Bool.beq_eq_decide_eq]
  rw [← herase]
  split
  · rename_i hmem
    rw [List.length_erase_of_mem hmem]
    have hpos := List.length_pos_of_mem hmem
    omega
  · rename_i hnew
    rw [List.erase_of_not_mem hnew]
    rfl

namespace Condition

/-- A condition is on one field at most. -/
theorem Touches.eq {c : Condition} {a b : String} (ha : c.Touches a)
    (hb : c.Touches b) :
    a = b := by
  obtain ⟨p, hp, rfl⟩ := ha
  obtain ⟨p', hp', rfl⟩ := hb
  rw [hp] at hp'
  exact congrArg Property.field (Option.some.inj hp')

end Condition

namespace Filter

/-! ## The order in which fields come up -/

section Order

variable {cs : List Condition} {c : Condition} {a b field : String}

/-- Some condition is on the first field, and none up to it is on the second
one. -/
def ComesBefore (cs : List Condition) (a b : String) : Prop :=
  ∃ before c after, cs = before ++ c :: after ∧ c.Touches a ∧
    ∀ c' ∈ before ++ [c], ¬ c'.Touches b

theorem ComesBefore.append (h : ComesBefore cs a b) (more : List Condition) :
    ComesBefore (cs ++ more) a b := by
  obtain ⟨before, c, after, rfl, htouches, hnone⟩ := h
  exact ⟨before, c, after ++ more, by simp, htouches, hnone⟩

theorem ComesBefore.ne (h : ComesBefore cs a b) : a ≠ b := by
  rintro rfl
  obtain ⟨before, c, after, -, htouches, hnone⟩ := h
  exact hnone c (by simp) htouches

/-- Of two conditions of a list, the one that stands first is found up to the
other one. -/
theorem mem_concat_of_cons_eq {mid after after' : List Condition}
    {c' : Condition}
    (h : c :: after = mid ++ c' :: after') : c ∈ mid ++ [c'] := by
  cases mid with
  | nil => simp [(List.cons.inj h).1]
  | cons first mid => simp [(List.cons.inj h).1]

theorem ComesBefore.asymm (h : ComesBefore cs a b) : ¬ ComesBefore cs b a := by
  obtain ⟨before, c, after, rfl, htouches, hnone⟩ := h
  rintro ⟨before', c', after', hsplit, htouches', hnone'⟩
  rcases List.append_eq_append_iff.1 hsplit with
      ⟨mid, rfl, hmid⟩ | ⟨mid, rfl, hmid⟩
  · refine hnone' c ?_ htouches
    rw [List.append_assoc]
    exact List.mem_append_right _ (mem_concat_of_cons_eq hmid)
  · refine hnone c' ?_ htouches'
    rw [List.append_assoc]
    exact List.mem_append_right _ (mem_concat_of_cons_eq hmid)

/-- One more condition puts its field behind the others, if it is new. -/
theorem fieldsOf_concat_of_touches (h : c.Touches field) :
    fieldsOf (cs ++ [c]) =
      if field ∈ fieldsOf cs then fieldsOf cs else fieldsOf cs ++ [field] := by
  have hfield : (Property.find? c.property).map Property.field = some field :=
    Option.map_eq_some_iff.2 h
  have hone : ∀ other ∈ [field], other = field := by simp
  simp only [fieldsOf, List.filterMap_append, List.filterMap_cons, hfield,
    List.filterMap_nil,
    List.mem_eraseDups, eraseDups_append_of_forall_eq hone, List.cons_ne_nil,
    false_or]

theorem fieldsOf_concat_of_not_touches (h : ¬ ∃ field, c.Touches field) :
    fieldsOf (cs ++ [c]) = fieldsOf cs := by
  have hnone : (Property.find? c.property).map Property.field = none := by
    rw [Option.eq_none_iff_forall_ne_some]
    exact fun field hfield => h ⟨field, Option.map_eq_some_iff.1 hfield⟩
  rw [fieldsOf, List.filterMap_append, List.filterMap_cons, hnone,
    List.filterMap_nil, List.append_nil, fieldsOf]

/-- **The fields of conditions stand in the order in which they come up.** -/
theorem pairwise_fieldsOf (cs : List Condition) :
    (fieldsOf cs).Pairwise (ComesBefore cs) := by
  -- from the end, since the last condition is the one that adds a field
  induction cs using List.reverseRec with
  | nil => exact .nil
  | append_singleton cs c ih =>
      have hold : (fieldsOf cs).Pairwise (ComesBefore (cs ++ [c])) :=
        ih.imp fun h => h.append [c]
      by_cases htouches : ∃ field, c.Touches field
      · obtain ⟨field, hfield⟩ := htouches
        rw [fieldsOf_concat_of_touches hfield]
        split
        · exact hold
        · rename_i hnew
          refine List.pairwise_append.2 ⟨hold, List.pairwise_singleton _ _, ?_⟩
          intro a ha b hb
          obtain rfl := List.mem_singleton.1 hb
          obtain ⟨c', hc', htouches'⟩ := mem_fieldsOf_iff.1 ha
          obtain ⟨before, after, rfl⟩ := List.append_of_mem hc'
          refine ⟨before, c', after ++ [c],
            by simp, htouches', fun c'' hc'' h => ?_⟩
          -- a field that is new is not touched anywhere before
          have hmem : c'' ∈ before ++ c' :: after :=
            List.mem_append.2 ((List.mem_append.1 hc'').imp_right
              (by simp +contextual))
          exact hnew (mem_fieldsOf_iff.2 ⟨c'', hmem, h⟩)
      · rw [fieldsOf_concat_of_not_touches htouches]
        exact hold

end Order

/-- The list has the fields that the filter touches, each one once and in the
order in which they come up. -/
structure ListsFields (f : Filter) (fields : List String) : Prop where
  touched : ∀ field, field ∈ fields ↔ f.Touches field
  nodup : fields.Nodup
  order : fields.Pairwise (ComesBefore f.conditions)

/-- **The fields that are collected** are the only list of this kind. -/
theorem listsFields_iff {f : Filter} {fields : List String} :
    f.ListsFields fields ↔ fields = f.fields := by
  have horder : f.fields.Pairwise (ComesBefore f.conditions) :=
    pairwise_fieldsOf f.conditions
  have hnodup : f.fields.Nodup := horder.imp ComesBefore.ne
  have htouched : ∀ field, field ∈ f.fields ↔ f.Touches field :=
    fun field => mem_fieldsOf_iff
  constructor
  · intro h
    have hperm : fields.Perm f.fields :=
      (List.perm_ext_iff_of_nodup h.nodup hnodup).2 fun field =>
        by rw [h.touched, htouched]
    exact hperm.eq_of_pairwise
      (fun a b _ _ hab hba => absurd hba hab.asymm) h.order horder
  · rintro rfl
    exact ⟨htouched, hnodup, horder⟩

theorem listsFields_fields (f : Filter) : f.ListsFields f.fields :=
  listsFields_iff.2 rfl

end Filter

/-! ## The fields of a query -/

namespace Condition

variable {limits : Limits} {c : Condition} {field : String}

/-- An admissible condition has a value to list unless it is on the
direction. -/
theorem entries_eq_nil_iff_of_touches (hc : c.Admissible limits)
    (h : c.Touches field) :
    c.entries = [] ↔ field = Property.directionField := by
  constructor
  · intro hnil
    rcases exists_entry_or_direction hc with ⟨entry, hentry⟩ | ⟨d, hd⟩
    · rw [hnil] at hentry
      cases hentry
    · obtain ⟨p, hp, hkind⟩ := exists_property_of_mem_directions hd
      rw [h.eq ⟨p, hp, rfl⟩]
      exact (Property.field_eq_directionField_iff
        (Property.mem_table_of_find? hp)).2 hkind
  · rintro rfl
    rw [List.eq_nil_iff_forall_not_mem]
    intro ⟨field', value⟩ hentry
    obtain ⟨htouches, hne⟩ := ne_directionField_of_mem_entries hentry
    exact hne (htouches.eq h)

/-- An admissible condition names a direction if it is on that. -/
theorem directions_ne_nil_iff (hc : c.Admissible limits) :
    c.directions ≠ [] ↔ c.Touches Property.directionField := by
  constructor
  · intro h
    obtain ⟨d, hd⟩ := List.exists_mem_of_ne_nil _ h
    obtain ⟨p, hp, hkind⟩ := exists_property_of_mem_directions hd
    exact ⟨p, hp,
      (Property.field_eq_directionField_iff (Property.mem_table_of_find? hp)).2
        hkind⟩
  · intro h
    rcases exists_entry_or_direction hc with ⟨entry, hentry⟩ | ⟨d, hd⟩
    · rw [(entries_eq_nil_iff_of_touches hc h).2 rfl] at hentry
      cases hentry
    · exact List.ne_nil_of_mem hd

end Condition

namespace Query

variable {limits : Limits} {cs : List Condition} {c : Condition}
  {field : String}

/-- **One condition** puts its field behind the others, if it is new and not
that of the direction. -/
theorem fieldNames_extend_of_touches (hc : c.Admissible limits)
    (h : c.Touches field)
    (q : Query) :
    (q.extend c.entries c.directions).fieldNames =
      if field = Property.directionField ∨ field ∈ q.fieldNames then
        q.fieldNames
      else q.fieldNames ++ [field] := by
  have hall : ∀ name ∈ c.entries.map Prod.fst, name = field := by
    intro name hname
    obtain ⟨⟨_, value⟩, hentry, rfl⟩ := List.mem_map.1 hname
    exact (Condition.ne_directionField_of_mem_entries hentry).1.eq h
  have hold : q.fieldNames.eraseDups = q.fieldNames :=
    eraseDups_of_nodup q.nodup
  rw [fieldNames_extend, eraseDups_append_of_forall_eq hall, hold]
  simp only [List.map_eq_nil_iff, Condition.entries_eq_nil_iff_of_touches hc h]

/-- **A run over conditions** lists the fields that are collected from them, but
for that of the direction. -/
theorem fieldNames_extend_flatMap (h : ∀ c ∈ cs, c.Admissible limits) :
    (Query.empty.extend (cs.flatMap Condition.entries)
        (cs.flatMap Condition.directions)).fieldNames =
      (Filter.fieldsOf cs).filter fun field =>
        field ≠ Property.directionField := by
  induction cs using List.reverseRec with
  | nil => rfl
  | append_singleton cs c ih =>
      obtain ⟨hcs, hlast⟩ := List.forall_mem_append.1 h
      have hc : c.Admissible limits := hlast c (by simp)
      obtain ⟨p, hp, hname, -⟩ := id hc
      have htouches : c.Touches p.field :=
        ⟨p, Property.find?_eq_some_iff.2 ⟨hp, hname⟩, rfl⟩
      rw [List.flatMap_append, List.flatMap_append, List.flatMap_singleton,
        List.flatMap_singleton, ← extend_extend,
        fieldNames_extend_of_touches hc htouches,
        ih hcs, Filter.fieldsOf_concat_of_touches htouches]
      by_cases hmem : p.field ∈ Filter.fieldsOf cs
      · have hold : p.field = Property.directionField ∨
            p.field ∈ (Filter.fieldsOf cs).filter fun field =>
              field ≠ Property.directionField := by
          by_cases hdirection : p.field = Property.directionField
          · exact .inl hdirection
          · exact .inr (List.mem_filter.2 ⟨hmem, decide_eq_true hdirection⟩)
        rw [if_pos hmem, if_pos hold]
      · rw [if_neg hmem, List.filter_append]
        by_cases hdirection : p.field = Property.directionField
        · simp [hdirection]
        · simp [hdirection, hmem]

/-- The query is on just these fields, the direction counted as one of them. -/
structure IsOn (q : Query) (fields : List String) : Prop where
  listed :
    fields.filter (fun field => field ≠ Property.directionField) = q.fieldNames
  direction : Property.directionField ∈ fields ↔ q.direction.isSome
  size : fields.length = q.size

end Query

namespace Filter

/-- **A query is on the fields that its filter touches**, if nothing was there
before. -/
theorem isOn_fields_of_compile {limits : Limits} {f : Filter} {r : Query}
    (h : (f.compile limits .empty).outcome = .ok r) : r.IsOn f.fields := by
  obtain ⟨hcompilable, hr⟩ := compile_eq_ok_iff_extend.1 h
  have hadmissible := hcompilable.conditions
  have hlisted :
      f.fields.filter (fun field => field ≠ Property.directionField) =
      r.fieldNames := by
    rw [← hr]
    exact (Query.fieldNames_extend_flatMap hadmissible).symm
  have hdirection :
      Property.directionField ∈ f.fields ↔ r.direction.isSome := by
    have hnamed :
        f.directions ≠ [] ↔ ∃ c ∈ f.conditions, c.directions ≠ [] := by
      simp [directions, List.flatMap_eq_nil_iff]
    rw [← hr, Query.direction_extend, List.isSome_head?, fields,
      mem_fieldsOf_iff]
    show _ ↔ f.directions ≠ []
    rw [hnamed]
    exact exists_congr fun c => and_congr_right fun hc =>
      (Condition.directions_ne_nil_iff (hadmissible c hc)).symm
  refine ⟨hlisted, hdirection, ?_⟩
  have hlists : r.fieldNames.length = r.lists.length := List.length_map _
  have hcount : (if Property.directionField ∈ f.fields then 1 else 0) =
      r.direction.toList.length := by
    cases hd : r.direction <;> simp [hdirection, hd]
  rw [length_eq_length_filter_ne
    (listsFields_fields f).nodup Property.directionField, hlisted,
    hlists, hcount]
  rfl

end Filter

end ItemSearch
