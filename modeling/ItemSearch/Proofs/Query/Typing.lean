import Mathlib
import ItemSearch.Proofs.Query.Accumulation

/-!
# The types of compiled queries

A query by itself takes any value for any field.  One that has been compiled
does not: its fields are those of the property table, none of them is listed
without a value, and the values of a field are of the kind that the table says.
This rests on the compiler alone.  Whatever a condition adds has been coerced
for the field that it is added to, and what a failing filter has added by then
is thrown away, so each attempt to compile a filter keeps the types, and so does
any run of attempts.

## Main results

* `wellTyped_extend`: what keeps the types when values are added.
* `wellTyped_after`: an attempt keeps them.
* `typed_ofAttempts`: what can be relied on in a query that comes of attempts.
-/

namespace ItemSearch

/-! ## Values of a kind -/

/-- The value is what some scalar stands for in a field of the kind. -/
def FieldKind.Holds (kind : FieldKind) (value : FieldValue) : Prop :=
  ∃ s, kind.Coerces s value

theorem FieldKind.exists_integer {value : FieldValue}
    (h : FieldKind.integerSet.Holds value) : ∃ n, value = .integer n := by
  obtain ⟨_, hs⟩ := h
  cases hs with
  | integer n => exact ⟨n, rfl⟩
  | float _ _ => exact ⟨_, rfl⟩

theorem FieldKind.Holds.exists_string {kind : FieldKind} {value : FieldValue}
    (hkind : kind ≠ .integerSet) (h : kind.Holds value) :
    ∃ s, value = .string s := by
  obtain ⟨_, hs⟩ := h
  cases hs with
  | text s => exact ⟨s, rfl⟩
  | textSet s => exact ⟨s, rfl⟩
  | integer n => exact absurd rfl hkind
  | float _ _ => exact absurd rfl hkind

theorem FieldKind.not_holds_orbitDirection (value : FieldValue) :
    ¬ FieldKind.orbitDirection.Holds value := by
  rintro ⟨s, hs⟩
  cases hs

/-- The field is in the table, and the value is of its kind. -/
def Property.Admits (field : String) (value : FieldValue) : Prop :=
  ∃ p ∈ table, p.field = field ∧ p.kind.Holds value

theorem Property.holds_of_admits {p : Property} (hp : p ∈ table)
    {value : FieldValue}
    (h : Admits p.field value) : p.kind.Holds value := by
  obtain ⟨p', hp', hfield, holds⟩ := h
  rwa [eq_of_field_eq hp' hp hfield] at holds

/-- What the conditions of a filter add is admitted for the field that it is
added to. -/
theorem Filter.admits_of_mem_entries {f : Filter} {field : String}
    {value : FieldValue}
    (h : (field, value) ∈ f.entries) : Property.Admits field value := by
  obtain ⟨c, -, hc⟩ := List.mem_flatMap.1 h
  obtain ⟨p, hp, hfield, s, -, hvalue⟩ := Condition.mem_entries_iff.1 hc
  exact ⟨p, Property.mem_table_of_find? hp, hfield, s,
    FieldKind.coerce?_eq_some_iff.1 hvalue⟩

namespace Query

variable {q : Query}

/-! ## The types are kept -/

/-- Each field that is listed has a value, and only values that are admitted for
it. -/
def WellTyped (q : Query) : Prop :=
  ∀ field values, q.values? field = some values →
    values ≠ [] ∧ ∀ v ∈ values, Property.Admits field v

theorem wellTyped_empty : WellTyped empty := by
  intro field values h
  cases h

/-- Values that are admitted for the fields that they are added to keep the
types. -/
theorem wellTyped_extend (hq : q.WellTyped)
    {entries : List (String × FieldValue)}
    (hentries : ∀ field value, (field, value) ∈ entries →
      Property.Admits field value)
    (directions : List OrbitDirection) :
    (q.extend entries directions).WellTyped := by
  intro field values hvalues
  rw [values?_extend] at hvalues
  by_cases hmem : field ∈ entries.map Prod.fst
  · rw [if_pos hmem] at hvalues
    obtain rfl := Option.some.inj hvalues
    obtain ⟨⟨_, value⟩, hentry, rfl⟩ := List.mem_map.1 hmem
    have hadded := List.ne_nil_of_mem (ValueLists.mem_valuesFor_iff.2 hentry)
    refine ⟨List.append_ne_nil_of_right_ne_nil _ hadded, ?_⟩
    intro v hv
    rcases List.mem_append.1 hv with hold | hnew
    · cases hlisted : q.values? _ with
      | none =>
          rw [hlisted] at hold
          cases hold
      | some old =>
          rw [hlisted] at hold
          exact (hq _ old hlisted).2 v hold
    · exact hentries _ v (ValueLists.mem_valuesFor_iff.1 hnew)
  · rw [if_neg hmem] at hvalues
    exact hq field values hvalues

/-- **An attempt to compile a filter keeps the types**, whether it succeeds or
not. -/
theorem wellTyped_after (limits : Limits) (hq : q.WellTyped) (f : Filter) :
    (q.after limits f).WellTyped := by
  cases h : (f.compile limits q).outcome with
  | ok r =>
      obtain ⟨-, rfl⟩ := Filter.compile_eq_ok_iff_extend.1 h
      rw [after_of_ok h]
      exact wellTyped_extend hq (fun _ _ => Filter.admits_of_mem_entries) _
  | error e =>
      rw [after_of_error h]
      exact hq

/-- The query that attempts lead to, one after the other from the one that asks
for nothing, each with limits of its own. -/
def ofAttempts (attempts : List (Limits × Filter)) : Query :=
  attempts.foldl (fun q attempt => q.after attempt.1 attempt.2) empty

theorem wellTyped_ofAttempts (attempts : List (Limits × Filter)) :
    (ofAttempts attempts).WellTyped := by
  have hrun : ∀ {q : Query}, q.WellTyped →
      (attempts.foldl (fun q attempt => q.after attempt.1 attempt.2)
        q).WellTyped := by
    induction attempts with
    | nil => exact fun hq => hq
    | cons attempt attempts ih =>
        exact fun hq => ih (wellTyped_after attempt.1 hq attempt.2)
  exact hrun wellTyped_empty

/-! ## What the types say about pairs -/

theorem map_fst_pairs (q : Query) :
    q.pairs.map Prod.fst =
      q.fieldNames ++ q.direction.toList.map fun _ =>
        Property.directionField := by
  simp [pairs, fieldNames, Function.comp_def]

/-- The members of the JSON form are in the order of the pairs. -/
theorem exists_members_toJson (q : Query) :
    ∃ members, q.toJson = .object members ∧
      members.map Prod.fst = q.pairs.map Prod.fst := by
  refine ⟨_, rfl, ?_⟩
  simp [pairs, Function.comp_def]

theorem length_pairs (q : Query) : q.pairs.length = q.size := by
  simp [pairs, size]

theorem exists_values_of_mem_fieldNames {field : String}
    (h : field ∈ q.fieldNames) :
    ∃ values, q.values? field = some values := by
  obtain ⟨⟨_, values⟩, hmem, rfl⟩ := List.mem_map.1 h
  exact ⟨values, values?_eq_some_iff.2 hmem⟩

theorem WellTyped.exists_admitted (h : q.WellTyped) {field : String}
    {values : List FieldValue} (hvalues : q.values? field = some values) :
    ∃ v ∈ values, Property.Admits field v := by
  obtain ⟨hne, hadmits⟩ := h field values hvalues
  obtain ⟨v, hv⟩ := List.exists_mem_of_ne_nil values hne
  exact ⟨v, hv, hadmits v hv⟩

/-- The field of the direction has no list. -/
theorem WellTyped.directionField_not_mem (h : q.WellTyped) :
    Property.directionField ∉ q.fieldNames := by
  intro hmem
  obtain ⟨values, hvalues⟩ := exists_values_of_mem_fieldNames hmem
  obtain ⟨v, -, p, hp, hfield, holds⟩ := h.exists_admitted hvalues
  have hkind : p.kind = .orbitDirection :=
    (Property.field_eq_directionField_iff hp).1 hfield
  exact FieldKind.not_holds_orbitDirection v (hkind ▸ holds)

theorem WellTyped.nodup_pairs (h : q.WellTyped) :
    (q.pairs.map Prod.fst).Nodup := by
  rw [map_fst_pairs]
  have hfields : q.fieldNames.Nodup := q.nodup
  cases q.direction with
  | none => simpa using hfields
  | some d =>
      refine List.Nodup.append hfields (by simp) ?_
      simpa using h.directionField_not_mem

/-- A pair is that of a listed field, or it is the last one and that of the
direction. -/
theorem mem_pairs_iff {pair : String × List String} :
    pair ∈ q.pairs ↔
      (∃ field values, (field, values) ∈ q.lists ∧
        (field, values.map FieldValue.text) = pair) ∨
      ∃ d, q.direction = some d ∧
        (Property.directionField, [d.text]) = pair := by
  simp [pairs, eq_comm]

/-- The pair of the direction is the last one and names one direction. -/
theorem WellTyped.direction_last (h : q.WellTyped) {pair : String × List String}
    {before later : List (String × List String)}
    (hsplit : q.pairs = before ++ pair :: later)
    (hpair : pair.1 = Property.directionField) :
    later = [] ∧ ∃ d : OrbitDirection, pair.2 = [d.text] := by
  have hmem : pair ∈ q.pairs := by simp [hsplit]
  rcases mem_pairs_iff.1 hmem with ⟨field, values, hlisted, rfl⟩ | ⟨d, hd, rfl⟩
  · exact absurd (hpair ▸ List.mem_map_of_mem hlisted) h.directionField_not_mem
  · refine ⟨?_, d, rfl⟩
    rcases List.eq_nil_or_concat later with rfl | ⟨rest, last, rfl⟩
    · rfl
    -- a pair behind it would be the last one, so that of the direction again
    have hlast :
        q.pairs.getLast? = some (Property.directionField, [d.text]) := by
      simp [pairs, hd]
    have hlater : q.pairs.getLast? = some last := by
      rw [hsplit, List.concat_eq_append, ← List.cons_append,
        ← List.append_assoc, List.getLast?_concat]
    obtain rfl := Option.some.inj (hlater.symm.trans hlast)
    have hnodup := h.nodup_pairs
    rw [hsplit] at hnodup
    simp [List.nodup_append] at hnodup

/-- What can be relied on in a query that has been compiled. -/
structure Typed (q : Query) : Prop where
  /-- No field comes up twice among the pairs. -/
  nodup : (q.pairs.map Prod.fst).Nodup
  /-- Every pair is about a field of the table, -/
  fields : ∀ pair ∈ q.pairs, ∃ p ∈ Property.table, p.field = pair.1
  /-- and has a value. -/
  nonempty : ∀ pair ∈ q.pairs, pair.2 ≠ []
  /-- The orbit fields have integers, -/
  integers : ∀ field ∈ ["relativeOrbit", "absoluteOrbit"],
    ∀ values, q.values? field = some values → ∀ v ∈ values, ∃ n, v = .integer n
  /-- and the other fields have texts. -/
  strings :
    ∀ field ∈ ["beamMode", "polarization", "processingLevel", "platform"],
      ∀ values, q.values? field = some values → ∀ v ∈ values, ∃ s, v = .string s
  /-- The direction has no list, -/
  direction_unlisted : "flightDirection" ∉ q.fieldNames
  /-- and no pair but the last one, with one value. -/
  direction_last : ∀ before pair later, q.pairs = before ++ pair :: later →
    pair.1 = "flightDirection" →
      later = [] ∧ pair.2 ∈ [["ASCENDING"], ["DESCENDING"]]
  /-- The size counts the pairs. -/
  size : q.size = q.pairs.length
  /-- No member of the JSON form comes up twice. -/
  members : ∃ members, q.toJson = .object members ∧ (members.map Prod.fst).Nodup

theorem WellTyped.typed (h : q.WellTyped) : q.Typed where
  nodup := h.nodup_pairs
  fields := by
    intro pair hpair
    rcases mem_pairs_iff.1 hpair with
        ⟨field, values, hlisted, rfl⟩ | ⟨d, -, rfl⟩
    · obtain ⟨-, -, p, hp, hfield, -⟩ :=
        h.exists_admitted (values?_eq_some_iff.2 hlisted)
      exact ⟨p, hp, hfield⟩
    · exact ⟨⟨"sat:orbit_state", Property.directionField, .orbitDirection⟩,
        by decide, rfl⟩
  nonempty := by
    intro pair hpair
    rcases mem_pairs_iff.1 hpair with
        ⟨field, values, hlisted, rfl⟩ | ⟨d, -, rfl⟩
    · simpa using (h field values (values?_eq_some_iff.2 hlisted)).1
    · simp
  integers := by
    intro field hfield values hvalues v hv
    have htable : ∀ field ∈ ["relativeOrbit", "absoluteOrbit"],
        ∃ p ∈ Property.table, p.field = field ∧ p.kind = .integerSet := by
          decide
    obtain ⟨p, hp, rfl, hkind⟩ := htable field hfield
    have holds := Property.holds_of_admits hp ((h _ values hvalues).2 v hv)
    exact FieldKind.exists_integer (hkind ▸ holds)
  strings := by
    intro field hfield values hvalues v hv
    have htable :
        ∀ field ∈ ["beamMode", "polarization", "processingLevel", "platform"],
        ∃ p ∈ Property.table, p.field = field ∧ p.kind ≠ .integerSet := by
          decide
    obtain ⟨p, hp, rfl, hkind⟩ := htable field hfield
    exact (Property.holds_of_admits hp
      ((h _ values hvalues).2 v hv)).exists_string hkind
  direction_unlisted := h.directionField_not_mem
  direction_last := by
    intro before pair later hsplit hpair
    obtain ⟨hlater, d, hd⟩ := h.direction_last hsplit hpair
    refine ⟨hlater, ?_⟩
    rw [hd]
    cases d <;> decide
  size := (length_pairs q).symm
  members := by
    obtain ⟨members, hmembers, hkeys⟩ := exists_members_toJson q
    exact ⟨members, hmembers, hkeys ▸ h.nodup_pairs⟩

/-- **What can be relied on in a query that comes of attempts** to compile
filters, in whatever order they succeed and fail. -/
theorem typed_ofAttempts (attempts : List (Limits × Filter)) :
    (ofAttempts attempts).Typed :=
  (wellTyped_ofAttempts attempts).typed

end Query

end ItemSearch
