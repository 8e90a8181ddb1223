import Mathlib
import ItemSearch.Query.Basic

/-!
# Queries as accumulations

All that happens to a query is that values are added to the lists of fields and
that a direction is named.  `Query.extend` does any number of such steps at
once, and its three observations say what a query holds afterwards: which fields
in which order, which values for each, and which direction.  These observations
determine a query, because no field has two lists.

## Main results

* `extend_extend`: one accumulation after the other.
* `fieldNames_extend`, `values?_extend`, `direction_extend`: what an
  accumulation holds.
* `Query.ext_of_observations`: queries that hold the same are the same.
-/

namespace ItemSearch

/-! ## Names without repetition -/

/-- A list that has no repetition loses nothing. -/
theorem eraseDups_of_nodup {names : List String} (h : names.Nodup) :
    names.eraseDups = names := by
  induction names with
  | nil => rfl
  | cons name rest ih =>
      rcases List.nodup_cons.1 h with ⟨hnew, hrest⟩
      have hkeep : rest.filter (fun other => !other == name) = rest := by
        rw [List.filter_eq_self]
        intro other hother
        have hne : other ≠ name := by
          intro heq
          subst heq
          exact hnew hother
        simpa using hne
      rw [List.eraseDups_cons, hkeep, ih hrest]

/-- A name that has come up before makes no difference. -/
theorem eraseDups_append_cons_of_mem {names : List String} {name : String}
    (h : name ∈ names) (rest : List String) :
    (names ++ name :: rest).eraseDups = (names ++ rest).eraseDups := by
  have hgone : (name :: rest).removeAll names = rest.removeAll names := by
    rw [List.cons_removeAll]
    simp [h]
  rw [List.eraseDups_append, List.eraseDups_append, hgone]

/-- However often a name is put behind others, it comes up once if it is new,
and else it makes no difference. -/
theorem eraseDups_append_of_forall_eq {names more : List String} {name : String}
    (h : ∀ other ∈ more, other = name) :
    (names ++ more).eraseDups =
      if more = [] ∨ name ∈ names then
        names.eraseDups
      else
        names.eraseDups ++ [name] := by
  induction more generalizing names with
  | nil => simp
  | cons other rest ih =>
      obtain ⟨rfl, hrest⟩ := List.forall_mem_cons.1 h
      by_cases hmem : other ∈ names
      · rw [eraseDups_append_cons_of_mem hmem, ih hrest]
        simp [hmem]
      · have hnew :
            (names ++ [other]).eraseDups = names.eraseDups ++ [other] := by
          rw [List.eraseDups_append, List.cons_removeAll]
          simp [hmem, List.eraseDups_cons]
        have hsplit : names ++ other :: rest = (names ++ [other]) ++ rest := by
          simp
        rw [hsplit, ih hrest, hnew]
        simp [hmem]

/-! ## Value lists -/

namespace ValueLists

/-- The lists with values added one by one, each to the list of its field. -/
def pushAll (entries : List (String × FieldValue)) (lists : ValueLists) :
    ValueLists :=
  entries.foldl (fun lists entry => lists.push entry.1 entry.2) lists

theorem pushAll_append (entries more : List (String × FieldValue))
    (lists : ValueLists) :
    pushAll (entries ++ more) lists = pushAll more (pushAll entries lists) :=
  List.foldl_append

theorem nodup_pushAll {entries : List (String × FieldValue)}
    {lists : ValueLists}
    (h : (lists.map Prod.fst).Nodup) :
    ((pushAll entries lists).map Prod.fst).Nodup := by
  induction entries generalizing lists with
  | nil => exact h
  | cons entry entries ih => exact ih (nodup_push h)

/-- New fields stand behind the old ones, in the order in which they come up. -/
theorem map_fst_pushAll {entries : List (String × FieldValue)}
    {lists : ValueLists}
    (h : (lists.map Prod.fst).Nodup) :
    (pushAll entries lists).map Prod.fst =
      (lists.map Prod.fst ++ entries.map Prod.fst).eraseDups := by
  induction entries generalizing lists with
  | nil =>
      rw [List.map_nil, List.append_nil, eraseDups_of_nodup h]
      rfl
  | cons entry entries ih =>
      obtain ⟨field, value⟩ := entry
      have hstep : pushAll ((field, value) :: entries) lists =
          pushAll entries (lists.push field value) := rfl
      rw [hstep, ih (nodup_push h), map_fst_push, List.map_cons]
      split
      · rename_i hmem
        rw [eraseDups_append_cons_of_mem hmem]
      · rw [List.append_assoc, List.singleton_append]

/-- The values that are meant for a field. -/
def valuesFor (field : String) (entries : List (String × FieldValue)) :
    List FieldValue :=
  (entries.filter (·.1 = field)).map Prod.snd

theorem mem_valuesFor_iff {field : String} {value : FieldValue}
    {entries : List (String × FieldValue)} :
    value ∈ valuesFor field entries ↔ (field, value) ∈ entries := by
  simp [valuesFor]

/-- A field that no value is meant for is left as it is; the others have their
old values first and the new ones behind them. -/
theorem lookup_pushAll (entries : List (String × FieldValue))
    (lists : ValueLists)
    (field : String) :
    (pushAll entries lists).lookup field =
      if field ∈ entries.map Prod.fst then
        some ((lists.lookup field).getD [] ++ valuesFor field entries)
      else lists.lookup field := by
  induction entries generalizing lists with
  | nil => simp [pushAll]
  | cons entry entries ih =>
      obtain ⟨field', value⟩ := entry
      have hstep : pushAll ((field', value) :: entries) lists =
          pushAll entries (lists.push field' value) := rfl
      rw [hstep, ih, lookup_push]
      by_cases hsame : field = field'
      · subst hsame
        by_cases hmem : field ∈ entries.map Prod.fst
        · simp [hmem, valuesFor]
        · have hnone : entries.filter (·.1 = field) = [] := by
            rw [List.filter_eq_nil_iff]
            intro entry hentry hfield
            exact hmem (List.mem_map.2 ⟨entry, hentry, by simpa using hfield⟩)
          simp [hmem, valuesFor, hnone]
      · have hother : ¬ field' = field := fun h => hsame h.symm
        have hmem : field ∈ ((field', value) :: entries).map Prod.fst ↔
            field ∈ entries.map Prod.fst := by
          rw [List.map_cons, List.mem_cons, or_iff_right hsame]
        have hvalues : valuesFor field ((field', value) :: entries) =
            valuesFor field entries := by
          simp [valuesFor, hother]
        rw [if_neg hsame, hvalues]
        simp only [hmem]

theorem lookup_eq_none_of_not_mem {lists : ValueLists} {field : String}
    (h : field ∉ lists.map Prod.fst) : lists.lookup field = none := by
  rw [List.lookup_eq_none_iff]
  intro entry hentry
  have hne : field ≠ entry.1 := by
    intro heq
    subst heq
    exact h (List.mem_map_of_mem hentry)
  simpa using hne

/-- A field has the values that are listed for it, since no field has two
lists. -/
theorem lookup_eq_some_iff {lists : ValueLists} (h : (lists.map Prod.fst).Nodup)
    {field : String} {values : List FieldValue} :
    lists.lookup field = some values ↔ (field, values) ∈ lists := by
  rw [List.lookup_eq_some_iff]
  constructor
  · rintro ⟨before, after, rfl, -⟩
    simp
  · intro hmem
    obtain ⟨before, after, rfl⟩ := List.append_of_mem hmem
    refine ⟨before, after, rfl, ?_⟩
    rw [List.map_append, List.map_cons, List.nodup_append] at h
    intro entry hentry
    have hne : entry.1 ≠ field :=
      h.2.2 entry.1 (List.mem_map_of_mem hentry) field (by simp)
    exact bne_iff_ne.2 hne.symm

/-- Lists with the same fields in the same order and the same values are the
same. -/
theorem eq_of_lookup {lists lists' : ValueLists}
    (h : (lists.map Prod.fst).Nodup)
    (hfields : lists.map Prod.fst = lists'.map Prod.fst)
    (hlookup : ∀ field, lists.lookup field = lists'.lookup field) :
    lists = lists' := by
  induction lists generalizing lists' with
  | nil => exact (List.map_eq_nil_iff.1 hfields.symm).symm
  | cons entry rest ih =>
      obtain ⟨field, values⟩ := entry
      cases lists' with
      | nil => cases hfields
      | cons entry' rest' =>
          obtain ⟨field', values'⟩ := entry'
          obtain ⟨rfl, hrest⟩ := List.cons.inj hfields
          rcases List.nodup_cons.1 h with ⟨hnew, hnodup⟩
          have hvalues := hlookup field
          simp only [List.lookup_cons, beq_self_eq_true] at hvalues
          obtain rfl := Option.some.inj hvalues
          have htail : ∀ name, rest.lookup name = rest'.lookup name := by
            intro name
            by_cases hname : name = field
            · subst hname
              rw [lookup_eq_none_of_not_mem hnew,
                lookup_eq_none_of_not_mem (hrest ▸ hnew)]
            · have hbeq : (name == field) = false := beq_false_of_ne hname
              simpa only [List.lookup_cons, hbeq] using hlookup name
          rw [ih hnodup hrest htail]

end ValueLists

/-! ## Queries -/

namespace Query

/-- The query with values added and with directions named, of which the first
one counts if there is none yet. -/
def extend (q : Query) (entries : List (String × FieldValue))
    (directions : List OrbitDirection) : Query :=
  ⟨q.lists.pushAll entries, (q.direction.toList ++ directions).head?,
    ValueLists.nodup_pushAll q.nodup⟩

theorem eq_of_parts {q r : Query} (hlists : q.lists = r.lists)
    (hdirection : q.direction = r.direction) : q = r := by
  cases q
  cases r
  cases hlists
  cases hdirection
  rfl

@[simp] theorem extend_nil (q : Query) : q.extend [] [] = q := by
  refine eq_of_parts rfl ?_
  cases hq : q.direction <;> simp [extend, hq]

theorem extend_extend (q : Query) (entries more : List (String × FieldValue))
    (directions further : List OrbitDirection) :
    (q.extend entries directions).extend more further =
      q.extend (entries ++ more) (directions ++ further) := by
  refine eq_of_parts (ValueLists.pushAll_append _ _ _).symm ?_
  simp only [extend, ← List.append_assoc]
  cases q.direction.toList ++ directions <;> simp

theorem extend_push (q : Query) (field : String) (value : FieldValue) :
    q.push field value = q.extend [(field, value)] [] := by
  refine eq_of_parts rfl ?_
  cases hq : q.direction <;> simp [extend, hq]

@[simp] theorem direction_extend (q : Query)
    (entries : List (String × FieldValue))
    (directions : List OrbitDirection) :
    (q.extend entries directions).direction =
      (q.direction.toList ++ directions).head? := rfl

theorem fieldNames_extend (q : Query) (entries : List (String × FieldValue))
    (directions : List OrbitDirection) :
    (q.extend entries directions).fieldNames =
      (q.fieldNames ++ entries.map Prod.fst).eraseDups :=
  ValueLists.map_fst_pushAll q.nodup

theorem values?_extend (q : Query) (entries : List (String × FieldValue))
    (directions : List OrbitDirection) (field : String) :
    (q.extend entries directions).values? field =
      if field ∈ entries.map Prod.fst then
        some ((q.values? field).getD [] ++ ValueLists.valuesFor field entries)
      else q.values? field :=
  ValueLists.lookup_pushAll entries q.lists field

theorem values?_eq_some_iff {q : Query} {field : String}
    {values : List FieldValue} :
    q.values? field = some values ↔ (field, values) ∈ q.lists :=
  ValueLists.lookup_eq_some_iff q.nodup

/-- **What a query holds determines it.** -/
theorem ext_of_observations {q r : Query}
    (hfields : q.fieldNames = r.fieldNames)
    (hvalues : ∀ field, q.values? field = r.values? field)
    (hdirection : q.direction = r.direction) : q = r :=
  eq_of_parts (ValueLists.eq_of_lookup q.nodup hfields hvalues) hdirection

end Query

end ItemSearch
