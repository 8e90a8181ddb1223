import Mathlib
import ItemSearch.Proofs.Filter.Coercion
import ItemSearch.Proofs.Query.Extend
import ItemSearch.Proofs.Query.Run

/-!
# What compiling accepts and what it adds up to

A condition is admissible when its property is in the table and its values fit
the field, within the limit on lists.  An admissible condition adds values to
one field, or it names a direction; a direction is the only thing that can clash
with what is there already.  So one condition after the other succeeds exactly
when each of them is admissible and all directions are the same one, and then
all values have been added in the order of the conditions, whatever the
junctions above them say.

## Main results

* `Condition.apply_eq_ok_iff`: the step for one condition.
* `foldlM_apply_eq_ok_iff`: the run over any number of conditions.
* `Filter.compile_eq_ok_iff`: which filters compile, and into what.
-/

namespace ItemSearch

/-! ## Directions that agree -/

/-- No two of the directions differ. -/
def Agree (directions : List OrbitDirection) : Prop :=
  ∀ d ∈ directions, ∀ e ∈ directions, d = e

theorem agree_toList (direction : Option OrbitDirection) :
    Agree direction.toList := by
  intro d hd e he
  rw [Option.mem_toList] at hd he
  exact Option.some.inj (hd.symm.trans he)

/-- Only the first of some directions counts for those that follow. -/
theorem agree_append_iff {directions further : List OrbitDirection} :
    Agree (directions ++ further) ↔
      Agree directions ∧ Agree (directions.head?.toList ++ further) := by
  cases directions with
  | nil => simp [Agree]
  | cons first rest =>
      have hhead :
          ∀ {ds : List OrbitDirection}, Agree (first :: ds) ↔
            ∀ d ∈ ds, d = first := by
        intro ds
        constructor
        · intro h d hd
          exact h d (by simp [hd]) first (by simp)
        · intro h d hd e he
          have hfirst : ∀ d ∈ first :: ds, d = first := by simpa using h
          rw [hfirst d hd, hfirst e he]
      have hsplit : (first :: rest) ++ further = first :: (rest ++ further) :=
        rfl
      have hkeep : (first :: rest).head?.toList ++ further = first :: further :=
        rfl
      rw [hsplit, hkeep, hhead, hhead, hhead, List.forall_mem_append]

namespace Query

theorem restrict_eq_ok_iff {q r : Query} {d : OrbitDirection} :
    q.restrict d = .ok r ↔
      Agree (q.direction.toList ++ [d]) ∧ q.extend [] [d] = r := by
  have hextend : ∀ e, q.direction = some e → q.extend [] [d] = q := by
    intro e he
    exact eq_of_parts rfl (by simp [extend, he])
  unfold restrict
  cases hq : q.direction with
  | none =>
      have hnew : q.extend [] [d] = q.withDirection d :=
        eq_of_parts rfl (by simp [extend, hq, withDirection])
      simp [hnew, Agree]
  | some e =>
      rw [hextend e hq]
      by_cases hsame : e = d
      · subst hsame
        simp [Agree]
      · have hnot : ¬ Agree ((some e).toList ++ [d]) := by
          intro h
          exact hsame (h e (by simp) d (by simp))
        dsimp only
        rw [if_neg hsame]
        constructor
        · intro h
          cases h
        · intro h
          rcases h with ⟨h, -⟩
          exact absurd h hnot

end Query

/-! ## One condition -/

/-- A field of the kind takes the scalar. -/
def FieldKind.Takes (kind : FieldKind) (s : Scalar) : Prop :=
  (∃ value, kind.Coerces s value) ∨ kind = .orbitDirection ∧ ∃ d, s.Names d

theorem FieldKind.takes_direction_iff {s : Scalar} :
    FieldKind.orbitDirection.Takes s ↔ ∃ d, s.Names d := by
  constructor
  · intro h
    rcases h with ⟨value, hvalue⟩ | ⟨-, hnames⟩
    · cases hvalue
    · exact hnames
  · exact fun hnames => .inr ⟨rfl, hnames⟩

theorem FieldKind.takes_iff_coerce? {kind : FieldKind}
    (hkind : kind ≠ .orbitDirection)
    {s : Scalar} : kind.Takes s ↔ ∃ value, kind.coerce? s = some value := by
  simp only [FieldKind.coerce?_eq_some_iff]
  constructor
  · intro h
    rcases h with hvalue | ⟨hdirection, -⟩
    · exact hvalue
    · exact absurd hdirection hkind
  · exact .inl

theorem FieldKind.takesList_iff {kind : FieldKind} :
    kind.takesList = true ↔ kind = .textSet ∨ kind = .integerSet := by
  cases kind <;> simp [FieldKind.takesList]

theorem FieldKind.ne_of_takesList {kind : FieldKind}
    (h : kind.takesList = true) :
    kind ≠ .orbitDirection := by
  rintro rfl
  cases h

namespace Condition

/-- The property is in the table, and the values fit its field; a list is
neither empty nor longer than the limit, and its field is one that takes
lists. -/
def Admissible (limits : Limits) (c : Condition) : Prop :=
  ∃ p ∈ Property.table, p.name = c.property ∧
    match c with
    | .equals _ value => p.kind.Takes value
    | .oneOf _ values =>
        (1 ≤ values.length ∧ values.length ≤ limits.listLength) ∧
          (p.kind = .textSet ∨ p.kind = .integerSet) ∧
            ∀ value ∈ values, p.kind.Takes value

/-- The values that a condition stands for, each with its field. -/
def entries (c : Condition) : List (String × FieldValue) :=
  match Property.find? c.property with
  | some p => c.scalars.filterMap fun s => (p.kind.coerce? s).map (p.field, ·)
  | none => []

/-- The directions that a condition names. -/
def directions (c : Condition) : List OrbitDirection :=
  match Property.find? c.property with
  | some p =>
      if p.kind = .orbitDirection then
        c.scalars.filterMap fun s => (p.direction s).toOption
      else []
  | none => []

theorem pushAll_eq_ok_iff {p : Property} {values : List Scalar} {q r : Query} :
    pushAll p q values = .ok r ↔
      (∀ s ∈ values, ∃ value, p.kind.coerce? s = some value) ∧
        q.extend (values.filterMap fun s => (p.kind.coerce? s).map (p.field, ·))
          [] = r := by
  rw [pushAll_eq_foldlM]
  induction values generalizing q with
  | nil => simp
  | cons s values ih =>
      rw [List.foldlM_cons, Outcome.bind_eq_ok_iff]
      simp only [ih, Outcome.map_eq_ok_iff, Property.coerce_eq_ok_iff,
        List.forall_mem_cons]
      constructor
      · intro h
        rcases h with ⟨_, ⟨value, hvalue, rfl⟩, hrest, rfl⟩
        refine ⟨⟨⟨value, hvalue⟩, hrest⟩, ?_⟩
        rw [Query.extend_push, Query.extend_extend, List.filterMap_cons, hvalue]
        rfl
      · intro h
        rcases h with ⟨⟨⟨value, hvalue⟩, hrest⟩, rfl⟩
        refine ⟨_, ⟨value, hvalue, rfl⟩, hrest, ?_⟩
        rw [Query.extend_push, Query.extend_extend, List.filterMap_cons, hvalue]
        rfl

section Apply

variable {limits : Limits} {c : Condition} {p : Property} {q r : Query}

theorem entries_of_find? (hp : Property.find? c.property = some p) :
    c.entries = c.scalars.filterMap fun s =>
      (p.kind.coerce? s).map (p.field, ·) := by
  rw [entries, hp]

theorem directions_of_find? (hp : Property.find? c.property = some p)
    (hkind : p.kind = .orbitDirection) :
    c.directions = c.scalars.filterMap fun s => (p.direction s).toOption := by
  rw [directions, hp]
  exact if_pos hkind

theorem directions_of_ne (hp : Property.find? c.property = some p)
    (hkind : p.kind ≠ .orbitDirection) : c.directions = [] := by
  rw [directions, hp]
  exact if_neg hkind

theorem mem_entries_iff {field : String} {value : FieldValue} :
    (field, value) ∈ c.entries ↔
      ∃ p, Property.find? c.property = some p ∧ p.field = field ∧
        ∃ s ∈ c.scalars, p.kind.coerce? s = some value := by
  unfold entries
  cases Property.find? c.property with
  | none => simp
  | some p =>
      simp only [List.mem_filterMap, Option.map_eq_some_iff, Prod.mk.injEq,
        Option.some.injEq, exists_eq_left']
      constructor
      · intro h
        rcases h with ⟨s, hs, _, hvalue, hfield, rfl⟩
        exact ⟨hfield, s, hs, hvalue⟩
      · intro h
        rcases h with ⟨hfield, s, hs, hvalue⟩
        exact ⟨s, hs, value, hvalue, hfield, rfl⟩

/-- The step for an equality on the property of directions. -/
private theorem restrict_direction_iff {value : Scalar} :
    p.direction value >>= q.restrict = .ok r ↔
      (∃ d, value.Names d) ∧
        Agree (q.direction.toList ++ (p.direction value).toOption.toList) ∧
        q.extend [] (p.direction value).toOption.toList = r := by
  rw [Outcome.bind_eq_ok_iff]
  simp only [Query.restrict_eq_ok_iff, Property.direction_eq_ok_iff]
  constructor
  · intro h
    rcases h with ⟨d, hd, hagree, hr⟩
    rw [Property.direction_eq_ok_iff.2 hd]
    exact ⟨⟨d, hd⟩, hagree, hr⟩
  · intro h
    rcases h with ⟨⟨d, hd⟩, hagree, hr⟩
    rw [Property.direction_eq_ok_iff.2 hd] at hagree hr
    exact ⟨d, hd, hagree, hr⟩

/-- The step for values of a field. -/
private theorem coerce_push_iff {value : Scalar}
    (hkind : p.kind ≠ .orbitDirection) :
    (q.push p.field ·) <$> p.coerce value = .ok r ↔
      p.kind.Takes value ∧
        q.extend ([value].filterMap fun s =>
          (p.kind.coerce? s).map (p.field, ·)) [] = r := by
  rw [Outcome.map_eq_ok_iff, FieldKind.takes_iff_coerce? hkind]
  simp only [Property.coerce_eq_ok_iff]
  constructor
  · intro h
    rcases h with ⟨v, hv, rfl⟩
    refine ⟨⟨v, hv⟩, ?_⟩
    simp [hv, Query.extend_push]
  · intro h
    rcases h with ⟨⟨v, hv⟩, rfl⟩
    refine ⟨v, hv, ?_⟩
    simp [hv, Query.extend_push]

/-- The property that a name stands for is the only one that an admissible
condition can be about. -/
private theorem exists_property_iff {P : Property → Prop}
    (hp : Property.find? c.property = some p) :
    (∃ p ∈ Property.table, p.name = c.property ∧ P p) ↔ P p := by
  rcases Property.find?_eq_some_iff.1 hp with ⟨hmem, hname⟩
  constructor
  · intro h
    rcases h with ⟨p', hp', hname', h⟩
    rwa [Property.eq_of_name_eq hp' hmem (hname'.trans hname.symm)] at h
  · exact fun h => ⟨p, hmem, hname, h⟩

private theorem not_admissible_of_find?
    (hp : Property.find? c.property = none) :
    ¬ c.Admissible limits := by
  intro h
  rcases h with ⟨p, hmem, hname, -⟩
  have hsome := Property.find?_eq_some_iff.2 ⟨hmem, hname⟩
  rw [hp] at hsome
  cases hsome

private theorem resolve_of_find? {name : String}
    (hp : Property.find? name = some p) :
    Property.resolve name = .ok p := by
  rw [Property.resolve, hp]

private theorem not_resolve_of_find? {name : String}
    (hp : Property.find? name = none)
    {α : Type} {f : Property → Except FilterError α} {a : α} :
    Property.resolve name >>= f ≠ .ok a := by
  rw [Property.resolve, hp]
  intro h
  cases h

private theorem apply_equals_eq_ok_iff {name : String} {value : Scalar} :
    (equals name value).apply limits q = .ok r ↔
      (equals name value).Admissible limits ∧
        Agree (q.direction.toList ++ (equals name value).directions) ∧
        q.extend (equals name value).entries (equals name value).directions =
          r := by
  rw [apply_equals]
  cases hp : Property.find? name with
  | none =>
      have hnot := @not_admissible_of_find? limits (equals name value) hp
      simp only [not_resolve_of_find? hp, hnot, false_and]
  | some p =>
      have hadmissible :
          (equals name value).Admissible limits ↔ p.kind.Takes value :=
        exists_property_iff (c := equals name value) hp
      rw [resolve_of_find? hp, hadmissible,
        entries_of_find? (c := equals name value) hp]
      change (if p.kind = .orbitDirection then p.direction value >>= q.restrict
        else (q.push p.field ·) <$> p.coerce value) = Except.ok r ↔ _
      by_cases hkind : p.kind = .orbitDirection
      · have hnone : p.kind.coerce? value = none := by
          rw [hkind]
          cases value <;> rfl
        have hentries : [value].filterMap
            (fun s => (p.kind.coerce? s).map (p.field, ·)) = [] := by
          simp [hnone]
        have hdirections :
            [value].filterMap (fun s => (p.direction s).toOption) =
            (p.direction value).toOption.toList := by
          rw [List.filterMap_cons, List.filterMap_nil]
          cases (p.direction value).toOption <;> rfl
        rw [if_pos hkind, directions_of_find? (c := equals name value) hp hkind,
          scalars, hentries, hdirections, hkind, FieldKind.takes_direction_iff,
          restrict_direction_iff]
      · rw [if_neg hkind, directions_of_ne (c := equals name value) hp hkind,
          coerce_push_iff hkind, List.append_nil]
        simp [scalars, agree_toList]

private theorem apply_oneOf_eq_ok_iff {name : String} {values : List Scalar} :
    (oneOf name values).apply limits q = .ok r ↔
      (oneOf name values).Admissible limits ∧
        Agree (q.direction.toList ++ (oneOf name values).directions) ∧
        q.extend (oneOf name values).entries (oneOf name values).directions =
          r := by
  rw [apply_oneOf]
  cases hp : Property.find? name with
  | none =>
      have hnot := @not_admissible_of_find? limits (oneOf name values) hp
      simp only [hnot, false_and, iff_false]
      split
      · simp
      split
      · simp
      · exact not_resolve_of_find? hp
  | some p =>
      have hadmissible : (oneOf name values).Admissible limits ↔
          (1 ≤ values.length ∧ values.length ≤ limits.listLength) ∧
            (p.kind = .textSet ∨ p.kind = .integerSet) ∧
            ∀ value ∈ values, p.kind.Takes value :=
        exists_property_iff (c := oneOf name values) hp
      rw [hadmissible, entries_of_find? (c := oneOf name values) hp]
      by_cases hnil : values = []
      · simp [hnil]
      have hlength : 1 ≤ values.length := List.length_pos_iff.2 hnil
      rw [if_neg hnil]
      by_cases hlong : limits.listLength < values.length
      · simp [hlong, Nat.not_le.2 hlong]
      have hshort : values.length ≤ limits.listLength := Nat.not_lt.1 hlong
      rw [if_neg hlong, resolve_of_find? hp]
      change (if p.kind.takesList then pushAll p q values
        else .error (.takesNoList p)) = Except.ok r ↔ _
      by_cases htakes : p.kind.takesList = true
      · have hkind := FieldKind.ne_of_takesList htakes
        rw [if_pos htakes, pushAll_eq_ok_iff,
          directions_of_ne (c := oneOf name values) hp hkind, List.append_nil]
        simp only [hlength, hshort, FieldKind.takesList_iff.1 htakes,
          agree_toList, true_and,
          scalars, FieldKind.takes_iff_coerce? hkind, and_self]
      · rw [if_neg htakes]
        simp [mt FieldKind.takesList_iff.2 htakes]

/-- **The step for one condition**: it has to be admissible, its direction has
to agree with the one that is there, and then its values are added. -/
theorem apply_eq_ok_iff :
    c.apply limits q = .ok r ↔
      c.Admissible limits ∧ Agree (q.direction.toList ++ c.directions) ∧
        q.extend c.entries c.directions = r := by
  cases c with
  | equals name value => exact apply_equals_eq_ok_iff
  | oneOf name values => exact apply_oneOf_eq_ok_iff

end Apply

/-- **The run over conditions**: each of them has to be admissible, all
directions have to agree, and then all values have been added in order. -/
theorem foldlM_apply_eq_ok_iff {limits : Limits} {cs : List Condition}
    {q r : Query} :
    cs.foldlM (fun q c => c.apply limits q) q = .ok r ↔
      (∀ c ∈ cs, c.Admissible limits) ∧
        Agree (q.direction.toList ++ cs.flatMap directions) ∧
        q.extend (cs.flatMap entries) (cs.flatMap directions) = r := by
  induction cs generalizing q with
  | nil => simp [agree_toList]
  | cons c cs ih =>
      rw [List.foldlM_cons, Outcome.bind_eq_ok_iff]
      simp only [ih, apply_eq_ok_iff, List.forall_mem_cons, List.flatMap_cons]
      rw [← List.append_assoc,
        @agree_append_iff (q.direction.toList ++ c.directions)]
      constructor
      · intro h
        rcases h with ⟨_, ⟨hc, hfirst, rfl⟩, hcs, hrest, rfl⟩
        exact ⟨⟨hc, hcs⟩, ⟨hfirst, hrest⟩, (Query.extend_extend _ _ _ _ _).symm⟩
      · intro h
        rcases h with ⟨⟨hc, hcs⟩, ⟨hfirst, hrest⟩, rfl⟩
        exact ⟨_, ⟨hc, hfirst, rfl⟩, hcs, hrest, Query.extend_extend _ _ _ _ _⟩

end Condition

/-! ## Whole filters -/

namespace Filter

/-- The values that the conditions of a filter stand for, from left to right. -/
def entries (f : Filter) : List (String × FieldValue) :=
  f.conditions.flatMap Condition.entries

/-- The directions that the conditions of a filter name, from left to right. -/
def directions (f : Filter) : List OrbitDirection :=
  f.conditions.flatMap Condition.directions

theorem entries_junction (connective : Connective) (operands : List Filter) :
    (junction connective operands).entries = operands.flatMap entries := by
  rw [entries, conditions_junction, List.flatMap_assoc]
  rfl

theorem directions_junction (connective : Connective) (operands : List Filter) :
    (junction connective operands).directions =
      operands.flatMap directions := by
  rw [directions, conditions_junction, List.flatMap_assoc]
  rfl

/-- What a filter has to be like to be compiled into a query. -/
structure Compilable (limits : Limits) (f : Filter) (q : Query) : Prop where
  /-- No node is too deep. -/
  depth : ∀ node ∈ f.nodes, node.1 ≤ limits.depth
  /-- Every junction has an operand. -/
  operands : ∀ node ∈ f.nodes, ∀ connective operands,
    node.2 = .junction connective operands → operands ≠ []
  /-- Every condition is on a property of the table, with values that fit its
  field and a list that is within the limit. -/
  conditions : ∀ c ∈ f.conditions, c.Admissible limits
  /-- Only one direction is asked for, the one of the query included. -/
  directions : Agree (q.direction.toList ++ f.directions)

/-- What a query holds when the conditions of a filter have been added to
another one. -/
structure Accumulates (f : Filter) (q r : Query) : Prop where
  /-- New fields stand behind the old ones, in the order of the conditions. -/
  fieldNames : r.fieldNames = (q.fieldNames ++ f.entries.map Prod.fst).eraseDups
  /-- The values of a field are the old ones and then those of the conditions,
  in their order. -/
  values : ∀ field, r.values? field =
    if field ∈ f.entries.map Prod.fst then
      some ((q.values? field).getD [] ++ ValueLists.valuesFor field f.entries)
    else q.values? field
  /-- The direction is the one that all name. -/
  direction : r.direction = (q.direction.toList ++ f.directions).head?

theorem accumulates_iff {f : Filter} {q r : Query} :
    f.Accumulates q r ↔ q.extend f.entries f.directions = r := by
  constructor
  · intro h
    rcases h with ⟨hfields, hvalues, hdirection⟩
    refine Query.ext_of_observations ?_ ?_ ?_
    · rw [Query.fieldNames_extend, hfields]
    · intro field
      rw [Query.values?_extend, hvalues]
    · rw [Query.direction_extend, hdirection]
  · intro heq
    subst heq
    exact ⟨Query.fieldNames_extend _ _ _, Query.values?_extend _ _ _,
      Query.direction_extend _ _ _⟩

theorem compile_eq_ok_iff_extend {limits : Limits} {f : Filter} {q r : Query} :
    (f.compile limits q).outcome = .ok r ↔
      f.Compilable limits q ∧ q.extend f.entries f.directions = r := by
  rw [compile_eq_ok_iff_foldlM, Condition.foldlM_apply_eq_ok_iff]
  constructor
  · intro h
    rcases h with ⟨hnodes, hconditions, hdirections, hr⟩
    exact ⟨⟨fun node hnode => (hnodes node hnode).1,
      fun node hnode => (hnodes node hnode).2, hconditions, hdirections⟩, hr⟩
  · intro h
    rcases h with ⟨⟨hdepth, hoperands, hconditions, hdirections⟩, hr⟩
    exact ⟨fun node hnode => ⟨hdepth node hnode, hoperands node hnode⟩,
      hconditions, hdirections, hr⟩

/-- **Compiling accepts exactly the compilable filters, and adds up exactly
their conditions.** -/
theorem compile_eq_ok_iff (limits : Limits) (f : Filter) (q : Query) :
    ((∃ r, (f.compile limits q).outcome = .ok r) ↔ f.Compilable limits q) ∧
      ∀ r, (f.compile limits q).outcome = .ok r ↔
        f.Compilable limits q ∧ f.Accumulates q r := by
  refine ⟨?_, ?_⟩
  · simp only [compile_eq_ok_iff_extend]
    constructor
    · intro h
      rcases h with ⟨r, hcompilable, -⟩
      exact hcompilable
    · exact fun hcompilable => ⟨_, hcompilable, rfl⟩
  · intro r
    rw [compile_eq_ok_iff_extend, accumulates_iff]

end Filter

end ItemSearch
