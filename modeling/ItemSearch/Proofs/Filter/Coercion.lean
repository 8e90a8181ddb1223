import Mathlib
import ItemSearch.Query.Compile
import ItemSearch.Proofs.Binary64.Integer

/-!
# Which values a field takes

What a scalar stands for depends on the kind of the field that it is compared
with.  `FieldKind.Coerces` says this as a relation, in which a binary64 number
stands for the integer that it is exactly equal to, and
`OrbitDirection.IsNamedBy` says which texts name a direction.  The functions of
the compiler are compared with both, and the search for a property with the
table.

## Main results

* `coerce?_eq_some_iff`: the field value of a scalar.
* `ofText?_eq_some_iff`: the direction that a text names.
* `find?_eq_some_iff`: a property is found by its name, and no other one has it.
-/

namespace ItemSearch

/-! ## Values -/

/-- The integer is exactly one of 64 bits. -/
theorem Scalar.int64?_eq_some_iff {m : Int} {n : Int64} :
    Scalar.int64? m = some n ↔ n.toInt = m := by
  constructor
  · intro h
    unfold Scalar.int64? at h
    split at h
    · rename_i hrange
      obtain rfl := Option.some.inj h
      exact Int64.toInt_ofInt_of_le (by exact_mod_cast hrange.1)
        (by exact_mod_cast hrange.2)
    · cases h
  · intro heq
    subst heq
    exact Scalar.int64?_toInt n

/-- The scalar stands for this value in a field of the kind. -/
inductive FieldKind.Coerces : FieldKind → Scalar → FieldValue → Prop where
  | text (s : String) : Coerces .text (.string s) (.string s)
  | textSet (s : String) : Coerces .textSet (.string s) (.string s)
  | integer (n : Int64) : Coerces .integerSet (.integer n) (.integer n)
  | float {v : Binary64} {n : Int64} (hfinite : v.isFinite = true)
      (hvalue : v.toRat = n.toInt) : Coerces .integerSet (.float v) (.integer n)

theorem FieldKind.coerce?_eq_some_iff {kind : FieldKind} {s : Scalar}
    {value : FieldValue} :
    kind.coerce? s = some value ↔ kind.Coerces s value := by
  have hfloat : ∀ v :
      Binary64, FieldKind.integerSet.coerce? (.float v) = some value ↔
      ∃ n : Int64, (v.isFinite = true ∧ v.toRat = n.toInt) ∧
        FieldValue.integer n = value := by
    intro v
    simp only [FieldKind.coerce?, Option.map_eq_some_iff,
      Option.bind_eq_some_iff,
      Binary64.toInt?_eq_some_iff, Scalar.int64?_eq_some_iff]
    constructor
    · intro h
      rcases h with ⟨n, ⟨m, hm, rfl⟩, rfl⟩
      exact ⟨n, hm, rfl⟩
    · intro h
      rcases h with ⟨n, hn, rfl⟩
      exact ⟨n, ⟨n.toInt, hn, rfl⟩, rfl⟩
  constructor
  · intro h
    cases kind <;> cases s
    case text.string s => exact Option.some.inj h ▸ .text s
    case textSet.string s => exact Option.some.inj h ▸ .textSet s
    case integerSet.integer n => exact Option.some.inj h ▸ .integer n
    case integerSet.float v =>
      obtain ⟨n, ⟨hfinite, hvalue⟩, rfl⟩ := (hfloat v).1 h
      exact .float hfinite hvalue
    all_goals cases h
  · intro h
    cases h with
    | text s => rfl
    | textSet s => rfl
    | integer n => rfl
    | float hfinite hvalue => exact (hfloat _).2 ⟨_, ⟨hfinite, hvalue⟩, rfl⟩

/-! ## Directions -/

namespace OrbitDirection

/-- The word for a direction. -/
def word : OrbitDirection → String
  | .ascending => "ascending"
  | .descending => "descending"

/-- The text is the word for the direction, in any letter case. -/
def IsNamedBy (d : OrbitDirection) (s : String) : Prop :=
  s.toList.map Char.toLower = d.word.toList

theorem ofText?_eq_some_iff {s : String} {d : OrbitDirection} :
    ofText? s = some d ↔ d.IsNamedBy s := by
  unfold ofText? IsNamedBy
  dsimp only
  by_cases hup : s.toList.map Char.toLower = "ascending".toList
  · rw [if_pos hup, hup]
    cases d <;> simp [word]
  · rw [if_neg hup]
    by_cases hdown : s.toList.map Char.toLower = "descending".toList
    · rw [if_pos hdown, hdown]
      cases d <;> simp [word]
    · rw [if_neg hdown]
      cases d with
      | ascending => simpa [word] using hup
      | descending => simpa [word] using hdown

end OrbitDirection

/-- The scalar is the word for the direction. -/
def Scalar.Names (s : Scalar) (d : OrbitDirection) : Prop :=
  ∃ name, s = .string name ∧ d.IsNamedBy name

/-! ## Properties -/

namespace Property

theorem direction_eq_ok_iff {p : Property} {s : Scalar} {d : OrbitDirection} :
    p.direction s = .ok d ↔ s.Names d := by
  unfold direction Scalar.Names
  cases s with
  | string name =>
      simp only [Scalar.string.injEq, exists_eq_left',
        ← OrbitDirection.ofText?_eq_some_iff]
      cases OrbitDirection.ofText? name <;> simp
  | integer n => simp
  | float v => simp
  | bool b => simp

theorem coerce_eq_ok_iff {p : Property} {s : Scalar} {value : FieldValue} :
    p.coerce s = .ok value ↔ p.kind.coerce? s = some value := by
  unfold coerce
  cases p.kind.coerce? s <;> simp

/-- No two properties share a name. -/
theorem eq_of_name_eq {p p' : Property} (hp : p ∈ table) (hp' : p' ∈ table)
    (hname : p.name = p'.name) : p = p' := by
  have hall : ∀ p ∈ table, ∀ p' ∈ table, p.name = p'.name → p = p' := by decide
  exact hall p hp p' hp' hname

/-- No two properties share a field. -/
theorem eq_of_field_eq {p p' : Property} (hp : p ∈ table) (hp' : p' ∈ table)
    (hfield : p.field = p'.field) : p = p' := by
  have hall : ∀ p ∈ table, ∀ p' ∈ table, p.field = p'.field → p = p' := by
    decide
  exact hall p hp p' hp' hfield

/-- The field of directions is the one that takes no values. -/
theorem field_eq_directionField_iff {p : Property} (hp : p ∈ table) :
    p.field = directionField ↔ p.kind = .orbitDirection := by
  have hall :
      ∀ p ∈ table, p.field = directionField ↔ p.kind = .orbitDirection := by
    decide
  exact hall p hp

theorem find?_eq_some_iff {name : String} {p : Property} :
    find? name = some p ↔ p ∈ table ∧ p.name = name := by
  constructor
  · intro h
    exact ⟨mem_table_of_find? h, name_of_find? h⟩
  · intro h
    rcases h with ⟨hp, rfl⟩
    cases hfind : find? p.name with
    | none =>
        have hnot := List.find?_eq_none.1 hfind p hp
        simp at hnot
    | some p' =>
        rw [eq_of_name_eq (mem_table_of_find? hfind) hp (name_of_find? hfind)]

end Property

end ItemSearch
