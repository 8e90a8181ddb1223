import ItemSearch.Query.Compile

/-!
# Items

What filters and queries are about.  An item has at most one value in each
field, and at most one orbit direction.  A filter is read logically, by what its
junctions say; a query is read as the search service does, which asks of every
constrained field that the item's value be listed.  The two readings agree on a
compiled filter only as far as the filter can be expressed by one list per
field.

## Main definitions

* `Item`: the values of an item;
* `Condition.accepts`, `Filter.accepts`: the logical reading of filters;
* `Query.accepts`: the reading of the search service.
-/

namespace ItemSearch

/-- An item of the search service. -/
structure Item where
  /-- The value of each field, other than the orbit direction. -/
  value : String → Option FieldValue
  /-- The orbit direction. -/
  direction : Option OrbitDirection

namespace Item

/-- Whether an item's property has the value that a scalar stands for. -/
def has (item : Item) (p : Property) (value : Scalar) : Bool :=
  if p.kind = .orbitDirection then
    match p.direction value with
    | .ok direction => item.direction == some direction
    | .error _ => false
  else
    match p.kind.coerce? value with
    | some coerced => item.value p.field == some coerced
    | none => false

end Item

/-- Whether a condition holds for an item.  Nothing holds for an unknown
property. -/
def Condition.accepts (item : Item) (c : Condition) : Bool :=
  match Property.find? c.property with
  | some p => c.scalars.any (item.has p)
  | none => false

namespace Filter

mutual

/-- Whether a filter holds for an item. -/
def accepts (item : Item) : Filter → Bool
  | .condition c => c.accepts item
  | .junction .all operands => allAccept item operands
  | .junction .any operands => anyAccepts item operands

/-- Whether all of some filters hold for an item. -/
def allAccept (item : Item) : List Filter → Bool
  | [] => true
  | f :: fs => f.accepts item && allAccept item fs

/-- Whether any of some filters holds for an item. -/
def anyAccepts (item : Item) : List Filter → Bool
  | [] => false
  | f :: fs => f.accepts item || anyAccepts item fs

end

theorem allAccept_eq_all (item : Item) (fs : List Filter) :
    allAccept item fs = fs.all (accepts item) := by
  induction fs with
  | nil => simp [allAccept]
  | cons f fs ih => simp [allAccept, ih]

theorem anyAccepts_eq_any (item : Item) (fs : List Filter) :
    anyAccepts item fs = fs.any (accepts item) := by
  induction fs with
  | nil => simp [anyAccepts]
  | cons f fs ih => simp [anyAccepts, ih]

@[simp] theorem accepts_condition (item : Item) (c : Condition) :
    (condition c).accepts item = c.accepts item := by
  simp [accepts]

@[simp] theorem accepts_all (item : Item) (operands : List Filter) :
    (junction .all operands).accepts item = operands.all (accepts item) := by
  rw [accepts, allAccept_eq_all]

@[simp] theorem accepts_any (item : Item) (operands : List Filter) :
    (junction .any operands).accepts item = operands.any (accepts item) := by
  rw [accepts, anyAccepts_eq_any]

end Filter

/-- Whether an item is found by a query. -/
def Query.accepts (item : Item) (q : Query) : Bool :=
  (q.lists.all fun (field, values) =>
      values.any fun value => item.value field == some value) &&
    (q.direction.all fun direction => item.direction == some direction)

end ItemSearch
