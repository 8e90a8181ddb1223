import ItemSearch.Decimal.Layout
import ItemSearch.Filter.Property
import ItemSearch.Json.Basic

/-!
# Queries

What the search service is asked for: lists of admitted values by field, and at
most one orbit direction.  Fields stand in the order in which they first got a
value, and the values of a field in the order in which they came, repetitions
included.  Two queries are the same when they list the same values for the same
fields, in whatever order the fields stand.

## Main definitions

* `FieldValue`: a text or a 64-bit integer;
* `Query`: the value lists and the orbit direction;
* `Query.push`: one more value for a field;
* `Query.values?`, `Query.fieldNames`, `Query.size`: what a query holds;
* `Query.pairs`, `Query.text`, `Query.toJson`: the query for the service, for
  messages and in JSON;
* `Query.same`: equality up to the order of fields.
-/

namespace ItemSearch

/-- A value that a field may have. -/
inductive FieldValue where
  | string (value : String)
  | integer (value : Int64)
  deriving DecidableEq

namespace FieldValue

/-- A value as the search service writes it. -/
def text : FieldValue → String
  | .string value => value
  | .integer value => String.ofList (Decimal.Layout.intChars value.toInt)

/-- A value as JSON. -/
def toJson : FieldValue → Json
  | .string value => .string value
  | .integer value => .ofInt64 value

end FieldValue

/-- Value lists by field, in the order of the fields' first values. -/
abbrev ValueLists := List (String × List FieldValue)

namespace ValueLists

/-- The lists with one more value at the end of a field's list.  A field without
a list gets one, behind all others. -/
def push (field : String) (value : FieldValue) : ValueLists → ValueLists
  | [] => [(field, [value])]
  | (field', values) :: rest =>
      if field' = field then
        (field', values ++ [value]) :: rest
      else
        (field', values) :: push field value rest

@[simp] theorem push_nil (field : String) (value : FieldValue) :
    push field value [] = [(field, [value])] := rfl

theorem map_fst_push (field : String) (value : FieldValue)
    (lists : ValueLists) :
    (push field value lists).map Prod.fst =
      if field ∈ lists.map Prod.fst then lists.map Prod.fst
      else lists.map Prod.fst ++ [field] := by
  induction lists with
  | nil => simp
  | cons head rest ih =>
      obtain ⟨field', values⟩ := head
      by_cases same : field' = field
      · simp [push, same]
      · have other : ¬ field = field' := fun h => same h.symm
        simp only [push, if_neg same, List.map_cons, ih, List.mem_cons, other,
          false_or]
        split <;> rfl

theorem nodup_push {field : String} {value : FieldValue} {lists : ValueLists}
    (nodup : (lists.map Prod.fst).Nodup) :
    ((push field value lists).map Prod.fst).Nodup := by
  rw [map_fst_push]
  split
  · exact nodup
  · rename_i new
    rw [List.nodup_append]
    refine ⟨nodup, by simp, ?_⟩
    intro a mem b mem' equal
    simp only [List.mem_singleton] at mem'
    exact new (mem' ▸ equal ▸ mem)

theorem lookup_push (field : String) (value : FieldValue) (lists : ValueLists)
    (name : String) :
    (push field value lists).lookup name =
      if name = field then some ((lists.lookup field).getD [] ++ [value])
      else lists.lookup name := by
  induction lists with
  | nil => by_cases same : name = field <;> simp [same]
  | cons head rest ih =>
      obtain ⟨field', values⟩ := head
      by_cases here : field' = field
      · subst here
        by_cases same : name = field'
        · subst same
          simp [push]
        · have unequal : (name == field') = false := beq_false_of_ne same
          simp [push, List.lookup_cons, same, unequal]
      · have beyond : (field == field') = false :=
          beq_false_of_ne fun h => here h.symm
        simp only [push, if_neg here, List.lookup_cons, ih, beyond]
        by_cases same : name = field
        · subst same
          simp [beyond]
        · simp only [if_neg same]

end ValueLists

/-- What the search service is asked for. -/
structure Query where
  /-- The admitted values by field. -/
  lists : ValueLists
  /-- The orbit direction, if one is asked for. -/
  direction : Option OrbitDirection
  /-- No field has two lists. -/
  nodup : (lists.map Prod.fst).Nodup
  deriving DecidableEq

namespace Query

/-- The query that asks for nothing. -/
def empty : Query :=
  ⟨[], none, by simp⟩

instance : Inhabited Query := ⟨empty⟩

/-- The query with one more value for a field. -/
def push (q : Query) (field : String) (value : FieldValue) : Query :=
  ⟨q.lists.push field value, q.direction, ValueLists.nodup_push q.nodup⟩

/-- The query with the given orbit direction. -/
def withDirection (q : Query) (direction : OrbitDirection) : Query :=
  { q with direction := some direction }

/-- The values of a field, if it has any. -/
def values? (q : Query) (field : String) : Option (List FieldValue) :=
  q.lists.lookup field

/-- The fields that have values, in the order in which they got the first
one. -/
def fieldNames (q : Query) : List String :=
  q.lists.map Prod.fst

/-- The number of fields that are constrained, the orbit direction counted as
one. -/
def size (q : Query) : Nat :=
  q.lists.length + q.direction.toList.length

/-- Whether nothing is asked for. -/
def isEmpty (q : Query) : Bool :=
  q.size == 0

/-- The fields and their values as the search service writes them, the orbit
direction last. -/
def pairs (q : Query) : List (String × List String) :=
  q.lists.map (fun (field, values) => (field, values.map FieldValue.text)) ++
    q.direction.toList.map fun direction =>
      (Property.directionField, [direction.text])

/-- A query in messages. -/
def text (q : Query) : String :=
  let fields := q.pairs.map fun (field, values) =>
    field ++ "=[" ++ String.intercalate ", " values ++ "]"
  "\x7b" ++ String.intercalate ", " fields ++ "\x7d"

/-- A query as JSON: the lists by field, then the orbit direction. -/
def toJson (q : Query) : Json :=
  .object <|
    q.lists.map (fun (field, values) =>
        (field, .array (values.map FieldValue.toJson))) ++
      q.direction.toList.map fun direction =>
        (Property.directionField, .string direction.text)

/-- Equality up to the order of fields. -/
def same (q r : Query) : Bool :=
  q.direction == r.direction && q.lists.length == r.lists.length &&
    q.lists.all fun (field, values) => r.values? field == some values

@[simp] theorem direction_push (q : Query) (field : String)
    (value : FieldValue) :
    (q.push field value).direction = q.direction := rfl

@[simp] theorem direction_withDirection (q : Query)
    (direction : OrbitDirection) :
    (q.withDirection direction).direction = some direction := rfl

@[simp] theorem values?_withDirection (q : Query) (direction : OrbitDirection)
    (field : String) :
    (q.withDirection direction).values? field = q.values? field := rfl

@[simp] theorem fieldNames_withDirection (q : Query)
    (direction : OrbitDirection) :
    (q.withDirection direction).fieldNames = q.fieldNames := rfl

@[simp] theorem values?_empty (field : String) :
    empty.values? field = none := rfl

@[simp] theorem fieldNames_empty : empty.fieldNames = [] := rfl

theorem values?_push (q : Query) (field : String) (value : FieldValue)
    (name : String) :
    (q.push field value).values? name =
      if name = field then
        some ((q.values? field).getD [] ++ [value])
      else
        q.values? name :=
  ValueLists.lookup_push field value q.lists name

theorem fieldNames_push (q : Query) (field : String) (value : FieldValue) :
    (q.push field value).fieldNames =
      if field ∈ q.fieldNames then q.fieldNames else q.fieldNames ++ [field] :=
  ValueLists.map_fst_push field value q.lists

end Query

end ItemSearch
