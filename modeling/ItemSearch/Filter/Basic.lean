import ItemSearch.Filter.Property
import ItemSearch.Filter.Scalar

/-!
# Filters

A filter is a tree: its leaves are conditions on one property each, and its
inner nodes ask for all or for any of their operands.

## Main definitions

* `Condition`: a property equals a value, or is one of a list of values;
* `Filter`: a condition, or a junction of filters;
* `Filter.conditions`, `Filter.scalars`: the leaves and the values of a filter,
  from left to right;
* `Filter.fields`: the fields that a filter touches, each one once;
* `Filter.text`: a filter in messages;
* `Filter.and`, `Filter.or`: junctions that extend a left operand of the same
  sort;
* `Limits`, `Limits.atLeastOne`: how deep a filter may nest and how many values
  a list in it may have, by default 32 levels and 1000 values.
-/

namespace ItemSearch

/-- A demand on one property. -/
inductive Condition where
  | equals (property : String) (value : Scalar)
  | oneOf (property : String) (values : List Scalar)
  deriving DecidableEq

namespace Condition

/-- The name of the property. -/
def property : Condition → String
  | .equals property _ => property
  | .oneOf property _ => property

/-- The values that the property is compared with. -/
def scalars : Condition → List Scalar
  | .equals _ value => [value]
  | .oneOf _ values => values

/-- A condition in messages. -/
def text : Condition → String
  | .equals property value => "(" ++ property ++ " = " ++ value.text ++ ")"
  | .oneOf property values =>
      "(" ++ property ++ " in [" ++
        String.intercalate ", " (values.map Scalar.text) ++ "])"

/-- Whether two lists of scalars are equal, place by place. -/
def equalScalars : List Scalar → List Scalar → Bool
  | [], [] => true
  | a :: as, b :: bs => a.equal b && equalScalars as bs
  | _, _ => false

/-- Equality of conditions. -/
def equal : Condition → Condition → Bool
  | .equals p a, .equals q b => p == q && a.equal b
  | .oneOf p as, .oneOf q bs => p == q && equalScalars as bs
  | _, _ => false

end Condition

/-- How a junction combines its operands. -/
inductive Connective where
  /-- Every operand has to hold. -/
  | all
  /-- Some operand has to hold. -/
  | any
  deriving DecidableEq

/-- The word for a connective. -/
def Connective.word : Connective → String
  | .all => "and"
  | .any => "or"

/-- A filter on items. -/
inductive Filter where
  | condition (condition : Condition)
  | junction (connective : Connective) (operands : List Filter)

namespace Filter

/-! ## Leaves -/

mutual

/-- The conditions of a filter, from left to right. -/
def conditions : Filter → List Condition
  | .condition c => [c]
  | .junction _ operands => operandConditions operands

/-- The conditions of some filters, from left to right. -/
def operandConditions : List Filter → List Condition
  | [] => []
  | f :: fs => f.conditions ++ operandConditions fs

end

/-- The values in a filter, from left to right. -/
def scalars (f : Filter) : List Scalar :=
  f.conditions.flatMap Condition.scalars

/-- The fields that conditions touch, each one once, in the order in which they
first come up.  A condition on an unknown property touches none. -/
def fieldsOf (conditions : List Condition) : List String :=
  (conditions.filterMap fun c =>
    (Property.find? c.property).map Property.field).eraseDups

/-- The fields that a filter touches. -/
def fields (f : Filter) : List String :=
  fieldsOf f.conditions

@[simp] theorem conditions_condition (c : Condition) :
    (condition c).conditions = [c] := by
  simp [conditions]

theorem operandConditions_eq_flatMap (fs : List Filter) :
    operandConditions fs = fs.flatMap conditions := by
  induction fs with
  | nil => simp [operandConditions]
  | cons f fs ih => simp [operandConditions, ih]

@[simp] theorem conditions_junction (connective : Connective)
    (operands : List Filter) :
    (junction connective operands).conditions =
      operands.flatMap conditions := by
  rw [conditions, operandConditions_eq_flatMap]

/-! ## Text and equality -/

mutual

/-- A filter in messages. -/
def text : Filter → String
  | .condition c => c.text
  | .junction connective operands =>
      let separator := " " ++ connective.word ++ " "
      "(" ++ String.intercalate separator (operandTexts operands) ++ ")"

/-- Filters in messages. -/
def operandTexts : List Filter → List String
  | [] => []
  | f :: fs => f.text :: operandTexts fs

end

mutual

/-- Equality of filters, node by node. -/
def equal : Filter → Filter → Bool
  | .condition c, .condition d => c.equal d
  | .junction j fs, .junction k gs => j == k && equalOperands fs gs
  | _, _ => false

/-- Equality of lists of filters, place by place. -/
def equalOperands : List Filter → List Filter → Bool
  | [], [] => true
  | f :: fs, g :: gs => f.equal g && equalOperands fs gs
  | _, _ => false

end

/-! ## Joining filters -/

/-- The junction of two filters.  A left operand that is such a junction already
takes the right one as its last operand. -/
def join (connective : Connective) (f g : Filter) : Filter :=
  match f with
  | .junction c operands =>
      if c = connective then
        .junction connective (operands ++ [g])
      else
        .junction connective [f, g]
  | .condition _ => .junction connective [f, g]

/-- Both filters hold. -/
def and (f g : Filter) : Filter :=
  f.join .all g

/-- One of the two filters holds. -/
def or (f g : Filter) : Filter :=
  f.join .any g

@[simp] theorem join_same (connective : Connective) (operands : List Filter)
    (g : Filter) :
    (junction connective operands).join connective g =
      junction connective (operands ++ [g]) := by
  simp [join]

end Filter

/-! ## Limits -/

/-- How large a filter may be.  A limit of zero would admit nothing, so both are
at least one. -/
structure Limits where
  /-- The greatest depth of a node; the outermost node has depth one. -/
  depth : Nat := 32
  /-- The greatest number of values in a list. -/
  listLength : Nat := 1000
  depth_pos : 0 < depth := by omega
  listLength_pos : 0 < listLength := by omega
  deriving DecidableEq

namespace Limits

instance : Inhabited Limits := ⟨{}⟩

/-- The given limits, where those not given are the default ones and a zero
becomes one. -/
def atLeastOne (depth? listLength? : Option Nat) : Limits where
  depth := max 1 (depth?.getD (default : Limits).depth)
  listLength := max 1 (listLength?.getD (default : Limits).listLength)

@[simp] theorem depth_default : (default : Limits).depth = 32 := rfl

@[simp] theorem listLength_default : (default : Limits).listLength = 1000 := rfl

end Limits

end ItemSearch
