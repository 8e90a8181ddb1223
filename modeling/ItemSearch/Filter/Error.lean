import ItemSearch.Failure
import ItemSearch.Filter.Basic
import ItemSearch.Json.Printer

/-!
# What can be wrong with a filter

One constructor for each cause.  The first ones belong to the shape of a filter
in JSON, the others to its meaning; a filter that nests too deep or lists too
many values is refused at either stage, with the same words.

## Main definitions

* `FilterError`: the causes;
* `FilterError.kind`, `FilterError.message`, `FilterError.report`: what they are
  reported as.
-/

namespace ItemSearch

/-- Why a filter is refused. -/
inductive FilterError where
  /-- The text of a filter is not JSON. -/
  | notJson
  /-- A node lies deeper than admitted. -/
  | tooDeep (limit : Nat)
  /-- A node is no object. -/
  | notANode (found : Json)
  /-- A node names no operator. -/
  | missingOperator
  /-- A node has no list of arguments. -/
  | missingArguments (operator : String)
  /-- The operator of a node is unknown. -/
  | unknownOperator (operator : String)
  /-- A comparison has other than two arguments. -/
  | wrongArity (operator : String) (found : Nat)
  /-- The first argument of a comparison is no property. -/
  | notAProperty (operator : String) (found : Json)
  /-- The second argument of an equality is no scalar. -/
  | notAScalar (operator : String) (found : Json)
  /-- The second argument of a membership is no list. -/
  | notAList (found : Json)
  /-- The list of a membership is empty. -/
  | emptyList
  /-- A list has more values than admitted. -/
  | listTooLong (found limit : Nat)
  /-- A list holds something that is no scalar. -/
  | nonScalarInList (found : Json)
  /-- A junction in JSON has no operands. -/
  | noOperands (operator : String)
  /-- A membership has no values to choose from. -/
  | noValues (property : String)
  /-- A junction has no operands. -/
  | emptyJunction
  /-- A property is not in the table. -/
  | unknownProperty (name : String)
  /-- A property does not take a list of values. -/
  | takesNoList (property : Property)
  /-- A text names no orbit direction. -/
  | notADirection (value : String) (property : Property)
  /-- A value does not fit the field of a property. -/
  | wrongType (value : Scalar) (property : Property)
  /-- Two orbit directions are asked for. -/
  | directionConflict (existing requested : OrbitDirection)

namespace FilterError

/-- The kind of failure that a cause makes. -/
def kind : FilterError → FailureKind
  | .notJson | .tooDeep _ | .notANode _ | .missingOperator
  | .missingArguments _ | .wrongArity _ _ | .notAProperty _ _
  | .notAScalar _ _ | .notAList _ | .emptyList | .listTooLong _ _
  | .nonScalarInList _ | .noOperands _ | .noValues _ | .emptyJunction =>
      .malformedFilter
  | .unknownOperator _ | .takesNoList _ => .unsupportedOperator
  | .unknownProperty _ => .unsupportedProperty
  | .notADirection _ _ => .unsupportedValue
  | .wrongType _ _ => .typeCoercion
  | .directionConflict _ _ => .conflictingConstraint

/-- What a cause is reported as. -/
def message : FilterError → String
  | .notJson => "filter is not valid JSON"
  | .tooDeep limit => s!"filter nesting exceeds the maximum depth of {limit}"
  | .notANode found => s!"expected a filter node, found {found.text}"
  | .missingOperator => "filter node is missing a string 'op'"
  | .missingArguments operator =>
      s!"filter node '{operator}' is missing an 'args' list"
  | .unknownOperator operator => s!"operator '{operator}' is not supported"
  | .wrongArity operator found =>
      s!"'{operator}' expects exactly 2 arguments, found {found}"
  | .notAProperty operator found =>
      s!"first argument of '{operator}' must be a property reference, " ++
        s!"found {found.text}"
  | .notAScalar operator found =>
      s!"'{operator}' expects a scalar literal, found {found.text}"
  | .notAList found => s!"'in' expects a list of literals, found {found.text}"
  | .emptyList => "'in' needs at least one value"
  | .listTooLong found limit =>
      s!"'in' list has {found} values, the maximum is {limit}"
  | .nonScalarInList found =>
      s!"'in' list holds a non-scalar value {found.text}"
  | .noOperands operator => s!"'{operator}' needs at least one operand"
  | .noValues property => s!"'in' on '{property}' needs at least one value"
  | .emptyJunction => "'and'/'or' needs at least one operand"
  | .unknownProperty name =>
      s!"property '{name}' is not supported, expected one of: " ++
        String.intercalate ", " Property.names
  | .takesNoList property =>
      s!"'in' is not supported for '{property.name}' " ++
        s!"({property.kind.name} field {property.field})"
  | .notADirection value property =>
      s!"'{value}' is not a valid value for '{property.name}', " ++
        "expected ascending or descending"
  | .wrongType value property =>
      s!"value {value.text} ({value.typeName}) for '{property.name}' " ++
        s!"cannot be coerced to {property.kind.name}"
  | .directionConflict existing requested =>
      s!"{Property.directionField} is already constrained to " ++
        s!"{existing.text}, cannot also be {requested.text}"

/-- The report of a cause. -/
def report (e : FilterError) : Report :=
  ⟨e.kind, e.message⟩

end FilterError

end ItemSearch
