import ItemSearch.Filter.Error
import ItemSearch.Json.Reader

/-!
# Filters in JSON

A node is an object with the name of its operator under `op` and its arguments
under `args`.  A comparison has two arguments, the property and what it is
compared with; a junction has its operands.

A filter is read from the outermost node inwards, and the first defect that is
met stops the reading.  Each node is given the number of levels that may still
follow; it is what the recursion descends on.

## Main definitions

* `Filter.toJson`: the JSON form of a filter;
* `Operator`, `Operator.ofName?`: the operators, by their names in any letter
  case;
* `Filter.readLevels`: the filter that a JSON value stands for, within a number
  of levels;
* `Filter.ofJson`, `Filter.ofText`: the filter that a JSON value or its text
  stands for.
-/

namespace ItemSearch

/-! ## Writing -/

namespace Filter

/-- The JSON form of a node. -/
def node (operator : String) (arguments : List Json) : Json :=
  .object [("op", .string operator), ("args", .array arguments)]

/-- The JSON form of a property. -/
def propertyReference (name : String) : Json :=
  .object [("property", .string name)]

/-- The JSON form of a condition. -/
def conditionJson : Condition → Json
  | .equals property value =>
      node "=" [propertyReference property, value.toJson]
  | .oneOf property values =>
      node "in" [propertyReference property, .array (values.map Scalar.toJson)]

mutual

/-- The JSON form of a filter. -/
def toJson : Filter → Json
  | .condition c => conditionJson c
  | .junction connective operands =>
      node connective.word (operandJsons operands)

/-- The JSON forms of some filters. -/
def operandJsons : List Filter → List Json
  | [] => []
  | f :: fs => f.toJson :: operandJsons fs

end

@[simp] theorem toJson_condition (c : Condition) :
    (condition c).toJson = conditionJson c := by
  simp [toJson]

theorem operandJsons_eq_map (fs : List Filter) :
    operandJsons fs = fs.map toJson := by
  induction fs with
  | nil => simp [operandJsons]
  | cons f fs ih => simp [operandJsons, ih]

@[simp] theorem toJson_junction (connective : Connective)
    (operands : List Filter) :
    (junction connective operands).toJson =
      node connective.word (operands.map toJson) := by
  rw [toJson, operandJsons_eq_map]

end Filter

/-! ## Reading -/

/-- The operators of filter nodes. -/
inductive Operator where
  | equals
  | oneOf
  | junction (connective : Connective)
  deriving DecidableEq

/-- The operator with the given name, in any letter case. -/
def Operator.ofName? (name : String) : Option Operator :=
  let word := name.toList.map Char.toLower
  if word = "=".toList ∨ word = "eq".toList then some .equals
  else if word = "in".toList then some .oneOf
  else if word = "and".toList then some (.junction .all)
  else if word = "or".toList then some (.junction .any)
  else none

namespace Filter

/-- The operator name and the arguments of a node. -/
def nodeParts (value : Json) : Except FilterError (String × List Json) :=
  match value with
  | .object members =>
      match (members.lookup "op").bind Json.string? with
      | none => .error .missingOperator
      | some operator =>
          match (members.lookup "args").bind Json.array? with
          | none => .error (.missingArguments operator)
          | some arguments => .ok (operator, arguments)
  | _ => .error (.notANode value)

/-- The name of the property that a comparison is about, and its other
argument. -/
def comparisonParts (operator : String) (arguments : List Json) :
    Except FilterError (String × Json) :=
  match arguments with
  | [property, operand] =>
      match (property.member? "property").bind Json.string? with
      | some name => .ok (name, operand)
      | none => .error (.notAProperty operator property)
  | _ => .error (.wrongArity operator arguments.length)

/-- The scalar that an equality compares with. -/
def readScalar (operator : String) (operand : Json) :
    Except FilterError Scalar :=
  match Scalar.ofJson? operand with
  | some value => .ok value
  | none => .error (.notAScalar operator operand)

/-- A scalar in the list of a membership. -/
def readListed (item : Json) : Except FilterError Scalar :=
  match Scalar.ofJson? item with
  | some value => .ok value
  | none => .error (.nonScalarInList item)

/-- The scalars that a membership chooses from. -/
def readList (limits : Limits) (operand : Json) :
    Except FilterError (List Scalar) :=
  match operand with
  | .array items =>
      if items = [] then
        .error .emptyList
      else if limits.listLength < items.length then
        .error (.listTooLong items.length limits.listLength)
      else
        items.mapM readListed
  | _ => .error (.notAList operand)

/-- The filter that a JSON value stands for, if it has no more than the given
number of levels. -/
def readLevels (limits : Limits) : Nat → Json → Except FilterError Filter
  | 0, _ => .error (.tooDeep limits.depth)
  | levels + 1, value => do
      let (name, arguments) ← nodeParts value
      match Operator.ofName? name with
      | none => .error (.unknownOperator name)
      | some .equals => do
          let (property, operand) ← comparisonParts name arguments
          let scalar ← readScalar name operand
          pure (.condition (.equals property scalar))
      | some .oneOf => do
          let (property, operand) ← comparisonParts name arguments
          let scalars ← readList limits operand
          pure (.condition (.oneOf property scalars))
      | some (.junction connective) =>
          if arguments = [] then
            .error (.noOperands name)
          else do
            let operands ← arguments.mapM (readLevels limits levels)
            pure (.junction connective operands)

/-- The filter that a JSON value stands for. -/
def ofJson (limits : Limits) (value : Json) : Except FilterError Filter :=
  readLevels limits limits.depth value

/-- The filter that the text of a JSON value stands for. -/
def ofText (limits : Limits) (text : String) : Except FilterError Filter :=
  match Json.ofText? Json.nestingLimit text with
  | none => .error .notJson
  | some value => ofJson limits value

end Filter

end ItemSearch
