import ItemSearch.Decimal.Layout
import ItemSearch.Json.Basic

/-!
# Scalars

The values that a filter compares with: a text, a 64-bit integer, a binary64
number or a truth value.

## Main definitions

* `Scalar`, `Scalar.text`, `Scalar.typeName`: a scalar and its names in
  messages;
* `Scalar.ofJson?`, `Scalar.toJson`: scalars in JSON;
* `Scalar.equal`: equality of scalars, numeric on binary64 numbers.
-/

namespace ItemSearch

/-- A value in a filter. -/
inductive Scalar where
  | string (value : String)
  | integer (value : Int64)
  | float (value : Binary64)
  | bool (value : Bool)
  deriving DecidableEq

namespace Scalar

/-- A scalar in messages. -/
def text : Scalar → String
  | .string value => "'" ++ value ++ "'"
  | .integer value => String.ofList (Decimal.Layout.intChars value.toInt)
  | .float value => value.text
  | .bool value => if value then "true" else "false"

/-- The type of a scalar in messages. -/
def typeName : Scalar → String
  | .string _ => "string"
  | .integer _ => "integer"
  | .float _ => "float"
  | .bool _ => "boolean"

/-- The 64-bit integer that is equal to an integer. -/
def int64? (n : Int) : Option Int64 :=
  if -2 ^ (63 : Nat) ≤ n ∧ n < 2 ^ (63 : Nat) then
    some (Int64.ofInt n)
  else
    none

/-- The scalar that a JSON value stands for.  An integer past the signed 64-bit
range is rounded to a binary64 number. -/
def ofJson? : Json → Option Scalar
  | .string value => some (.string value)
  | .bool value => some (.bool value)
  | .number (.integer value _ _) =>
      match int64? value with
      | some value => some (.integer value)
      | none => some (.float (.ofInt value))
  | .number (.float value _) => some (.float value)
  | .null | .array _ | .object _ => none

/-- A scalar as JSON. -/
def toJson : Scalar → Json
  | .string value => .string value
  | .integer value => .ofInt64 value
  | .float value => .ofBinary64 value
  | .bool value => .bool value

/-- Equality of scalars of one type; a text never equals a number, nor an
integer a binary64 number. -/
def equal : Scalar → Scalar → Bool
  | .string a, .string b => a == b
  | .integer a, .integer b => a == b
  | .float a, .float b => a.numEq b
  | .bool a, .bool b => a == b
  | _, _ => false

theorem int64?_toInt (value : Int64) : int64? value.toInt = some value := by
  have lower := value.le_toInt
  have upper := value.toInt_lt
  simp only [int64?, Int64.ofInt_toInt]
  rw [if_pos]
  omega

end Scalar

end ItemSearch
