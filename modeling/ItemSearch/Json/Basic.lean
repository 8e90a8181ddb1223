import ItemSearch.Binary64.Basic

/-!
# JSON values

A JSON number is stored as an integer or as a finite binary64 number, and which
of the two it is stays visible: `42` and `42.0` are different values.  An object
keeps its members in order.

## Main definitions

* `Json.Number`: an integer of the signed or unsigned 64-bit range, or a finite
  binary64 number;
* `Json`: a JSON value;
* `Json.ofBinary64`, `Json.ofInt64`: numbers as JSON, where a number that is not
  finite becomes `null`;
* `Json.string?`, `Json.array?`, `Json.member?`: the parts of a value of known
  shape.
-/

namespace ItemSearch

/-- A JSON number. -/
inductive Json.Number where
  /-- An integer from `-2 ^ 63` up to `2 ^ 64 - 1`. -/
  | integer (value : Int) (lower : -2 ^ (63 : Nat) ≤ value)
      (upper : value < 2 ^ (64 : Nat))
  /-- A finite binary64 number. -/
  | float (value : Binary64) (finite : value.isFinite = true)
  deriving DecidableEq

/-- A JSON value. -/
inductive Json where
  | null
  | bool (value : Bool)
  | number (value : Json.Number)
  | string (value : String)
  | array (items : List Json)
  | object (members : List (String × Json))

namespace Json

/-- The binary64 number nearest to a JSON number. -/
def Number.toBinary64 : Number → Binary64
  | .integer value .. => .ofInt value
  | .float value _ => value

/-- A binary64 number as JSON.  JSON has no number that is not finite. -/
def ofBinary64 (value : Binary64) : Json :=
  if finite : value.isFinite = true then
    .number (.float value finite)
  else
    .null

/-- A 64-bit integer as JSON. -/
def ofInt64 (value : Int64) : Json :=
  .number (.integer value.toInt value.le_toInt
    (by have := value.toInt_lt; omega))

/-- A count as JSON. -/
def ofNat (value : Nat) : Json :=
  if fits : value < 2 ^ (64 : Nat) then
    .number (.integer value (by omega) (by omega))
  else
    ofBinary64 (.ofInt value)

/-- The text of a JSON string. -/
def string? : Json → Option String
  | .string value => some value
  | _ => none

/-- The items of a JSON array. -/
def array? : Json → Option (List Json)
  | .array items => some items
  | _ => none

/-- The value of a JSON number, rounded to nearest. -/
def binary64? : Json → Option Binary64
  | .number value => some value.toBinary64
  | _ => none

/-- The member of a JSON object with the given key. -/
def member? (key : String) : Json → Option Json
  | .object members => members.lookup key
  | _ => none

@[simp] theorem string?_string (value : String) :
    (string value).string? = some value := rfl

@[simp] theorem array?_array (items : List Json) :
    (array items).array? = some items := rfl

@[simp] theorem binary64?_number (value : Number) :
    (number value).binary64? = some value.toBinary64 := rfl

@[simp] theorem member?_object (key : String) (members : List (String × Json)) :
    (object members).member? key = members.lookup key := rfl

end Json

end ItemSearch
