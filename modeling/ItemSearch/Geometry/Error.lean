import ItemSearch.Failure
import ItemSearch.Geometry.Basic
import ItemSearch.Json.Printer
import ItemSearch.Text.Quoted

/-!
# What can be wrong with a geometry

One constructor for each cause, grouped by the kind of failure that it makes: a
geometry of the wrong kind, coordinates or well-known text that cannot be read,
a geometry outside the supported kinds, and nothing where something is needed.

## Main definitions

* `RecordError`, `WktError`, `SpatialError`: the causes;
* `SpatialError.report`: what a cause is reported as;
* `SpatialError.text`: the text of that report.
-/

namespace ItemSearch

/-- Why a JSON value has no type name with coordinates. -/
inductive RecordError where
  /-- The value is neither an object nor an array. -/
  | notARecord (found : Json)
  /-- The type is no string. -/
  | typeNotAString (found : Json)
  /-- An object has no type. -/
  | missingType
  /-- An array is empty. -/
  | emptyArray
  /-- An array has more than a type and coordinates. -/
  | longArray (length : Nat)

namespace RecordError

/-- A JSON value that is not what was expected. -/
def unexpected : Json → String
  | .null => "null"
  | .bool value => "boolean `" ++ (Json.bool value).text ++ "`"
  | .number (.integer value lower upper) =>
      "integer `" ++ (Json.number (.integer value lower upper)).text ++ "`"
  | .number (.float value finite) =>
      "floating point `" ++ (Json.number (.float value finite)).text ++ "`"
  | .string value => "string " ++ Text.quoted value.toList
  | .array _ => "sequence"
  | .object _ => "map"

/-- What a cause is reported as. -/
def message : RecordError → String
  | .notARecord found =>
      "invalid type: " ++ unexpected found ++ ", expected struct RawGeometry"
  | .typeNotAString found =>
      "invalid type: " ++ unexpected found ++ ", expected a string"
  | .missingType => "missing field `type`"
  | .emptyArray =>
      "invalid length 0, expected struct RawGeometry with 2 elements"
  | .longArray length =>
      s!"invalid length {length}, expected fewer elements in array"

end RecordError

/-- Why a well-known text cannot be read. -/
inductive WktError where
  /-- A parenthesis closes where none is open, at a byte offset into a text. -/
  | unmatchedClose (offset : Nat) (text : List Char)
  /-- A character stands outside all parentheses of a text. -/
  | strayCharacter (found : Char) (text : List Char)
  /-- Parentheses are still open at the end of a text. -/
  | unclosed (count : Nat) (text : List Char)
  /-- A text has other than one group behind its keyword. -/
  | bodyCount (found : Nat) (text : List Char)
  /-- The keyword of a text is unknown. -/
  | unknownKeyword (text : List Char)
  /-- A point has more than one position. -/
  | pointList (body : List Char)
  /-- A multi-polygon has no polygons. -/
  | noPolygons
  /-- A polygon has no rings. -/
  | noRings (body : List Char)
  /-- A ring has parentheses inside. -/
  | nestedRing (ring : List Char)
  /-- A word is no finite number. -/
  | notANumber (word position : List Char)
  /-- A position has fewer than two numbers. -/
  | shortPosition (position : List Char)

namespace WktError

/-- What a cause is reported as. -/
def message : WktError → String
  | .unmatchedClose offset text =>
      s!"unmatched ')' at offset {offset} in {Text.quoted text}"
  | .strayCharacter found text =>
      s!"unexpected {Text.quotedChar found} outside parentheses in " ++
        Text.quoted text
  | .unclosed count text => s!"{count} unclosed '(' in {Text.quoted text}"
  | .bodyCount found text =>
      s!"expected one parenthesised body, found {found} in {Text.quoted text}"
  | .unknownKeyword text => s!"unknown geometry type in {Text.quoted text}"
  | .pointList body =>
      s!"POINT takes a single position, found {Text.quoted body}"
  | .noPolygons => "MULTIPOLYGON has no polygons"
  | .noRings body => s!"polygon has no rings in {Text.quoted body}"
  | .nestedRing ring => s!"unexpected nesting inside ring {Text.quoted ring}"
  | .notANumber word position =>
      s!"{Text.quoted word} is not a number in {Text.quoted position}"
  | .shortPosition position =>
      s!"position needs 2 numbers, found {Text.quoted position}"

end WktError

/-- Why a geometry, a box or a search area is refused. -/
inductive SpatialError where
  /-- A geometry is of another kind than asked for. -/
  | typeMismatch (expected found : GeometryKind)
  /-- A JSON value has no type name with coordinates. -/
  | record (error : RecordError)
  /-- Coordinates are no array of what the kind of geometry asks for. -/
  | notAnArray (content : String) (found : Json)
  /-- A position in JSON has fewer than two numbers. -/
  | shortPosition (found : Json)
  /-- An ordinate in JSON is no number. -/
  | nonNumeric (ordinate position : Json)
  /-- A box has other than four or six bounds. -/
  | boxLength (found : Nat)
  /-- A box has a bound that is not finite. -/
  | boxNotFinite (bounds : List Binary64)
  /-- A position that is to be written is not finite. -/
  | notFinite (position : Position)
  /-- A well-known text cannot be read. -/
  | wkt (error : WktError)
  /-- The name of a geometry type is not among the supported ones. -/
  | unsupportedType (name : String)
  /-- A kind of geometry is not written as well-known text. -/
  | unwritableKind (kind : GeometryKind)
  /-- There is no position among those given. -/
  | noPositions
  /-- A geometry has no positions. -/
  | noPositionsIn (kind : GeometryKind)
  /-- A geometry in JSON is null. -/
  | nullGeometry
  /-- A box has no bounds. -/
  | emptyBox
  /-- A well-known text is blank. -/
  | blankText
  /-- A multi-polygon that is to be written has no polygons. -/
  | emptyMultiPolygon
  /-- A polygon that is to be written has no rings. -/
  | emptyPolygon
  /-- A ring that is to be written, counted from zero within its polygon, has no
  positions. -/
  | emptyRing (index : Nat)
  /-- A search names both a box and a geometry. -/
  | ambiguous

namespace SpatialError

/-- The kind of failure that a cause makes. -/
def kind : SpatialError → FailureKind
  | .typeMismatch _ _ => .typeMismatch
  | .record _ | .notAnArray _ _ | .shortPosition _ | .nonNumeric _ _
  | .boxLength _ | .boxNotFinite _ | .notFinite _ => .malformedCoordinates
  | .wkt _ => .malformedWkt
  | .unsupportedType _ | .unwritableKind _ => .unsupportedGeometryType
  | .noPositions | .noPositionsIn _ => .noValidCoordinates
  | .nullGeometry | .emptyBox | .blankText | .emptyMultiPolygon | .emptyPolygon
  | .emptyRing _ => .emptyInput
  | .ambiguous => .ambiguousSpatialTerm

/-- What a cause is reported as. -/
def message : SpatialError → String
  | .typeMismatch expected found =>
      s!"expected {expected.name}, found {found.name}"
  | .record error => error.message
  | .notAnArray content found =>
      s!"expected an array of {content}, found {found.text}"
  | .shortPosition found =>
      s!"position needs at least 2 numbers, found {found.text}"
  | .nonNumeric ordinate position =>
      s!"non-numeric ordinate {ordinate.text} in {position.text}"
  | .boxLength found => s!"bbox needs 4 or 6 numbers, found {found}"
  | .boxNotFinite bounds =>
      "bbox contains a non-finite value: [" ++
        String.intercalate ", " (bounds.map Decimal.Layout.listing.text) ++ "]"
  | .notFinite position => s!"non-finite position {position.text}"
  | .wkt error => error.message
  | .unsupportedType name => name
  | .unwritableKind kind => s!"{kind.name} has no WKT encoding here"
  | .noPositions => "no positions"
  | .noPositionsIn kind => s!"{kind.name} has no positions"
  | .nullGeometry => "geometry is null"
  | .emptyBox => "bbox is empty"
  | .blankText => "WKT text is blank"
  | .emptyMultiPolygon => "multi-polygon has no polygons"
  | .emptyPolygon => "polygon has no rings"
  | .emptyRing index => s!"ring {index} of polygon has no positions"
  | .ambiguous => "only one of bbox and intersects may be given"

/-- The report of a cause. -/
def report (e : SpatialError) : Report :=
  ⟨e.kind, e.message⟩

/-- The text of a cause's report. -/
def text (e : SpatialError) : String :=
  e.report.text

end SpatialError

end ItemSearch
