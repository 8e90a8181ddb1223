import ItemSearch.Geometry.Error

/-!
# Geometries in JSON

In JSON a geometry is a record of a type name and coordinates, written as an
object with the members `type` and `coordinates` or as an array of the two.
Reading goes through the record, whose coordinates are still plain JSON: first
the record is taken apart, then the type is looked up, then the coordinates are
read as its kind asks.  A position is an array that begins with two numbers;
what follows them, such as an altitude, is dropped.

## Main definitions

* `GeometryRecord`, `GeometryRecord.ofJson`, `GeometryRecord.toJson`: type name
  and coordinates;
* `GeometryRecord.geometry`: the geometry that a record stands for;
* `Geometry.ofJson`, `Geometry.toJson`: the geometry that a JSON value stands
  for, and back;
* `Position.ofJson?`, `Position.toJson`: a position by itself, as an object of
  two ordinates.
-/

namespace ItemSearch

/-- The type name and the coordinates of a geometry, not yet read. -/
structure GeometryRecord where
  typeName : String
  coordinates : Json

namespace GeometryRecord

/-- The type name in a record. -/
def readTypeName (value : Json) : Except RecordError String :=
  match value with
  | .string name => .ok name
  | _ => .error (.typeNotAString value)

/-- The record that a JSON value stands for.  Absent coordinates are null. -/
def ofJson (value : Json) : Except RecordError GeometryRecord :=
  match value with
  | .object members =>
      match members.lookup "type" with
      | none => .error .missingType
      | some typeName => do
          pure ⟨← readTypeName typeName,
            (members.lookup "coordinates").getD .null⟩
  | .array [] => .error .emptyArray
  | .array [typeName] => do
      pure ⟨← readTypeName typeName, .null⟩
  | .array [typeName, coordinates] => do
      pure ⟨← readTypeName typeName, coordinates⟩
  | .array (typeName :: rest) => do
      let _ ← readTypeName typeName
      throw (.longArray (rest.length + 1))
  | _ => .error (.notARecord value)

/-- A record as JSON. -/
def toJson (r : GeometryRecord) : Json :=
  .object [("type", .string r.typeName), ("coordinates", r.coordinates)]

end GeometryRecord

/-! ## Reading coordinates -/

namespace Coordinates

/-- The items of coordinates that have to be an array. -/
def items (content : String) (value : Json) : Except SpatialError (List Json) :=
  match value with
  | .array items => .ok items
  | _ => .error (.notAnArray content value)

/-- The ordinate of a position. -/
def readOrdinate (position ordinate : Json) : Except SpatialError Binary64 :=
  match ordinate.binary64? with
  | some v => .ok v
  | none => .error (.nonNumeric ordinate position)

/-- The position that begins with the first two items. -/
def readPosition (value : Json) : Except SpatialError Position := do
  match ← items "numbers" value with
  | x :: y :: _ => do
      let x ← readOrdinate value x
      let y ← readOrdinate value y
      pure ⟨x, y⟩
  | _ => throw (.shortPosition value)

/-- A list of positions. -/
def readPositions (value : Json) : Except SpatialError (List Position) := do
  (← items "positions" value).mapM readPosition

/-- The rings of a polygon. -/
def readRings (value : Json) : Except SpatialError (List Ring) := do
  (← items "rings" value).mapM readPositions

/-- Several polygons. -/
def readPolygons (value : Json) : Except SpatialError (List (List Ring)) := do
  (← items "polygons" value).mapM readRings

end Coordinates

/-- The geometry that a record stands for. -/
def GeometryRecord.geometry (r : GeometryRecord) :
    Except SpatialError Geometry :=
  match GeometryKind.ofName? r.typeName with
  | none => .error (.unsupportedType r.typeName)
  | some .point => .point <$> Coordinates.readPosition r.coordinates
  | some .lineString => .lineString <$> Coordinates.readPositions r.coordinates
  | some .polygon => .polygon <$> Coordinates.readRings r.coordinates
  | some .multiPolygon =>
      .multiPolygon <$> Coordinates.readPolygons r.coordinates

/-! ## Writing coordinates -/

namespace Coordinates

/-- A position as coordinates. -/
def ofPosition (p : Position) : Json :=
  .array [.ofBinary64 p.x, .ofBinary64 p.y]

/-- Positions as coordinates. -/
def ofPositions (positions : List Position) : Json :=
  .array (positions.map ofPosition)

/-- Rings as coordinates. -/
def ofRings (rings : List Ring) : Json :=
  .array (rings.map ofPositions)

/-- Polygons as coordinates. -/
def ofPolygons (polygons : List (List Ring)) : Json :=
  .array (polygons.map ofRings)

end Coordinates

namespace Geometry

/-- The coordinates of a geometry. -/
def coordinates : Geometry → Json
  | .point position => Coordinates.ofPosition position
  | .lineString positions => Coordinates.ofPositions positions
  | .polygon rings => Coordinates.ofRings rings
  | .multiPolygon polygons => Coordinates.ofPolygons polygons

/-- The record of a geometry. -/
def record (g : Geometry) : GeometryRecord :=
  ⟨g.kind.name, g.coordinates⟩

/-- A geometry as JSON. -/
def toJson (g : Geometry) : Json :=
  .object [("type", .string g.kind.name), ("coordinates", g.coordinates)]

/-- The geometry that a JSON value stands for. -/
def ofJson (value : Json) : Except SpatialError Geometry :=
  match value with
  | .null => .error .nullGeometry
  | _ =>
      match GeometryRecord.ofJson value with
      | .ok r => r.geometry
      | .error e => .error (.record e)

@[simp] theorem toJson_record (g : Geometry) : g.record.toJson = g.toJson := rfl

end Geometry

namespace Position

/-- A position by itself as JSON. -/
def toJson (p : Position) : Json :=
  .object [("x", .ofBinary64 p.x), ("y", .ofBinary64 p.y)]

/-- The position that a JSON value stands for: an object with two ordinates, or
an array of them. -/
def ofJson? (value : Json) : Option Position :=
  match value with
  | .object members => do
      let x ← (members.lookup "x").bind Json.binary64?
      let y ← (members.lookup "y").bind Json.binary64?
      some ⟨x, y⟩
  | .array [x, y] => do
      some ⟨← x.binary64?, ← y.binary64?⟩
  | _ => none

end Position

end ItemSearch
