import ItemSearch.Geometry.Record

/-!
# Views of geometries

A caller who expects a geometry of a certain kind asks for what it consists of;
any other kind is refused, and the refusal names both.

A caller who asks where it lies is given a box.  A box bounds positions by two
longitudes and two latitudes.  The box of some positions is the smallest one
around them; an ordinate that is not a number is passed over as long as there is
another one.  A box that is given by its bounds is taken as it is, in whatever
order the bounds are.

## Main definitions

* `Geometry.asPoint`, `Geometry.asLineString`, `Geometry.asPolygon`,
  `Geometry.asMultiPolygon`: a geometry of a known kind;
* `Box`, `Box.text`, `Box.toJson`: a box, in messages and in JSON;
* `Box.ofPositions?`, `Box.ofGeometry`: the box around positions, and around a
  geometry;
* `Box.ofList`, `Box.ofJson?`: the box with the given bounds;
* `Box.toPolygon`: the rectangle of a box;
* `Box.equal`: numeric equality.
-/

namespace ItemSearch

/-! ## Geometries of a known kind -/

namespace Geometry

/-- The position of a point. -/
def asPoint : Geometry → Except SpatialError Position
  | .point position => .ok position
  | g => .error (.typeMismatch .point g.kind)

/-- The positions of a line string. -/
def asLineString : Geometry → Except SpatialError (List Position)
  | .lineString positions => .ok positions
  | g => .error (.typeMismatch .lineString g.kind)

/-- The rings of a polygon. -/
def asPolygon : Geometry → Except SpatialError (List Ring)
  | .polygon rings => .ok rings
  | g => .error (.typeMismatch .polygon g.kind)

/-- The polygons of a multi-polygon. -/
def asMultiPolygon : Geometry → Except SpatialError (List (List Ring))
  | .multiPolygon polygons => .ok polygons
  | g => .error (.typeMismatch .multiPolygon g.kind)

end Geometry

/-! ## Boxes -/

/-- A rectangle of longitudes and latitudes. -/
structure Box where
  west : Binary64
  south : Binary64
  east : Binary64
  north : Binary64
  deriving DecidableEq

namespace Box

/-- The bounds from west over south and east to north. -/
def bounds (b : Box) : List Binary64 :=
  [b.west, b.south, b.east, b.north]

/-- A box in messages. -/
def text (b : Box) : String :=
  "BoundingBox(" ++ String.intercalate ", " (b.bounds.map Binary64.text) ++ ")"

/-- A box as JSON. -/
def toJson (b : Box) : Json :=
  .array (b.bounds.map .ofBinary64)

/-- Numeric equality of all bounds. -/
def equal (a b : Box) : Bool :=
  a.west.numEq b.west && a.south.numEq b.south && a.east.numEq b.east &&
    a.north.numEq b.north

/-- The box around one position. -/
def around (p : Position) : Box :=
  ⟨p.x, p.y, p.x, p.y⟩

/-- The box widened to one more position. -/
def widen (b : Box) (p : Position) : Box where
  west := b.west.least p.x
  south := b.south.least p.y
  east := b.east.greatest p.x
  north := b.north.greatest p.y

/-- The box around positions, if there are any. -/
def ofPositions? : List Position → Option Box
  | [] => none
  | p :: ps => some (ps.foldl widen (around p))

/-- The box around positions. -/
def ofPositions (positions : List Position) : Except SpatialError Box :=
  match ofPositions? positions with
  | some b => .ok b
  | none => .error .noPositions

/-- The box around a geometry. -/
def ofGeometry (g : Geometry) : Except SpatialError Box :=
  match ofPositions? g.positions with
  | some b => .ok b
  | none => .error (.noPositionsIn g.kind)

/-- The box with the given bounds.  Six bounds include two elevations, which are
dropped. -/
def ofList (bounds : List Binary64) : Except SpatialError Box :=
  let finite (b : Box) : Except SpatialError Box :=
    if bounds.all Binary64.isFinite then
      .ok b
    else
      .error (.boxNotFinite bounds)
  match bounds with
  | [] => .error .emptyBox
  | [west, south, east, north] => finite ⟨west, south, east, north⟩
  | [west, south, _, east, north, _] => finite ⟨west, south, east, north⟩
  | _ => .error (.boxLength bounds.length)

/-- The box that an array of four numbers stands for. -/
def ofJson? (value : Json) : Option Box :=
  match value with
  | .array [west, south, east, north] => do
      some ⟨← west.binary64?, ← south.binary64?, ← east.binary64?,
        ← north.binary64?⟩
  | _ => none

/-- The rectangle of a box, counter-clockwise from the south-west and closed. -/
def toPolygon (b : Box) : Geometry :=
  .polygon
    [[⟨b.west, b.south⟩, ⟨b.east, b.south⟩, ⟨b.east, b.north⟩,
      ⟨b.west, b.north⟩, ⟨b.west, b.south⟩]]

end Box

end ItemSearch
