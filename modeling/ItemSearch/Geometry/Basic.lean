import ItemSearch.Decimal.Layout

/-!
# Geometries

A geometry is a point, a line string, a polygon or several polygons.  A polygon
is a list of rings, the outer boundary first, and a ring a list of positions.
Nothing is asked of the lists: they may be empty, and a ring need not be closed.

## Main definitions

* `Position`, `Ring`, `GeometryKind`, `Geometry`: the values;
* `Geometry.kind`, `Geometry.positions`: the kind of a geometry, and all its
  positions in order;
* `Position.equal`, `Geometry.equal`: numeric equality.
-/

namespace ItemSearch

/-- A longitude and a latitude. -/
structure Position where
  x : Binary64
  y : Binary64
  deriving DecidableEq

namespace Position

/-- A position in messages. -/
def text (p : Position) : String :=
  "(" ++ p.x.text ++ ", " ++ p.y.text ++ ")"

/-- Whether both ordinates are finite. -/
def isFinite (p : Position) : Bool :=
  p.x.isFinite && p.y.isFinite

/-- Numeric equality of both ordinates. -/
def equal (p q : Position) : Bool :=
  p.x.numEq q.x && p.y.numEq q.y

end Position

/-- A boundary of a polygon. -/
abbrev Ring := List Position

/-- The kinds of geometries. -/
inductive GeometryKind where
  | point
  | lineString
  | polygon
  | multiPolygon
  deriving DecidableEq

namespace GeometryKind

/-- The name of a kind. -/
def name : GeometryKind → String
  | .point => "Point"
  | .lineString => "LineString"
  | .polygon => "Polygon"
  | .multiPolygon => "MultiPolygon"

/-- The kind with exactly the given name. -/
def ofName? (name : String) : Option GeometryKind :=
  [point, lineString, polygon, multiPolygon].find? fun kind => kind.name = name

@[simp] theorem ofName?_name (kind : GeometryKind) :
    ofName? kind.name = some kind := by
  cases kind <;> decide

theorem name_of_ofName? {name : String} {kind : GeometryKind}
    (found : ofName? name = some kind) :
    kind.name = name := by
  simpa using List.find?_some found

end GeometryKind

/-- A geometry. -/
inductive Geometry where
  | point (position : Position)
  | lineString (positions : List Position)
  | polygon (rings : List Ring)
  | multiPolygon (polygons : List (List Ring))
  deriving DecidableEq

namespace Geometry

/-- The kind of a geometry. -/
def kind : Geometry → GeometryKind
  | .point _ => .point
  | .lineString _ => .lineString
  | .polygon _ => .polygon
  | .multiPolygon _ => .multiPolygon

/-- All positions of a geometry in order. -/
def positions : Geometry → List Position
  | .point position => [position]
  | .lineString positions => positions
  | .polygon rings => rings.flatten
  | .multiPolygon polygons => polygons.flatten.flatten

/-- Whether two lists are related, place by place. -/
def pairwise {α : Type} (related : α → α → Bool) : List α → List α → Bool
  | [], [] => true
  | a :: as, b :: bs => related a b && pairwise related as bs
  | _, _ => false

/-- Geometries of one kind and shape with numerically equal ordinates. -/
def equal : Geometry → Geometry → Bool
  | .point p, .point q => p.equal q
  | .lineString ps, .lineString qs => pairwise Position.equal ps qs
  | .polygon rs, .polygon ss => pairwise (pairwise Position.equal) rs ss
  | .multiPolygon ps, .multiPolygon qs =>
      pairwise (pairwise (pairwise Position.equal)) ps qs
  | _, _ => false

@[simp] theorem kind_point (position : Position) :
    (point position).kind = .point := rfl

@[simp] theorem kind_lineString (positions : List Position) :
    (lineString positions).kind = .lineString := rfl

@[simp] theorem kind_polygon (rings : List Ring) :
    (polygon rings).kind = .polygon := rfl

@[simp] theorem kind_multiPolygon (polygons : List (List Ring)) :
    (multiPolygon polygons).kind = .multiPolygon := rfl

end Geometry

end ItemSearch
