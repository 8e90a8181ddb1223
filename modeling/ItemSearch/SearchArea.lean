import ItemSearch.Geometry.View
import ItemSearch.Wkt.Writer

/-!
# Search areas

A search may be restricted to an area, given by a box or by a geometry but not
by both.  The search service takes either as one geometry in well-known text.

## Main definitions

* `SearchArea`, `SearchArea.ofRequest`: the area of a search, from the members
  of a request;
* `SearchArea.toGeometry`, `SearchArea.toBox`, `SearchArea.toWkt`: the area as a
  geometry, the box around it and its well-known text.
-/

namespace ItemSearch

/-- The area that a search is restricted to. -/
inductive SearchArea where
  | box (box : Box)
  | geometry (geometry : Geometry)
  deriving DecidableEq

namespace SearchArea

/-- A member of a request that is there and not null. -/
def present : Option Json → Option Json
  | some .null => none
  | member => member

/-- The area that a request asks for, if it asks for one: by the bounds of a box
or by a geometry.  A geometry that is null counts as absent. -/
def ofRequest (bounds : Option (List Binary64)) (shape : Option Json) :
    Except SpatialError (Option SearchArea) :=
  match bounds, present shape with
  | none, none => .ok none
  | some bounds, none => (some <| .box ·) <$> Box.ofList bounds
  | none, some value => (some <| .geometry ·) <$> Geometry.ofJson value
  | some _, some _ => .error .ambiguous

/-- The area as a geometry. -/
def toGeometry : SearchArea → Geometry
  | .box b => b.toPolygon
  | .geometry g => g

/-- The box around the area, for a box the box itself. -/
def toBox : SearchArea → Except SpatialError Box
  | .box b => .ok b
  | .geometry g => Box.ofGeometry g

/-- The well-known text of the area. -/
def toWkt (area : SearchArea) : Journaled WktEvent SpatialError String :=
  area.toGeometry.toWkt

end SearchArea

end ItemSearch
