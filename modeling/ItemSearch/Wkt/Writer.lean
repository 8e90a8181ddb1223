import ItemSearch.Wkt.Basic

/-!
# Writing well-known text

Points, polygons and multi-polygons are written, as long as no list in them is
empty and all ordinates are finite; whatever is written can be read back.
Positions, rings and polygons are separated by a comma and a space.  The first
defect, in the order of the text, is reported.

## Main definitions

* `Wkt.writePosition`, `Wkt.writeRing`, `Wkt.writePolygon`: the parts of a text;
* `Wkt.write`: the text of a geometry;
* `Geometry.toWkt`: the same with a note of a failure.
-/

namespace ItemSearch

namespace Wkt

/-- Texts one after the other, with a comma and a space between them. -/
def commaSeparated : List (List Char) → List Char
  | [] => []
  | [text] => text
  | text :: rest => text ++ ',' :: ' ' :: commaSeparated rest

/-- The text of a position. -/
def writePosition (p : Position) : Except SpatialError (List Char) :=
  if p.isFinite then
    .ok (Decimal.Layout.plain.chars p.x ++
      ' ' :: Decimal.Layout.plain.chars p.y)
  else
    .error (.notFinite p)

/-- The text of the ring with the given index in its polygon. -/
def writeRing (ring : Ring) (index : Nat) :
    Except SpatialError (List Char) := do
  if ring = [] then
    throw (.emptyRing index)
  let positions ← ring.mapM writePosition
  pure (enclose (commaSeparated positions))

/-- The text of a polygon. -/
def writePolygon (rings : List Ring) : Except SpatialError (List Char) := do
  if rings = [] then
    throw .emptyPolygon
  let texts ← rings.zipIdx.mapM fun (ring, index) => writeRing ring index
  pure (enclose (commaSeparated texts))

/-- The text of a geometry. -/
def write (g : Geometry) : Except SpatialError (List Char) :=
  match g with
  | .point p => do
      let text ← writePosition p
      pure ("POINT".toList ++ enclose text)
  | .lineString _ => .error (.unwritableKind g.kind)
  | .polygon rings => do
      let text ← writePolygon rings
      pure ("POLYGON".toList ++ text)
  | .multiPolygon polygons => do
      if polygons = [] then
        throw .emptyMultiPolygon
      let texts ← polygons.mapM writePolygon
      pure ("MULTIPOLYGON".toList ++ enclose (commaSeparated texts))

end Wkt

/-- The well-known text of a geometry. -/
def Geometry.toWkt (g : Geometry) : Journaled WktEvent SpatialError String :=
  match Wkt.write g with
  | .ok text => ⟨[], .ok (String.ofList text)⟩
  | .error e => ⟨[.notWritten g.kind e], .error e⟩

@[simp] theorem Geometry.outcome_toWkt (g : Geometry) :
    g.toWkt.outcome = String.ofList <$> Wkt.write g := by
  unfold Geometry.toWkt
  cases Wkt.write g <;> rfl

end ItemSearch
