import Mathlib
import ItemSearch.Geometry.Record
import ItemSearch.Proofs.Json.Numeral
import ItemSearch.Proofs.Outcome

/-!
# Geometries in JSON and back

The JSON form of a geometry has one array for each level, down to the two
numbers of a position.  Nothing is asked of these arrays, so levels without
items come back as they were.  A number that is not finite is the exception:
JSON has none for it, so it is written as null, and null is no ordinate.

The reader goes through the positions in their order and stops at the first one
that it cannot read.  So each level comes to the same outcome, `ofPositions`:
what was written, or a complaint about the first of its positions that is not
finite.

## Main results

* `readPosition_ofPosition`, `readPositions_ofPositions`, `readRings_ofRings`,
  `readPolygons_ofPolygons`: what each level of coordinates is read back as.
* `geometry_record`, `ofJson_toJson_eq`: the same for a geometry, by its record
  and by its JSON form.
* `toJson_readBack`: which geometries come back, and as what.
-/

namespace ItemSearch

open Outcome

namespace Coordinates

/-! ## Coordinates -/

/-- What a value comes to when it is read back by its positions: the value
itself, or the null that was written for an ordinate of the first position that
is not finite. -/
def readBack {α : Type} (a : α) (positions : List Position) :
    Except SpatialError α :=
  match positions.find? fun p => !p.isFinite with
  | none => .ok a
  | some p => .error (.nonNumeric .null (ofPosition p))

variable {α : Type} {a b : α} {positions : List Position}

theorem readBack_eq_ok_iff :
    readBack a positions = .ok b ↔
      b = a ∧ ∀ p ∈ positions, p.isFinite = true := by
  unfold readBack
  cases hfind : positions.find? fun p => !p.isFinite with
  | none =>
      have hall : ∀ p ∈ positions, p.isFinite = true := by
        simpa using List.find?_eq_none.1 hfind
      constructor
      · intro h
        exact ⟨(Except.ok.inj h).symm, hall⟩
      · intro h
        rw [h.1]
  | some p =>
      have hp : p.isFinite = false := by simpa using List.find?_some hfind
      have hmem : p ∈ positions := List.mem_of_find?_eq_some hfind
      constructor
      · intro h
        cases h
      · intro h
        rw [h.2 p hmem] at hp
        cases hp

theorem exists_readBack_error_iff :
    (∃ e, readBack a positions = .error e ∧ e.kind = .malformedCoordinates) ↔
      ¬ ∀ p ∈ positions, p.isFinite = true := by
  have hok :
      readBack a positions = .ok a ↔ ∀ p ∈ positions, p.isFinite = true :=
    readBack_eq_ok_iff.trans (and_iff_right rfl)
  rw [← hok]
  unfold readBack
  cases positions.find? fun p => !p.isFinite with
  | none => simp
  | some p => simp [SpatialError.kind]

/-- The positions of a first item are all looked at before those of the items
behind it. -/
theorem readBack_cons (a : α) (as : List α) (positions more : List Position) :
    readBack (a :: as) (positions ++ more) =
      readBack a positions >>= fun a => readBack as more >>= fun as =>
        pure (a :: as) := by
  unfold readBack
  rw [List.find?_append]
  cases positions.find? fun p => !p.isFinite with
  | some p => rfl
  | none => cases more.find? fun p => !p.isFinite <;> rfl

/-- A list whose items are read back by their positions is read back by all of
them. -/
theorem mapM_map_eq_readBack {form : α → Json}
    {read : Json → Except SpatialError α}
    {parts : α → List Position} (h : ∀ a, read (form a) = readBack a (parts a))
    (as : List α) :
    (as.map form).mapM read = readBack as (as.flatMap parts) := by
  induction as with
  | nil => rfl
  | cons a as ih =>
      rw [List.map_cons, List.mapM_cons, List.flatMap_cons, readBack_cons, h,
        ih]

theorem readOrdinate_ofBinary64 (position : Json) (v : Binary64) :
    readOrdinate position (.ofBinary64 v) =
      if v.isFinite = true then
        .ok v
      else
        .error (.nonNumeric .null position) := by
  unfold readOrdinate Json.ofBinary64
  by_cases hv : v.isFinite = true
  · rw [dif_pos hv, if_pos hv]
    rfl
  · rw [dif_neg hv, if_neg hv]
    rfl

theorem readPosition_ofPosition (p : Position) :
    readPosition (ofPosition p) = readBack p [p] := by
  have hread : readPosition (ofPosition p) =
      readOrdinate (ofPosition p) (.ofBinary64 p.x) >>= fun x =>
        readOrdinate (ofPosition p) (.ofBinary64 p.y) >>= fun y =>
          pure ⟨x, y⟩ := rfl
  rw [hread, readOrdinate_ofBinary64, readOrdinate_ofBinary64]
  unfold readBack
  rw [List.find?_singleton, Position.isFinite]
  cases p.x.isFinite <;> cases p.y.isFinite <;> rfl

theorem readPositions_ofPositions (positions : List Position) :
    readPositions (ofPositions positions) = readBack positions positions := by
  have hlist := mapM_map_eq_readBack readPosition_ofPosition positions
  rw [List.flatMap_singleton'] at hlist
  exact hlist

theorem readRings_ofRings (rings : List Ring) :
    readRings (ofRings rings) = readBack rings rings.flatten := by
  have hlist := mapM_map_eq_readBack readPositions_ofPositions rings
  rw [List.flatMap_id'] at hlist
  exact hlist

theorem readPolygons_ofPolygons (polygons : List (List Ring)) :
    readPolygons (ofPolygons polygons) =
      readBack polygons polygons.flatten.flatten := by
  have hlist := mapM_map_eq_readBack readRings_ofRings polygons
  rw [List.flatMap_def, ← List.flatten_flatten] at hlist
  exact hlist

end Coordinates

/-! ## Records and whole geometries -/

theorem GeometryRecord.ofJson_toJson_record (r : GeometryRecord) :
    ofJson r.toJson = .ok r := rfl

namespace Geometry

open Coordinates

theorem geometry_record (g : Geometry) :
    g.record.geometry = readBack g g.positions := by
  have hkind : GeometryKind.ofName? g.kind.name = some g.kind :=
    GeometryKind.ofName?_name _
  have hmap :
      ∀ {α : Type} (f : α → Geometry) (a : α) (positions : List Position),
      f <$> readBack a positions = readBack (f a) positions := by
    intro α f a positions
    unfold readBack
    cases positions.find? fun p => !p.isFinite <;> rfl
  unfold GeometryRecord.geometry record
  rw [hkind]
  cases g with
  | point p =>
      show point <$> readPosition (ofPosition p) = _
      rw [readPosition_ofPosition]
      exact hmap _ _ _
  | lineString positions =>
      show lineString <$> readPositions (ofPositions positions) = _
      rw [readPositions_ofPositions]
      exact hmap _ _ _
  | polygon rings =>
      show polygon <$> readRings (ofRings rings) = _
      rw [readRings_ofRings]
      exact hmap _ _ _
  | multiPolygon polygons =>
      show multiPolygon <$> readPolygons (ofPolygons polygons) = _
      rw [readPolygons_ofPolygons]
      exact hmap _ _ _

theorem ofJson_toJson_eq (g : Geometry) :
    ofJson g.toJson = readBack g g.positions := by
  have hrecord : ofJson g.toJson = g.record.geometry := rfl
  rw [hrecord, geometry_record]

/-- **A geometry comes back from its JSON form exactly when it is finite.**
Then it is the same geometry, whatever of it is empty, and otherwise its
coordinates are malformed.  The record of a geometry is written as the geometry
is, and read back as it is. -/
theorem toJson_readBack (g : Geometry) :
    (∀ h, ofJson g.toJson = .ok h ↔
      h = g ∧ ∀ p ∈ g.positions, p.isFinite = true) ∧
    ((∃ e, ofJson g.toJson = .error e ∧ e.kind = .malformedCoordinates) ↔
      ¬ ∀ p ∈ g.positions, p.isFinite = true) ∧
    g.record.toJson = g.toJson ∧
    GeometryRecord.ofJson g.record.toJson = .ok g.record ∧
    g.record.geometry = ofJson g.toJson := by
  rw [geometry_record, ofJson_toJson_eq]
  exact ⟨fun _ => readBack_eq_ok_iff, exists_readBack_error_iff,
    toJson_record g, GeometryRecord.ofJson_toJson_record g.record, rfl⟩

end Geometry

end ItemSearch
