import Mathlib
import ItemSearch.Geometry.Record
import ItemSearch.Proofs.Json.Numeral
import ItemSearch.Proofs.Outcome

/-!
# What geometries in JSON are read as

Coordinates are read level by level, each level an array of the one below.  The
levels hand on what is true at the bottom: an ordinate is a number of JSON, so
all positions of a geometry that is read are finite; and whatever is wrong with
coordinates, at whatever level, is reported as malformed coordinates.

## Main results

* `isFinite_of_ofJson`: a geometry that is read has finite positions only.
* `ofJson_error`: the ways in which a geometry is refused.
-/

namespace ItemSearch

open Outcome

namespace Coordinates

/-! ## What is read -/

theorem readOrdinate_eq_ok_iff {position ordinate : Json} {v : Binary64} :
    readOrdinate position ordinate = .ok v ↔ ordinate.binary64? = some v := by
  unfold readOrdinate
  cases ordinate.binary64? <;> simp

theorem isFinite_of_readPosition {value : Json} {p : Position}
    (h : readPosition value = .ok p) : p.isFinite = true := by
  unfold readPosition at h
  rcases bind_eq_ok_iff.1 h with ⟨items, -, hitems⟩
  match items, hitems with
  | x :: y :: _, hitems =>
      rcases bind_eq_ok_iff.1 hitems with ⟨vx, hx, hrest⟩
      rcases bind_eq_ok_iff.1 hrest with ⟨vy, hy, hp⟩
      have hvx : vx.isFinite = true :=
        Json.isFinite_of_binary64? (readOrdinate_eq_ok_iff.1 hx)
      have hvy : vy.isFinite = true :=
        Json.isFinite_of_binary64? (readOrdinate_eq_ok_iff.1 hy)
      rw [← Except.ok.inj hp]
      exact Bool.and_eq_true_iff.2 ⟨hvx, hvy⟩

/-- What every item of an array is read as has the property. -/
private theorem forall_mem_of_readItems {α : Type} {content : String}
    {value : Json}
    {read : Json → Except SpatialError α} {P : α → Prop}
    (hread : ∀ item a, read item = .ok a → P a) {as : List α}
    (h : (items content value >>= fun items => items.mapM read) = .ok as) :
    ∀ a ∈ as, P a := by
  rcases bind_eq_ok_iff.1 h with ⟨items, -, hitems⟩
  exact forall_mem_of_mapM_eq_ok hread hitems

theorem isFinite_of_readPositions {value : Json} {positions : List Position}
    (h : readPositions value = .ok positions) :
    ∀ p ∈ positions, p.isFinite = true :=
  forall_mem_of_readItems (fun _ _ => isFinite_of_readPosition) h

theorem isFinite_of_readRings {value : Json} {rings : List Ring}
    (h : readRings value = .ok rings) :
    ∀ p ∈ rings.flatten, p.isFinite = true := by
  have hrings :=
    forall_mem_of_readItems (fun _ _ => isFinite_of_readPositions) h
  simpa only [List.forall_mem_flatten] using hrings

theorem isFinite_of_readPolygons {value : Json} {polygons : List (List Ring)}
    (h : readPolygons value = .ok polygons) :
    ∀ p ∈ polygons.flatten.flatten, p.isFinite = true := by
  have hpolygons := forall_mem_of_readItems (fun _ _ => isFinite_of_readRings) h
  simpa only [List.forall_mem_flatten] using hpolygons

/-! ## What is refused -/

/-- An error that is reported as malformed coordinates. -/
def Malformed (e : SpatialError) : Prop :=
  e.kind = .malformedCoordinates

theorem failsOnly_items (content : String) (value : Json) :
    FailsOnly Malformed (items content value) := by
  unfold items
  split
  · exact failsOnly_ok _
  · exact failsOnly_error rfl

theorem failsOnly_readOrdinate (position ordinate : Json) :
    FailsOnly Malformed (readOrdinate position ordinate) := by
  unfold readOrdinate
  split
  · exact failsOnly_ok _
  · exact failsOnly_error rfl

theorem failsOnly_readPosition (value : Json) :
    FailsOnly Malformed (readPosition value) := by
  refine (failsOnly_items "numbers" value).bind fun items => ?_
  split
  · refine (failsOnly_readOrdinate value _).bind fun x => ?_
    exact (failsOnly_readOrdinate value _).bind fun y => failsOnly_ok _
  · exact failsOnly_error rfl

/-- An array is refused for not being one, or for one of its items. -/
private theorem failsOnly_readItems {α : Type}
    {read : Json → Except SpatialError α}
    (hread : ∀ item, FailsOnly Malformed (read item)) (content : String)
    (value : Json) :
    FailsOnly Malformed (items content value >>= fun items =>
      items.mapM read) :=
  (failsOnly_items content value).bind fun items => FailsOnly.mapM hread items

theorem failsOnly_readPositions (value : Json) :
    FailsOnly Malformed (readPositions value) :=
  failsOnly_readItems failsOnly_readPosition "positions" value

theorem failsOnly_readRings (value : Json) :
    FailsOnly Malformed (readRings value) :=
  failsOnly_readItems failsOnly_readPositions "rings" value

theorem failsOnly_readPolygons (value : Json) :
    FailsOnly Malformed (readPolygons value) :=
  failsOnly_readItems failsOnly_readRings "polygons" value

end Coordinates

/-! ## Whole geometries -/

namespace Geometry

open Coordinates

theorem isFinite_of_geometry {r : GeometryRecord} {g : Geometry}
    (h : r.geometry = .ok g) :
    ∀ p ∈ g.positions, p.isFinite = true := by
  unfold GeometryRecord.geometry at h
  split at h
  · cases h
  · rcases map_eq_ok_iff.1 h with ⟨p, hp, rfl⟩
    exact List.forall_mem_singleton.2 (isFinite_of_readPosition hp)
  · rcases map_eq_ok_iff.1 h with ⟨positions, hpositions, rfl⟩
    exact isFinite_of_readPositions hpositions
  · rcases map_eq_ok_iff.1 h with ⟨rings, hrings, rfl⟩
    exact isFinite_of_readRings hrings
  · rcases map_eq_ok_iff.1 h with ⟨polygons, hpolygons, rfl⟩
    exact isFinite_of_readPolygons hpolygons

theorem isFinite_of_ofJson {value : Json} {g : Geometry}
    (h : ofJson value = .ok g) :
    ∀ p ∈ g.positions, p.isFinite = true := by
  unfold ofJson at h
  split at h
  · cases h
  split at h
  · exact isFinite_of_geometry h
  · cases h

theorem geometry_error {r : GeometryRecord} {e : SpatialError}
    (h : r.geometry = .error e) :
    e = .unsupportedType r.typeName ∨ Malformed e := by
  unfold GeometryRecord.geometry at h
  split at h
  · exact .inl (Except.error.inj h).symm
  · exact .inr ((failsOnly_readPosition _).map _ e h)
  · exact .inr ((failsOnly_readPositions _).map _ e h)
  · exact .inr ((failsOnly_readRings _).map _ e h)
  · exact .inr ((failsOnly_readPolygons _).map _ e h)

/-- The three ways in which a geometry is refused. -/
theorem ofJson_error {value : Json} {e : SpatialError}
    (h : ofJson value = .error e) :
    e = .nullGeometry ∨ (∃ name, e = .unsupportedType name) ∨ Malformed e := by
  unfold ofJson at h
  split at h
  · exact .inl (Except.error.inj h).symm
  split at h
  · rcases geometry_error h with hname | hmalformed
    · exact .inr (.inl ⟨_, hname⟩)
    · exact .inr (.inr hmalformed)
  · rw [← Except.error.inj h]
    exact .inr (.inr rfl)

end Geometry

end ItemSearch
