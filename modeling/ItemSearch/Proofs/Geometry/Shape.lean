import Mathlib
import ItemSearch.Proofs.Geometry.Reading
import ItemSearch.Proofs.Wkt.Grammar

/-!
# The shape of geometries in JSON

Which JSON values are geometries, without the reader.  `Json.IsRecord` says
where a value has a type name and coordinates.  Coordinates are arrays around
positions, as many of them as the kind of geometry asks for, and any of them may
be empty; `IsNested` says this, and `Geometry.HasCoordinates` says besides which
positions stand where.

The reader has one function for each level, and all of them but the innermost
are the same one over the level below.  So there is one lemma about arrays, and
each level is its instance.

What is looked at first decides how a value is refused: that it is null, that it
is no record, that its type name is unknown, and only then that its coordinates
are out of shape.

## Main results

* `GeometryRecord.ofJson_eq_ok_iff`: which values are records, and of what.
* `readPolygons_eq_ok_iff`, `exists_readPolygons_iff` and those of the levels
  below: what coordinates are read as, and which ones are read.
* `ofJson_eq_ok_iff`, `exists_ofJson_iff`: the same for a whole geometry.
* `ofJson_wellShaped`: what comes of any JSON value.
-/

namespace ItemSearch

open Outcome
open Wkt (FailsAs)

/-! ## Records -/

/-- The value is a record of this type name and these coordinates: an object
with both of them as members, or an array of both.  Coordinates that are not
there are null, and other members do not matter. -/
inductive Json.IsRecord : Json → String → Json → Prop where
  | object {members : List (String × Json)} {name : String}
      (htype : (object members).member? "type" = some (.string name)) :
      IsRecord (.object members) name
        (((object members).member? "coordinates").getD .null)
  | alone (name : String) : IsRecord (.array [.string name]) name .null
  | pair (name : String) (coordinates : Json) :
      IsRecord (.array [.string name, coordinates]) name coordinates

namespace GeometryRecord

theorem readTypeName_eq_ok_iff {value : Json} {name : String} :
    readTypeName value = .ok name ↔ value = .string name := by
  cases value <;> simp [readTypeName]

theorem ofJson_eq_ok_iff {value : Json} {r : GeometryRecord} :
    ofJson value = .ok r ↔ value.IsRecord r.typeName r.coordinates := by
  constructor
  · intro h
    unfold ofJson at h
    split at h
    next members =>
      split at h
      · cases h
      next typeName hlookup =>
        obtain ⟨name, hname, hr⟩ := bind_eq_ok_iff.1 h
        obtain rfl := readTypeName_eq_ok_iff.1 hname
        rw [← Except.ok.inj hr]
        exact .object hlookup
    · cases h
    next typeName =>
      obtain ⟨name, hname, hr⟩ := bind_eq_ok_iff.1 h
      obtain rfl := readTypeName_eq_ok_iff.1 hname
      rw [← Except.ok.inj hr]
      exact .alone name
    next typeName coordinates =>
      obtain ⟨name, hname, hr⟩ := bind_eq_ok_iff.1 h
      obtain rfl := readTypeName_eq_ok_iff.1 hname
      rw [← Except.ok.inj hr]
      exact .pair name coordinates
    next typeName rest _ _ =>
      obtain ⟨name, -, hthrow⟩ := bind_eq_ok_iff.1 h
      cases hthrow
    · cases h
  · intro h
    obtain ⟨name, coordinates⟩ := r
    cases h with
    | @object members _ htype =>
        unfold ofJson
        rw [Json.member?_object] at htype
        simp only [htype]
        rfl
    | alone => rfl
    | pair => rfl

end GeometryRecord

/-! ## Coordinates -/

namespace Coordinates

/-- The value is an array that begins with the two ordinates of the position, as
numbers that are rounded to nearest; what follows them does not matter. -/
inductive IsPosition : Json → Position → Prop where
  | mk (x y : Json.Number) (rest : List Json) :
      IsPosition (.array (.number x :: .number y :: rest))
        ⟨x.toBinary64, y.toBinary64⟩

/-- The value is an array with one item for each of the list, in its order. -/
inductive IsArrayOf {α : Type} (IsItem : Json → α → Prop) :
    Json → List α → Prop where
  | mk {items : List Json} {as : List α} (h : List.Forall₂ IsItem items as) :
      IsArrayOf IsItem (.array items) as

/-- The value is this many arrays around positions, any of which may be
empty. -/
def IsNested : Nat → Json → Prop
  | 0, value => ∃ p, IsPosition value p
  | depth + 1, value =>
      ∃ items, value = .array items ∧ ∀ item ∈ items, IsNested depth item

theorem items_eq_ok_iff {content : String} {value : Json} {as : List Json} :
    items content value = .ok as ↔ value = .array as := by
  cases value <;> simp [items]

theorem readPosition_eq_ok_iff {value : Json} {p : Position} :
    readPosition value = .ok p ↔ IsPosition value p := by
  constructor
  · intro h
    unfold readPosition at h
    obtain ⟨as, has, hrest⟩ := bind_eq_ok_iff.1 h
    obtain rfl := items_eq_ok_iff.1 has
    match as, hrest with
    | x :: y :: rest, hrest =>
        obtain ⟨vx, hx, hrest⟩ := bind_eq_ok_iff.1 hrest
        obtain ⟨vy, hy, hp⟩ := bind_eq_ok_iff.1 hrest
        rw [← Except.ok.inj hp]
        match x, y, readOrdinate_eq_ok_iff.1 hx,
            readOrdinate_eq_ok_iff.1 hy with
        | .number nx, .number ny, hvx, hvy =>
            rw [← Option.some.inj hvx, ← Option.some.inj hvy]
            exact .mk nx ny rest
  · intro h
    cases h with
    | mk x y rest => rfl

section Level

variable {α : Type} {content : String} {read : Json → Except SpatialError α}

/-- An array is read as what its items are read as, in their order. -/
theorem readItems_eq_ok_iff {IsItem : Json → α → Prop}
    (hread : ∀ {item a}, read item = .ok a ↔ IsItem item a) {value : Json}
    {as : List α} :
    (items content value >>= fun items => items.mapM read) = .ok as ↔
      IsArrayOf IsItem value as := by
  simp only [bind_eq_ok_iff, items_eq_ok_iff, mapM_eq_ok_iff, hread]
  constructor
  · rintro ⟨items, rfl, hitems⟩
    exact .mk hitems
  · rintro ⟨hitems⟩
    exact ⟨_, rfl, hitems⟩

/-- An array is read if each of its items is. -/
theorem exists_readItems_iff {depth : Nat}
    (hread : ∀ {item}, (∃ a, read item = .ok a) ↔ IsNested depth item)
    {value : Json} :
    (∃ as, (items content value >>= fun items => items.mapM read) = .ok as) ↔
      IsNested (depth + 1) value := by
  simp only [bind_eq_ok_iff, items_eq_ok_iff]
  constructor
  · rintro ⟨as, items, rfl, hitems⟩
    exact ⟨items, rfl, fun item hitem =>
      hread.1 (exists_mapM_eq_ok_iff.1 ⟨as, hitems⟩ item hitem)⟩
  · rintro ⟨items, rfl, hitems⟩
    obtain ⟨as, has⟩ :=
      exists_mapM_eq_ok_iff.2 fun item hitem => hread.2 (hitems item hitem)
    exact ⟨as, items, rfl, has⟩

end Level

variable {value : Json}

theorem readPositions_eq_ok_iff {positions : List Position} :
    readPositions value = .ok positions ↔
      IsArrayOf IsPosition value positions :=
  readItems_eq_ok_iff readPosition_eq_ok_iff

theorem readRings_eq_ok_iff {rings : List Ring} :
    readRings value = .ok rings ↔
      IsArrayOf (IsArrayOf IsPosition) value rings :=
  readItems_eq_ok_iff readPositions_eq_ok_iff

theorem readPolygons_eq_ok_iff {polygons : List (List Ring)} :
    readPolygons value = .ok polygons ↔
      IsArrayOf (IsArrayOf (IsArrayOf IsPosition)) value polygons :=
  readItems_eq_ok_iff readRings_eq_ok_iff

theorem exists_readPosition_iff :
    (∃ p, readPosition value = .ok p) ↔ IsNested 0 value :=
  exists_congr fun _ => readPosition_eq_ok_iff

theorem exists_readPositions_iff :
    (∃ positions, readPositions value = .ok positions) ↔ IsNested 1 value :=
  exists_readItems_iff exists_readPosition_iff

theorem exists_readRings_iff :
    (∃ rings, readRings value = .ok rings) ↔ IsNested 2 value :=
  exists_readItems_iff exists_readPositions_iff

theorem exists_readPolygons_iff :
    (∃ polygons, readPolygons value = .ok polygons) ↔ IsNested 3 value :=
  exists_readItems_iff exists_readRings_iff

end Coordinates

/-! ## Whole geometries -/

namespace GeometryKind

/-- How many arrays the kind of geometry has around its positions. -/
def nesting : GeometryKind → Nat
  | .point => 0
  | .lineString => 1
  | .polygon => 2
  | .multiPolygon => 3

theorem ofName?_eq_some_iff {name : String} {kind : GeometryKind} :
    ofName? name = some kind ↔ kind.name = name := by
  constructor
  · exact name_of_ofName?
  · rintro rfl
    exact ofName?_name kind

end GeometryKind

namespace Geometry

open Coordinates

/-- The coordinates have the positions of the geometry, grouped and ordered as
they are. -/
def HasCoordinates (coordinates : Json) : Geometry → Prop
  | .point p => IsPosition coordinates p
  | .lineString positions => IsArrayOf IsPosition coordinates positions
  | .polygon rings => IsArrayOf (IsArrayOf IsPosition) coordinates rings
  | .multiPolygon polygons =>
      IsArrayOf (IsArrayOf (IsArrayOf IsPosition)) coordinates polygons

end Geometry

namespace GeometryRecord

open Coordinates

variable {r : GeometryRecord}

theorem geometry_eq_ok_iff {g : Geometry} :
    r.geometry = .ok g ↔
      g.kind.name = r.typeName ∧ g.HasCoordinates r.coordinates := by
  rw [← GeometryKind.ofName?_eq_some_iff, geometry]
  cases GeometryKind.ofName? r.typeName with
  | none => simp
  | some kind =>
      cases kind with
      | point =>
          simp only [map_eq_ok_iff, readPosition_eq_ok_iff]
          cases g <;> simp [Geometry.HasCoordinates]
      | lineString =>
          simp only [map_eq_ok_iff, readPositions_eq_ok_iff]
          cases g <;> simp [Geometry.HasCoordinates]
      | polygon =>
          simp only [map_eq_ok_iff, readRings_eq_ok_iff]
          cases g <;> simp [Geometry.HasCoordinates]
      | multiPolygon =>
          simp only [map_eq_ok_iff, readPolygons_eq_ok_iff]
          cases g <;> simp [Geometry.HasCoordinates]

theorem geometry_of_unknown
    (h : ∀ kind : GeometryKind, kind.name ≠ r.typeName) :
    r.geometry = .error (.unsupportedType r.typeName) := by
  have hnone : GeometryKind.ofName? r.typeName = none := by
    rw [Option.eq_none_iff_forall_ne_some]
    intro kind hkind
    exact h kind (GeometryKind.ofName?_eq_some_iff.1 hkind)
  rw [geometry, hnone]

section Known

variable (kind : GeometryKind) (coordinates : Json)

/-- A record of a known kind is read if its coordinates are nested as the kind
asks. -/
theorem exists_geometry_iff :
    (∃ g, geometry ⟨kind.name, coordinates⟩ = .ok g) ↔
      IsNested kind.nesting coordinates := by
  have hmap : ∀ {α : Type} {x : Except SpatialError α} {f : α → Geometry},
      (∃ g, f <$> x = .ok g) ↔ ∃ a, x = .ok a := by
    intro α x f
    simp [map_eq_ok_iff]
  simp only [geometry, GeometryKind.ofName?_name]
  cases kind with
  | point => exact hmap.trans exists_readPosition_iff
  | lineString => exact hmap.trans exists_readPositions_iff
  | polygon => exact hmap.trans exists_readRings_iff
  | multiPolygon => exact hmap.trans exists_readPolygons_iff

theorem failsOnly_geometry :
    FailsOnly Malformed (geometry ⟨kind.name, coordinates⟩) := by
  simp only [geometry, GeometryKind.ofName?_name]
  cases kind with
  | point => exact (failsOnly_readPosition _).map _
  | lineString => exact (failsOnly_readPositions _).map _
  | polygon => exact (failsOnly_readRings _).map _
  | multiPolygon => exact (failsOnly_readPolygons _).map _

/-- Coordinates that are not nested so are malformed. -/
theorem geometry_of_not_nested (h : ¬ IsNested kind.nesting coordinates) :
    FailsAs (geometry ⟨kind.name, coordinates⟩) .malformedCoordinates := by
  rw [← exists_geometry_iff] at h
  cases hg : geometry ⟨kind.name, coordinates⟩ with
  | ok g => exact absurd ⟨g, hg⟩ h
  | error e => exact ⟨e, rfl, failsOnly_geometry kind coordinates e hg⟩

end Known

end GeometryRecord

namespace Geometry

open Coordinates

variable {value : Json}

theorem ofJson_of_ne_null (h : value ≠ .null) :
    ofJson value = match GeometryRecord.ofJson value with
      | .ok r => r.geometry
      | .error e => .error (.record e) := by
  cases value with
  | null => exact absurd rfl h
  | _ => rfl

theorem ofJson_of_record {name : String} {coordinates : Json}
    (h : value.IsRecord name coordinates) :
    ofJson value = (⟨name, coordinates⟩ : GeometryRecord).geometry := by
  have hnull : value ≠ .null := by
    rintro rfl
    cases h
  have hread : GeometryRecord.ofJson value = .ok ⟨name, coordinates⟩ :=
    GeometryRecord.ofJson_eq_ok_iff.2 h
  rw [ofJson_of_ne_null hnull, hread]

theorem ofJson_of_not_record (hnull : value ≠ .null)
    (h : ∀ name coordinates, ¬ value.IsRecord name coordinates) :
    FailsAs (ofJson value) .malformedCoordinates := by
  rw [ofJson_of_ne_null hnull]
  cases hread : GeometryRecord.ofJson value with
  | ok r => exact absurd (GeometryRecord.ofJson_eq_ok_iff.1 hread) (h _ _)
  | error e => exact ⟨.record e, rfl, rfl⟩

/-- A value is null, no record, or a record of some kind or of none. -/
theorem cases_of_value (value : Json) :
    value = .null ∨
    (value ≠ .null ∧ ∀ name coordinates, ¬ value.IsRecord name coordinates) ∨
    ∃ name coordinates, value.IsRecord name coordinates := by
  by_cases hnull : value = .null
  · exact .inl hnull
  by_cases hrecord : ∃ name coordinates, value.IsRecord name coordinates
  · exact .inr (.inr hrecord)
  · simp only [not_exists] at hrecord
    exact .inr (.inl ⟨hnull, hrecord⟩)

theorem ofJson_eq_ok_iff {g : Geometry} :
    ofJson value = .ok g ↔
      ∃ coordinates, value.IsRecord g.kind.name coordinates ∧
        g.HasCoordinates coordinates := by
  constructor
  · intro h
    rcases cases_of_value value with
        rfl | ⟨hnull, hnone⟩ | ⟨name, coordinates, hrecord⟩
    · cases h
    · obtain ⟨e, he, -⟩ := ofJson_of_not_record hnull hnone
      rw [he] at h
      cases h
    · rw [ofJson_of_record hrecord, GeometryRecord.geometry_eq_ok_iff] at h
      obtain ⟨rfl, hcoordinates⟩ := h
      exact ⟨coordinates, hrecord, hcoordinates⟩
  · rintro ⟨coordinates, hrecord, hcoordinates⟩
    rw [ofJson_of_record hrecord, GeometryRecord.geometry_eq_ok_iff]
    exact ⟨rfl, hcoordinates⟩

theorem exists_ofJson_iff :
    (∃ g, ofJson value = .ok g) ↔
      ∃ kind : GeometryKind, ∃ coordinates,
        value.IsRecord kind.name coordinates ∧
          IsNested kind.nesting coordinates := by
  constructor
  · rintro ⟨g, hg⟩
    obtain ⟨coordinates, hrecord, -⟩ := ofJson_eq_ok_iff.1 hg
    rw [ofJson_of_record hrecord] at hg
    exact ⟨g.kind, coordinates, hrecord,
      (GeometryRecord.exists_geometry_iff _ _).1 ⟨g, hg⟩⟩
  · rintro ⟨kind, coordinates, hrecord, hnested⟩
    rw [ofJson_of_record hrecord]
    exact (GeometryRecord.exists_geometry_iff kind coordinates).2 hnested

/-! ## What is refused -/

/-- Why a value is no geometry, with the error that reports it. -/
inductive Refused : Json → SpatialError → Prop where
  | null : Refused .null .nullGeometry
  | notARecord {value : Json} {e : SpatialError} (hnull : value ≠ .null)
      (h : ∀ name coordinates, ¬ value.IsRecord name coordinates)
      (he : Malformed e) :
      Refused value e
  | unknown {value : Json} {name : String} {coordinates : Json}
      (hrecord : value.IsRecord name coordinates)
      (h : ∀ kind : GeometryKind, kind.name ≠ name) :
      Refused value (.unsupportedType name)
  | notNested {value : Json} {kind : GeometryKind} {coordinates : Json}
      {e : SpatialError} (hrecord : value.IsRecord kind.name coordinates)
      (h : ¬ IsNested kind.nesting coordinates) (he : Malformed e) :
      Refused value e

/-- **Each refusal has one of the causes.** -/
theorem refused_of_ofJson {e : SpatialError} (h : ofJson value = .error e) :
    Refused value e := by
  rcases cases_of_value value with
      rfl | ⟨hnull, hnone⟩ | ⟨name, coordinates, hrecord⟩
  · obtain rfl := Except.error.inj h
    exact .null
  · obtain ⟨e', he', hmalformed⟩ := ofJson_of_not_record hnull hnone
    obtain rfl := Except.error.inj (he'.symm.trans h)
    exact .notARecord hnull hnone hmalformed
  · rw [ofJson_of_record hrecord] at h
    by_cases hkind : ∃ kind : GeometryKind, kind.name = name
    · obtain ⟨kind, rfl⟩ := hkind
      refine .notNested hrecord (fun hnested => ?_)
        (GeometryRecord.failsOnly_geometry kind coordinates e h)
      obtain ⟨g, hg⟩ :=
        (GeometryRecord.exists_geometry_iff kind coordinates).2 hnested
      rw [hg] at h
      cases h
    · simp only [not_exists] at hkind
      rw [GeometryRecord.geometry_of_unknown hkind] at h
      obtain rfl := Except.error.inj h
      exact .unknown hrecord hkind

theorem failsAs_emptyInput_iff :
    FailsAs (ofJson value) .emptyInput ↔ value = .null := by
  constructor
  · rintro ⟨e, he, hkind⟩
    cases refused_of_ofJson he with
    | null => rfl
    | notARecord _ _ hmalformed | notNested _ _ hmalformed =>
        rw [hmalformed] at hkind
        cases hkind
    | unknown _ _ => cases hkind
  · rintro rfl
    exact ⟨_, rfl, rfl⟩

theorem ofJson_eq_unsupportedType_iff {name : String} :
    ofJson value = .error (.unsupportedType name) ↔
      (∃ coordinates, value.IsRecord name coordinates) ∧
        ∀ kind : GeometryKind, kind.name ≠ name := by
  constructor
  · intro h
    cases refused_of_ofJson h with
    | notARecord _ _ hmalformed | notNested _ _ hmalformed => cases hmalformed
    | unknown hrecord hname => exact ⟨⟨_, hrecord⟩, hname⟩
  · rintro ⟨⟨coordinates, hrecord⟩, hname⟩
    rw [ofJson_of_record hrecord]
    exact GeometryRecord.geometry_of_unknown hname

theorem failsAs_unsupportedGeometryType_iff :
    FailsAs (ofJson value) .unsupportedGeometryType ↔
      ∃ name, ofJson value = .error (.unsupportedType name) := by
  constructor
  · rintro ⟨e, he, hkind⟩
    cases refused_of_ofJson he with
    | null => cases hkind
    | notARecord _ _ hmalformed | notNested _ _ hmalformed =>
        rw [hmalformed] at hkind
        cases hkind
    | unknown _ _ => exact ⟨_, he⟩
  · rintro ⟨name, h⟩
    exact ⟨_, h, rfl⟩

theorem failsAs_malformedCoordinates_iff :
    FailsAs (ofJson value) .malformedCoordinates ↔
      (value ≠ .null ∧ ∀ name coordinates, ¬ value.IsRecord name coordinates) ∨
        ∃ kind : GeometryKind, ∃ coordinates,
          value.IsRecord kind.name coordinates ∧
            ¬ IsNested kind.nesting coordinates := by
  constructor
  · rintro ⟨e, he, hkind⟩
    cases refused_of_ofJson he with
    | null => cases hkind
    | notARecord hnull hnone _ => exact .inl ⟨hnull, hnone⟩
    | unknown _ _ => cases hkind
    | notNested hrecord hnested _ => exact .inr ⟨_, _, hrecord, hnested⟩
  · rintro (⟨hnull, hnone⟩ | ⟨kind, coordinates, hrecord, hnested⟩)
    · exact ofJson_of_not_record hnull hnone
    · rw [ofJson_of_record hrecord]
      exact GeometryRecord.geometry_of_not_nested kind coordinates hnested

/-- **What comes of any JSON value.**  Null is empty input.  A record of an
unknown type name is refused by that name, whatever its coordinates are.  A
record of a known one is a geometry if its coordinates are nested as the kind
asks, and then it has the positions that stand there.  Everything else has
malformed coordinates. -/
theorem ofJson_wellShaped (value : Json) :
    (FailsAs (ofJson value) .emptyInput ↔ value = .null) ∧
    (FailsAs (ofJson value) .unsupportedGeometryType ↔
      ∃ name, ofJson value = .error (.unsupportedType name)) ∧
    (∀ name, ofJson value = .error (.unsupportedType name) ↔
      (∃ coordinates, value.IsRecord name coordinates) ∧
        ∀ kind : GeometryKind, kind.name ≠ name) ∧
    ((∃ g, ofJson value = .ok g) ↔
      ∃ kind : GeometryKind, ∃ coordinates,
        value.IsRecord kind.name coordinates ∧
          IsNested kind.nesting coordinates) ∧
    (∀ g, ofJson value = .ok g ↔
      ∃ coordinates, value.IsRecord g.kind.name coordinates ∧
        g.HasCoordinates coordinates) ∧
    (FailsAs (ofJson value) .malformedCoordinates ↔
      (value ≠ .null ∧ ∀ name coordinates, ¬ value.IsRecord name coordinates) ∨
        ∃ kind : GeometryKind, ∃ coordinates,
          value.IsRecord kind.name coordinates ∧
            ¬ IsNested kind.nesting coordinates) :=
  ⟨failsAs_emptyInput_iff, failsAs_unsupportedGeometryType_iff,
    fun _ => ofJson_eq_unsupportedType_iff, exists_ofJson_iff,
    fun _ => ofJson_eq_ok_iff, failsAs_malformedCoordinates_iff⟩

end Geometry

end ItemSearch
