import ItemSearch.Decimal.Numeral
import ItemSearch.Geometry.View
import ItemSearch.Wkt.Basic

/-!
# Reading well-known text

A well-known text is a keyword, in any letter case, and one group.  A point's
group holds a position, a polygon's the groups of its rings, a multi-polygon's
the groups of its polygons.  A position is two or more numbers between blanks,
of which the first two count.  Other keywords of well-known text are told apart
from unknown ones.

## Main definitions

* `Wkt.Keyword`, `Wkt.Keyword.ofChars?`: the keywords;
* `Wkt.readPosition`, `Wkt.readRing`, `Wkt.readPolygon`: the parts of a text;
* `Wkt.read`: the geometry that a text stands for;
* `Geometry.ofWkt`, `Box.ofWkt`: that geometry and the box around it, with
  notes.
-/

namespace ItemSearch

namespace Wkt

/-- The groups of a text, where a defect is reported with the text. -/
def textGroups (text : List Char) : Except SpatialError (List (List Char)) :=
  match groups text with
  | .ok insides => .ok insides
  | .error (.unmatchedClose offset) =>
      .error (.wkt (.unmatchedClose offset text))
  | .error (.strayCharacter found) => .error (.wkt (.strayCharacter found text))
  | .error (.unclosed count) => .error (.wkt (.unclosed count text))

/-- The inside of the one group that a text consists of. -/
def onlyGroup (text : List Char) : Except SpatialError (List Char) := do
  match ← textGroups text with
  | [inside] => pure inside
  | insides => throw (.wkt (.bodyCount insides.length (Text.trim text)))

/-! ## Positions, rings and polygons -/

/-- The finite number that a word of a position stands for. -/
def readNumber (position word : List Char) : Except SpatialError Binary64 :=
  match Binary64.ofChars? word with
  | some v =>
      if v.isFinite then
        .ok v
      else
        .error (.wkt (.notANumber word position))
  | none => .error (.wkt (.notANumber word position))

/-- The position that a text stands for. -/
def readPosition (text : List Char) : Except SpatialError Position := do
  match ← (Text.words text).mapM (readNumber text) with
  | x :: y :: _ => pure ⟨x, y⟩
  | _ => throw (.wkt (.shortPosition (Text.trim text)))

/-- The positions of a ring, between commas. -/
def readRing (text : List Char) : Except SpatialError Ring :=
  if '(' ∈ text then
    .error (.wkt (.nestedRing text))
  else
    (Text.fields (· == ',') text).mapM readPosition

/-- The rings of a polygon. -/
def readPolygon (text : List Char) : Except SpatialError (List Ring) := do
  let rings ← textGroups text
  if rings = [] then
    throw (.wkt (.noRings text))
  rings.mapM readRing

/-- The polygons of a multi-polygon. -/
def readMultiPolygon (text : List Char) :
    Except SpatialError (List (List Ring)) := do
  let polygons ← textGroups text
  if polygons = [] then
    throw (.wkt .noPolygons)
  polygons.mapM readPolygon

/-- The position of a point. -/
def readPoint (text : List Char) : Except SpatialError Position :=
  if '(' ∈ text ∨ ',' ∈ text then
    .error (.wkt (.pointList text))
  else
    readPosition text

/-! ## Geometries -/

/-- The keywords of well-known text. -/
inductive Keyword where
  | point
  | polygon
  | multiPolygon
  /-- The keyword of a geometry that is not supported. -/
  | unsupported (name : String)
  deriving DecidableEq

/-- The keywords of geometries that are not supported. -/
def unsupportedNames : List String :=
  ["LINESTRING", "MULTIPOINT", "MULTILINESTRING", "GEOMETRYCOLLECTION",
   "TRIANGLE", "TIN", "POLYHEDRALSURFACE", "CIRCULARSTRING", "COMPOUNDCURVE",
   "CURVEPOLYGON", "MULTICURVE", "MULTISURFACE"]

/-- The keyword that a run of letters stands for, in any letter case. -/
def Keyword.ofChars? (letters : List Char) : Option Keyword :=
  let name := letters.map Char.toUpper
  if name = "POINT".toList then some .point
  else if name = "POLYGON".toList then some .polygon
  else if name = "MULTIPOLYGON".toList then some .multiPolygon
  else
    (unsupportedNames.find? fun other => name = other.toList).map .unsupported

/-- The geometry that the letters before a group and the inside of the group
stand for; an unknown keyword is reported with the whole text. -/
def readBody (text letters inside : List Char) : Except SpatialError Geometry :=
  match Keyword.ofChars? letters with
  | some .point => .point <$> readPoint inside
  | some .polygon => .polygon <$> readPolygon inside
  | some .multiPolygon => .multiPolygon <$> readMultiPolygon inside
  | some (.unsupported name) => .error (.unsupportedType name)
  | none => .error (.wkt (.unknownKeyword text))

/-- The geometry that a text without blanks around it stands for. -/
def readTrimmed (text : List Char) : Except SpatialError Geometry := do
  if text = [] then
    throw .blankText
  let inside ← onlyGroup (text.dropWhile Char.isAlpha)
  readBody text (text.takeWhile Char.isAlpha) inside

/-- The geometry that a text stands for. -/
def read (text : List Char) : Except SpatialError Geometry :=
  readTrimmed (Text.trim text)

end Wkt

/-- The geometry that a well-known text stands for. -/
def Geometry.ofWkt (text : String) : Journaled WktEvent SpatialError Geometry :=
  match Wkt.read text.toList with
  | .ok g => ⟨[.wasRead g.kind], .ok g⟩
  | .error e => ⟨[.notRead text.toList e], .error e⟩

/-- The box around the geometry that a well-known text stands for. -/
def Box.ofWkt (text : String) : Journaled WktEvent SpatialError Box := do
  let g ← Geometry.ofWkt text
  Journaled.quiet (Box.ofGeometry g)

@[simp] theorem Geometry.outcome_ofWkt (text : String) :
    (Geometry.ofWkt text).outcome = Wkt.read text.toList := by
  unfold Geometry.ofWkt
  cases Wkt.read text.toList <;> rfl

theorem Box.outcome_ofWkt (text : String) :
    (Box.ofWkt text).outcome =
      (Geometry.ofWkt text).outcome >>= Box.ofGeometry := by
  rw [Box.ofWkt, Journaled.outcome_bind]
  rfl

end ItemSearch
