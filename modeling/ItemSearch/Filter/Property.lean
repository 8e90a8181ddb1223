/-!
# Searchable properties

A filter speaks of properties, the search service of fields.  The table says
which field a property constrains and what values that field takes.  Names are
compared exactly.

## Main definitions

* `FieldKind`: the values that a field takes, and whether a list of them may be
  asked for;
* `Property`: a property, its field and the kind of the field;
* `Property.table`, `Property.find?`: all properties, and the one with a given
  name;
* `OrbitDirection`: the two directions of a satellite pass.
-/

namespace ItemSearch

/-- The values that a field takes. -/
inductive FieldKind where
  /-- A text; a list of alternatives cannot be asked for. -/
  | text
  /-- Any of a list of texts. -/
  | textSet
  /-- Any of a list of 64-bit integers. -/
  | integerSet
  /-- One of the two orbit directions, and only one for the whole search. -/
  | orbitDirection
  deriving DecidableEq

namespace FieldKind

/-- How messages call a kind. -/
def name : FieldKind → String
  | .text => "string"
  | .textSet => "string-set"
  | .integerSet => "int-set"
  | .orbitDirection => "enum-orbit-state"

/-- Whether a filter may ask for one of a list of values. -/
def takesList : FieldKind → Bool
  | .textSet | .integerSet => true
  | .text | .orbitDirection => false

end FieldKind

/-- A property that a filter may name. -/
structure Property where
  name : String
  /-- The field of the search service that the property constrains. -/
  field : String
  kind : FieldKind
  deriving DecidableEq

namespace Property

/-- The field of the orbit direction. -/
def directionField : String := "flightDirection"

/-- All properties that a filter may name. -/
def table : List Property :=
  [⟨"sar:instrument_mode", "beamMode", .textSet⟩,
   ⟨"sar:polarizations", "polarization", .textSet⟩,
   ⟨"sar:product_type", "processingLevel", .text⟩,
   ⟨"platform", "platform", .textSet⟩,
   ⟨"sat:orbit_state", directionField, .orbitDirection⟩,
   ⟨"sat:relative_orbit", "relativeOrbit", .integerSet⟩,
   ⟨"sat:absolute_orbit", "absoluteOrbit", .integerSet⟩]

/-- The names of all properties, in the order of the table. -/
def names : List String :=
  table.map name

/-- The property with the given name. -/
def find? (name : String) : Option Property :=
  table.find? fun p => p.name = name

theorem mem_table_of_find? {name : String} {p : Property}
    (found : find? name = some p) :
    p ∈ table :=
  List.mem_of_find?_eq_some found

theorem name_of_find? {name : String} {p : Property}
    (found : find? name = some p) :
    p.name = name := by
  simpa using List.find?_some found

end Property

/-- The direction of a satellite pass. -/
inductive OrbitDirection where
  | ascending
  | descending
  deriving DecidableEq

namespace OrbitDirection

/-- The direction that a text names, in any letter case and with nothing around
it. -/
def ofText? (text : String) : Option OrbitDirection :=
  let word := text.toList.map Char.toLower
  if word = "ascending".toList then some .ascending
  else if word = "descending".toList then some .descending
  else none

/-- How the search service writes a direction. -/
def text : OrbitDirection → String
  | .ascending => "ASCENDING"
  | .descending => "DESCENDING"

end OrbitDirection

end ItemSearch
