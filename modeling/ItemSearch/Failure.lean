/-!
# Failures

Everything that can go wrong falls into one of fourteen kinds, so that a caller
can decide what to do without reading a message.  A report is a kind with a
message.  A failure is a report together with the reports of what caused it, the
nearest cause first.

## Main definitions

* `FailureKind`, `FailureKind.title`: the kinds, and how messages call them;
* `Report`, `Report.text`: a kind with a message, and its text;
* `Failure`, `Failure.because`: a report with its causes;
* `Failure.details`: the text of a failure and all its causes.
-/

namespace ItemSearch

/-- What sort of thing went wrong. -/
inductive FailureKind where
  /-- A filter has the wrong shape. -/
  | malformedFilter
  /-- An operator is unknown, or not admitted for a property. -/
  | unsupportedOperator
  /-- A property is unknown. -/
  | unsupportedProperty
  /-- A value has the right type but is none of the admitted ones. -/
  | unsupportedValue
  /-- A value has the wrong type. -/
  | typeCoercion
  /-- A field that has one value would need two. -/
  | conflictingConstraint
  /-- A geometry is of another kind than asked for. -/
  | typeMismatch
  /-- Coordinates do not have the shape that the kind of geometry asks for. -/
  | malformedCoordinates
  /-- A well-known text cannot be read. -/
  | malformedWkt
  /-- A kind of geometry is outside the supported ones. -/
  | unsupportedGeometryType
  /-- There is no position to take a bounding box of. -/
  | noValidCoordinates
  /-- Nothing is given where something is needed. -/
  | emptyInput
  /-- A search names both a box and a geometry. -/
  | ambiguousSpatialTerm
  /-- The fault is not in the input. -/
  | internal
  deriving DecidableEq

namespace FailureKind

/-- How messages call a kind. -/
def title : FailureKind → String
  | .malformedFilter => "Malformed filter"
  | .unsupportedOperator => "Unsupported operator"
  | .unsupportedProperty => "Unsupported property"
  | .unsupportedValue => "Unsupported value"
  | .typeCoercion => "Type coercion error"
  | .conflictingConstraint => "Conflicting constraint"
  | .typeMismatch => "Type mismatch"
  | .malformedCoordinates => "Malformed coordinates"
  | .malformedWkt => "Malformed WKT"
  | .unsupportedGeometryType => "Unsupported geometry type"
  | .noValidCoordinates => "No valid coordinates"
  | .emptyInput => "Empty input"
  | .ambiguousSpatialTerm => "Ambiguous spatial term"
  | .internal => "Internal error"

end FailureKind

/-- A kind of failure with a message. -/
structure Report where
  kind : FailureKind
  message : String
  deriving DecidableEq

namespace Report

/-- The text of a report: its kind, then its message. -/
def text (r : Report) : String :=
  r.kind.title ++ ": " ++ r.message

/-- A report that repeats another one, kind and all, as its message. -/
def restated (r : Report) : Report :=
  ⟨r.kind, r.text⟩

/-- The report for text that could not be put together. -/
def formatting : Report :=
  ⟨.internal, "Formatting error: an error occurred when formatting an argument"⟩

@[simp] theorem kind_restated (r : Report) : r.restated.kind = r.kind := rfl

@[simp] theorem message_restated (r : Report) :
    r.restated.message = r.text := rfl

end Report

/-- A report and the reports of its causes, the nearest one first. -/
structure Failure where
  report : Report
  causes : List Report
  deriving DecidableEq

namespace Failure

/-- A failure without a known cause. -/
def of (report : Report) : Failure :=
  ⟨report, []⟩

/-- A failure that another one caused. -/
def because (report : Report) (cause : Failure) : Failure :=
  ⟨report, cause.report :: cause.causes⟩

/-- The failure's own report and those of its causes. -/
def chain (f : Failure) : List Report :=
  f.report :: f.causes

/-- The failure that caused this one. -/
def cause? (f : Failure) : Option Failure :=
  match f.causes with
  | [] => none
  | report :: causes => some ⟨report, causes⟩

/-- The text of a failure alone. -/
def text (f : Failure) : String :=
  f.report.text

/-- The text of a failure and all its causes. -/
def details (f : Failure) : String :=
  String.intercalate "\nCaused by: " (f.chain.map Report.text)

@[simp] theorem cause?_of (report : Report) : (of report).cause? = none := rfl

@[simp] theorem cause?_because (report : Report) (cause : Failure) :
    (because report cause).cause? = some cause := rfl

@[simp] theorem chain_because (report : Report) (cause : Failure) :
    (because report cause).chain = report :: cause.chain := rfl

end Failure

end ItemSearch
