import ItemSearch.Edit
import ItemSearch.Filter.Encoding
import ItemSearch.Query.Basic

/-!
# Compiling filters into queries

The search service understands one list of admitted values per field.  A filter
is compiled by adding the values of its conditions to the lists of their fields,
from left to right, whatever the junctions above them say.  Within one field
this reads a junction of alternatives as it is meant.  A junction of
alternatives over several fields cannot be expressed, so it is noted in the
journal.

Values are added to a query in place, and the first defect stops the work
halfway.  So the work is done on a copy of the query, and the copy is taken over
only when it is complete.

## Main definitions

* `FieldKind.coerce?`: the field value that a scalar stands for;
* `Query.restrict`: a query with the orbit direction restricted to one;
* `Condition.fill`, `Filter.fill`: adding a condition, and all conditions of a
  filter, to a query in place;
* `Filter.compileInto`: compiling a filter into the query that is worked on;
* `Filter.compile`, `Filter.compileJson`: a filter, or its JSON form, compiled
  into a query;
* `Query.after`: the query that is left by an attempt to compile a filter into
  it.
-/

namespace ItemSearch

/-! ## Values -/

/-- The value of a field that a scalar stands for.  A binary64 number stands for
the integer that it is equal to. -/
def FieldKind.coerce? : FieldKind → Scalar → Option FieldValue
  | .text, .string value => some (.string value)
  | .textSet, .string value => some (.string value)
  | .integerSet, .integer value => some (.integer value)
  | .integerSet, .float value =>
      (value.toInt?.bind Scalar.int64?).map .integer
  | _, _ => none

namespace Property

/-- The value of the property's field that a scalar stands for. -/
def coerce (p : Property) (value : Scalar) : Except FilterError FieldValue :=
  match p.kind.coerce? value with
  | some coerced => .ok coerced
  | none => .error (.wrongType value p)

/-- The orbit direction that a scalar stands for. -/
def direction (p : Property) (value : Scalar) :
    Except FilterError OrbitDirection :=
  match value with
  | .string name =>
      match OrbitDirection.ofText? name with
      | some direction => .ok direction
      | none => .error (.notADirection name p)
  | _ => .error (.wrongType value p)

/-- The property with the given name. -/
def resolve (name : String) : Except FilterError Property :=
  match find? name with
  | some p => .ok p
  | none => .error (.unknownProperty name)

end Property

/-- The query restricted to an orbit direction, unless it is restricted to the
other one. -/
def Query.restrict (q : Query) (direction : OrbitDirection) :
    Except FilterError Query :=
  match q.direction with
  | none => .ok (q.withDirection direction)
  | some existing =>
      if existing = direction then
        .ok q
      else
        .error (.directionConflict existing direction)

/-! ## What is noted -/

/-- What is noted while filters are compiled. -/
inductive CompileEvent where
  /-- The work on a filter begins. -/
  | compiling (filter : Filter)
  /-- A node that is not too deep comes up. -/
  | applying (node : Filter)
  /-- A junction of alternatives touches several fields. -/
  | acrossFields (fields : List String)
  /-- The work ends with a defect. -/
  | failed (error : FilterError)
  /-- The work ends with a query. -/
  | compiled (query : Query)

instance : Noted CompileEvent where
  level
    | .compiling _ | .failed _ | .compiled _ => .debug
    | .applying _ => .trace
    | .acrossFields _ => .warn
  text
    | .compiling filter => "Compiling filter " ++ filter.text
    | .applying node => "Applying filter node " ++ node.text
    | .acrossFields fields =>
        "'or' across fields [" ++ String.intercalate ", " fields ++
          "] is compiled as a conjunction of per-field lists"
    | .failed error => "Filter compilation failed: " ++ error.report.text
    | .compiled query => "Compiled filter into " ++ query.text

/-! ## Conditions -/

/-- Work on a query in place. -/
abbrev QueryEdit (α : Type) := Edit CompileEvent FilterError Query α

/-- Adds values to the list of the property's field.  The first one that does
not fit is the defect, and those before it have been added by then. -/
def Property.fill (p : Property) (values : List Scalar) : QueryEdit Unit :=
  forM values fun value => do
    let coerced ← p.coerce value
    modify (·.push p.field coerced)

/-- Adds one condition to the query. -/
def Condition.fill (limits : Limits) : Condition → QueryEdit Unit
  | .equals name value => do
      let p ← Property.resolve name
      if p.kind = .orbitDirection then
        let direction ← p.direction value
        let restricted ← (← get).restrict direction
        set restricted
      else
        let coerced ← p.coerce value
        modify (·.push p.field coerced)
  | .oneOf name values =>
      if values = [] then
        throw (.noValues name)
      else if limits.listLength < values.length then
        throw (.listTooLong values.length limits.listLength)
      else do
        let p ← Property.resolve name
        if p.kind.takesList then
          p.fill values
        else
          throw (.takesNoList p)

/-! ## Filters -/

namespace Filter

/-- A junction of alternatives over more than one field is noted. -/
def noteAcrossFields (connective : Connective) (operands : List Filter) :
    Journaled CompileEvent FilterError Unit :=
  let fields := fieldsOf (operands.flatMap conditions)
  if connective = .any ∧ 1 < fields.length then
    Journaled.note (.acrossFields fields)
  else
    pure ()

/-- Adds all conditions of a filter to the query, if the filter has no more than
the given number of levels. -/
def fill (limits : Limits) : Nat → Filter → QueryEdit Unit
  | 0, _ => throw (.tooDeep limits.depth)
  | levels + 1, f => do
      Edit.note (.applying f)
      match f with
      | .condition c => c.fill limits
      | .junction connective operands =>
          if operands = [] then
            throw .emptyJunction
          else do
            noteAcrossFields connective operands
            forM operands (fill limits levels)

/-- Compiles a filter into the query that is worked on.  What is filled is a
copy of the query, which takes the place of the query at the end. -/
def compileInto (limits : Limits) (f : Filter) : QueryEdit Unit := do
  Edit.note (.compiling f)
  let (outcome, scratch) ← (fill limits limits.depth f).onCopy
  match outcome with
  | .error e =>
      Edit.note (.failed e)
      throw e
  | .ok () =>
      set scratch
      Edit.note (.compiled scratch)

/-- The query that compiling a filter makes of another one. -/
def compile (limits : Limits) (f : Filter) (q : Query) :
    Journaled CompileEvent FilterError Query :=
  (compileInto limits f).onto q

/-- Compiles the JSON form of a filter into a query of its own. -/
def compileJson (limits : Limits) (value : Json) :
    Journaled CompileEvent FilterError Query := do
  let f ← Journaled.quiet (ofJson limits value)
  compile limits f .empty

end Filter

/-- The query that is left by an attempt to compile a filter into it. -/
def Query.after (limits : Limits) (q : Query) (f : Filter) : Query :=
  ((f.compileInto limits).run q).left

end ItemSearch
