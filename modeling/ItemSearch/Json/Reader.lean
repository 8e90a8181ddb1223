import ItemSearch.Json.Token

/-!
# Reading JSON

The tokens of a text are taken one after the other.  Between two tokens the
reader is in one of four positions, and it holds the arrays and objects that are
still open, the innermost first.  Their number is limited, so that the nesting
of a value that is read has a known bound.

## Main definitions

* `Json.put`: a member added to an object, in the place of one with the same
  key;
* `Json.Reader.Position`, `Json.Reader.step?`: the reader's state and what a
  token does to it;
* `Json.ofTokens?`, `Json.ofText?`: the value that tokens or a text stand for.
-/

namespace ItemSearch

namespace Json

/-- The members of an object with one more.  A key that is there already keeps
its place and takes the new value. -/
def put (members : List (String × Json)) (key : String) (value : Json) :
    List (String × Json) :=
  match members with
  | [] => [(key, value)]
  | (key', value') :: rest =>
      if key' = key then
        (key, value) :: rest
      else
        (key', value') :: put rest key value

namespace Reader

/-- An array or object that is open, with what has been read of it. -/
inductive Frame where
  /-- The items before the current one, the last one first. -/
  | array (items : List Json)
  /-- The members before the current one, and its key. -/
  | object (members : List (String × Json)) (key : String)

/-- Where the reader stands between two tokens. -/
inductive Position where
  /-- Before a value, or at the end of the innermost array if that has just been
  opened. -/
  | value (frames : List Frame) (mayClose : Bool)
  /-- Before a key of an object with these members, or at its end if it has just
  been opened. -/
  | key (frames : List Frame) (members : List (String × Json)) (mayClose : Bool)
  /-- Between a key and its value. -/
  | colon (frames : List Frame) (members : List (String × Json)) (key : String)
  /-- Behind a value. -/
  | behind (frames : List Frame) (value : Json)

/-- What a token does before a value. -/
def beforeValue? (limit : Nat) (frames : List Frame) (mayClose : Bool) :
    Token → Option Position
  | .null => some (.behind frames .null)
  | .bool value => some (.behind frames (.bool value))
  | .number value => some (.behind frames (.number value))
  | .string value => some (.behind frames (.string value))
  | .openArray =>
      if frames.length < limit then
        some (.value (.array [] :: frames) true)
      else
        none
  | .openObject =>
      if frames.length < limit then
        some (.key frames [] true)
      else
        none
  | .closeArray =>
      match mayClose, frames with
      | true, .array _ :: outer => some (.behind outer (.array []))
      | _, _ => none
  | _ => none

/-- What a token does behind a value. -/
def behindValue? (value : Json) : List Frame → Token → Option Position
  | .array items :: outer, .comma =>
      some (.value (.array (value :: items) :: outer) false)
  | .array items :: outer, .closeArray =>
      some (.behind outer (.array (value :: items).reverse))
  | .object members key :: outer, .comma =>
      some (.key outer (put members key value) false)
  | .object members key :: outer, .closeObject =>
      some (.behind outer (.object (put members key value)))
  | _, _ => none

/-- What a token does to the reader's position, if it may stand there.  No more
than `limit` arrays and objects may be open at once. -/
def step? (limit : Nat) (position : Position) (token : Token) :
    Option Position :=
  match position with
  | .value frames mayClose => beforeValue? limit frames mayClose token
  | .behind frames value => behindValue? value frames token
  | .key frames members mayClose =>
      match token with
      | .string key => some (.colon frames members key)
      | .closeObject =>
          if mayClose then
            some (.behind frames (.object members))
          else
            none
      | _ => none
  | .colon frames members key =>
      match token with
      | .colon => some (.value (.object members key :: frames) false)
      | _ => none

/-- The value that has been read, if nothing is open. -/
def result? : Position → Option Json
  | .behind [] value => some value
  | _ => none

end Reader

/-- The value that tokens stand for, if no more than `limit` arrays and objects
nest. -/
def ofTokens? (limit : Nat) (tokens : List Token) : Option Json :=
  (tokens.foldlM (Reader.step? limit) (.value [] false)).bind Reader.result?

/-- The value that a text stands for, if no more than `limit` arrays and objects
nest. -/
def ofText? (limit : Nat) (text : String) : Option Json :=
  (Token.scan? text.toList).bind (ofTokens? limit)

/-- The nesting that text from outside may have. -/
def nestingLimit : Nat := 127

end Json

end ItemSearch
