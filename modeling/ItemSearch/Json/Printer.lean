import ItemSearch.Json.Token

/-!
# JSON text

A value is written as the sequence of its tokens, with nothing between them.

## Main definitions

* `Json.tokens`: the tokens of a value;
* `Json.text`: its text.
-/

namespace ItemSearch

namespace Json

mutual

/-- The tokens of a value. -/
def tokens : Json → List Token
  | .null => [.null]
  | .bool value => [.bool value]
  | .number value => [.number value]
  | .string value => [.string value]
  | .array items => .openArray :: (itemTokens items ++ [.closeArray])
  | .object members => .openObject :: (memberTokens members ++ [.closeObject])

/-- The tokens of the items of an array, with commas between them. -/
def itemTokens : List Json → List Token
  | [] => []
  | item :: rest => item.tokens ++ laterItemTokens rest

/-- The tokens of the items of an array that follow another item. -/
def laterItemTokens : List Json → List Token
  | [] => []
  | item :: rest => .comma :: (item.tokens ++ laterItemTokens rest)

/-- The tokens of the members of an object, with commas between them. -/
def memberTokens : List (String × Json) → List Token
  | [] => []
  | (key, value) :: rest =>
      .string key :: .colon :: (value.tokens ++ laterMemberTokens rest)

/-- The tokens of the members of an object that follow another member. -/
def laterMemberTokens : List (String × Json) → List Token
  | [] => []
  | (key, value) :: rest =>
      .comma :: .string key :: .colon ::
        (value.tokens ++ laterMemberTokens rest)

end

/-- The text of a value. -/
def chars (value : Json) : List Char :=
  value.tokens.flatMap Token.chars

/-- The text of a value. -/
def text (value : Json) : String :=
  String.ofList value.chars

end Json

end ItemSearch
