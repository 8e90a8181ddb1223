import ItemSearch.Geometry.Error
import ItemSearch.Journal

/-!
# Parts of well-known text

Well-known text is trimmed and split at blanks.  These are the characters with
the Unicode property White_Space; look-alikes without the property, such as the
zero-width space or the Mongolian vowel separator, are ordinary characters.

Well-known text nests by parentheses.  At each level it is a sequence of groups,
each of which starts with an opening parenthesis and ends with the one that
closes it, with nothing but commas and blanks around them.  The scan keeps the
number of parentheses that are open and the part of the current group that it
has passed.

## Main definitions

* `WktEvent`: what is noted while geometries are written and read;
* `Text.isBlank`: the property White_Space;
* `Text.trim`: a text without the blanks at its ends;
* `Text.fields`, `Text.words`: the parts of a text between separators, and the
  longest parts without blanks;
* `Wkt.GroupError`: what keeps a text from being a sequence of groups;
* `Wkt.groups`: the insides of the groups of a text;
* `Wkt.enclose`: a group with the given inside.
-/

namespace ItemSearch

/-! ## The journal -/

/-- What is noted while geometries are written and read. -/
inductive WktEvent where
  /-- A geometry of this kind cannot be written. -/
  | notWritten (kind : GeometryKind) (error : SpatialError)
  /-- A text has been read into a geometry of this kind. -/
  | wasRead (kind : GeometryKind)
  /-- A text cannot be read. -/
  | notRead (text : List Char) (error : SpatialError)

instance : Noted WktEvent where
  level
    | .notWritten _ _ | .notRead _ _ => .debug
    | .wasRead _ => .trace
  text
    | .notWritten kind error =>
        s!"Failed to write {kind.name} as WKT: {error.text}"
    | .wasRead kind => s!"Parsed WKT into {kind.name}"
    | .notRead text error =>
        s!"Failed to parse WKT {Text.quoted text}: {error.text}"

/-! ## Blanks -/

namespace Text

/-- The Unicode property White_Space. -/
def isBlank (c : Char) : Bool :=
  let point := c.toNat
  (0x9 ≤ point && point ≤ 0xd) || point == 0x20 || point == 0x85 ||
    point == 0xa0 || point == 0x1680 || (0x2000 ≤ point && point ≤ 0x200a) ||
    point == 0x2028 || point == 0x2029 || point == 0x202f || point == 0x205f ||
    point == 0x3000

/-- A text without the blanks before its first and behind its last other
character. -/
def trim (cs : List Char) : List Char :=
  ((cs.dropWhile isBlank).reverse.dropWhile isBlank).reverse

/-- The parts of a text between the characters that separate: one more than
there are separators. -/
def fields (separates : Char → Bool) : List Char → List (List Char)
  | [] => [[]]
  | c :: cs =>
      if separates c then
        [] :: fields separates cs
      else
        match fields separates cs with
        | [] => [[c]]
        | field :: rest => (c :: field) :: rest

/-- The parts of a text between runs of blanks. -/
def words (cs : List Char) : List (List Char) :=
  (fields isBlank cs).filter fun word => !word.isEmpty

end Text

/-! ## Groups -/

namespace Wkt

/-- What keeps a text from being a sequence of groups. -/
inductive GroupError where
  /-- A parenthesis closes where none is open, at this byte offset. -/
  | unmatchedClose (offset : Nat)
  /-- Another character stands outside all groups. -/
  | strayCharacter (found : Char)
  /-- The text ends while this many parentheses are open. -/
  | unclosed (count : Nat)
  deriving DecidableEq

/-- Whether a character may stand between groups. -/
def separates (c : Char) : Bool :=
  c == ',' || Text.isBlank c

/-- The insides of the groups of the rest of a text, from a byte offset on,
where some parentheses are open and the current group has been passed up to
here; `passed` holds its inside, the last character first. -/
def groupsFrom (offset : Nat) (depth : Nat) (passed : List Char) :
    List Char → Except GroupError (List (List Char))
  | [] => if depth = 0 then .ok [] else .error (.unclosed depth)
  | c :: rest =>
      let next := offset + c.utf8Size
      match depth with
      | 0 =>
          if c = '(' then groupsFrom next 1 [] rest
          else if c = ')' then .error (.unmatchedClose offset)
          else if separates c then groupsFrom next 0 [] rest
          else .error (.strayCharacter c)
      | 1 =>
          if c = '(' then groupsFrom next 2 (c :: passed) rest
          else if c = ')' then
            (passed.reverse :: ·) <$> groupsFrom next 0 [] rest
          else groupsFrom next 1 (c :: passed) rest
      | deeper + 2 =>
          if c = '(' then groupsFrom next (deeper + 3) (c :: passed) rest
          else if c = ')' then groupsFrom next (deeper + 1) (c :: passed) rest
          else groupsFrom next (deeper + 2) (c :: passed) rest

/-- The insides of the groups of a text. -/
def groups (text : List Char) : Except GroupError (List (List Char)) :=
  groupsFrom 0 0 [] text

/-- A group with the given inside. -/
def enclose (inside : List Char) : List Char :=
  '(' :: (inside ++ [')'])

end Wkt

end ItemSearch
