import ItemSearch.Decimal.Layout
import ItemSearch.Decimal.Numeral
import ItemSearch.Json.Basic

/-!
# JSON tokens

JSON text is a sequence of tokens with blanks between them: six marks, three
words, numbers and strings.  A run of letters or of the characters of numbers is
one token or none, since no two such tokens may touch in JSON text.

A string may write a character as one or two escaped 16-bit units.  Reading goes
in two steps: first the written units are told apart, then each high surrogate
is paired with the low one that has to follow.

## Main definitions

* `Json.Token`, `Json.Token.chars`: a token and its written form;
* `Json.Number.ofChars?`: the number that a run of characters writes;
* `Json.takeString?`: the text of a string, and what follows it;
* `Json.Token.scan?`: the tokens of a text.
-/

namespace ItemSearch

namespace Json

/-- A token of JSON text. -/
inductive Token where
  | openArray
  | closeArray
  | openObject
  | closeObject
  | comma
  | colon
  | null
  | bool (value : Bool)
  | number (value : Number)
  | string (value : String)
  deriving DecidableEq

/-! ## Writing -/

/-- The written form of a number. -/
def Number.chars : Number → List Char
  | .integer value .. => Decimal.Layout.intChars value
  | .float value _ => Decimal.Layout.json.chars value

/-- The hexadecimal digits of a unit below 256, after two zeros. -/
def smallUnit (unit : Nat) : List Char :=
  ['0', '0', Nat.digitChar (unit / 16), Nat.digitChar (unit % 16)]

/-- The written form of a character inside a string. -/
def escape (c : Char) : List Char :=
  if c = '\x22' then ['\\', c]
  else if c = '\\' then ['\\', c]
  else if c = '\x08' then ['\\', 'b']
  else if c = '\x0c' then ['\\', 'f']
  else if c = '\n' then ['\\', 'n']
  else if c = '\r' then ['\\', 'r']
  else if c = '\t' then ['\\', 't']
  else if c.toNat < 0x20 then '\\' :: 'u' :: smallUnit c.toNat
  else [c]

/-- The written form of a token. -/
def Token.chars : Token → List Char
  | .openArray => ['[']
  | .closeArray => [']']
  | .openObject => ['\x7b']
  | .closeObject => ['\x7d']
  | .comma => [',']
  | .colon => [':']
  | .null => ['n', 'u', 'l', 'l']
  | .bool true => ['t', 'r', 'u', 'e']
  | .bool false => ['f', 'a', 'l', 's', 'e']
  | .number value => value.chars
  | .string value => '\x22' :: (value.toList.flatMap escape ++ ['\x22'])

/-! ## Reading numbers and words -/

/-- The number that a run of characters writes: digits without a leading zero, a
fraction and an exponent that have digits if they are there at all.  Digits
alone make an integer, unless it is out of the 64-bit ranges or `-0`; anything
else makes a binary64 number, and one that is too large is refused.

That a decimal makes the binary64 number nearest to it is assumed of the format:
a reader that saves work on long decimals may miss it by a unit in the last
place. -/
def Number.ofChars? (cs : List Char) : Option Number := do
  let (negative, body) := match cs with
    | '-' :: rest => (true, rest)
    | _ => (false, cs)
  let numeral ← Decimal.Numeral.ofChars? body
  if numeral.whole = [] ∨ numeral.fraction = some [] ∨
      (numeral.whole.head? = some '0' ∧ 1 < numeral.whole.length) then
    none
  else
    let size := numeral.decimal.digits
    let value : Int := if negative then -(size : Int) else size
    if fits : (numeral.fraction = none ∧ numeral.exponent = none) ∧
        (negative = true → size ≠ 0) ∧
        -2 ^ (63 : Nat) ≤ value ∧ value < 2 ^ (64 : Nat) then
      some (.integer value fits.2.2.1 fits.2.2.2)
    else
      let rounded := numeral.decimal.toBinary64 negative
      if finite : rounded.isFinite = true then
        some (.float rounded finite)
      else
        none

/-- The token that a run of letters writes. -/
def Token.ofWord? (cs : List Char) : Option Token :=
  if cs = Token.null.chars then some .null
  else if cs = (Token.bool true).chars then some (.bool true)
  else if cs = (Token.bool false).chars then some (.bool false)
  else none

/-- The token that a mark writes. -/
def Token.ofMark? (c : Char) : Option Token :=
  if c = '[' then some .openArray
  else if c = ']' then some .closeArray
  else if c = '\x7b' then some .openObject
  else if c = '\x7d' then some .closeObject
  else if c = ',' then some .comma
  else if c = ':' then some .colon
  else none

/-! ## Reading strings -/

/-- A part of a written string. -/
inductive StringPart where
  /-- A character that stands for itself or has an escape of its own. -/
  | char (c : Char)
  /-- A 16-bit unit, written with four hexadecimal digits. -/
  | unit (value : Nat)
  deriving DecidableEq

/-- The character behind a backslash that stands for one character. -/
def shortEscape? (c : Char) : Option Char :=
  if c = '\x22' ∨ c = '\\' ∨ c = '/' then some c
  else if c = 'b' then some '\x08'
  else if c = 'f' then some '\x0c'
  else if c = 'n' then some '\n'
  else if c = 'r' then some '\r'
  else if c = 't' then some '\t'
  else none

/-- The value of a hexadecimal digit. -/
def hexDigit? (c : Char) : Option Nat :=
  if '0' ≤ c ∧ c ≤ '9' then some (c.toNat - 0x30)
  else if 'a' ≤ c ∧ c ≤ 'f' then some (c.toNat - 0x57)
  else if 'A' ≤ c ∧ c ≤ 'F' then some (c.toNat - 0x37)
  else none

/-- The value of four hexadecimal digits. -/
def hexUnit? (a b c d : Char) : Option Nat := do
  let a ← hexDigit? a
  let b ← hexDigit? b
  let c ← hexDigit? c
  let d ← hexDigit? d
  some (((a * 16 + b) * 16 + c) * 16 + d)

/-- The parts of a string up to its closing quote, and what follows the
quote. -/
def takeParts? : List Char → Option (List StringPart × List Char)
  | [] => none
  | c :: rest =>
      if c = '\x22' then
        some ([], rest)
      else if c = '\\' then
        match rest with
        | 'u' :: a :: b :: c :: d :: rest => do
            let unit ← hexUnit? a b c d
            let (parts, rest) ← takeParts? rest
            some (.unit unit :: parts, rest)
        | mark :: rest => do
            let c ← shortEscape? mark
            let (parts, rest) ← takeParts? rest
            some (.char c :: parts, rest)
        | [] => none
      else if c.toNat < 0x20 then
        none
      else do
        let (parts, rest) ← takeParts? rest
        some (.char c :: parts, rest)

/-- The text that the parts of a string make.  A high surrogate needs a low one
behind it, and a low one a high one before it. -/
def joinParts? : List StringPart → Option (List Char)
  | [] => some []
  | .char c :: rest => (joinParts? rest).map (c :: ·)
  | .unit high :: .unit low :: rest =>
      if 0xd800 ≤ high ∧ high < 0xdc00 then
        if 0xdc00 ≤ low ∧ low < 0xe000 then
          (joinParts? rest).map
            (Char.ofNat
              (0x10000 + (high - 0xd800) * 0x400 + (low - 0xdc00)) :: ·)
        else
          none
      else if 0xdc00 ≤ high ∧ high < 0xe000 then
        none
      else
        (joinParts? (.unit low :: rest)).map (Char.ofNat high :: ·)
  | .unit unit :: rest =>
      if 0xd800 ≤ unit ∧ unit < 0xe000 then
        none
      else
        (joinParts? rest).map (Char.ofNat unit :: ·)

/-- The text of a string whose opening quote has been taken, and what follows
its closing quote. -/
def takeString? (cs : List Char) : Option (String × List Char) := do
  let (parts, rest) ← takeParts? cs
  let text ← joinParts? parts
  some (String.ofList text, rest)

theorem length_takeParts? {cs : List Char} {parts : List StringPart}
    {rest : List Char}
    (taken : takeParts? cs = some (parts, rest)) : rest.length < cs.length := by
  fun_induction takeParts? cs generalizing parts with
  | case1 => simp at taken
  | case2 rest' => simp_all
  | case3 a b c d rest' hQuote ih =>
      simp only [Option.bind_eq_bind, Option.bind_eq_some_iff] at taken
      obtain ⟨_, _, ⟨parts', rest''⟩, hParts, hEq⟩ := taken
      simp only [Option.some.injEq, Prod.mk.injEq] at hEq
      obtain ⟨-, rfl⟩ := hEq
      have := ih hParts
      simp only [List.length_cons]
      omega
  | case4 mark rest' _ _ ih =>
      simp only [Option.bind_eq_bind, Option.bind_eq_some_iff] at taken
      obtain ⟨_, _, ⟨parts', rest''⟩, hParts, hEq⟩ := taken
      simp only [Option.some.injEq, Prod.mk.injEq] at hEq
      obtain ⟨-, rfl⟩ := hEq
      have := ih hParts
      simp only [List.length_cons]
      omega
  | case5 => simp at taken
  | case6 => simp at taken
  | case7 c rest' hQuote hSlash hControl ih =>
      simp only [Option.bind_eq_bind, Option.bind_eq_some_iff] at taken
      obtain ⟨⟨parts', rest''⟩, hParts, hEq⟩ := taken
      simp only [Option.some.injEq, Prod.mk.injEq] at hEq
      obtain ⟨-, rfl⟩ := hEq
      have := ih hParts
      simp only [List.length_cons]
      omega

theorem length_takeString? {cs : List Char} {text : String} {rest : List Char}
    (taken : takeString? cs = some (text, rest)) : rest.length < cs.length := by
  simp only [takeString?, Option.bind_eq_bind, Option.bind_eq_some_iff] at taken
  obtain ⟨⟨parts, rest'⟩, hParts, _, _, hEq⟩ := taken
  simp only [Option.some.injEq, Prod.mk.injEq] at hEq
  obtain ⟨-, rfl⟩ := hEq
  exact length_takeParts? hParts

/-! ## Reading tokens -/

/-- The blanks between tokens. -/
def isBlank (c : Char) : Bool :=
  c == ' ' || c == '\t' || c == '\n' || c == '\r'

/-- The letters of the three words. -/
def isLetter (c : Char) : Bool :=
  decide ('a' ≤ c) && decide (c ≤ 'z')

/-- The characters of numbers. -/
def isNumeric (c : Char) : Bool :=
  c.isDigit || c == '-' || c == '+' || c == '.' || c == 'e' || c == 'E'

private theorem length_dropWhile_le (p : Char → Bool) (cs : List Char) :
    (cs.dropWhile p).length ≤ cs.length :=
  (List.dropWhile_suffix p).length_le

/-- The tokens of a text. -/
def Token.scan? (cs : List Char) : Option (List Token) :=
  match cs with
  | [] => some []
  | c :: rest =>
      if isBlank c then
        scan? rest
      else if c = '\x22' then
        match _ : takeString? rest with
        | none => none
        | some (text, rest') => (scan? rest').map (.string text :: ·)
      else if isLetter c then do
        let token ← Token.ofWord? (c :: rest.takeWhile isLetter)
        let tokens ← scan? (rest.dropWhile isLetter)
        some (token :: tokens)
      else if isNumeric c then do
        let number ← Number.ofChars? (c :: rest.takeWhile isNumeric)
        let tokens ← scan? (rest.dropWhile isNumeric)
        some (.number number :: tokens)
      else do
        let token ← Token.ofMark? c
        let tokens ← scan? rest
        some (token :: tokens)
termination_by cs.length
decreasing_by
  all_goals simp only [List.length_cons]
  · omega
  · have := length_takeString? ‹takeString? rest = _›
    omega
  · have := length_dropWhile_le isLetter rest
    omega
  · have := length_dropWhile_le isNumeric rest
    omega
  · omega

end Json

end ItemSearch
