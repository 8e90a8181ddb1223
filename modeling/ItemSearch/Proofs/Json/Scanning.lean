import Mathlib
import ItemSearch.Json.Token
import ItemSearch.Proofs.Json.Numeral

/-!
# Tokens read back from their text

Nothing stands between the tokens of a written text, so a token is found again
only where its text cannot be taken for longer than it is.  Marks and strings
end by themselves.  Words and numbers go on as long as letters and characters of
numbers follow; what ends them is a mark or the end of the text.  Tokens of
which each two neighbours have a mark among them are therefore all found again.

A string is taken apart into the characters and the units of its escapes.  The
writer uses units for control characters only, so no surrogates have to be
paired.

## Main results

* `takeParts?_escape`: one escaped character, in front of whatever follows.
* `takeString?_flatMap_escape`: a string reads back.
* `scan?_append`: one token, in front of a text that does not go on with it.
* `scan?_flatMap_chars`: tokens apart from each other read back.
-/

namespace ItemSearch.Json

/-! ## Strings -/

theorem hexDigit?_digitChar {n : Nat} (hn : n < 16) :
    hexDigit? (Nat.digitChar n) = some n := by
  revert n
  decide

theorem hexUnit?_small {n : Nat} (hn : n < 256) :
    hexUnit? '0' '0' (Nat.digitChar (n / 16)) (Nat.digitChar (n % 16)) =
      some n := by
  have hzero : hexDigit? '0' = some 0 := by decide
  simp only [hexUnit?, hzero, hexDigit?_digitChar (show n / 16 < 16 by omega),
    hexDigit?_digitChar (show n % 16 < 16 by omega), Option.bind_eq_bind,
    Option.bind_some]
  exact congrArg some (by omega)

theorem takeParts?_quote (rest : List Char) :
    takeParts? ('\x22' :: rest) = some ([], rest) := by
  unfold takeParts?
  rw [if_pos rfl]

/-- A character that needs no escape stands for itself. -/
theorem takeParts?_plain {c : Char} (hquote : c ≠ '\x22') (hslash : c ≠ '\\')
    (hcontrol : ¬ c.toNat < 0x20) (rest : List Char) :
    takeParts? (c :: rest) = (takeParts? rest).map fun taken =>
      (.char c :: taken.1, taken.2) := by
  rw [takeParts?.eq_def]
  dsimp only
  rw [if_neg hquote, if_neg hslash, if_neg hcontrol, Option.map_eq_bind]
  rfl

/-- The characters with an escape of their own. -/
def shortEscaped : List Char := ['\x22', '\\', '\x08', '\x0c', '\n', '\r', '\t']

/-- What the escape of a character is taken for. -/
def escapedPart (c : Char) : StringPart :=
  if c ∈ shortEscaped then .char c
  else if c.toNat < 0x20 then .unit c.toNat
  else .char c

/-- **One escaped character reads back**, whatever follows it. -/
theorem takeParts?_escape (c : Char) (rest : List Char) :
    takeParts? (escape c ++ rest) =
      (takeParts? rest).map fun taken =>
        (escapedPart c :: taken.1, taken.2) := by
  by_cases hshort : c ∈ shortEscaped
  · rw [escapedPart, if_pos hshort]
    simp only [shortEscaped, List.mem_cons, List.not_mem_nil,
      or_false] at hshort
    rcases hshort with rfl | rfl | rfl | rfl | rfl | rfl | rfl <;>
      simp [escape, takeParts?, shortEscape?, Option.map_eq_bind]
  · rw [escapedPart, if_neg hshort]
    simp only [shortEscaped, List.mem_cons, List.not_mem_nil, or_false,
      not_or] at hshort
    obtain ⟨hquote, hslash, hb, hf, hn, hr, ht⟩ := hshort
    by_cases hcontrol : c.toNat < 0x20
    · have hunit := hexUnit?_small (show c.toNat < 256 by omega)
      simp [escape, hquote, hslash, hb, hf, hn, hr, ht, hcontrol, smallUnit,
        takeParts?, hunit, Option.map_eq_bind]
    · simp only [escape, hquote, hslash, hb, hf, hn, hr, ht, hcontrol, if_false]
      exact takeParts?_plain hquote hslash hcontrol rest

theorem takeParts?_flatMap_escape (cs rest : List Char) :
    takeParts? (cs.flatMap escape ++ '\x22' :: rest) =
      some (cs.map escapedPart, rest) := by
  induction cs with
  | nil => exact takeParts?_quote rest
  | cons c cs ih =>
      rw [List.flatMap_cons, List.append_assoc, takeParts?_escape, ih]
      rfl

/-- A unit below the surrogates is a character by itself. -/
theorem joinParts?_unit {n : Nat} (hn : n < 0xd800) (parts : List StringPart) :
    joinParts? (.unit n :: parts) =
      (joinParts? parts).map (Char.ofNat n :: ·) := by
  have hsingle : ¬ (0xd800 ≤ n ∧ n < 0xe000) := by omega
  rcases parts with _ | ⟨c | low, parts⟩
  · simp [joinParts?, hsingle]
  · simp [joinParts?, hsingle]
  · rw [joinParts?, if_neg (by omega), if_neg (by omega)]

theorem joinParts?_escapedPart (c : Char) (parts : List StringPart) :
    joinParts? (escapedPart c :: parts) = (joinParts? parts).map (c :: ·) := by
  unfold escapedPart
  split
  · rw [joinParts?]
  · split
    · rw [joinParts?_unit (by omega), Char.ofNat_toNat]
    · rw [joinParts?]

theorem joinParts?_map_escapedPart (cs : List Char) :
    joinParts? (cs.map escapedPart) = some cs := by
  induction cs with
  | nil => simp [joinParts?]
  | cons c cs ih =>
      rw [List.map_cons, joinParts?_escapedPart, ih, Option.map_some]

/-- **A string reads back** up to its closing quote. -/
theorem takeString?_flatMap_escape (text : String) (rest : List Char) :
    takeString? (text.toList.flatMap escape ++ '\x22' :: rest) =
      some (text, rest) := by
  simp [takeString?, takeParts?_flatMap_escape, joinParts?_map_escapedPart]

/-! ## One token -/

/-- The token is one of the six marks. -/
def Token.IsMark : Token → Prop
  | .openArray | .closeArray | .openObject | .closeObject | .comma | .colon =>
      True
  | .null | .bool _ | .number _ | .string _ => False

/-- A text goes on neither a word nor a number. -/
def EndsRun (rest : List Char) : Prop :=
  ∀ c ∈ rest.head?, isLetter c = false ∧ isNumeric c = false

theorem endsRun_nil : EndsRun [] := by
  simp [EndsRun]

theorem takeWhile_run {p : Char → Bool} {run rest : List Char}
    (hrun : ∀ c ∈ run, p c = true)
    (hrest : ∀ c ∈ rest.head?, p c = false) :
    (run ++ rest).takeWhile p = run ∧ (run ++ rest).dropWhile p = rest := by
  rw [List.takeWhile_append_of_pos hrun, List.dropWhile_append_of_pos hrun]
  cases rest with
  | nil => simp
  | cons c rest =>
      have hc : ¬ p c = true := by simpa using hrest c rfl
      rw [List.takeWhile_cons_of_neg hc, List.dropWhile_cons_of_neg hc,
        List.append_nil]
      exact ⟨rfl, rfl⟩

/-- A mark is one character, which starts no other token. -/
theorem exists_chars_of_isMark {t : Token} (ht : t.IsMark) :
    ∃ c, t.chars = [c] ∧ Token.ofMark? c = some t ∧
      isBlank c = false ∧ c ≠ '\x22' ∧ isLetter c = false ∧
        isNumeric c = false := by
  cases t <;> first | exact ht.elim | exact ⟨_, rfl, by decide⟩

theorem endsRun_chars_of_isMark {t : Token} (ht : t.IsMark) (rest : List Char) :
    EndsRun (t.chars ++ rest) := by
  obtain ⟨c, hchars, -, -, -, hends⟩ := exists_chars_of_isMark ht
  rw [hchars]
  rintro _ ⟨⟩
  exact hends

theorem scan?_mark {t : Token} (ht : t.IsMark) (rest : List Char) :
    Token.scan? (t.chars ++ rest) = (Token.scan? rest).map (t :: ·) := by
  obtain ⟨c, hchars, hread, hblank, hquote, hletter, hnumeric⟩ :=
    exists_chars_of_isMark ht
  rw [hchars, List.singleton_append, Token.scan?]
  simp [hblank, hquote, hletter, hnumeric, hread, Option.map_eq_bind]

theorem scan?_word {c : Char} {cs rest : List Char} {t : Token}
    (hword : Token.ofWord? (c :: cs) = some t)
    (hletters : (c :: cs).all isLetter = true) (hrest : EndsRun rest) :
    Token.scan? (c :: cs ++ rest) = (Token.scan? rest).map (t :: ·) := by
  obtain ⟨hc, hcs⟩ := List.forall_mem_cons.1 (List.all_eq_true.1 hletters)
  obtain ⟨htake, hdrop⟩ := takeWhile_run hcs fun d hd => (hrest d hd).1
  have hblank : isBlank c = false := by
    by_contra hnot
    simp only [Bool.not_eq_false, isBlank, Bool.or_eq_true, beq_iff_eq] at hnot
    rcases hnot with ((rfl | rfl) | rfl) | rfl <;> simp [isLetter] at hc
  have hquote : c ≠ '\x22' := by rintro rfl; simp [isLetter] at hc
  rw [List.cons_append, Token.scan?]
  simp [hblank, hquote, hc, htake, hdrop, hword, Option.map_eq_bind]

/-- The first character of a number starts no other token. -/
theorem first_of_number {c : Char} (hc : c = '-' ∨ c.isDigit = true) :
    isBlank c = false ∧ c ≠ '\x22' ∧ isLetter c = false ∧
      isNumeric c = true := by
  rcases hc with rfl | hc
  · decide
  · have hrange : 48 ≤ c.toNat ∧ c.toNat ≤ 57 := Char.isDigit_iff_toNat.1 hc
    refine ⟨?_, ?_, ?_, isNumeric_of_isDigit hc⟩
    · by_contra hnot
      simp only [Bool.not_eq_false, isBlank, Bool.or_eq_true,
        beq_iff_eq] at hnot
      rcases hnot with ((rfl | rfl) | rfl) | rfl <;> simp at hc
    · rintro rfl
      simp at hc
    · have hbelow : ¬ 'a' ≤ c := by
        rw [Char.le_def, UInt32.le_iff_toNat_le]
        change ¬ 97 ≤ c.toNat
        omega
      simp [isLetter, hbelow]

theorem scan?_number (n : Number) {rest : List Char} (hrest : EndsRun rest) :
    Token.scan? (n.chars ++ rest) =
      (Token.scan? rest).map (.number n :: ·) := by
  obtain ⟨c, cs, hchars, hfirst, hcs⟩ : ∃ c cs, n.chars = c :: cs ∧
      (c = '-' ∨ c.isDigit = true) ∧ ∀ d ∈ cs, isNumeric d = true := by
    obtain ⟨negative, c, cs, hchars, hc, hcs⟩ := n.exists_chars_eq
    cases negative with
    | true => exact ⟨'-', c :: cs, hchars, .inl rfl, hcs⟩
    | false =>
        exact ⟨c, cs, hchars, .inr hc,
          fun d hd => hcs d (List.mem_cons_of_mem c hd)⟩
  obtain ⟨hblank, hquote, hletter, hnumeric⟩ := first_of_number hfirst
  obtain ⟨htake, hdrop⟩ := takeWhile_run hcs fun d hd => (hrest d hd).2
  have hread := n.ofChars?_chars
  rw [hchars] at hread
  rw [hchars, List.cons_append, Token.scan?]
  simp [hblank, hquote, hletter, hnumeric, htake, hdrop, hread,
    Option.map_eq_bind]

theorem scan?_string (text : String) (rest : List Char) :
    Token.scan? ((Token.string text).chars ++ rest) =
      (Token.scan? rest).map (.string text :: ·) := by
  have hblank : isBlank '\x22' = false := by decide
  have htake := takeString?_flatMap_escape text rest
  rw [Token.chars, List.cons_append, List.append_assoc, List.singleton_append,
    Token.scan?]
  simp only [hblank, Bool.false_eq_true, if_false, if_true]
  split
  · rename_i hnone
    rw [htake] at hnone
    cases hnone
  · rename_i text' rest' hsome
    rw [htake] at hsome
    cases hsome
    rfl

/-- **One token reads back** in front of a text that does not go on with it. -/
theorem scan?_append (t : Token) {rest : List Char}
    (h : t.IsMark ∨ EndsRun rest) :
    Token.scan? (t.chars ++ rest) = (Token.scan? rest).map (t :: ·) := by
  by_cases ht : t.IsMark
  · exact scan?_mark ht rest
  · have hrest : EndsRun rest := h.resolve_left ht
    cases t with
    | null => exact scan?_word (by decide) (by decide) hrest
    | bool value =>
        cases value with
        | true => exact scan?_word (by decide) (by decide) hrest
        | false => exact scan?_word (by decide) (by decide) hrest
    | number n => exact scan?_number n hrest
    | string text => exact scan?_string text rest
    | _ => exact absurd trivial ht

/-! ## All tokens -/

/-- Two neighbours of which one is a mark. -/
def Apart (t u : Token) : Prop :=
  t.IsMark ∨ u.IsMark

/-- **Tokens read back from their text** if of each two neighbours one is a
mark. -/
theorem scan?_flatMap_chars {ts : List Token} (h : ts.IsChain Apart) :
    Token.scan? (ts.flatMap Token.chars) = some ts := by
  induction ts with
  | nil => simp [Token.scan?]
  | cons t ts ih =>
      rw [List.isChain_cons] at h
      obtain ⟨hnext, hchain⟩ := h
      have hends : t.IsMark ∨ EndsRun (ts.flatMap Token.chars) := by
        cases ts with
        | nil => exact .inr endsRun_nil
        | cons u us =>
            rw [List.flatMap_cons]
            exact (hnext u rfl).imp_right fun hu => endsRun_chars_of_isMark hu _
      rw [List.flatMap_cons, scan?_append t hends, ih hchain, Option.map_some]

end ItemSearch.Json
