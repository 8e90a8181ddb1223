import Mathlib
import ItemSearch.Wkt.Basic

/-!
# Parts of a text

What the two ways to take a text apart find, said without the scan: the parts
between separators, and the words between runs of blanks.  Each relation gives a
text one list of parts, the one that the scan returns.

## Main results

* `splitsInto_fields`, `fields_eq_of_splitsInto`: the parts between separators.
* `words_eq_iff`: the words between blanks.
* `trim_eq_self`: a text without blanks at its ends is left as it is.
-/

namespace ItemSearch.Text

/-! ## Parts between separators -/

/-- A text is these parts with one separator between each two of them. -/
inductive SplitsInto (separates : Char → Bool) :
    List Char → List (List Char) → Prop where
  | last {part : List Char} (hpart : ∀ c ∈ part, separates c = false) :
      SplitsInto separates part [part]
  | cons {part rest : List Char} {c : Char} {parts : List (List Char)}
      (hpart : ∀ c ∈ part, separates c = false) (hc : separates c = true)
      (hrest : SplitsInto separates rest parts) :
      SplitsInto separates (part ++ c :: rest) (part :: parts)

variable {separates : Char → Bool}

/-- There is always a first part. -/
theorem fields_ne_nil (text : List Char) : fields separates text ≠ [] := by
  cases text with
  | nil => simp [fields]
  | cons c cs =>
      rw [fields]
      split
      · simp
      · split <;> simp

theorem fields_cons_of_false {c : Char} (hc : separates c = false)
    {cs : List Char}
    {part : List Char} {parts : List (List Char)}
    (hparts : fields separates cs = part :: parts) :
    fields separates (c :: cs) = (c :: part) :: parts := by
  rw [fields, if_neg (by simp [hc]), hparts]

theorem splitsInto_fields (text : List Char) :
    SplitsInto separates text (fields separates text) := by
  induction text with
  | nil => exact .last (by simp)
  | cons c cs ih =>
      by_cases hc : separates c = true
      · rw [fields, if_pos hc]
        exact @SplitsInto.cons separates [] cs c _ (by simp) hc ih
      · have hfalse : separates c = false := by simpa using hc
        obtain ⟨part, parts, hparts⟩ :=
          List.exists_cons_of_ne_nil (@fields_ne_nil separates cs)
        rw [fields_cons_of_false hfalse hparts]
        rw [hparts] at ih
        have hcons : (∀ d ∈ part, separates d = false) →
            ∀ d ∈ c :: part, separates d = false := by
          simp [hfalse]
        cases ih with
        | last hpart => exact .last (hcons hpart)
        | cons hpart hsep hrest => exact .cons (hcons hpart) hsep hrest

/-- A text is split into parts in one way only. -/
theorem fields_eq_of_splitsInto {text : List Char} {parts : List (List Char)}
    (h : SplitsInto separates text parts) : fields separates text = parts := by
  have hlast : ∀ part : List Char, (∀ c ∈ part, separates c = false) →
      fields separates part = [part] := by
    intro part hpart
    induction part with
    | nil => rfl
    | cons c cs ih =>
        exact fields_cons_of_false (hpart c (by simp))
          (ih fun d hd => hpart d (by simp [hd]))
  induction h with
  | last hpart => exact hlast _ hpart
  | @cons part rest c parts hpart hc _ ih =>
      clear hlast
      induction part with
      | nil => rw [List.nil_append, fields, if_pos hc, ih]
      | cons d ds ihPart =>
          exact fields_cons_of_false (hpart d (by simp))
            (ihPart fun e he => hpart e (by simp [he]))

/-! ## Words between blanks -/

/-- A text is these words with blanks before, between and behind them. -/
inductive IsSpaced : List Char → List (List Char) → Prop where
  | blank {space : List Char} (hspace : ∀ c ∈ space, isBlank c = true) :
      IsSpaced space []
  | word {space word rest : List Char} {words : List (List Char)}
      (hspace : ∀ c ∈ space, isBlank c = true) (hne : word ≠ [])
      (hword : ∀ c ∈ word, isBlank c = false)
      (hend : ∀ c ∈ rest.head?, isBlank c = true)
      (hrest : IsSpaced rest words) :
      IsSpaced (space ++ word ++ rest) (word :: words)

theorem words_cons_of_blank {c : Char} (hc : isBlank c = true)
    (cs : List Char) :
    words (c :: cs) = words cs := by
  rw [words, fields, if_pos hc]
  simp [words]

theorem words_append_of_blank {space : List Char}
    (hspace : ∀ c ∈ space, isBlank c = true) (cs : List Char) :
    words (space ++ cs) = words cs := by
  induction space with
  | nil => rfl
  | cons c space ih =>
      rw [List.cons_append, words_cons_of_blank (hspace c (by simp))]
      exact ih fun d hd => hspace d (by simp [hd])

/-- A word ends where the text ends or where a blank stands. -/
theorem words_append_of_word {word rest : List Char} (hne : word ≠ [])
    (hword : ∀ c ∈ word, isBlank c = false)
    (hend : ∀ c ∈ rest.head?, isBlank c = true) :
    words (word ++ rest) = word :: words rest := by
  cases rest with
  | nil =>
      have hfields : fields isBlank (word ++ []) = [word] :=
        fields_eq_of_splitsInto (by simpa using SplitsInto.last hword)
      have hnil : words [] = [] := rfl
      rw [words, hfields, hnil]
      simp [hne]
  | cons c rest =>
      have hc : isBlank c = true := hend c (by simp)
      have hfields : fields isBlank (word ++ c :: rest) =
          word :: fields isBlank rest :=
        fields_eq_of_splitsInto (.cons hword hc (splitsInto_fields rest))
      rw [words_cons_of_blank hc, words, hfields]
      simp [hne, words]

theorem words_eq_of_isSpaced {text : List Char} {ws : List (List Char)}
    (h : IsSpaced text ws) : words text = ws := by
  induction h with
  | @blank space hspace =>
      have hnil : words [] = [] := rfl
      rw [← List.append_nil space, words_append_of_blank hspace, hnil]
  | word hspace hne hword hend _ ih =>
      rw [List.append_assoc, words_append_of_blank hspace,
        words_append_of_word hne hword hend, ih]

theorem IsSpaced.cons_blank {text : List Char} {ws : List (List Char)}
    (h : IsSpaced text ws) {c : Char} (hc : isBlank c = true) :
    IsSpaced (c :: text) ws := by
  cases h with
  | blank hspace => exact .blank (by simpa [hc] using hspace)
  | @word space word rest words hspace hne hword hend hrest =>
      exact @IsSpaced.word (c :: space) word rest words
        (by simpa [hc] using hspace) hne hword hend hrest

/-- A character that is no blank starts a word, which is the first word of the
rest with one more character if no blank follows. -/
theorem IsSpaced.cons_word {text : List Char} {ws : List (List Char)}
    (h : IsSpaced text ws) {c : Char} (hc : isBlank c = false) :
    ∃ ws', IsSpaced (c :: text) ws' := by
  have hnone : ∀ d ∈ [], isBlank d = true := by simp
  have hone : ∀ d ∈ [c], isBlank d = false := by simpa using hc
  cases h with
  | blank hspace =>
      have hend : ∀ d ∈ text.head?, isBlank d = true :=
        fun d hd => hspace d (List.mem_of_mem_head? hd)
      exact ⟨[[c]], .word hnone (by simp) hone hend (.blank hspace)⟩
  | @word space word rest words hspace hne hword hend hrest =>
      cases space with
      | nil =>
          have hlonger : ∀ d ∈ c :: word, isBlank d = false := by
            simpa [hc] using hword
          exact ⟨(c :: word) :: words, .word hnone (by simp) hlonger hend hrest⟩
      | cons d space =>
          have hblank : ∀ e ∈ (d :: space ++ word ++ rest).head?,
              isBlank e = true := by
            simpa using hspace d (by simp)
          exact ⟨[c] :: word :: words, .word hnone (by simp) hone hblank
            (.word hspace hne hword hend hrest)⟩

theorem exists_isSpaced (text : List Char) : ∃ ws, IsSpaced text ws := by
  induction text with
  | nil => exact ⟨[], .blank (by simp)⟩
  | cons c cs ih =>
      obtain ⟨ws, hws⟩ := ih
      cases hc : isBlank c with
      | true => exact ⟨ws, hws.cons_blank hc⟩
      | false => exact hws.cons_word hc

theorem words_eq_iff {text : List Char} {ws : List (List Char)} :
    words text = ws ↔ IsSpaced text ws := by
  constructor
  · intro heq
    subst heq
    obtain ⟨ws, hws⟩ := exists_isSpaced text
    rwa [words_eq_of_isSpaced hws]
  · exact words_eq_of_isSpaced

/-! ## Ends of a text -/

theorem trim_eq_self {text : List Char}
    (hhead : ∀ c ∈ text.head?, isBlank c = false)
    (hlast : ∀ c ∈ text.getLast?, isBlank c = false) : trim text = text := by
  have hkeep : ∀ cs : List Char, (∀ c ∈ cs.head?, isBlank c = false) →
      cs.dropWhile isBlank = cs := by
    intro cs hcs
    cases cs with
    | nil => rfl
    | cons c cs => exact List.dropWhile_cons_of_neg (by simp [hcs c (by simp)])
  unfold trim
  rw [hkeep text hhead, hkeep text.reverse (by simpa using hlast),
    List.reverse_reverse]

end ItemSearch.Text
