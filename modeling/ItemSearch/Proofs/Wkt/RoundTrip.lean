import Mathlib
import ItemSearch.Wkt.Writer
import ItemSearch.Proofs.Decimal.ReadBack
import ItemSearch.Proofs.Wkt.Grammar

/-!
# Reading back what was written

The writer puts a comma and a space between the parts of a level, and
parentheses around the level.  The grammar is more lenient: it takes any commas
and blanks between groups, and blanks anywhere around numbers.  So a written
text is a text of the grammar, level by level, and what it stands for is what
was written.

For the levels above, all that counts about the text of a level is that its
parentheses close, which is what `IsWritten` adds to the grammar.

## Main results

* `isGroups_commaSeparated`, `splitsInto_commaSeparated`: a written sequence,
  taken apart again.
* `isWritten_ring`, `isWritten_polygon`, `isWritten_multiPolygon`: each level of
  the writer keeps to the grammar.
* `standsFor_write`: a written text stands for the geometry.
* `ofWkt_toWkt`: it is read as the geometry, and bounded by the same box.
-/

namespace ItemSearch.Wkt

open Outcome

/-! ## Sequences -/

theorem commaSeparated_cons_cons (text next : List Char)
    (rest : List (List Char)) :
    commaSeparated (text :: next :: rest) =
      text ++ ',' :: ' ' :: commaSeparated (next :: rest) := rfl

theorem mem_commaSeparated {c : Char} {texts : List (List Char)}
    (hc : c ∈ commaSeparated texts) :
    (∃ text ∈ texts, c ∈ text) ∨ c = ',' ∨ c = ' ' := by
  induction texts with
  | nil => simp [commaSeparated] at hc
  | cons text rest ih =>
      cases rest with
      | nil => exact .inl ⟨text, List.mem_singleton_self text, hc⟩
      | cons next rest =>
          rw [commaSeparated_cons_cons, List.mem_append, List.mem_cons,
            List.mem_cons] at hc
          rcases hc with htext | hcomma | hspace | hrest
          · exact .inl ⟨text, by simp, htext⟩
          · exact .inr (.inl hcomma)
          · exact .inr (.inr hspace)
          · rcases ih hrest with ⟨other, hother, hmem⟩ | hsep
            · exact .inl ⟨other, by simp [hother], hmem⟩
            · exact .inr hsep

theorem closes_commaSeparated {texts : List (List Char)}
    (h : ∀ text ∈ texts, Closes 1 text) : Closes 1 (commaSeparated texts) := by
  induction texts with
  | nil => exact closes_nil_iff.2 rfl
  | cons text rest ih =>
      have htext := h text (by simp)
      have hrest := ih fun other hother => h other (by simp [hother])
      cases rest with
      | nil => exact htext
      | cons next rest =>
          have hgap : Closes 1 [',', ' '] := closes_of_flat (by simp)
          exact htext.append (hgap.append hrest)

theorem isGroups_commaSeparated {insides : List (List Char)}
    (h : ∀ inside ∈ insides, Closes 1 inside) :
    IsGroups (commaSeparated (insides.map enclose)) insides := by
  induction insides with
  | nil => exact isGroups_nil_iff.2 rfl
  | cons inside rest ih =>
      have hgap : IsSeparator [] := by simp [IsSeparator]
      have hgroup := isGroup_enclose_iff.2 (h inside (by simp))
      have hrest := ih fun other hother => h other (by simp [hother])
      cases rest with
      | nil =>
          have hend : IsGroups [] [] := isGroups_nil_iff.2 rfl
          simpa [commaSeparated] using IsGroups.group hgap hgroup hend
      | cons next rest =>
          have hcomma : separates ',' = true := by decide
          have hspace : separates ' ' = true := by decide
          exact IsGroups.group hgap hgroup
            ((isGroups_cons_of_separates hcomma).2
              ((isGroups_cons_of_separates hspace).2 hrest))

theorem cons_commaSeparated (c : Char) (text : List Char)
    (rest : List (List Char)) :
    c :: commaSeparated (text :: rest) =
      commaSeparated ((c :: text) :: rest) := by
  cases rest <;> rfl

/-- Between the commas of a sequence stand its texts, all but the first one with
a space in front. -/
theorem splitsInto_commaSeparated {text : List Char} {rest : List (List Char)}
    (htext : ',' ∉ text) (hrest : ∀ other ∈ rest, ',' ∉ other) :
    Text.SplitsInto (· == ',') (commaSeparated (text :: rest))
      (text :: rest.map (' ' :: ·)) := by
  have hflat : ∀ c ∈ text, (c == ',') = false := by
    intro c hc
    rw [beq_eq_false_iff_ne]
    intro heq
    subst heq
    exact htext hc
  induction rest generalizing text with
  | nil => exact .last hflat
  | cons next rest ih =>
      have hnext : ',' ∉ ' ' :: next := by
        simpa using hrest next (by simp)
      rw [commaSeparated_cons_cons, cons_commaSeparated]
      refine .cons hflat (by decide) (ih hnext ?_ ?_)
      · exact fun other hother => hrest other (by simp [hother])
      · intro c hc
        rw [beq_eq_false_iff_ne]
        intro heq
        subst heq
        exact hnext hc

/-! ## Positions -/

theorem writePosition_eq_ok_iff {p : Position} {text : List Char} :
    writePosition p = .ok text ↔ p.isFinite = true ∧
      Decimal.Layout.plain.chars p.x ++ ' ' :: Decimal.Layout.plain.chars p.y =
        text := by
  unfold writePosition
  by_cases hfinite : p.isFinite = true
  · simp [hfinite]
  · simp [hfinite]

/-- None of the characters of a number plays a part in the levels above. -/
theorem inert_of_mem_chars {v : Binary64} (hv : v.isFinite = true) {c : Char}
    (hc : c ∈ Decimal.Layout.plain.chars v) :
    c ≠ '(' ∧ c ≠ ')' ∧ c ≠ ',' ∧ Text.isBlank c = false := by
  rcases Decimal.mem_chars_plain hv hc with hdigit | rfl | rfl
  · have hrange : 48 ≤ c.toNat ∧ c.toNat ≤ 57 := Char.isDigit_iff_toNat.1 hdigit
    refine ⟨?_, ?_, ?_, ?_⟩
    · intro heq
      subst heq
      exact absurd hdigit (by decide)
    · intro heq
      subst heq
      exact absurd hdigit (by decide)
    · intro heq
      subst heq
      exact absurd hdigit (by decide)
    · unfold Text.isBlank
      simp only [Bool.or_eq_false_iff, Bool.and_eq_false_iff,
        decide_eq_false_iff_not, beq_eq_false_iff_ne]
      omega
  · decide
  · decide

theorem isNumber_chars {v : Binary64} (hv : v.isFinite = true) :
    IsNumber (Decimal.Layout.plain.chars v) v :=
  ⟨Decimal.ofChars?_chars_plain hv, hv⟩

theorem isPosition_of_writePosition {p : Position} {text : List Char}
    (h : writePosition p = .ok text) : IsPosition text p := by
  rcases writePosition_eq_ok_iff.1 h with ⟨hfinite, rfl⟩
  rcases Bool.and_eq_true_iff.1 hfinite with ⟨hx, hy⟩
  have hword : ∀ {v : Binary64}, v.isFinite = true →
      ∀ c ∈ Decimal.Layout.plain.chars v, Text.isBlank c = false :=
    fun hv c hc => (inert_of_mem_chars hv hc).2.2.2
  have hnone : ∀ c ∈ [], Text.isBlank c = true := by simp
  have hspace : ∀ c ∈ [' '], Text.isBlank c = true := by
    simpa using show Text.isBlank ' ' = true by decide
  have hyWord : Text.IsSpaced ([' '] ++ Decimal.Layout.plain.chars p.y ++ [])
      [Decimal.Layout.plain.chars p.y] :=
    .word hspace (Decimal.chars_plain_ne_nil hy) (hword hy) (by simp)
      (.blank hnone)
  have hwords : Text.IsSpaced
      ([] ++ Decimal.Layout.plain.chars p.x ++
        ([' '] ++ Decimal.Layout.plain.chars p.y ++ []))
      [Decimal.Layout.plain.chars p.x, Decimal.Layout.plain.chars p.y] :=
    .word hnone (Decimal.chars_plain_ne_nil hx) (hword hx)
      (by simpa using hspace ' ' (by simp)) hyWord
  refine ⟨_, [], ?_, .cons (isNumber_chars hx) (.cons (isNumber_chars hy) .nil)⟩
  simpa using hwords

theorem flat_of_writePosition {p : Position} {text : List Char}
    (h : writePosition p = .ok text) :
    ∀ c ∈ text, c ≠ '(' ∧ c ≠ ')' ∧ c ≠ ',' := by
  rcases writePosition_eq_ok_iff.1 h with ⟨hfinite, rfl⟩
  rcases Bool.and_eq_true_iff.1 hfinite with ⟨hx, hy⟩
  intro c hc
  rcases List.mem_append.1 hc with hc | hc
  · obtain ⟨hopen, hclose, hcomma, -⟩ := inert_of_mem_chars hx hc
    exact ⟨hopen, hclose, hcomma⟩
  · rcases List.mem_cons.1 hc with rfl | hc
    · decide
    · obtain ⟨hopen, hclose, hcomma, -⟩ := inert_of_mem_chars hy hc
      exact ⟨hopen, hclose, hcomma⟩

theorem IsPosition.cons_space {text : List Char} {p : Position}
    (h : IsPosition text p) :
    IsPosition (' ' :: text) p := by
  obtain ⟨words, more, hwords, hnumbers⟩ := h
  exact ⟨words, more, hwords.cons_blank (by decide), hnumbers⟩

/-! ## Groups -/

/-- The text of one level is a group whose inside is of the grammar, and the
parentheses inside close. -/
def IsWritten {α : Type} (R : List Char → α → Prop) (text : List Char) (a : α) :
    Prop :=
  ∃ inside, enclose inside = text ∧ R inside a ∧ Closes 1 inside

/-- A list of which each item is written as a group. -/
theorem exists_insides {α : Type} {R : List Char → α → Prop}
    {write : α → Except SpatialError (List Char)}
    (hwrite : ∀ {a text}, write a = .ok text → IsWritten R text a)
    {as : List α} {texts : List (List Char)} (h : as.mapM write = .ok texts) :
    ∃ insides, insides.map enclose = texts ∧ List.Forall₂ R insides as ∧
      ∀ inside ∈ insides, Closes 1 inside := by
  have hforall := mapM_eq_ok_iff.1 h
  clear h
  induction hforall with
  | nil => exact ⟨[], rfl, .nil, by simp⟩
  | cons hfirst _ ih =>
      obtain ⟨inside, rfl, hR, hcloses⟩ := hwrite hfirst
      obtain ⟨insides, rfl, hforall, hall⟩ := ih
      exact ⟨inside :: insides, rfl, .cons hR hforall,
        by simpa using ⟨hcloses, hall⟩⟩

theorem isWritten_ring {ring : Ring} {index : Nat} {text : List Char}
    (h : writeRing ring index = .ok text) : IsWritten IsRing text ring := by
  unfold writeRing at h
  by_cases hnil : ring = []
  · rw [if_pos hnil] at h
    cases h
  rw [if_neg hnil] at h
  rcases bind_eq_ok_iff.1 h with ⟨texts, htexts, henclosed⟩
  obtain rfl := Except.ok.inj henclosed
  have hforall := (mapM_eq_ok_iff.1 htexts).flip
  obtain ⟨hflat, hpositions⟩ := (List.forall₂_and_left _ _).1
    (hforall.imp fun text p hp =>
      (⟨flat_of_writePosition hp, isPosition_of_writePosition hp⟩ :
        (∀ c ∈ text, c ≠ '(' ∧ c ≠ ')' ∧ c ≠ ',') ∧ IsPosition text p))
  refine ⟨_, rfl, ⟨?_, ?_⟩, ?_⟩
  · intro hopen
    rcases mem_commaSeparated hopen with ⟨text, htext, hmem⟩ | hsep
    · exact (hflat text htext _ hmem).1 rfl
    · exact absurd hsep (by decide)
  · cases hpositions with
    | nil => exact absurd rfl hnil
    | @cons text p rest ps hp hps =>
        refine ⟨_, splitsInto_commaSeparated ?_ ?_, .cons hp ?_⟩
        · exact fun hcomma => (hflat text (by simp) _ hcomma).2.2 rfl
        · exact fun other hother hcomma =>
            (hflat other (by simp [hother]) _ hcomma).2.2 rfl
        · rw [List.forall₂_map_left_iff]
          exact hps.imp fun _ _ => IsPosition.cons_space
  · refine closes_commaSeparated fun text htext => closes_of_flat fun c hc => ?_
    obtain ⟨hopen, hclose, -⟩ := hflat text htext c hc
    exact ⟨hopen, hclose⟩

theorem isWritten_polygon {rings : List Ring} {text : List Char}
    (h : writePolygon rings = .ok text) : IsWritten IsPolygon text rings := by
  unfold writePolygon at h
  by_cases hnil : rings = []
  · rw [if_pos hnil] at h
    cases h
  rw [if_neg hnil] at h
  rcases bind_eq_ok_iff.1 h with ⟨texts, htexts, henclosed⟩
  obtain rfl := Except.ok.inj henclosed
  -- the index of a ring is only there for the report of a failure
  obtain ⟨insides, rfl, hrings, hcloses⟩ :=
    @exists_insides (Ring × Nat) (fun inside p => IsRing inside p.1)
      (fun p => writeRing p.1 p.2) isWritten_ring _ _ htexts
  rw [← List.forall₂_map_right_iff (f := Prod.fst),
    List.zipIdx_map_fst] at hrings
  refine ⟨_, rfl, ⟨insides, ?_, isGroups_commaSeparated hcloses, hrings⟩, ?_⟩
  · intro heq
    subst heq
    exact hnil (List.forall₂_nil_left_iff.1 hrings)
  · refine closes_commaSeparated ?_
    simpa using fun inside hinside => (hcloses inside hinside).enclose

/-! ## The whole text -/

/-- Keywords are written in capital letters. -/
theorem isUpper_of_mem_keyword {name : String}
    (hname : name ∈ ["POINT", "POLYGON", "MULTIPOLYGON"]) {c : Char}
    (hc : c ∈ name.toList) : c.isUpper = true := by
  have hall : ∀ name ∈ ["POINT", "POLYGON", "MULTIPOLYGON"], ∀ c ∈ name.toList,
      c.isUpper = true := by
    simp
  exact hall name hname c hc

theorem not_isBlank_of_isUpper {c : Char} (hc : c.isUpper = true) :
    Text.isBlank c = false := by
  have hrange : 65 ≤ c.toNat ∧ c.toNat ≤ 90 := by
    simpa [Char.isUpper, UInt32.le_iff_toNat_le] using hc
  unfold Text.isBlank
  simp only [Bool.or_eq_false_iff, Bool.and_eq_false_iff,
    decide_eq_false_iff_not, beq_eq_false_iff_ne]
  omega

/-- A written text is a keyword in capital letters and one group behind it. -/
theorem exists_body_of_write {g : Geometry} {text : List Char}
    (h : write g = .ok text) :
    ∃ name ∈ ["POINT", "POLYGON", "MULTIPOLYGON"], ∃ inside,
      name.toList ++ enclose inside = text ∧ IsBody inside name g ∧
        Closes 1 inside := by
  cases g with
  | point p =>
      rcases bind_eq_ok_iff.1 h with ⟨inside, hinside, htext⟩
      obtain rfl := Except.ok.inj htext
      have hflat := flat_of_writePosition hinside
      refine ⟨"POINT", by simp, inside, rfl, .point ⟨?_, ?_⟩ ?_, ?_⟩
      · exact fun hopen => (hflat _ hopen).1 rfl
      · exact fun hcomma => (hflat _ hcomma).2.2 rfl
      · exact isPosition_of_writePosition hinside
      · exact closes_of_flat fun c hc => ⟨(hflat c hc).1, (hflat c hc).2.1⟩
  | lineString positions => cases h
  | polygon rings =>
      rcases bind_eq_ok_iff.1 h with ⟨body, hbody, htext⟩
      obtain rfl := Except.ok.inj htext
      obtain ⟨inside, rfl, hrings, hcloses⟩ := isWritten_polygon hbody
      exact ⟨"POLYGON", by simp, inside, rfl, .polygon hrings, hcloses⟩
  | multiPolygon polygons =>
      unfold write at h
      by_cases hnil : polygons = []
      · simp only [if_pos hnil] at h
        cases h
      simp only [if_neg hnil] at h
      rcases bind_eq_ok_iff.1 h with ⟨texts, htexts, htext⟩
      obtain rfl := Except.ok.inj htext
      obtain ⟨insides, rfl, hpolygons, hcloses⟩ :=
        exists_insides isWritten_polygon htexts
      refine ⟨"MULTIPOLYGON", by simp, _, rfl,
        .multiPolygon ⟨insides, ?_, isGroups_commaSeparated hcloses, hpolygons⟩,
        ?_⟩
      · intro heq
        subst heq
        exact hnil (List.forall₂_nil_left_iff.1 hpolygons)
      · refine closes_commaSeparated ?_
        simpa using fun inside hinside => (hcloses inside hinside).enclose

theorem standsFor_write {g : Geometry} {text : List Char}
    (h : write g = .ok text) :
    StandsFor text g := by
  obtain ⟨name, hname, inside, rfl, hbody, hcloses⟩ := exists_body_of_write h
  have halpha : ∀ c ∈ name.toList, c.isAlpha = true := by
    intro c hc
    rw [Char.isAlpha, isUpper_of_mem_keyword hname hc, Bool.true_or]
  have hupper : ∀ c ∈ name.toList, c.toUpper = c := fun c hc =>
    Char.toUpper_eq_of_not_isLower
      (Char.not_isLower_of_isUpper (isUpper_of_mem_keyword hname hc))
  have hopen : ¬ Char.isAlpha '(' = true := by decide
  refine ⟨inside, name, ?_, ?_, hbody⟩
  · rw [List.dropWhile_append_of_pos halpha, enclose,
      List.dropWhile_cons_of_neg hopen]
    have hgroup : ∀ other ∈ [inside], Closes 1 other := by simpa using hcloses
    exact isGroups_commaSeparated hgroup
  · rw [List.takeWhile_append_of_pos halpha, enclose,
      List.takeWhile_cons_of_neg hopen, List.append_nil, Spells]
    exact (List.map_congr_left hupper).trans (List.map_id' _)

/-- Nothing is trimmed from a written text. -/
theorem trim_write {g : Geometry} {text : List Char} (h : write g = .ok text) :
    Text.trim text = text := by
  obtain ⟨name, hname, inside, rfl, -, -⟩ := exists_body_of_write h
  refine Text.trim_eq_self ?_ ?_
  · have hne : name.toList ≠ [] := by
      have hall : ∀ name ∈ ["POINT", "POLYGON", "MULTIPOLYGON"],
          name.toList ≠ [] := by
        decide
      exact hall name hname
    obtain ⟨c, rest, hcons⟩ := List.exists_cons_of_ne_nil hne
    have hupper := isUpper_of_mem_keyword hname (c := c) (by simp [hcons])
    simpa [hcons] using not_isBlank_of_isUpper hupper
  · have hclose : Text.isBlank ')' = false := by decide
    have hlast : (name.toList ++ enclose inside).getLast? = some ')' := by
      rw [enclose, ← List.cons_append, ← List.append_assoc,
        List.getLast?_concat]
    rw [hlast]
    simpa using hclose

theorem read_write {g : Geometry} {text : List Char} (h : write g = .ok text) :
    read text = .ok g := by
  rw [read, trim_write h]
  exact readTrimmed_eq_ok_iff.2 (standsFor_write h)

/-- **Whatever is written is read back as the same geometry**, identical to the
last bit of each ordinate, and bounded by the same box. -/
theorem ofWkt_toWkt {g : Geometry} {t : String} (h : g.toWkt.outcome = .ok t) :
    (Geometry.ofWkt t).outcome = .ok g ∧
      (Box.ofWkt t).outcome = Box.ofGeometry g := by
  rw [Geometry.outcome_toWkt] at h
  rcases map_eq_ok_iff.1 h with ⟨text, htext, rfl⟩
  have hread : (Geometry.ofWkt (String.ofList text)).outcome = .ok g := by
    rw [Geometry.outcome_ofWkt, String.toList_ofList]
    exact read_write htext
  refine ⟨hread, ?_⟩
  rw [Box.ofWkt, Journaled.outcome_bind, hread]
  rfl

/-- Two polygons, the first one with a hole in it.  One ordinate is a negative
zero. -/
def twoPolygons : Geometry :=
  let zero : Binary64 := .zero false
  let half : Binary64 := .ofParts false (2 ^ 52) (-53)
  let far : Binary64 := .ofParts true (3 * 2 ^ 51) (-52)
  .multiPolygon
    [[[⟨.zero true, half⟩, ⟨far, zero⟩, ⟨zero, far⟩],
        [⟨half, half⟩, ⟨far, half⟩]],
      [[⟨zero, zero⟩]]]

/-- The text of the two polygons. -/
def twoPolygonsText : String :=
  "MULTIPOLYGON(((-0 0.5, -1.5 0, 0 -1.5), (0.5 0.5, -1.5 0.5)), ((0 0)))"

private theorem toWkt_twoPolygons :
    twoPolygons.toWkt.outcome = .ok twoPolygonsText := by
  have hwritten :
      (write twoPolygons).toOption = some twoPolygonsText.toList := by
    decide +kernel
  rw [Geometry.outcome_toWkt]
  cases h : write twoPolygons with
  | error e =>
      rw [h] at hwritten
      cases hwritten
  | ok text =>
      rw [h] at hwritten
      rw [Option.some.inj hwritten]
      rfl

theorem ofWkt_toWkt_twoPolygons :
    (Geometry.ofWkt twoPolygonsText).outcome = .ok twoPolygons ∧
      (Box.ofWkt twoPolygonsText).outcome = Box.ofGeometry twoPolygons :=
  ofWkt_toWkt toWkt_twoPolygons

end ItemSearch.Wkt
