import Mathlib
import ItemSearch.Wkt.Reader
import ItemSearch.Proofs.Text.Parts
import ItemSearch.Proofs.Wkt.Group

/-!
# The grammar of well-known text

What a text has to look like to be read, level by level and without the reader:
numbers between blanks, positions between commas, rings and polygons in groups
of parentheses, and a keyword before all of it.  Each reader is then compared
with its level of the grammar, and whatever it refuses it reports as malformed.

The order in which the reader looks at the keyword and at the groups behind it
can be seen from outside.  A text whose groups are wrong is malformed, also
where its keyword names a geometry that is not supported; and behind such a
keyword anything may stand in the group.

## Main results

* `readPosition_eq_ok_iff`, `readRing_eq_ok_iff`, `readPolygon_eq_ok_iff`,
  `readMultiPolygon_eq_ok_iff`: each level of the reader accepts its level of
  the grammar.
* `readTrimmed_error`: the ways in which a text is refused.
* `ofWkt_classifies`: what comes of any text, from its grammar.
-/

namespace ItemSearch.Wkt

open Outcome

/-! ## The grammar -/

/-- A word that stands for a finite number. -/
def IsNumber (word : List Char) (v : Binary64) : Prop :=
  Binary64.ofChars? word = some v ∧ v.isFinite = true

/-- Two or more numbers between blanks, of which the first two are the
position. -/
def IsPosition (text : List Char) (p : Position) : Prop :=
  ∃ words more, Text.IsSpaced text words ∧
    List.Forall₂ IsNumber words (p.x :: p.y :: more)

/-- Positions between commas, and no parenthesis opens. -/
def IsRing (text : List Char) (ring : Ring) : Prop :=
  '(' ∉ text ∧
    ∃ parts, Text.SplitsInto (· == ',') text parts ∧
      List.Forall₂ IsPosition parts ring

/-- One or more groups that hold rings. -/
def IsPolygon (text : List Char) (rings : List Ring) : Prop :=
  ∃ insides, insides ≠ [] ∧ IsGroups text insides ∧
    List.Forall₂ IsRing insides rings

/-- One or more groups that hold polygons. -/
def IsMultiPolygon (text : List Char) (polygons : List (List Ring)) : Prop :=
  ∃ insides, insides ≠ [] ∧ IsGroups text insides ∧
    List.Forall₂ IsPolygon insides polygons

/-- What may stand in the group behind the keyword of a supported geometry. -/
inductive IsBody (inside : List Char) : String → Geometry → Prop where
  | point {p : Position} (hflat : '(' ∉ inside ∧ ',' ∉ inside)
      (hposition : IsPosition inside p) : IsBody inside "POINT" (.point p)
  | polygon {rings : List Ring} (hrings : IsPolygon inside rings) :
      IsBody inside "POLYGON" (.polygon rings)
  | multiPolygon {polygons : List (List Ring)}
      (hpolygons : IsMultiPolygon inside polygons) :
      IsBody inside "MULTIPOLYGON" (.multiPolygon polygons)

/-- The letters are those of the name, in any case. -/
def Spells (letters : List Char) (name : String) : Prop :=
  letters.map Char.toUpper = name.toList

/-- A keyword of a supported geometry, in any case, and one group behind it
whose inside goes with the keyword. -/
def StandsFor (text : List Char) (g : Geometry) : Prop :=
  ∃ inside name, IsGroups (text.dropWhile Char.isAlpha) [inside] ∧
    Spells (text.takeWhile Char.isAlpha) name ∧ IsBody inside name g

/-- The keyword of another geometry of well-known text, in any case, and one
group behind it. -/
def IsUnsupported (text : List Char) (name : String) : Prop :=
  name ∈ ["LINESTRING", "MULTIPOINT", "MULTILINESTRING", "GEOMETRYCOLLECTION",
      "TRIANGLE", "TIN", "POLYHEDRALSURFACE", "CIRCULARSTRING",
      "COMPOUNDCURVE", "CURVEPOLYGON", "MULTICURVE", "MULTISURFACE"] ∧
    Spells (text.takeWhile Char.isAlpha) name ∧
      ∃ inside, IsGroups (text.dropWhile Char.isAlpha) [inside]

/-! ## Numbers and positions -/

theorem readNumber_eq_ok_iff {position word : List Char} {v : Binary64} :
    readNumber position word = .ok v ↔ IsNumber word v := by
  unfold readNumber IsNumber
  cases Binary64.ofChars? word with
  | none => simp
  | some w =>
      dsimp only
      by_cases hw : w.isFinite = true
      · rw [if_pos hw, Except.ok.injEq, Option.some.injEq]
        constructor
        · intro heq
          subst heq
          exact ⟨rfl, hw⟩
        · exact And.left
      · rw [if_neg hw]
        constructor
        · intro h
          cases h
        · intro h
          rcases h with ⟨hsome, hv⟩
          obtain rfl := Option.some.inj hsome
          exact absurd hv hw

theorem readPosition_eq_ok_iff {text : List Char} {p : Position} :
    readPosition text = .ok p ↔ IsPosition text p := by
  have hnumbers : ∀ vs, (Text.words text).mapM (readNumber text) = .ok vs ↔
      ∃ words, Text.IsSpaced text words ∧ List.Forall₂ IsNumber words vs := by
    intro vs
    simp only [mapM_eq_ok_iff, readNumber_eq_ok_iff]
    constructor
    · intro h
      exact ⟨_, Text.words_eq_iff.1 rfl, h⟩
    · intro h
      rcases h with ⟨words, hwords, h⟩
      rwa [Text.words_eq_of_isSpaced hwords]
  unfold readPosition
  rw [bind_eq_ok_iff]
  constructor
  · intro h
    rcases h with ⟨vs, hvs, hp⟩
    obtain ⟨words, hwords, hread⟩ := (hnumbers vs).1 hvs
    match vs, hread, hp with
    | x :: y :: more, hread, hp =>
        obtain rfl := Except.ok.inj hp
        exact ⟨words, more, hwords, hread⟩
  · intro h
    rcases h with ⟨words, more, hwords, hread⟩
    exact ⟨_, (hnumbers _).2 ⟨words, hwords, hread⟩, rfl⟩

/-! ## Rings and polygons -/

theorem textGroups_eq_ok_iff {text : List Char} {insides : List (List Char)} :
    textGroups text = .ok insides ↔ IsGroups text insides := by
  rw [← groups_eq_ok_iff]
  unfold textGroups
  split <;> simp_all

theorem readRing_eq_ok_iff {text : List Char} {ring : Ring} :
    readRing text = .ok ring ↔ IsRing text ring := by
  unfold readRing IsRing
  by_cases hopen : '(' ∈ text
  · simp [hopen]
  · rw [if_neg hopen, mapM_eq_ok_iff]
    simp only [readPosition_eq_ok_iff]
    constructor
    · intro h
      exact ⟨hopen, _, Text.splitsInto_fields text, h⟩
    · intro h
      rcases h with ⟨-, parts, hparts, h⟩
      rwa [Text.fields_eq_of_splitsInto hparts]

/-- The groups of a text are read one by one, and there has to be one. -/
private theorem readGroups_eq_ok_iff {α : Type} {text : List Char}
    {none : SpatialError}
    {read : List Char → Except SpatialError α} {R : List Char → α → Prop}
    (hread : ∀ {inside a}, read inside = .ok a ↔ R inside a) {as : List α} :
    (do
      let insides ← textGroups text
      if insides = [] then
        throw none
      insides.mapM read) = Except.ok as ↔
      ∃ insides, insides ≠ [] ∧ IsGroups text insides ∧
        List.Forall₂ R insides as := by
  rw [bind_eq_ok_iff]
  constructor
  · intro h
    rcases h with ⟨insides, hinsides, has⟩
    by_cases hnil : insides = []
    · rw [if_pos hnil] at has
      cases has
    · rw [if_neg hnil] at has
      refine ⟨insides, hnil, textGroups_eq_ok_iff.1 hinsides, ?_⟩
      simpa only [hread] using mapM_eq_ok_iff.1 has
  · intro h
    rcases h with ⟨insides, hne, hinsides, has⟩
    refine ⟨insides, textGroups_eq_ok_iff.2 hinsides, ?_⟩
    rw [if_neg hne]
    refine mapM_eq_ok_iff.2 ?_
    simpa only [hread] using has

theorem readPolygon_eq_ok_iff {text : List Char} {rings : List Ring} :
    readPolygon text = .ok rings ↔ IsPolygon text rings :=
  readGroups_eq_ok_iff readRing_eq_ok_iff

theorem readMultiPolygon_eq_ok_iff {text : List Char}
    {polygons : List (List Ring)} :
    readMultiPolygon text = .ok polygons ↔ IsMultiPolygon text polygons :=
  readGroups_eq_ok_iff readPolygon_eq_ok_iff

theorem readPoint_eq_ok_iff {text : List Char} {p : Position} :
    readPoint text = .ok p ↔ ('(' ∉ text ∧ ',' ∉ text) ∧ IsPosition text p := by
  unfold readPoint
  by_cases hlist : '(' ∈ text ∨ ',' ∈ text
  · rw [if_pos hlist]
    have hnot : ¬ ('(' ∉ text ∧ ',' ∉ text) := by
      simpa only [not_and_or, not_not] using hlist
    simp [hnot]
  · rw [if_neg hlist, readPosition_eq_ok_iff]
    exact ⟨fun h => ⟨not_or.1 hlist, h⟩, And.right⟩

theorem onlyGroup_eq_ok_iff {text inside : List Char} :
    onlyGroup text = .ok inside ↔ IsGroups text [inside] := by
  unfold onlyGroup
  rw [bind_eq_ok_iff]
  simp only [textGroups_eq_ok_iff]
  constructor
  · intro h
    rcases h with ⟨insides, hinsides, h⟩
    match insides, hinsides, h with
    | [only], hinsides, h =>
        obtain rfl := Except.ok.inj h
        exact hinsides
  · intro h
    exact ⟨[inside], h, rfl⟩

/-! ## What the parts refuse -/

/-- An error that is reported as malformed well-known text. -/
def Malformed (e : SpatialError) : Prop :=
  e.kind = .malformedWkt

theorem malformed_wkt (e : WktError) : Malformed (.wkt e) := rfl

theorem failsOnly_textGroups (text : List Char) :
    FailsOnly Malformed (textGroups text) := by
  unfold textGroups
  split
  · exact failsOnly_ok _
  all_goals exact failsOnly_error (malformed_wkt _)

theorem failsOnly_onlyGroup (text : List Char) :
    FailsOnly Malformed (onlyGroup text) := by
  refine (failsOnly_textGroups text).bind fun insides => ?_
  split
  · exact failsOnly_ok _
  · exact failsOnly_error (malformed_wkt _)

theorem failsOnly_readNumber (position word : List Char) :
    FailsOnly Malformed (readNumber position word) := by
  unfold readNumber
  split
  · split
    · exact failsOnly_ok _
    · exact failsOnly_error (malformed_wkt _)
  · exact failsOnly_error (malformed_wkt _)

theorem failsOnly_readPosition (text : List Char) :
    FailsOnly Malformed (readPosition text) := by
  refine (FailsOnly.mapM (failsOnly_readNumber text) _).bind fun vs => ?_
  split
  · exact failsOnly_ok _
  · exact failsOnly_error (malformed_wkt _)

theorem failsOnly_readRing (text : List Char) :
    FailsOnly Malformed (readRing text) := by
  unfold readRing
  split
  · exact failsOnly_error (malformed_wkt _)
  · exact FailsOnly.mapM failsOnly_readPosition _

/-- Groups that are read one by one are refused for one of them, or for there
being none. -/
private theorem failsOnly_readGroups {α : Type} {text : List Char}
    {none : SpatialError}
    (hnone : Malformed none) {read : List Char → Except SpatialError α}
    (hread : ∀ inside, FailsOnly Malformed (read inside)) :
    FailsOnly Malformed (do
      let insides ← textGroups text
      if insides = [] then
        throw none
      insides.mapM read) := by
  refine (failsOnly_textGroups text).bind fun insides => ?_
  dsimp only
  split
  · exact failsOnly_error hnone
  · exact FailsOnly.mapM hread _

theorem failsOnly_readPolygon (text : List Char) :
    FailsOnly Malformed (readPolygon text) :=
  failsOnly_readGroups (malformed_wkt _) failsOnly_readRing

theorem failsOnly_readMultiPolygon (text : List Char) :
    FailsOnly Malformed (readMultiPolygon text) :=
  failsOnly_readGroups (malformed_wkt _) failsOnly_readPolygon

theorem failsOnly_readPoint (text : List Char) :
    FailsOnly Malformed (readPoint text) := by
  unfold readPoint
  split
  · exact failsOnly_error (malformed_wkt _)
  · exact failsOnly_readPosition text

/-! ## Keywords -/

/-- The name of a keyword, in capital letters. -/
def Keyword.name : Keyword → String
  | .point => "POINT"
  | .polygon => "POLYGON"
  | .multiPolygon => "MULTIPOLYGON"
  | .unsupported name => name

/-- A keyword that some letters can stand for. -/
def Keyword.Known : Keyword → Prop
  | .unsupported name => name ∈ unsupportedNames
  | _ => True

/-- No two keywords share their letters. -/
theorem Keyword.eq_of_name_eq {k l : Keyword} (hk : k.Known) (hl : l.Known)
    (hname : k.name = l.name) : k = l := by
  have hpoint : "POINT" ∉ unsupportedNames := by decide
  have hpolygon : "POLYGON" ∉ unsupportedNames := by decide
  have hmultiPolygon : "MULTIPOLYGON" ∉ unsupportedNames := by decide
  cases k <;> cases l <;> simp only [name] at hname <;> first
    | rfl
    | exact absurd hname (by decide)
    | (subst hname; first | rfl | contradiction)

theorem Keyword.known_of_ofChars? {letters : List Char} {k : Keyword}
    (h : Keyword.ofChars? letters = some k) :
    k.Known ∧ Spells letters k.name := by
  unfold Keyword.ofChars? at h
  dsimp only at h
  split at h
  next hletters => exact Option.some.inj h ▸ ⟨trivial, hletters⟩
  split at h
  next hletters => exact Option.some.inj h ▸ ⟨trivial, hletters⟩
  split at h
  next hletters => exact Option.some.inj h ▸ ⟨trivial, hletters⟩
  rcases Option.map_eq_some_iff.1 h with ⟨name, hfind, rfl⟩
  have hletters := List.find?_some hfind
  simp only [decide_eq_true_eq] at hletters
  exact ⟨List.mem_of_find?_eq_some hfind, hletters⟩

/-- The letters of a keyword stand for a keyword. -/
theorem Keyword.ofChars?_isSome {letters : List Char} {k : Keyword}
    (hk : k.Known)
    (hletters : Spells letters k.name) : (Keyword.ofChars? letters).isSome := by
  unfold Keyword.ofChars?
  dsimp only
  split
  · rfl
  split
  · rfl
  split
  · rfl
  next hpoint hpolygon hmultiPolygon =>
    cases k with
    | point => exact absurd hletters hpoint
    | polygon => exact absurd hletters hpolygon
    | multiPolygon => exact absurd hletters hmultiPolygon
    | unsupported name =>
        rw [Option.isSome_map, List.find?_isSome]
        exact ⟨name, hk, decide_eq_true hletters⟩

theorem Keyword.ofChars?_eq_some_iff {letters : List Char} {k : Keyword} :
    Keyword.ofChars? letters = some k ↔ k.Known ∧ Spells letters k.name := by
  refine ⟨Keyword.known_of_ofChars?, ?_⟩
  intro h
  rcases h with ⟨hknown, hletters⟩
  obtain ⟨l, hl⟩ :=
    Option.isSome_iff_exists.1 (Keyword.ofChars?_isSome hknown hletters)
  obtain ⟨hlKnown, hlLetters⟩ := Keyword.known_of_ofChars? hl
  have hname : l.name = k.name :=
    String.toList_injective (hlLetters.symm.trans hletters)
  rw [hl, Keyword.eq_of_name_eq hlKnown hknown hname]

/-! ## The whole text -/

variable {text letters inside : List Char}

theorem readBody_eq_ok_iff {g : Geometry} :
    readBody text letters inside = .ok g ↔
      ∃ name, Spells letters name ∧ IsBody inside name g := by
  constructor
  · intro h
    unfold readBody at h
    split at h
    next hk =>
      rcases map_eq_ok_iff.1 h with ⟨p, hp, rfl⟩
      rcases readPoint_eq_ok_iff.1 hp with ⟨hflat, hposition⟩
      exact ⟨_, (Keyword.ofChars?_eq_some_iff.1 hk).2, .point hflat hposition⟩
    next hk =>
      rcases map_eq_ok_iff.1 h with ⟨rings, hrings, rfl⟩
      exact ⟨_, (Keyword.ofChars?_eq_some_iff.1 hk).2,
        .polygon (readPolygon_eq_ok_iff.1 hrings)⟩
    next hk =>
      rcases map_eq_ok_iff.1 h with ⟨polygons, hpolygons, rfl⟩
      exact ⟨_, (Keyword.ofChars?_eq_some_iff.1 hk).2,
        .multiPolygon (readMultiPolygon_eq_ok_iff.1 hpolygons)⟩
    · cases h
    · cases h
  · intro h
    rcases h with ⟨name, hletters, hbody⟩
    unfold readBody
    cases hbody with
    | point hflat hposition =>
        have hk : Keyword.ofChars? letters = some .point :=
          Keyword.ofChars?_eq_some_iff.2 ⟨trivial, hletters⟩
        rw [hk]
        exact map_eq_ok_iff.2 ⟨_, readPoint_eq_ok_iff.2 ⟨hflat, hposition⟩, rfl⟩
    | polygon hrings =>
        have hk : Keyword.ofChars? letters = some .polygon :=
          Keyword.ofChars?_eq_some_iff.2 ⟨trivial, hletters⟩
        rw [hk]
        exact map_eq_ok_iff.2 ⟨_, readPolygon_eq_ok_iff.2 hrings, rfl⟩
    | multiPolygon hpolygons =>
        have hk : Keyword.ofChars? letters = some .multiPolygon :=
          Keyword.ofChars?_eq_some_iff.2 ⟨trivial, hletters⟩
        rw [hk]
        exact map_eq_ok_iff.2 ⟨_, readMultiPolygon_eq_ok_iff.2 hpolygons, rfl⟩

theorem readBody_of_unsupported {name : String}
    (hname : name ∈ unsupportedNames)
    (hletters : Spells letters name) :
    readBody text letters inside = .error (.unsupportedType name) := by
  have hk : Keyword.ofChars? letters = some (.unsupported name) :=
    Keyword.ofChars?_eq_some_iff.2 ⟨hname, hletters⟩
  rw [readBody, hk]

/-- Behind the keyword of a geometry that is not supported, nothing else is
looked at; any other error is one of malformed text. -/
theorem readBody_error {e : SpatialError}
    (h : readBody text letters inside = .error e) :
    (∃ name ∈ unsupportedNames, Spells letters name ∧
      e = .unsupportedType name) ∨
      Malformed e := by
  unfold readBody at h
  split at h
  · exact .inr ((failsOnly_readPoint inside).map _ e h)
  · exact .inr ((failsOnly_readPolygon inside).map _ e h)
  · exact .inr ((failsOnly_readMultiPolygon inside).map _ e h)
  next name hk =>
    rcases Keyword.ofChars?_eq_some_iff.1 hk with ⟨hname, hletters⟩
    exact .inl ⟨name, hname, hletters, (Except.error.inj h).symm⟩
  · obtain rfl := Except.error.inj h
    exact .inr (malformed_wkt _)

theorem readTrimmed_nil : readTrimmed [] = .error .blankText := rfl

theorem readTrimmed_of_ne_nil (hne : text ≠ []) :
    readTrimmed text = onlyGroup (text.dropWhile Char.isAlpha) >>=
      readBody text (text.takeWhile Char.isAlpha) := by
  rw [readTrimmed, if_neg hne]

theorem readTrimmed_eq_ok_iff {g : Geometry} :
    readTrimmed text = .ok g ↔ StandsFor text g := by
  unfold StandsFor
  by_cases hnil : text = []
  · subst hnil
    rw [readTrimmed_nil]
    simp [isGroups_nil_iff]
  · rw [readTrimmed_of_ne_nil hnil, bind_eq_ok_iff]
    simp only [onlyGroup_eq_ok_iff, readBody_eq_ok_iff]
    constructor
    · intro h
      rcases h with ⟨inside, hgroup, name, hletters, hbody⟩
      exact ⟨inside, name, hgroup, hletters, hbody⟩
    · intro h
      rcases h with ⟨inside, name, hgroup, hletters, hbody⟩
      exact ⟨inside, hgroup, name, hletters, hbody⟩

theorem readTrimmed_of_isUnsupported {name : String}
    (h : IsUnsupported text name) :
    readTrimmed text = .error (.unsupportedType name) := by
  obtain ⟨hname, hletters, inside, hgroup⟩ := h
  have hne : text ≠ [] := by
    intro heq
    subst heq
    simp [isGroups_nil_iff] at hgroup
  rw [readTrimmed_of_ne_nil hne]
  exact bind_eq_error_iff.2 (.inr ⟨inside, onlyGroup_eq_ok_iff.2 hgroup,
    readBody_of_unsupported hname hletters⟩)

/-- The three ways in which a text is refused. -/
theorem readTrimmed_error {e : SpatialError} (h : readTrimmed text = .error e) :
    (text = [] ∧ e = .blankText) ∨
      (∃ name, IsUnsupported text name ∧ e = .unsupportedType name) ∨
      Malformed e := by
  by_cases hnil : text = []
  · subst hnil
    exact .inl ⟨rfl, (Except.error.inj h).symm⟩
  · rw [readTrimmed_of_ne_nil hnil] at h
    rcases bind_eq_error_iff.1 h with hgroup | ⟨inside, hgroup, hbody⟩
    · exact .inr (.inr (failsOnly_onlyGroup _ e hgroup))
    · rcases readBody_error hbody with ⟨name, hname, hletters, rfl⟩ | hmalformed
      · exact .inr (.inl ⟨name, ⟨hname, hletters, inside,
          onlyGroup_eq_ok_iff.1 hgroup⟩, rfl⟩)
      · exact .inr (.inr hmalformed)

/-- An error of this kind comes of a computation. -/
def FailsAs {α : Type} (x : Except SpatialError α) (kind : FailureKind) :
    Prop :=
  ∃ e, x = .error e ∧ e.kind = kind

theorem readTrimmed_failsAs_emptyInput_iff :
    FailsAs (readTrimmed text) .emptyInput ↔ text = [] := by
  constructor
  · intro h
    rcases h with ⟨e, he, hkind⟩
    rcases readTrimmed_error he with ⟨hnil, -⟩ | ⟨name, -, rfl⟩ | hmalformed
    · exact hnil
    · cases hkind
    · rw [hmalformed] at hkind
      cases hkind
  · intro heq
    subst heq
    exact ⟨_, readTrimmed_nil, rfl⟩

theorem readTrimmed_failsAs_unsupported_iff :
    FailsAs (readTrimmed text) .unsupportedGeometryType ↔
      ∃ name, IsUnsupported text name := by
  constructor
  · intro h
    rcases h with ⟨e, he, hkind⟩
    rcases readTrimmed_error he with ⟨-, rfl⟩ | ⟨name, hname, -⟩ | hmalformed
    · cases hkind
    · exact ⟨name, hname⟩
    · rw [hmalformed] at hkind
      cases hkind
  · intro h
    rcases h with ⟨name, hname⟩
    exact ⟨_, readTrimmed_of_isUnsupported hname, rfl⟩

/-- A text that is refused is malformed unless there is another reason. -/
theorem readTrimmed_failsAs_malformed_iff :
    FailsAs (readTrimmed text) .malformedWkt ↔
      text ≠ [] ∧ (¬ ∃ name, IsUnsupported text name) ∧
        ¬ ∃ g, StandsFor text g := by
  constructor
  · intro h
    rcases h with ⟨e, he, hkind⟩
    refine ⟨?_, ?_, ?_⟩
    · intro heq
      subst heq
      obtain rfl := Except.error.inj (readTrimmed_nil.symm.trans he)
      cases hkind
    · intro h
      rcases h with ⟨name, hname⟩
      obtain rfl := Except.error.inj
        ((readTrimmed_of_isUnsupported hname).symm.trans he)
      cases hkind
    · intro h
      rcases h with ⟨g, hg⟩
      cases (readTrimmed_eq_ok_iff.2 hg).symm.trans he
  · intro h
    rcases h with ⟨hne, hsupported, hunread⟩
    cases hread : readTrimmed text with
    | ok g => exact absurd ⟨g, readTrimmed_eq_ok_iff.1 hread⟩ hunread
    | error e =>
        rcases readTrimmed_error hread with
            ⟨hnil, -⟩ | ⟨name, hname, -⟩ | hmalformed
        · exact absurd hnil hne
        · exact absurd ⟨name, hname⟩ hsupported
        · exact ⟨e, rfl, hmalformed⟩

/-- **The reader accepts exactly the grammar and classifies every refusal**: a
blank text is empty input; a text with the keyword of another geometry and one
group behind it is of an unsupported type; a text that stands for a geometry is
read as this one; and any other text is malformed. -/
theorem ofWkt_classifies (text : String) :
    let trimmed := Text.trim text.toList
    let outcome := (Geometry.ofWkt text).outcome
    (FailsAs outcome .emptyInput ↔ trimmed = []) ∧
    (FailsAs outcome .unsupportedGeometryType ↔
      ∃ name, IsUnsupported trimmed name) ∧
    (∀ g, outcome = .ok g ↔ StandsFor trimmed g) ∧
    (FailsAs outcome .malformedWkt ↔
      trimmed ≠ [] ∧ (¬ ∃ name, IsUnsupported trimmed name) ∧
        ¬ ∃ g, StandsFor trimmed g) := by
  dsimp only
  rw [Geometry.outcome_ofWkt, read]
  exact ⟨readTrimmed_failsAs_emptyInput_iff,
    readTrimmed_failsAs_unsupported_iff,
    fun _ => readTrimmed_eq_ok_iff, readTrimmed_failsAs_malformed_iff⟩

end ItemSearch.Wkt
