import Mathlib
import ItemSearch.Proofs.FirstDefect
import ItemSearch.Proofs.Wkt.RoundTrip

/-!
# Taking a text apart at its outermost parentheses

A text that is accepted is laid out as groups with separators around them, and
there is one way only to do so: the separators before a group end where its
parenthesis opens, and no group is part of another one that starts at the same
place.

A text that is refused has a first character that stands outside all groups
without opening one or separating two, or it has none and ends too early.  What
the scan keeps of the groups has no part in that.  So its refusals are those of
a shorter scan, `Progress`, with only the offset and the depth, which are the
size and the balance of the text behind it.

## Main results

* `Layout.subsingleton`: a text has no two layouts.
* `exists_isGroups_iff_exists_layout`: the texts of groups are those that have
  one.
* `groups_eq_error_iff`: a text is refused for its first misplaced character, or
  for the parentheses that are left open.
* `outerGroups_exact`: what comes of any text.
-/

namespace ItemSearch.Wkt

open Outcome

/-! ## Layouts -/

/-- A group and what stands behind it. -/
def IsPart (part : List Char × List Char) : Prop :=
  IsGroup part.1 ∧ IsSeparator part.2

/-- Groups one after the other, each with what stands behind it. -/
def inLine (parts : List (List Char × List Char)) : List Char :=
  parts.flatMap fun part => part.1 ++ part.2

/-- A text taken apart: what stands before the first group, and each group with
what stands behind it. -/
@[ext]
structure Layout (text : List Char) where
  gap : List Char
  parts : List (List Char × List Char)
  isSeparator : IsSeparator gap
  isPart : ∀ part ∈ parts, IsPart part
  spells : gap ++ inLine parts = text

/-- The groups of a text, each from its first parenthesis to its last one. -/
def Layout.groups {text : List Char} (l : Layout text) : List (List Char) :=
  l.parts.map Prod.fst

variable {text : List Char}

@[simp] theorem inLine_nil : inLine [] = [] := rfl

theorem inLine_cons (part : List Char × List Char)
    (parts : List (List Char × List Char)) :
    inLine (part :: parts) = part.1 ++ (part.2 ++ inLine parts) := by
  rw [inLine, List.flatMap_cons, List.append_assoc]
  rfl

theorem IsGroup.exists_tail {group : List Char} (h : IsGroup group) :
    ∃ tail, group = '(' :: tail :=
  List.head?_eq_some_iff.1 h.opens

/-- A group ends with a closing parenthesis, since without its last character
one is still open. -/
theorem IsGroup.exists_inside {group : List Char} (h : IsGroup group) :
    ∃ inside, enclose inside = group := by
  obtain ⟨tail, rfl⟩ := h.exists_tail
  rcases List.eq_nil_or_concat tail with rfl | ⟨inside, last, rfl⟩
  · exact absurd h.balanced (by decide)
  · have hfront : 0 < balance ('(' :: inside) :=
      h.positive _ ⟨[last], by simp⟩ (by simp) (by simp)
    have hwhole : balance ('(' :: inside) + balance [last] = 0 := by
      rw [← balance_append, List.cons_append, ← List.concat_eq_append]
      exact h.balanced
    have hlast : last = ')' := by
      by_contra hclose
      by_cases hopen : last = '('
      · rw [hopen, balance_open] at hwhole
        omega
      · rw [balance_singleton_of_ne hopen hclose] at hwhole
        omega
    exact ⟨inside, by rw [hlast, enclose, List.concat_eq_append]⟩

/-- Of two groups at one place, neither goes on where the other one has
ended. -/
theorem IsGroup.append_inj {group other rest rest' : List Char}
    (h : IsGroup group)
    (hother : IsGroup other) (heq : group ++ rest = other ++ rest') :
    group = other ∧ rest = rest' := by
  have hstart : ∀ {front whole : List Char}, IsGroup front → IsGroup whole →
      front <+: whole → front = whole := by
    intro front whole hfront hwhole hpre
    by_contra hne
    obtain ⟨tail, rfl⟩ := hfront.exists_tail
    have hopen := hwhole.positive _ hpre (by simp) hne
    have hclosed := hfront.balanced
    omega
  have hgroup : group = other := by
    rcases List.append_eq_append_iff.1 heq with ⟨more, rfl, -⟩ | ⟨more, rfl, -⟩
    · exact hstart h hother (List.prefix_append _ _)
    · exact (hstart hother h (List.prefix_append _ _)).symm
  subst hgroup
  exact ⟨rfl, List.append_cancel_left heq⟩

/-- The separators before the first group are all that a text starts with. -/
theorem takeWhile_separates {gap : List Char}
    {parts : List (List Char × List Char)}
    (hgap : IsSeparator gap) (hparts : ∀ part ∈ parts, IsPart part) :
    (gap ++ inLine parts).takeWhile separates = gap := by
  have hstop : (inLine parts).takeWhile separates = [] := by
    cases parts with
    | nil => rfl
    | cons part parts =>
        obtain ⟨tail, htail⟩ := (hparts part (by simp)).1.exists_tail
        rw [inLine_cons, htail]
        rfl
  rw [List.takeWhile_append_of_pos fun c hc =>
    separates_eq_true_iff.2 (hgap c hc), hstop, List.append_nil]

/-- What two layouts start with is the same, and so is what follows it. -/
theorem gap_inj {gap gap' : List Char}
    {parts parts' : List (List Char × List Char)}
    (hgap : IsSeparator gap) (hparts : ∀ part ∈ parts, IsPart part)
    (hgap' : IsSeparator gap') (hparts' : ∀ part ∈ parts', IsPart part)
    (heq : gap ++ inLine parts = gap' ++ inLine parts') :
    gap = gap' ∧ inLine parts = inLine parts' := by
  have hsame : gap = gap' := by
    rw [← takeWhile_separates hgap hparts, heq,
      takeWhile_separates hgap' hparts']
  subst hsame
  exact ⟨rfl, List.append_cancel_left heq⟩

theorem inLine_inj {parts parts' : List (List Char × List Char)}
    (hparts : ∀ part ∈ parts, IsPart part)
    (hparts' : ∀ part ∈ parts', IsPart part)
    (heq : inLine parts = inLine parts') : parts = parts' := by
  have hne : ∀ {part : List Char × List Char} {rest}, IsPart part →
      inLine (part :: rest) ≠ [] := by
    intro part rest hpart hnil
    obtain ⟨tail, htail⟩ := hpart.1.exists_tail
    rw [inLine_cons, htail] at hnil
    cases hnil
  induction parts generalizing parts' with
  | nil =>
      cases parts' with
      | nil => rfl
      | cons part' rest' =>
          exact absurd heq.symm (hne (hparts' part' (by simp)))
  | cons part rest ih =>
      cases parts' with
      | nil => exact absurd heq (hne (hparts part (by simp)))
      | cons part' rest' =>
          obtain ⟨⟨hgroup, hsep⟩, hrest⟩ := List.forall_mem_cons.1 hparts
          obtain ⟨⟨hgroup', hsep'⟩, hrest'⟩ := List.forall_mem_cons.1 hparts'
          rw [inLine_cons, inLine_cons] at heq
          obtain ⟨hfirst, htail⟩ := hgroup.append_inj hgroup' heq
          obtain ⟨hsecond, hline⟩ := gap_inj hsep hrest hsep' hrest' htail
          rw [Prod.ext hfirst hsecond, ih hrest hrest' hline]

/-- A text is laid out in one way at most. -/
theorem Layout.subsingleton (text : List Char) :
    Subsingleton (Layout text) := by
  refine ⟨fun l m => ?_⟩
  obtain ⟨hgap, hline⟩ := gap_inj l.isSeparator l.isPart m.isSeparator m.isPart
    (l.spells.trans m.spells.symm)
  exact Layout.ext hgap (inLine_inj l.isPart m.isPart hline)

/-! ## Texts of groups have a layout -/

/-- A layout by its parts is a text of groups, group by group. -/
theorem exists_isGroups_of_isPart {gap : List Char}
    {parts : List (List Char × List Char)} (hgap : IsSeparator gap)
    (hparts : ∀ part ∈ parts, IsPart part) :
    ∃ insides, IsGroups (gap ++ inLine parts) insides ∧
      insides.map enclose = parts.map Prod.fst := by
  induction parts generalizing gap with
  | nil => exact ⟨[], by simpa using IsGroups.separator hgap, rfl⟩
  | cons part parts ih =>
      obtain ⟨⟨hgroup, hsep⟩, hrest⟩ := List.forall_mem_cons.1 hparts
      obtain ⟨insides, hinsides, hmap⟩ := ih hsep hrest
      obtain ⟨inside, hinside⟩ := hgroup.exists_inside
      refine ⟨inside :: insides, ?_,
        by rw [List.map_cons, List.map_cons, hinside, hmap]⟩
      rw [← hinside] at hgroup
      rw [inLine_cons, ← hinside, ← List.append_assoc]
      exact .group hgap hgroup hinsides

theorem IsGroups.exists_layout {insides : List (List Char)}
    (h : IsGroups text insides) :
    ∃ l : Layout text, l.groups = insides.map enclose := by
  induction h with
  | separator hgap => exact ⟨⟨_, [], hgap, by simp, by simp⟩, rfl⟩
  | @group gap inside rest insides hgap hgroup hrest ih =>
      obtain ⟨l, hl⟩ := ih
      refine ⟨⟨gap, (enclose inside, l.gap) :: l.parts, hgap,
        List.forall_mem_cons.2 ⟨⟨hgroup, l.isSeparator⟩, l.isPart⟩, ?_⟩, ?_⟩
      · rw [inLine_cons, l.spells, List.append_assoc]
      · rw [Layout.groups, List.map_cons, List.map_cons, ← hl]
        rfl

theorem exists_isGroups_iff_exists_layout {groups : List (List Char)} :
    (∃ insides, IsGroups text insides ∧ insides.map enclose = groups) ↔
      ∃ l : Layout text, l.groups = groups := by
  constructor
  · intro h
    rcases h with ⟨insides, hinsides, rfl⟩
    exact hinsides.exists_layout
  · intro h
    rcases h with ⟨⟨gap, parts, hgap, hparts, rfl⟩, rfl⟩
    exact exists_isGroups_of_isPart hgap hparts

/-! ## What the scan refuses -/

/-- How far a scan has come: the bytes behind it and the parentheses that are
open. -/
structure Progress where
  offset : Nat
  depth : Nat

namespace Progress

/-- One character of a scan that does not keep the groups. -/
def step (p : Progress) (c : Char) : Except GroupError Progress :=
  let next := p.offset + c.utf8Size
  if c = '(' then .ok ⟨next, p.depth + 1⟩
  else if c = ')' then
    if p.depth = 0 then
      .error (.unmatchedClose p.offset)
    else
      .ok ⟨next, p.depth - 1⟩
  else if p.depth = 0 ∧ separates c = false then .error (.strayCharacter c)
  else .ok ⟨next, p.depth⟩

/-- The end of that scan. -/
def finish (p : Progress) : Except GroupError Unit :=
  if p.depth = 0 then .ok () else .error (.unclosed p.depth)

variable {p q : Progress} {c : Char} {e : GroupError}

theorem step_eq_ok (h : p.step c = .ok q) :
    q.offset = p.offset + c.utf8Size ∧
      (q.depth : Int) = p.depth + balance [c] := by
  unfold step at h
  by_cases hopen : c = '('
  · subst hopen
    rw [if_pos rfl] at h
    obtain rfl := Except.ok.inj h
    exact ⟨rfl, by rw [balance_open]; push_cast; rfl⟩
  by_cases hclose : c = ')'
  · subst hclose
    rw [if_neg hopen, if_pos rfl] at h
    by_cases hzero : p.depth = 0
    · rw [if_pos hzero] at h
      cases h
    · rw [if_neg hzero] at h
      obtain rfl := Except.ok.inj h
      refine ⟨rfl, ?_⟩
      show ((p.depth - 1 : Nat) : Int) = p.depth + balance [')']
      rw [balance_close]
      omega
  · rw [if_neg hopen, if_neg hclose] at h
    by_cases hstray : p.depth = 0 ∧ separates c = false
    · rw [if_pos hstray] at h
      cases h
    · rw [if_neg hstray] at h
      obtain rfl := Except.ok.inj h
      exact ⟨rfl, by rw [balance_singleton_of_ne hopen hclose, add_zero]⟩

theorem step_eq_error_iff : p.step c = .error e ↔
    p.depth = 0 ∧ c ≠ '(' ∧ separates c = false ∧
      e = if c = ')' then .unmatchedClose p.offset else .strayCharacter c := by
  unfold step
  by_cases hopen : c = '('
  · simp [hopen]
  by_cases hclose : c = ')'
  · subst hclose
    have hsep : separates ')' = false := by decide
    by_cases hzero : p.depth = 0 <;> simp [hzero, hsep, eq_comm]
  · rw [if_neg hopen, if_neg hclose, if_neg hclose]
    by_cases hstray : p.depth = 0 ∧ separates c = false
    · simp [hstray, hopen, eq_comm]
    · rw [if_neg hstray]
      constructor
      · intro h
        cases h
      · intro h
        exact absurd ⟨h.1, h.2.2.1⟩ hstray

/-- The offset counts the bytes, and the depth is the balance, of what has been
read. -/
theorem foldlM_step_eq_ok (h : text.foldlM step p = .ok q) :
    q.offset = p.offset + (String.ofList text).utf8ByteSize ∧
      (q.depth : Int) = p.depth + balance text := by
  induction text generalizing p with
  | nil =>
      obtain rfl := Except.ok.inj h
      simp
  | cons c text ih =>
      rw [List.foldlM_cons] at h
      obtain ⟨next, hstep, hrest⟩ := bind_eq_ok_iff.1 h
      obtain ⟨hoffset, hdepth⟩ := step_eq_ok hstep
      obtain ⟨hoffset', hdepth'⟩ := ih hrest
      rw [String.ofList_cons, String.utf8ByteSize_append,
        String.utf8ByteSize_singleton, balance_cons]
      omega

end Progress

/-- What the scan keeps of the groups does not decide what it refuses. -/
theorem erase_groupsFrom (offset depth : Nat) (passed text : List Char) :
    (fun _ => ()) <$> groupsFrom offset depth passed text =
      text.foldlM Progress.step ⟨offset, depth⟩ >>= Progress.finish := by
  induction text generalizing offset depth passed with
  | nil =>
      show (fun _ => ()) <$> groupsFrom offset depth passed [] =
        Progress.finish ⟨offset, depth⟩
      by_cases hzero : depth = 0 <;> simp [groupsFrom, Progress.finish, hzero]
  | cons c text ih =>
      rw [List.foldlM_cons]
      by_cases hopen : c = '('
      · rcases depth with _ | _ | deeper <;>
          simp [groupsFrom, Progress.step, hopen, ih, bind, Except.bind]
      by_cases hclose : c = ')'
      · rcases depth with _ | _ | deeper <;>
          simp [groupsFrom, Progress.step, hclose, ih, bind, Except.bind]
      rcases depth with _ | _ | deeper
      -- only outside all groups does it matter what the character is
      · cases hsep : separates c <;>
          simp [groupsFrom, Progress.step, hopen, hclose, hsep, ih, bind,
            Except.bind]
      all_goals simp [groupsFrom, Progress.step, hopen, hclose, ih, bind,
        Except.bind]

/-- Outside all groups stands a character that neither opens one nor separates
two. -/
inductive Misplaced (before : List Char) : Char → GroupError → Prop where
  | close (hdepth : balance before = 0) :
      Misplaced before ')' (.unmatchedClose (String.ofList before).utf8ByteSize)
  | other {c : Char} (hdepth : balance before = 0) (hopen : c ≠ '(')
      (hclose : c ≠ ')') (hsep : ¬ (c = ',' ∨ Text.isBlank c = true)) :
      Misplaced before c (.strayCharacter c)

/-- Parentheses are open at the end of a text, as many as the error says. -/
def LeftOpen (text : List Char) (e : GroupError) : Prop :=
  ∃ count : Nat, 0 < count ∧ balance text = count ∧ e = .unclosed count

variable {e : GroupError}

theorem misplaced_iff {before : List Char} {c : Char} : Misplaced before c e ↔
    balance before = 0 ∧ c ≠ '(' ∧ separates c = false ∧
      e = if c = ')' then .unmatchedClose (String.ofList before).utf8ByteSize
        else .strayCharacter c := by
  have hsep : separates c = false ↔ ¬ (c = ',' ∨ Text.isBlank c = true) := by
    rw [← separates_eq_true_iff, Bool.not_eq_true]
  constructor
  · intro h
    cases h with
    | close hdepth => exact ⟨hdepth, by decide, by decide, rfl⟩
    | other hdepth hopen hclose hnot =>
        exact ⟨hdepth, hopen, hsep.2 hnot, by rw [if_neg hclose]⟩
  · intro h
    rcases h with ⟨hdepth, hopen, hnot, rfl⟩
    by_cases hclose : c = ')'
    · subst hclose
      exact .close hdepth
    · rw [if_neg hclose]
      exact .other hdepth hopen hclose (hsep.1 hnot)

theorem refuses_step : Refuses Progress.step ⟨0, 0⟩ Misplaced := by
  intro before p hbefore c e
  obtain ⟨hoffset, hdepth⟩ := Progress.foldlM_step_eq_ok hbefore
  have hzero : p.depth = 0 ↔ balance before = 0 := by
    dsimp only at hdepth
    omega
  rw [Progress.step_eq_error_iff, misplaced_iff, hzero, hoffset, Nat.zero_add]

theorem finish_eq_error_iff {p : Progress}
    (h : text.foldlM Progress.step ⟨0, 0⟩ = .ok p) :
    p.finish = .error e ↔ LeftOpen text e := by
  have hdepth : (p.depth : Int) = balance text := by
    simpa using (Progress.foldlM_step_eq_ok h).2
  unfold Progress.finish LeftOpen
  rw [← hdepth]
  by_cases hzero : p.depth = 0
  · rw [if_pos hzero]
    constructor
    · intro h
      cases h
    · intro h
      rcases h with ⟨count, hpos, hcount, -⟩
      omega
  · rw [if_neg hzero]
    constructor
    · intro h
      exact ⟨p.depth, by omega, rfl, (Except.error.inj h).symm⟩
    · intro h
      rcases h with ⟨count, -, hcount, rfl⟩
      rw [Int.ofNat.inj hcount]

/-- **A text is refused for the first character that is misplaced**, and if
there is none, for the parentheses that are open at its end. -/
theorem groups_eq_error_iff : groups text = .error e ↔
    FirstDefect Misplaced text e ∨
      (Flawless Misplaced text ∧ LeftOpen text e) := by
  rw [groups, ← map_eq_error_iff (f := fun _ => ()), erase_groupsFrom,
    bind_eq_error_iff, foldlM_eq_error_iff_firstDefect refuses_step]
  refine or_congr_right ?_
  constructor
  · intro h
    rcases h with ⟨p, hp, hfinish⟩
    exact ⟨flawless_of_foldlM_eq_ok refuses_step hp,
      (finish_eq_error_iff hp).1 hfinish⟩
  · intro h
    obtain ⟨p, hp⟩ := exists_ok_of_flawless refuses_step h.1
    exact ⟨p, hp, (finish_eq_error_iff hp).2 h.2⟩

/-! ## Whole groups -/

/-- The groups of a text, with their parentheses. -/
def outerGroups (text : List Char) : Except SpatialError (List (List Char)) :=
  List.map enclose <$> textGroups text

/-- How a defect of a text is reported. -/
def GroupError.within (text : List Char) : GroupError → WktError
  | .unmatchedClose offset => .unmatchedClose offset text
  | .strayCharacter found => .strayCharacter found text
  | .unclosed count => .unclosed count text

theorem outerGroups_eq_ok_iff {groups : List (List Char)} :
    outerGroups text = .ok groups ↔ ∃ l : Layout text, l.groups = groups := by
  rw [outerGroups, map_eq_ok_iff, ← exists_isGroups_iff_exists_layout]
  simp only [textGroups_eq_ok_iff]

theorem outerGroups_eq_error_iff {e : SpatialError} :
    outerGroups text = .error e ↔
    ∃ defect, groups text = .error defect ∧ e = .wkt (defect.within text) := by
  rw [outerGroups, map_eq_error_iff]
  unfold textGroups
  cases groups text with
  | ok insides => simp
  | error defect => cases defect <;> simp [GroupError.within, eq_comm]

theorem outerGroups_layout (l : Layout text) :
    outerGroups text = .ok l.groups :=
  outerGroups_eq_ok_iff.2 ⟨l, rfl⟩

theorem outerGroups_commaSeparated {groups : List (List Char)}
    (h : ∀ group ∈ groups, IsGroup group) :
    outerGroups (commaSeparated groups) = .ok groups := by
  have hrange : groups ∈ Set.range (List.map enclose) := by
    rw [Set.range_list_map]
    exact fun group hgroup => (h group hgroup).exists_inside
  obtain ⟨insides, rfl⟩ := hrange
  refine map_eq_ok_iff.2
    ⟨insides, textGroups_eq_ok_iff.2 (isGroups_commaSeparated ?_), rfl⟩
  intro inside hinside
  exact isGroup_enclose_iff.1 (h _ (List.mem_map_of_mem hinside))

/-- A parenthesis too many is found by its offset in bytes, here behind a letter
of two. -/
example :
    outerGroups "(é) )".toList =
      .error (.wkt (.unmatchedClose 5 "(é) )".toList)) :=
  rfl

/-- **Splitting is exact.**  A text comes to the groups of its layout if it has
one, and no text has two; in particular any groups come back from a text that is
made of them, with whatever separators.  Every other text is malformed
well-known text, reported for its first misplaced character, or else for the
number of parentheses that are left open. -/
theorem outerGroups_exact :
    (∀ text groups, outerGroups text = .ok groups ↔
      ∃ l : Layout text, l.groups = groups) ∧
    (∀ text, Subsingleton (Layout text)) ∧
    (∀ gap parts, IsSeparator gap → (∀ part ∈ parts, IsPart part) →
      outerGroups (gap ++ inLine parts) = .ok (parts.map Prod.fst)) ∧
    (∀ groups, (∀ group ∈ groups, IsGroup group) →
      outerGroups (commaSeparated groups) = .ok groups) ∧
    (∀ text e, outerGroups text = .error e ↔
      ∃ defect, e = .wkt (defect.within text) ∧
        (FirstDefect Misplaced text defect ∨
          (Flawless Misplaced text ∧ LeftOpen text defect))) ∧
    ∀ text e, outerGroups text = .error e → e.kind = .malformedWkt := by
  refine ⟨fun _ _ => outerGroups_eq_ok_iff, Layout.subsingleton, ?_, ?_, ?_, ?_⟩
  · intro gap parts hgap hparts
    exact outerGroups_layout ⟨gap, parts, hgap, hparts, rfl⟩
  · intro groups h
    exact outerGroups_commaSeparated h
  · intro text e
    rw [outerGroups_eq_error_iff]
    simp only [groups_eq_error_iff, and_comm]
  · intro text e h
    exact (failsOnly_textGroups text).map _ e h

end ItemSearch.Wkt
