import Mathlib
import ItemSearch.Wkt.Basic
import ItemSearch.Proofs.Outcome

/-!
# Groups of parentheses, without a scan

A group is described by the balance of its parentheses on every part of it that
starts at its front, and a text of groups by the commas and blanks around them.
The scan keeps a depth instead.  Its invariant is `Pends`: what is still to be
read continues the group that is open and closes it, and more groups follow.

## Main results

* `isGroup_enclose_iff`: a group in terms of its inside.
* `groups_eq_ok_iff`: the scan accepts the texts of groups and returns their
  insides.
-/

namespace ItemSearch.Wkt

/-! ## Balance and groups -/

/-- The number of opening parentheses less the number of closing ones. -/
def balance (cs : List Char) : Int :=
  (cs.count '(' : Int) - cs.count ')'

/-- A text that starts with a parenthesis and ends with the one that closes it:
every proper part at its front leaves a parenthesis open, and the whole leaves
none. -/
structure IsGroup (cs : List Char) : Prop where
  opens : cs.head? = some '('
  positive : ∀ front, front <+: cs → front ≠ [] → front ≠ cs → 0 < balance front
  balanced : balance cs = 0

/-- A text of commas and blanks, possibly empty. -/
def IsSeparator (cs : List Char) : Prop :=
  ∀ c ∈ cs, c = ',' ∨ Text.isBlank c = true

/-- A text that consists of groups with these insides and of separators before,
between and behind them. -/
inductive IsGroups : List Char → List (List Char) → Prop where
  | separator {gap : List Char} (hgap : IsSeparator gap) : IsGroups gap []
  | group {gap inside rest : List Char} {insides : List (List Char)}
      (hgap : IsSeparator gap) (hgroup : IsGroup (enclose inside))
      (hrest : IsGroups rest insides) :
      IsGroups (gap ++ enclose inside ++ rest) (inside :: insides)

@[simp] theorem balance_nil : balance [] = 0 := rfl

theorem balance_append (cs ds : List Char) :
    balance (cs ++ ds) = balance cs + balance ds := by
  simp only [balance, List.count_append]
  omega

theorem balance_cons (c : Char) (cs : List Char) :
    balance (c :: cs) = balance [c] + balance cs :=
  balance_append [c] cs

@[simp] theorem balance_open : balance ['('] = 1 := rfl

@[simp] theorem balance_close : balance [')'] = -1 := rfl

theorem balance_singleton_of_ne {c : Char}
    (hopen : c ≠ '(') (hclose : c ≠ ')') :
    balance [c] = 0 := by
  simp [balance, hopen, hclose]

/-- Read from a depth on, a text keeps a parenthesis open, and one is open at
its end. -/
structure Closes (depth : Int) (cs : List Char) : Prop where
  positive : ∀ front, front <+: cs → 0 < depth + balance front
  last : depth + balance cs = 1

theorem closes_nil_iff {depth : Int} : Closes depth [] ↔ depth = 1 := by
  constructor
  · intro h
    simpa using h.last
  · intro heq
    subst heq
    refine ⟨?_, by simp⟩
    intro front hfront
    rw [List.prefix_nil.1 hfront]
    simp

theorem closes_cons_iff {depth : Int} {c : Char} {cs : List Char} :
    Closes depth (c :: cs) ↔ 0 < depth ∧ Closes (depth + balance [c]) cs := by
  have hshift : ∀ ds, depth + balance (c :: ds) =
      depth + balance [c] + balance ds := by
    intro ds
    rw [balance_cons]
    omega
  constructor
  · intro h
    refine ⟨?_, ?_, ?_⟩
    · simpa using h.positive [] List.nil_prefix
    · intro front hfront
      rw [← hshift]
      exact h.positive _ (List.cons_prefix_cons.2 ⟨rfl, hfront⟩)
    · rw [← hshift]
      exact h.last
  · intro h
    rcases h with ⟨hpos, h⟩
    refine ⟨?_, ?_⟩
    · intro front hfront
      cases front with
      | nil => simpa using hpos
      | cons d ds =>
          rcases List.cons_prefix_cons.1 hfront with ⟨rfl, hds⟩
          rw [hshift]
          exact h.positive ds hds
    · rw [hshift]
      exact h.last

theorem Closes.depth_pos {depth : Int} {cs : List Char} (h : Closes depth cs) :
    0 < depth := by
  simpa using h.positive [] List.nil_prefix

/-- Two texts of which the first closes down to one parenthesis, and the second
keeps it open, close together. -/
theorem Closes.append {depth : Int} {cs ds : List Char} (hcs : Closes depth cs)
    (hds : Closes 1 ds) : Closes depth (cs ++ ds) := by
  induction cs generalizing depth with
  | nil =>
      obtain rfl := closes_nil_iff.1 hcs
      exact hds
  | cons c cs ih =>
      rcases closes_cons_iff.1 hcs with ⟨hpos, hrest⟩
      exact closes_cons_iff.2 ⟨hpos, ih hrest⟩

/-- A text without parentheses keeps the depth. -/
theorem closes_of_flat {cs : List Char} (hflat : ∀ c ∈ cs, c ≠ '(' ∧ c ≠ ')') :
    Closes 1 cs := by
  induction cs with
  | nil => exact closes_nil_iff.2 rfl
  | cons c cs ih =>
      obtain ⟨hopen, hclose⟩ := hflat c (by simp)
      refine closes_cons_iff.2 ⟨by omega, ?_⟩
      rw [balance_singleton_of_ne hopen hclose]
      exact ih fun d hd => hflat d (by simp [hd])

theorem Closes.enclose {inside : List Char} (h : Closes 1 inside) :
    Closes 1 (enclose inside) := by
  refine closes_cons_iff.2 ⟨by omega, ?_⟩
  have hlift : ∀ {depth : Int} {cs : List Char}, Closes depth cs →
      Closes (depth + 1) (cs ++ [')']) := by
    intro depth cs hcs
    induction cs generalizing depth with
    | nil =>
        obtain rfl := closes_nil_iff.1 hcs
        exact closes_cons_iff.2 ⟨by omega, closes_nil_iff.2 rfl⟩
    | cons c cs ih =>
        rcases closes_cons_iff.1 hcs with ⟨hpos, hrest⟩
        refine closes_cons_iff.2 ⟨by omega, ?_⟩
        have hnext := ih hrest
        rwa [show depth + balance [c] + 1 = depth + 1 + balance [c] by omega]
          at hnext
  exact hlift h

/-- A group in terms of its inside, which the first parenthesis opens. -/
theorem isGroup_enclose_iff {inside : List Char} :
    IsGroup (enclose inside) ↔ Closes 1 inside := by
  have hbalance : ∀ cs, balance ('(' :: cs) = 1 + balance cs :=
    fun cs => balance_cons '(' cs
  have hwhole : balance (enclose inside) = balance inside := by
    rw [enclose, hbalance, balance_append, balance_close]
    omega
  constructor
  · intro h
    refine ⟨?_, ?_⟩
    · intro front hfront
      rw [← hbalance]
      refine h.positive _ ?_ (by simp) ?_
      · exact List.cons_prefix_cons.2
          ⟨rfl, hfront.trans (List.prefix_append _ _)⟩
      · intro heq
        have hlen := congrArg List.length heq
        have hle := hfront.length_le
        simp only [enclose, List.length_cons, List.length_append] at hlen
        omega
    · have hzero := h.balanced
      rw [hwhole] at hzero
      omega
  · intro h
    refine ⟨rfl, ?_, ?_⟩
    · intro front hfront hne hproper
      obtain ⟨c, tail, rfl⟩ := List.exists_cons_of_ne_nil hne
      rcases List.cons_prefix_cons.1 hfront with ⟨rfl, htail⟩
      rw [hbalance]
      rcases List.prefix_concat_iff.1 htail with heq | hinside
      · exact absurd (congrArg ('(' :: ·) heq) hproper
      · exact h.positive tail hinside
    · have hone := h.last
      rw [hwhole]
      omega

/-! ## Reading on inside a group -/

/-- What is still to be read when parentheses are open: the rest of the current
group, of which `passed` holds the inside so far, the last character first, and
then more groups. -/
def Pends (depth : Int) (passed text : List Char) (insides : List (List Char)) :
    Prop :=
  ∃ inside rest more, Closes depth inside ∧ text = inside ++ ')' :: rest ∧
    IsGroups rest more ∧ insides = (passed.reverse ++ inside) :: more

variable {depth : Int} {passed text rest : List Char}
  {insides : List (List Char)}

theorem not_pends_nil : ¬ Pends depth passed [] insides := by
  intro h
  rcases h with ⟨inside, rest, more, -, htext, -⟩
  simp at htext

/-- A character that leaves a parenthesis open belongs to the inside. -/
theorem pends_cons_iff {c : Char} (hpos : 0 < depth)
    (hnext : 0 < depth + balance [c]) :
    Pends depth passed (c :: text) insides ↔
      Pends (depth + balance [c]) (c :: passed) text insides := by
  constructor
  · intro h
    rcases h with ⟨inside, rest, more, hcloses, htext, hrest, rfl⟩
    cases inside with
    | nil =>
        obtain ⟨rfl, rfl⟩ := List.cons.inj htext
        have hone := closes_nil_iff.1 hcloses
        rw [balance_close] at hnext
        omega
    | cons d ds =>
        obtain ⟨rfl, rfl⟩ := List.cons.inj htext
        exact ⟨ds, rest, more, (closes_cons_iff.1 hcloses).2, rfl, hrest,
          by simp⟩
  · intro h
    rcases h with ⟨inside, rest, more, hcloses, rfl, hrest, rfl⟩
    exact ⟨c :: inside, rest, more, closes_cons_iff.2 ⟨hpos, hcloses⟩, rfl,
      hrest, by simp⟩

/-- The parenthesis that closes the only open one ends the group. -/
theorem pends_close_iff : Pends 1 passed (')' :: text) insides ↔
    ∃ more, IsGroups text more ∧ insides = passed.reverse :: more := by
  constructor
  · intro h
    rcases h with ⟨inside, rest, more, hcloses, htext, hrest, rfl⟩
    cases inside with
    | nil =>
        obtain ⟨-, rfl⟩ := List.cons.inj htext
        exact ⟨more, hrest, by simp⟩
    | cons d ds =>
        obtain ⟨rfl, -⟩ := List.cons.inj htext
        have hpos := (closes_cons_iff.1 hcloses).2.depth_pos
        rw [balance_close] at hpos
        omega
  · intro h
    rcases h with ⟨more, hmore, rfl⟩
    exact ⟨[], text, more, closes_nil_iff.2 rfl, rfl, hmore, by simp⟩

/-! ## Reading on between groups -/

theorem separates_eq_true_iff {c : Char} :
    separates c = true ↔ c = ',' ∨ Text.isBlank c = true := by
  simp [separates]

theorem isGroups_nil_iff : IsGroups [] insides ↔ insides = [] := by
  constructor
  · intro h
    generalize htext : ([] : List Char) = text at h
    cases h with
    | separator => rfl
    | group => simp [enclose] at htext
  · intro heq
    subst heq
    exact .separator (by simp [IsSeparator])

theorem isGroups_cons_of_separates {c : Char} (hc : separates c = true) :
    IsGroups (c :: text) insides ↔ IsGroups text insides := by
  have hsep :
      ∀ {gap : List Char}, IsSeparator (c :: gap) ↔ IsSeparator gap := by
    intro gap
    simp only [IsSeparator, List.forall_mem_cons, separates_eq_true_iff.1 hc,
      true_and]
  constructor
  · intro h
    generalize htext : c :: text = cs at h
    cases h with
    | separator hgap =>
        subst htext
        exact .separator (hsep.1 hgap)
    | @group gap inside rest insides hgap hgroup hrest =>
        cases gap with
        | nil =>
            obtain ⟨rfl, -⟩ := List.cons.inj htext
            exact absurd hc (by decide)
        | cons d gap =>
            obtain ⟨rfl, rfl⟩ := List.cons.inj htext
            exact .group (hsep.1 hgap) hgroup hrest
  · intro h
    cases h with
    | separator hgap => exact .separator (hsep.2 hgap)
    | @group gap inside rest insides hgap hgroup hrest =>
        exact @IsGroups.group (c :: gap) inside rest insides
          (hsep.2 hgap) hgroup hrest

/-- A group starts where a parenthesis opens. -/
theorem isGroups_open_iff :
    IsGroups ('(' :: text) insides ↔ Pends 1 [] text insides := by
  constructor
  · intro h
    generalize htext : '(' :: text = cs at h
    cases h with
    | separator hgap =>
        subst htext
        rcases hgap '(' (by simp) with h | h <;> exact absurd h (by decide)
    | @group gap inside rest insides hgap hgroup hrest =>
        cases gap with
        | nil =>
            obtain ⟨-, rfl⟩ := List.cons.inj htext
            exact ⟨inside, rest, insides, isGroup_enclose_iff.1 hgroup,
              by simp, hrest, by simp⟩
        | cons d gap =>
            obtain ⟨rfl, -⟩ := List.cons.inj htext
            rcases hgap '(' (by simp) with h | h <;> exact absurd h (by decide)
  · intro h
    rcases h with ⟨inside, rest, more, hcloses, rfl, hrest, rfl⟩
    have hgroup := @IsGroups.group [] inside rest more (by simp [IsSeparator])
      (isGroup_enclose_iff.2 hcloses) hrest
    simpa [enclose] using hgroup

/-- Nothing but separators and opening parentheses stands outside groups. -/
theorem not_isGroups_cons {c : Char}
    (hopen : c ≠ '(') (hsep : separates c = false) :
    ¬ IsGroups (c :: text) insides := by
  have hgap : ∀ {gap : List Char}, ¬ IsSeparator (c :: gap) := by
    intro gap hgap
    have hc := separates_eq_true_iff.2 (hgap c (by simp))
    rw [hsep] at hc
    exact Bool.false_ne_true hc
  intro h
  generalize htext : c :: text = cs at h
  cases h with
  | separator hgap' =>
      subst htext
      exact hgap hgap'
  | @group gap inside rest insides hgap' hgroup hrest =>
      cases gap with
      | nil => exact hopen (List.cons.inj htext).1
      | cons d gap =>
          obtain ⟨rfl, -⟩ := List.cons.inj htext
          exact hgap hgap'

/-! ## The scan -/

section Scan

variable {offset level : Nat}

private theorem groupsFrom_open :
    groupsFrom offset (level + 1) passed ('(' :: text) =
      groupsFrom (offset + Char.utf8Size '(') (level + 2)
        ('(' :: passed) text := by
  cases level <;> simp [groupsFrom]

private theorem groupsFrom_close_last :
    groupsFrom offset 1 passed (')' :: text) =
      (passed.reverse :: ·) <$>
        groupsFrom (offset + Char.utf8Size ')') 0 [] text := by
  simp [groupsFrom]

private theorem groupsFrom_close_deeper :
    groupsFrom offset (level + 2) passed (')' :: text) =
      groupsFrom (offset + Char.utf8Size ')') (level + 1)
        (')' :: passed) text := by
  simp [groupsFrom]

private theorem groupsFrom_other {c : Char}
    (hopen : c ≠ '(') (hclose : c ≠ ')') :
    groupsFrom offset (level + 1) passed (c :: text) =
      groupsFrom (offset + c.utf8Size) (level + 1) (c :: passed) text := by
  cases level <;> simp [groupsFrom, hopen, hclose]

end Scan

/-- The invariant of the scan, for whatever depth and offset it has come to. -/
theorem groupsFrom_eq_ok_iff (text : List Char) :
    (∀ offset passed insides, groupsFrom offset 0 passed text = .ok insides ↔
      IsGroups text insides) ∧
    ∀ offset (level : Nat) passed insides,
      groupsFrom offset (level + 1) passed text = .ok insides ↔
        Pends (level + 1) passed text insides := by
  induction text with
  | nil =>
      refine ⟨?_, ?_⟩
      · intro offset passed insides
        rw [isGroups_nil_iff, groupsFrom, if_pos rfl]
        constructor
        · intro h
          exact (Except.ok.inj h).symm
        · intro heq
          subst heq
          rfl
      · intro offset level passed insides
        rw [groupsFrom, if_neg (by omega)]
        simp [not_pends_nil]
  | cons c text ih =>
      obtain ⟨ihOutside, ihInside⟩ := ih
      refine ⟨?_, ?_⟩
      · intro offset passed insides
        rw [groupsFrom]
        by_cases hopen : c = '('
        · subst hopen
          rw [if_pos rfl, isGroups_open_iff]
          exact ihInside _ 0 [] insides
        by_cases hclose : c = ')'
        · subst hclose
          simp [not_isGroups_cons (c := ')') (by decide) (by decide)]
        rw [if_neg hopen, if_neg hclose]
        cases hsep : separates c with
        | true =>
            rw [if_pos rfl, isGroups_cons_of_separates hsep]
            exact ihOutside _ [] insides
        | false => simp [not_isGroups_cons hopen hsep]
      · intro offset level passed insides
        by_cases hopen : c = '('
        · subst hopen
          rw [groupsFrom_open, ihInside,
            pends_cons_iff (by omega) (by simp; omega), balance_open]
          push_cast
          rfl
        by_cases hclose : c = ')'
        · subst hclose
          cases level with
          | zero =>
              rw [groupsFrom_close_last, Outcome.map_eq_ok_iff]
              simp only [ihOutside, Nat.cast_zero, zero_add, pends_close_iff,
                eq_comm]
          | succ level =>
              rw [groupsFrom_close_deeper, ihInside,
                pends_cons_iff (by omega) (by simp), balance_close]
              push_cast
              rw [show (level : Int) + 1 + 1 + -1 = level + 1 by omega]
        · rw [groupsFrom_other hopen hclose, ihInside,
            pends_cons_iff (by omega)
              (by rw [balance_singleton_of_ne hopen hclose]; omega),
            balance_singleton_of_ne hopen hclose, add_zero]

/-- **The scan accepts exactly the texts of groups**, and returns the insides of
the groups. -/
theorem groups_eq_ok_iff {text : List Char} {insides : List (List Char)} :
    groups text = .ok insides ↔ IsGroups text insides :=
  (groupsFrom_eq_ok_iff text).1 0 [] insides

end ItemSearch.Wkt
