import Mathlib
import ItemSearch.Decimal.Layout
import ItemSearch.Decimal.Numeral
import ItemSearch.Proofs.Decimal.Shortest

/-!
# A written number reads back

The plain layout puts the digits of the shortest decimal around a point.  The
lenient reader takes that text apart into a numeral whose digits may have zeros
added on either side, so it is another decimal, but one of the same value.  With
`toBinary64_shortest` the number comes back, the sign of a zero included.

## Main results

* `ofChars?_positional`: how a positional text is taken apart.
* `value_positionalNumeral`: the parts have the value that was written.
* `mem_chars_plain`: the characters of a plain text.
* `ofChars?_chars_plain`: a finite number is read back from its plain text.
-/

namespace ItemSearch.Decimal

open Layout

/-! ## Taking a positional text apart -/

theorem takeWhile_digits {ds : List Char} {c : Char} (rest : List Char)
    (hds : ∀ d ∈ ds, d.isDigit = true) (hc : c.isDigit = false) :
    (ds ++ c :: rest).takeWhile Char.isDigit = ds ∧
      (ds ++ c :: rest).dropWhile Char.isDigit = c :: rest := by
  constructor
  · rw [List.takeWhile_append_of_pos hds,
      List.takeWhile_cons_of_neg (by simp [hc]), List.append_nil]
  · rw [List.dropWhile_append_of_pos hds,
      List.dropWhile_cons_of_neg (by simp [hc])]

/-- A run of digits is a whole number. -/
theorem ofChars?_digits {ds : List Char} (hds : ∀ d ∈ ds, d.isDigit = true) :
    Numeral.ofChars? ds = some ⟨ds, none, none⟩ := by
  have htake : ds.takeWhile Char.isDigit = ds :=
    List.takeWhile_eq_self_iff.2 hds
  have hdrop : ds.dropWhile Char.isDigit = [] := List.dropWhile_eq_nil_iff.2 hds
  simp [Numeral.ofChars?, htake, hdrop, Numeral.splitFraction]

/-- Two runs of digits around a point are a whole part and a fraction. -/
theorem ofChars?_point {ws fs : List Char} (hws : ∀ d ∈ ws, d.isDigit = true)
    (hfs : ∀ d ∈ fs, d.isDigit = true) :
    Numeral.ofChars? (ws ++ '.' :: fs) = some ⟨ws, some fs, none⟩ := by
  obtain ⟨htake, hdrop⟩ := takeWhile_digits (c := '.') fs hws (by decide)
  have htake' : fs.takeWhile Char.isDigit = fs :=
    List.takeWhile_eq_self_iff.2 hfs
  have hdrop' : fs.dropWhile Char.isDigit = [] :=
    List.dropWhile_eq_nil_iff.2 hfs
  simp [Numeral.ofChars?, htake, hdrop, Numeral.splitFraction, htake', hdrop']

/-- The parts of a positional text. -/
def positionalNumeral (pointZero : Bool) (digits : List Char) (exponent : Int) :
    Numeral :=
  let places := (-exponent).toNat
  if 0 ≤ exponent then
    ⟨digits ++ List.replicate exponent.toNat '0',
      if pointZero then some ['0'] else none, none⟩
  else if places < digits.length then
    ⟨digits.take (digits.length - places),
      some (digits.drop (digits.length - places)), none⟩
  else
    ⟨['0'], some (List.replicate (places - digits.length) '0' ++ digits), none⟩

theorem isDigit_of_mem_replicate {n : Nat} {d : Char}
    (hd : d ∈ List.replicate n '0') : d.isDigit = true := by
  rw [List.eq_of_mem_replicate hd]
  decide

theorem ofChars?_positional (pointZero : Bool) {digits : List Char}
    (hds : ∀ d ∈ digits, d.isDigit = true) (exponent : Int) :
    Numeral.ofChars? (positional pointZero digits exponent) =
      some (positionalNumeral pointZero digits exponent) := by
  have hzeros :
      ∀ n, ∀ d ∈ digits ++ List.replicate n '0', d.isDigit = true := by
    intro n d hd
    rcases List.mem_append.1 hd with hd | hd
    · exact hds d hd
    · exact isDigit_of_mem_replicate hd
  have hzero : ∀ d ∈ ['0'], d.isDigit = true := by simp
  unfold positional positionalNumeral
  dsimp only
  split
  · cases pointZero with
    | false =>
        rw [if_neg Bool.false_ne_true, List.append_nil]
        exact ofChars?_digits (hzeros _)
    | true => exact ofChars?_point (hzeros _) hzero
  · split
    · exact ofChars?_point (fun d hd => hds d (List.mem_of_mem_take hd))
        fun d hd => hds d (List.mem_of_mem_drop hd)
    · refine ofChars?_point hzero ?_
      intro d hd
      rcases List.mem_append.1 hd with hd | hd
      · exact isDigit_of_mem_replicate hd
      · exact hds d hd

/-! ## The value of the parts -/

theorem digits_positionalNumeral_ne_nil (pointZero : Bool) {digits : List Char}
    (hne : digits ≠ []) (exponent : Int) :
    (positionalNumeral pointZero digits exponent).digits ≠ [] := by
  unfold positionalNumeral Numeral.digits
  dsimp only
  split
  · simp [hne]
  · split
    · simpa using hne
    · simp

/-- Behind the point the parts hold the very digits and the very exponent. -/
theorem decimal_positionalNumeral_of_neg (pointZero : Bool) (digits : List Char)
    {exponent : Int} (hneg : exponent < 0) :
    (positionalNumeral pointZero digits exponent).decimal =
      ⟨Nat.ofDigitChars 10 digits 0, exponent⟩ := by
  unfold positionalNumeral Numeral.decimal Numeral.digits
  dsimp only
  rw [if_neg (by omega)]
  split
  · rename_i hplaces
    have hlen :
        (0 : Int) - (digits.drop (digits.length - (-exponent).toNat)).length =
        exponent := by
      rw [List.length_drop]
      omega
    simp only [Option.getD_some, Option.getD_none, List.take_append_drop, hlen]
  · rename_i hplaces
    have hlen :
        (0 : Int) - (List.replicate ((-exponent).toNat - digits.length) '0' ++
        digits).length = exponent := by
      rw [List.length_append, List.length_replicate]
      omega
    have hzero : Nat.ofDigitChars 10 ['0'] 0 = 0 := rfl
    simp only [Option.getD_some, Option.getD_none, hlen,
      Nat.ofDigitChars_append,
      hzero, Nat.ofDigitChars_replicate_zero, Nat.mul_zero]

theorem value_positionalNumeral (pointZero : Bool) (digits : List Char)
    (exponent : Int) :
    (positionalNumeral pointZero digits exponent).decimal.value =
      value ⟨Nat.ofDigitChars 10 digits 0, exponent⟩ := by
  by_cases hneg : exponent < 0
  · rw [decimal_positionalNumeral_of_neg pointZero digits hneg]
  · obtain ⟨k, rfl⟩ := Int.eq_ofNat_of_zero_le (not_lt.1 hneg)
    have hzeros : Nat.ofDigitChars 10 (digits ++ List.replicate k '0') 0 =
        Nat.ofDigitChars 10 digits 0 * 10 ^ k := by
      rw [Nat.ofDigitChars_append, Nat.ofDigitChars_replicate_zero,
        Nat.mul_comm]
    unfold positionalNumeral Numeral.decimal Numeral.digits value
    dsimp only
    rw [if_pos (by omega)]
    cases pointZero with
    | false => simp [hzeros]
    | true =>
        have hten : (10 : Rat) * 10⁻¹ = 1 := by norm_num
        rw [if_pos rfl, Option.getD_some, Option.getD_none, Int.toNat_natCast,
          Nat.ofDigitChars_append, hzeros]
        simp only [Nat.ofDigitChars_cons, Nat.ofDigitChars_nil,
          List.length_singleton]
        push_cast
        rw [zpow_natCast, zpow_neg, zpow_one]
        linear_combination (Nat.ofDigitChars 10 digits 0 : Rat) * 10 ^ k * hten

theorem inRange_positionalNumeral (pointZero : Bool) {digits : List Char}
    {exponent : Int}
    (hrange : InRange ⟨Nat.ofDigitChars 10 digits 0, exponent⟩) :
    (positionalNumeral pointZero digits exponent).decimal.InRange := by
  by_cases hneg : exponent < 0
  · rw [decimal_positionalNumeral_of_neg pointZero digits hneg]
    exact hrange
  · unfold positionalNumeral
    dsimp only
    rw [if_pos (by omega)]
    cases pointZero with
    | false => exact ⟨by simp [Numeral.decimal], by simp [Numeral.decimal]⟩
    | true => exact ⟨by simp [Numeral.decimal], by simp [Numeral.decimal]⟩

/-! ## The plain text of a number -/

/-- The digits of the shortest decimal of a number. -/
private def shortestDigits (v : Binary64) : List Char :=
  Nat.toDigits 10 (shortest .up v).digits

private theorem shortestDigits_ne_nil (v : Binary64) : shortestDigits v ≠ [] :=
  Nat.toDigits_ne_nil

private theorem isDigit_of_mem_shortestDigits (v : Binary64) :
    ∀ d ∈ shortestDigits v, d.isDigit = true := by
  intro d hd
  exact Nat.isDigit_of_mem_toDigits (by omega) (by omega) hd

/-- A finite number is written as its sign and its shortest decimal. -/
theorem Layout.chars_eq (layout : Layout) {v : Binary64}
    (hv : v.isFinite = true) :
    layout.chars v =
      sign v.isNegative ++ layout.decimalChars (shortest layout.tie v) := by
  cases v with
  | nan => simp at hv
  | infinite negative => simp at hv
  | finite negative significand exponent hcan => rfl

private theorem chars_plain {v : Binary64} (hv : v.isFinite = true) :
    plain.chars v = sign v.isNegative ++
      positional false (shortestDigits v) (shortest .up v).exponent :=
  chars_eq plain hv

theorem mem_positional {pointZero : Bool} {digits : List Char}
    {exponent : Int} {c : Char}
    (hc : c ∈ positional pointZero digits exponent) :
    c ∈ digits ∨ c = '0' ∨ c = '.' := by
  unfold positional at hc
  dsimp only at hc
  split at hc
  · rcases List.mem_append.1 hc with hc | hc
    · rcases List.mem_append.1 hc with hc | hc
      · exact .inl hc
      · exact .inr (.inl (List.eq_of_mem_replicate hc))
    · have hend : c = '.' ∨ c = '0' := by
        cases pointZero with
        | false => cases hc
        | true => simpa using hc
      exact .inr hend.symm
  · split at hc
    · rcases List.mem_append.1 hc with hc | hc
      · exact .inl (List.mem_of_mem_take hc)
      · rcases List.mem_cons.1 hc with hc | hc
        · exact .inr (.inr hc)
        · exact .inl (List.mem_of_mem_drop hc)
    · rcases List.mem_cons.1 hc with hc | hc
      · exact .inr (.inl hc)
      · rcases List.mem_cons.1 hc with hc | hc
        · exact .inr (.inr hc)
        · rcases List.mem_append.1 hc with hc | hc
          · exact .inr (.inl (List.eq_of_mem_replicate hc))
          · exact .inl hc

/-- A plain text of a finite number has digits, points and minus signs only. -/
theorem mem_chars_plain {v : Binary64} (hv : v.isFinite = true) {c : Char}
    (hc : c ∈ plain.chars v) : c.isDigit = true ∨ c = '.' ∨ c = '-' := by
  rw [chars_plain hv, List.mem_append] at hc
  rcases hc with hc | hc
  · simp only [sign, List.mem_ite_nil_right, List.mem_singleton] at hc
    exact .inr (.inr hc.2)
  · rcases mem_positional hc with hc | rfl | rfl
    · exact .inl (isDigit_of_mem_shortestDigits v c hc)
    · exact .inl (by decide)
    · exact .inr (.inl rfl)

/-- A positional text starts with a digit. -/
theorem exists_cons_positional (pointZero : Bool) {digits : List Char}
    (hne : digits ≠ []) (hds : ∀ d ∈ digits, d.isDigit = true)
    (exponent : Int) :
    ∃ d rest, positional pointZero digits exponent = d :: rest ∧
      d.isDigit = true := by
  obtain ⟨d, ds, rfl⟩ := List.exists_cons_of_ne_nil hne
  have hd : d.isDigit = true := hds d (by simp)
  unfold positional
  dsimp only
  split
  · exact ⟨d, _, rfl, hd⟩
  · split
    · rename_i hplaces
      obtain ⟨n, hn⟩ : ∃ n, (d :: ds).length - (-exponent).toNat = n + 1 :=
        ⟨(d :: ds).length - (-exponent).toNat - 1, by omega⟩
      exact ⟨d, _, by rw [hn, List.take_succ_cons, List.cons_append], hd⟩
    · exact ⟨'0', _, rfl, by decide⟩

/-- A text that starts with a digit is none of the words for numbers that are
not finite, and has no sign to take off. -/
private theorem ofChars?_sign {body rest : List Char} {d : Char} {n : Numeral}
    (hbody : body = d :: rest) (hd : d.isDigit = true)
    (hread : Numeral.ofChars? body = some n) (hne : n.digits ≠ [])
    (negative : Bool) :
    Binary64.ofChars? (sign negative ++ body) =
      some (n.decimal.toBinary64 negative) := by
  have hsplit :
      Numeral.splitSign (sign negative ++ body) = (negative, body) := by
    subst hbody
    cases negative with
    | true => rfl
    | false =>
        have hminus : d ≠ '-' := by rintro rfl; simp at hd
        have hplus : d ≠ '+' := by rintro rfl; simp at hd
        simp [sign, Numeral.splitSign, hminus, hplus]
  have hlower : d.toLower = d := by
    have hrange : 48 ≤ d.toNat ∧ d.toNat ≤ 57 := Char.isDigit_iff_toNat.1 hd
    have hnotUpper : ¬ d.isUpper = true := by
      simp only [Char.isUpper, decide_eq_true_eq, UInt32.le_iff_toNat_le,
        ge_iff_le]
      change ¬ (65 ≤ d.toNat ∧ d.toNat ≤ 90)
      omega
    exact Char.toLower_eq_of_not_isUpper hnotUpper
  have hword : ∀ c cs, c.isDigit = false → body.map Char.toLower ≠ c :: cs := by
    intro c cs hc heq
    rw [hbody, List.map_cons, hlower] at heq
    rw [(List.cons.inj heq).1, hc] at hd
    exact Bool.false_ne_true hd
  have hinf : ¬ (body.map Char.toLower = "inf".toList ∨
      body.map Char.toLower = "infinity".toList) := by
    intro h
    rcases h with heq | heq
    · exact hword 'i' ['n', 'f'] (by decide) heq
    · exact hword 'i' ['n', 'f', 'i', 'n', 'i', 't', 'y'] (by decide) heq
  have hnan : body.map Char.toLower ≠ "nan".toList :=
    hword 'n' ['a', 'n'] (by decide)
  unfold Binary64.ofChars?
  rw [hsplit]
  dsimp only
  rw [if_neg hinf, if_neg hnan, hread]
  simp [hne]

/-- **A finite number is read back from its plain text**, the sign of a zero
included. -/
theorem ofChars?_chars_plain {v : Binary64} (hv : v.isFinite = true) :
    Binary64.ofChars? (plain.chars v) = some v := by
  have hne := shortestDigits_ne_nil v
  have hds := isDigit_of_mem_shortestDigits v
  have hvalue : (⟨Nat.ofDigitChars 10 (shortestDigits v) 0,
      (shortest .up v).exponent⟩ : Decimal) = shortest .up v := by
    rw [shortestDigits, Nat.ofDigitChars_ten_toDigits]
  have hrange := inRange_shortest .up hv
  obtain ⟨d, rest, hbody, hd⟩ :=
    exists_cons_positional false hne hds (shortest .up v).exponent
  rw [chars_plain hv,
    ofChars?_sign hbody hd (ofChars?_positional false hds _)
      (digits_positionalNumeral_ne_nil false hne _),
    toBinary64_congr (inRange_positionalNumeral false (by rwa [hvalue])) hrange
      (by rw [value_positionalNumeral, hvalue]),
    toBinary64_shortest .up hv]

theorem chars_plain_ne_nil {v : Binary64} (hv : v.isFinite = true) :
    plain.chars v ≠ [] := by
  obtain ⟨d, rest, hbody, -⟩ :=
    exists_cons_positional false (shortestDigits_ne_nil v)
      (isDigit_of_mem_shortestDigits v) (shortest .up v).exponent
  rw [chars_plain hv, hbody]
  simp

end ItemSearch.Decimal
