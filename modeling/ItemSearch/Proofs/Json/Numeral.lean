import Mathlib
import ItemSearch.Json.Token
import ItemSearch.Proofs.Decimal.ReadBack

/-!
# A number reads back from JSON text

JSON text writes an integer with its digits alone, and a binary64 number with a
fraction or a power of ten.  The strict reader asks for digits wherever a part
is begun and for no zero in front of other digits, and it takes a numeral with
neither a fraction nor a power for an integer.  So a number of either sort comes
back as what it was, the sign of a zero included.

## Main results

* `ofChars?_decimalChars`: how the text of a decimal is taken apart, in any
  layout.
* `toBinary64_numeral`: the parts stand for the number that the decimal stands
  for.
* `Layout.isStrict_shortest`: a strict reader accepts the digits of a binary64
  number.
* `Number.ofChars?_chars`: a number reads back from its text.
* `isFinite_of_binary64?`: what is read as a binary64 number is finite.
-/

namespace ItemSearch.Decimal

open Layout

/-! ## Digits of a count -/

theorem isDigit_of_mem_toDigits {n : Nat} :
    ∀ d ∈ Nat.toDigits 10 n, d.isDigit = true :=
  fun _ hd => Nat.isDigit_of_mem_toDigits (by omega) (by omega) hd

theorem exists_cons_toDigits (n : Nat) :
    ∃ c rest, Nat.toDigits 10 n = c :: rest ∧
      ∀ d ∈ c :: rest, d.isDigit = true := by
  obtain ⟨c, rest, hdigits⟩ :=
    List.exists_cons_of_ne_nil (Nat.toDigits_ne_nil (n := n) (b := 10))
  exact ⟨c, rest, hdigits,
    fun d hd => isDigit_of_mem_toDigits d (by rwa [hdigits])⟩

theorem natOfChars?_toDigits (n : Nat) :
    Numeral.natOfChars? (Nat.toDigits 10 n) = some n := by
  have hdigits : (Nat.toDigits 10 n).all Char.isDigit = true :=
    List.all_eq_true.2 isDigit_of_mem_toDigits
  rw [Numeral.natOfChars?, if_pos ⟨Nat.toDigits_ne_nil, hdigits⟩,
    Nat.ofDigitChars_ten_toDigits]

/-- Only the digits of zero start with a zero. -/
theorem eq_zero_of_head?_toDigits {n : Nat}
    (h : (Nat.toDigits 10 n).head? = some '0') : n = 0 := by
  induction n using Nat.strongRecOn with
  | ind n ih =>
      by_cases hsmall : n < 10
      · rw [Nat.toDigits_of_lt_base hsmall, List.head?_cons,
          Option.some.injEq] at h
        exact Nat.digitChar_eq_zero.1 h
      · rw [Nat.toDigits_of_base_le (by omega) (by omega),
          List.head?_append_of_ne_nil _ Nat.toDigits_ne_nil] at h
        have hzero := ih (n / 10) (by omega) h
        omega

/-- An integer is its size under its sign. -/
theorem ite_neg_natAbs (n : Int) :
    (if decide (n < 0) = true then -(n.natAbs : Int) else n.natAbs) = n := by
  by_cases hneg : n < 0
  · rw [if_pos (decide_eq_true hneg)]
    omega
  · rw [if_neg (by simpa using hneg)]
    omega

/-! ## Taking a text with a power of ten apart -/

/-- The sign that is written before a power of ten. -/
def powerSign (plusSign : Bool) (order : Int) : List Char :=
  if order < 0 then ['-'] else if plusSign then ['+'] else []

theorem intOfChars?_power (plusSign : Bool) (order : Int) :
    Numeral.intOfChars? (powerSign plusSign order ++
      Nat.toDigits 10 order.natAbs) =
      some order := by
  obtain ⟨d, rest, hdigits, hds⟩ := exists_cons_toDigits order.natAbs
  have hd : d.isDigit = true := hds d List.mem_cons_self
  have hminus : d ≠ '-' := by rintro rfl; simp at hd
  have hplus : d ≠ '+' := by rintro rfl; simp at hd
  have hsplit :
      Numeral.splitSign (powerSign plusSign order ++
        Nat.toDigits 10 order.natAbs) =
      (decide (order < 0), Nat.toDigits 10 order.natAbs) := by
    rw [hdigits, powerSign]
    by_cases hneg : order < 0
    · simp [hneg, Numeral.splitSign]
    · cases plusSign <;> simp [hneg, Numeral.splitSign, hminus, hplus]
  rw [Numeral.intOfChars?, hsplit]
  dsimp only
  rw [natOfChars?_toDigits]
  exact congrArg some (ite_neg_natAbs order)

/-- The parts of a text with a power of ten. -/
def exponentNumeral (digits : List Char) (order : Int) : Numeral :=
  ⟨digits.take 1,
    if (digits.drop 1).isEmpty then none else some (digits.drop 1),
    some order⟩

theorem ofChars?_withExponent (plusSign : Bool) {digits : List Char}
    (hds : ∀ d ∈ digits, d.isDigit = true) (order : Int) :
    Numeral.ofChars? (withExponent plusSign digits order) =
      some (exponentNumeral digits order) := by
  have hfirst : ∀ d ∈ digits.take 1, d.isDigit = true :=
    fun d hd => hds d (List.mem_of_mem_take hd)
  have hrest : ∀ d ∈ digits.drop 1, d.isDigit = true :=
    fun d hd => hds d (List.mem_of_mem_drop hd)
  have hpower := intOfChars?_power plusSign order
  show Numeral.ofChars? (digits.take 1 ++
    (if (digits.drop 1).isEmpty then [] else '.' :: digits.drop 1) ++
    'e' :: (powerSign plusSign order ++ Nat.toDigits 10 order.natAbs)) = _
  generalize powerSign plusSign order ++ Nat.toDigits 10 order.natAbs =
    power at hpower ⊢
  unfold exponentNumeral
  split
  · obtain ⟨htake, hdrop⟩ :=
      takeWhile_digits (c := 'e') power hfirst (by decide)
    rw [List.append_nil]
    simp [Numeral.ofChars?, htake, hdrop, Numeral.splitFraction, hpower]
  · obtain ⟨htake, hdrop⟩ :=
      takeWhile_digits (c := '.') (digits.drop 1 ++ 'e' :: power) hfirst
        (by decide)
    obtain ⟨htake', hdrop'⟩ :=
      takeWhile_digits (c := 'e') power hrest (by decide)
    rw [List.append_assoc, List.cons_append]
    simp only [Numeral.ofChars?, htake, hdrop, Numeral.splitFraction, htake',
      hdrop', hpower]
    rfl

/-- Behind the first digit the parts hold the very digits and the very
exponent. -/
theorem decimal_exponentNumeral {digits : List Char} (hne : digits ≠ [])
    (exponent : Int) :
    (exponentNumeral digits (digits.length + exponent - 1)).decimal =
      ⟨Nat.ofDigitChars 10 digits 0, exponent⟩ := by
  obtain ⟨d, ds, rfl⟩ := List.exists_cons_of_ne_nil hne
  cases ds with
  | nil => simp [exponentNumeral, Numeral.decimal, Numeral.digits]
  | cons d' ds =>
      have hplaces :
          ((d :: d' :: ds).length : Int) + exponent - 1 - (d' :: ds).length =
            exponent := by
        simp only [List.length_cons]
        omega
      simpa [exponentNumeral, Numeral.decimal, Numeral.digits] using hplaces

/-! ## The parts of the text of a decimal -/

namespace Layout

/-- The parts of the text of a decimal. -/
def numeral (layout : Layout) (d : Decimal) : Numeral :=
  let digits := Nat.toDigits 10 d.digits
  let order := digits.length + d.exponent - 1
  if layout.isPositional order then
    positionalNumeral layout.pointZero digits d.exponent
  else
    exponentNumeral digits order

theorem ofChars?_decimalChars (layout : Layout) (d : Decimal) :
    Numeral.ofChars? (layout.decimalChars d) = some (layout.numeral d) := by
  unfold decimalChars numeral
  dsimp only
  split
  · exact ofChars?_positional _ isDigit_of_mem_toDigits _
  · exact ofChars?_withExponent _ isDigit_of_mem_toDigits _

theorem decimal_numeral_of_not_positional {layout : Layout} {d : Decimal}
    (h : ¬ layout.isPositional
      ((Nat.toDigits 10 d.digits).length + d.exponent - 1) = true) :
    (layout.numeral d).decimal = d := by
  unfold numeral
  dsimp only
  rw [if_neg h, decimal_exponentNumeral Nat.toDigits_ne_nil,
    Nat.ofDigitChars_ten_toDigits]

/-- The parts of the text of a decimal stand for the number that the decimal
stands for. -/
theorem toBinary64_numeral (layout : Layout) {d : Decimal} (hd : d.InRange)
    (negative : Bool) :
    (layout.numeral d).decimal.toBinary64 negative = d.toBinary64 negative := by
  have hself :
      (⟨Nat.ofDigitChars 10 (Nat.toDigits 10 d.digits) 0, d.exponent⟩ :
        Decimal) = d := by
    rw [Nat.ofDigitChars_ten_toDigits]
  by_cases hpos :
      layout.isPositional ((Nat.toDigits 10 d.digits).length + d.exponent - 1) =
        true
  · unfold numeral
    dsimp only
    rw [if_pos hpos]
    exact toBinary64_congr (inRange_positionalNumeral _ (by rwa [hself])) hd
      (by rw [value_positionalNumeral, hself]) negative
  · rw [decimal_numeral_of_not_positional hpos]

end Layout

/-! ## Strict numerals -/

/-- What a strict reader asks of the digits of a numeral. -/
structure Numeral.IsStrict (n : Numeral) : Prop where
  whole : n.whole ≠ []
  fraction : n.fraction ≠ some []
  leading : n.whole.head? = some '0' → n.whole.length ≤ 1

theorem isStrict_exponentNumeral {digits : List Char} (hne : digits ≠ [])
    (order : Int) :
    (exponentNumeral digits order).IsStrict where
  whole := by simpa [exponentNumeral] using hne
  fraction := by
    unfold exponentNumeral
    dsimp only
    split
    · simp
    · rename_i hrest
      simpa using hrest
  leading := fun _ => by simp [exponentNumeral]

/-- A zero without a power of ten gets no further zeros in front of the
point. -/
theorem isStrict_positionalNumeral (pointZero : Bool) {n : Nat} {exponent : Int}
    (hzero : n = 0 → exponent = 0) :
    (positionalNumeral pointZero (Nat.toDigits 10 n) exponent).IsStrict := by
  have hne : Nat.toDigits 10 n ≠ [] := Nat.toDigits_ne_nil
  have hlen : 0 < (Nat.toDigits 10 n).length := List.length_pos_iff.2 hne
  unfold positionalNumeral
  dsimp only
  split
  · refine ⟨by simp [hne], by cases pointZero <;> simp, fun hhead => ?_⟩
    rw [List.head?_append_of_ne_nil _ hne] at hhead
    obtain rfl := eq_zero_of_head?_toDigits hhead
    simp [hzero rfl]
  · rename_i hexp
    split
    · rename_i hplaces
      refine ⟨?_, ?_, fun hhead => ?_⟩
      · rw [Ne, List.take_eq_nil_iff, not_or]
        exact ⟨by omega, hne⟩
      · rw [Ne, Option.some.injEq, List.drop_eq_nil_iff]
        omega
      · rw [List.head?_take, if_neg (by omega)] at hhead
        obtain rfl := eq_zero_of_head?_toDigits hhead
        simp
    · exact ⟨by simp, by simp [hne], fun _ => by simp⟩

/-- A shortest decimal without digits other than zero has no power of ten. -/
theorem exponent_shortest_of_digits_eq_zero {tie : Tie} {v : Binary64}
    (hv : v.isFinite = true)
    (hdigits : (shortest tie v).digits = 0) :
    (shortest tie v).exponent = 0 := by
  have hvalue :
      (shortest tie v).value = (Binary64.zero v.isNegative).magnitude := by
    simp [value, hdigits, Binary64.zero, Binary64.magnitude]
  have hround : v = Binary64.zero v.isNegative := by
    calc v = (shortest tie v).toBinary64 v.isNegative :=
        (toBinary64_shortest tie hv).symm
      _ = Binary64.round v.isNegative
          (Binary64.zero v.isNegative).magnitude := by
        rw [toBinary64_of_inRange (inRange_shortest tie hv), hvalue]
      _ = Binary64.zero v.isNegative :=
        Binary64.round_magnitude (Binary64.isFinite_zero v.isNegative)
  have hmagnitude : v.magnitude = 0 := by
    rw [hround]
    simp [Binary64.zero, Binary64.magnitude]
  rw [shortest, if_pos hmagnitude]

theorem Layout.isStrict_shortest (layout : Layout) (tie : Tie) {v : Binary64}
    (hv : v.isFinite = true) : (layout.numeral (shortest tie v)).IsStrict := by
  unfold Layout.numeral
  dsimp only
  split
  · exact isStrict_positionalNumeral _ (exponent_shortest_of_digits_eq_zero hv)
  · exact isStrict_exponentNumeral Nat.toDigits_ne_nil _

/-- With a point in every whole number, no text of a decimal is digits alone. -/
theorem Layout.not_whole_numeral {layout : Layout}
    (hpoint : layout.pointZero = true)
    (d : Decimal) :
    ¬ ((layout.numeral d).fraction = none ∧
      (layout.numeral d).exponent = none) := by
  unfold Layout.numeral positionalNumeral exponentNumeral
  dsimp only
  rw [hpoint]
  split
  · split
    · simp
    · split <;> simp
  · simp

/-! ## The characters of a decimal -/

/-- The text of a decimal starts with a digit. -/
theorem exists_cons_decimalChars (layout : Layout) (d : Decimal) :
    ∃ c rest, layout.decimalChars d = c :: rest ∧ c.isDigit = true := by
  unfold decimalChars
  dsimp only
  split
  · exact exists_cons_positional _ Nat.toDigits_ne_nil isDigit_of_mem_toDigits _
  · obtain ⟨c, rest, hdigits, hds⟩ := exists_cons_toDigits d.digits
    exact ⟨c, _, by rw [withExponent, hdigits]; rfl, hds c List.mem_cons_self⟩

theorem mem_withExponent {plusSign : Bool} {digits : List Char} {order : Int}
    {c : Char}
    (hc : c ∈ withExponent plusSign digits order) :
    c ∈ digits ∨ c.isDigit = true ∨ c = '.' ∨ c = 'e' ∨ c = '-' ∨ c = '+' := by
  unfold withExponent at hc
  dsimp only at hc
  rcases List.mem_append.1 hc with hc | hc
  · rcases List.mem_append.1 hc with hc | hc
    · exact .inl (List.mem_of_mem_take hc)
    · split at hc
      · cases hc
      · rcases List.mem_cons.1 hc with rfl | hc
        · simp
        · exact .inl (List.mem_of_mem_drop hc)
  · rcases List.mem_cons.1 hc with rfl | hc
    · simp
    · rcases List.mem_append.1 hc with hc | hc
      · split at hc
        · simp_all
        · split at hc <;> simp_all
      · exact .inr (.inl (isDigit_of_mem_toDigits c hc))

end ItemSearch.Decimal

namespace ItemSearch.Json

open Decimal Decimal.Layout

/-! ## The characters of a number -/

theorem isNumeric_of_isDigit {c : Char} (hc : c.isDigit = true) :
    isNumeric c = true := by
  simp [isNumeric, hc]

theorem isNumeric_of_mem_decimalChars {layout : Layout} {d : Decimal} {c : Char}
    (hc : c ∈ layout.decimalChars d) : isNumeric c = true := by
  have hds : ∀ c ∈ Nat.toDigits 10 d.digits, isNumeric c = true := fun c hc =>
    isNumeric_of_isDigit (isDigit_of_mem_toDigits c hc)
  unfold decimalChars at hc
  dsimp only at hc
  split at hc
  · rcases mem_positional hc with hc | rfl | rfl
    · exact hds c hc
    · decide
    · decide
  · rcases mem_withExponent hc with hc | hc | rfl | rfl | rfl | rfl
    · exact hds c hc
    · exact isNumeric_of_isDigit hc
    all_goals decide

/-- A number is written as a sign, if there is one, and a body that starts with
a digit. -/
theorem Number.exists_chars_eq (n : Number) :
    ∃ negative c rest, n.chars = sign negative ++ c :: rest ∧ c.isDigit = true ∧
      ∀ d ∈ c :: rest, isNumeric d = true := by
  cases n with
  | integer value lower upper =>
      obtain ⟨c, rest, hdigits, hds⟩ := exists_cons_toDigits value.natAbs
      refine ⟨value < 0, c, rest, ?_, hds c List.mem_cons_self,
        fun d hd => isNumeric_of_isDigit (hds d hd)⟩
      rw [Number.chars, intChars, hdigits]
  | float value finite =>
      obtain ⟨c, rest, hchars, hc⟩ :=
        exists_cons_decimalChars json (shortest .toEven value)
      refine ⟨value.isNegative, c, rest, ?_, hc, fun d hd => ?_⟩
      · rw [← hchars]
        exact chars_eq json finite
      · rw [← hchars] at hd
        exact isNumeric_of_mem_decimalChars hd

/-! ## Reading a number -/

/-- What the strict reader makes of a numeral under a sign: an integer of digits
alone, as far as there is one, and the nearest binary64 number otherwise. -/
theorem Number.ofChars?_sign {negative : Bool} {c : Char} {rest : List Char}
    {numeral : Numeral}
    (hc : c.isDigit = true)
    (hread : Numeral.ofChars? (c :: rest) = some numeral)
    (hstrict : numeral.IsStrict) :
    Number.ofChars? (sign negative ++ c :: rest) =
      let size := numeral.decimal.digits
      let value : Int := if negative then -(size : Int) else size
      if fits : (numeral.fraction = none ∧ numeral.exponent = none) ∧
          (negative = true → size ≠ 0) ∧ -2 ^ 63 ≤ value ∧ value < 2 ^ 64 then
        some (.integer value fits.2.2.1 fits.2.2.2)
      else if finite :
          (numeral.decimal.toBinary64 negative).isFinite = true then
        some (.float (numeral.decimal.toBinary64 negative) finite)
      else none := by
  have hminus : c ≠ '-' := by rintro rfl; simp at hc
  have hadmitted : ¬ (numeral.whole = [] ∨ numeral.fraction = some [] ∨
      (numeral.whole.head? = some '0' ∧ 1 < numeral.whole.length)) := by
    rintro (h | h | ⟨hhead, hlong⟩)
    · exact hstrict.whole h
    · exact hstrict.fraction h
    · exact absurd (hstrict.leading hhead) (by omega)
  unfold Number.ofChars?
  split
  rename_i negative' body hsplit
  obtain ⟨rfl, rfl⟩ : negative' = negative ∧ body = c :: rest := by
    cases negative with
    | true =>
        cases hsplit
        exact ⟨rfl, rfl⟩
    | false => simpa [sign, hminus, eq_comm] using hsplit
  rw [hread]
  show (if _ then _ else _) = _
  rw [if_neg hadmitted]

/-- An integer reads back from its digits. -/
theorem Number.ofChars?_intChars (value : Int) (lower : -2 ^ 63 ≤ value)
    (upper : value < 2 ^ 64) :
    Number.ofChars? (intChars value) = some (.integer value lower upper) := by
  obtain ⟨c, rest, hdigits, hds⟩ := exists_cons_toDigits value.natAbs
  have hread := ofChars?_digits hds
  have hstrict : (⟨c :: rest, none, none⟩ : Numeral).IsStrict := by
    refine ⟨by simp, by simp, fun hhead => ?_⟩
    dsimp only at hhead ⊢
    rw [← hdigits] at hhead ⊢
    rw [eq_zero_of_head?_toDigits hhead]
    rfl
  have hsize :
      (⟨c :: rest, none, none⟩ : Numeral).decimal.digits = value.natAbs := by
    rw [← hdigits]
    simp [Numeral.decimal, Numeral.digits]
  rw [intChars, hdigits,
    Number.ofChars?_sign (hds c List.mem_cons_self) hread hstrict]
  dsimp only
  simp only [hsize, ite_neg_natAbs]
  rw [dif_pos]
  refine ⟨⟨trivial, trivial⟩, fun hneg => ?_, lower, upper⟩
  simp only [decide_eq_true_eq] at hneg
  omega

/-- A binary64 number reads back from its shortest decimal. -/
theorem Number.ofChars?_json (v : Binary64) (finite : v.isFinite = true) :
    Number.ofChars? (json.chars v) = some (.float v finite) := by
  have hchars :
      json.chars v =
        sign v.isNegative ++ json.decimalChars (shortest .toEven v) :=
    chars_eq json finite
  obtain ⟨c, rest, hbody, hc⟩ :=
    exists_cons_decimalChars json (shortest .toEven v)
  have hread := ofChars?_decimalChars json (shortest .toEven v)
  have hvalue :
      (json.numeral (shortest .toEven v)).decimal.toBinary64 v.isNegative =
        v := by
    rw [toBinary64_numeral json (inRange_shortest .toEven finite),
      toBinary64_shortest .toEven finite]
  rw [hbody] at hread
  rw [hchars, hbody,
    Number.ofChars?_sign hc hread (json.isStrict_shortest .toEven finite)]
  dsimp only
  rw [dif_neg fun h => not_whole_numeral rfl _ h.1]
  simp only [hvalue, finite, dif_pos]

/-- **A number reads back from its text**, an integer as an integer and a
binary64 number as the same binary64 number. -/
theorem Number.ofChars?_chars (n : Number) :
    Number.ofChars? n.chars = some n := by
  cases n with
  | integer value lower upper =>
      exact Number.ofChars?_intChars value lower upper
  | float value finite => exact Number.ofChars?_json value finite

/-! ## What is read as a number -/

/-- An integer of JSON is far too small to be rounded to an infinity. -/
theorem Number.isFinite_toBinary64 (number : Json.Number) :
    number.toBinary64.isFinite = true := by
  cases number with
  | integer n hlower hupper => exact Binary64.isFinite_ofInt hlower hupper
  | float v hfinite => exact hfinite

theorem isFinite_of_binary64? {value : Json} {v : Binary64}
    (h : value.binary64? = some v) :
    v.isFinite = true := by
  cases value with
  | number number =>
      rw [← Option.some.inj h]
      exact number.isFinite_toBinary64
  | _ => cases h

end ItemSearch.Json
