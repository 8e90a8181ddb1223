import Mathlib
import ItemSearch.Proofs.Filter.Grammar
import ItemSearch.Proofs.Json.Numeral
import ItemSearch.Proofs.Query.Defect

/-!
# Integers in filters

A field of integers takes a number if it is exactly an integer of 64 bits, and
then it gets that integer.  On the way from JSON a number may be rounded, but
only an integer past the signed range is: it becomes a binary64 number, and
rounding does not go below the power of two that bounds the range, so the number
is still out of it.  Hence what a number is exactly decides, at whichever stage
it is looked at.

An equality is a list of one value for the compiler, so both conditions are one
run over a list.  What the values are read from, and what they are exactly, are
parameters of it: they are scalars as they are, or numbers of JSON that scalars
stand for.

## Main results

* `two_pow_le_toRat_ofInt`: an integer past the range is rounded to one past the
  range.
* `Scalar.coerces_integerSet_iff`: the integers among the scalars.
* `toRat?_eq_some_iff_of_standsFor`: a number of JSON and the scalar it stands
  for.
* `pushAll_eq_ok_iff_of_reads`, `pushAll_eq_error_iff_of_reads`: the run over a
  list.
* `takesIntegers`: filters that are built and filters that are read.
-/

namespace ItemSearch

open Outcome

/-! ## Exact values -/

/-- The value is an integer of 64 bits. -/
def IsInt64 (value? : Option Rat) : Prop :=
  ∃ m : Int, value? = some (m : Rat) ∧ -2 ^ 63 ≤ m ∧ m ≤ 2 ^ 63 - 1

theorem isInt64_iff {value? : Option Rat} :
    IsInt64 value? ↔ ∃ n : Int64, value? = some (n.toInt : Rat) := by
  constructor
  · rintro ⟨m, hm, hlower, hupper⟩
    have hn : (Int64.ofInt m).toInt = m :=
      Int64.toInt_ofInt_of_le (by exact_mod_cast hlower) (by omega)
    exact ⟨Int64.ofInt m, by rw [hm, hn]⟩
  · rintro ⟨n, hn⟩
    have hlower := n.le_toInt
    have hupper := n.toInt_lt
    exact ⟨n.toInt, hn, by omega, by omega⟩

/-- What a scalar is exactly, if it is a finite number. -/
def Scalar.toRat? : Scalar → Option Rat
  | .integer n => some n.toInt
  | .float v => if v.isFinite then some v.toRat else none
  | .string _ | .bool _ => none

/-- What a number of JSON is exactly, before it is rounded. -/
def Json.Number.toRat : Json.Number → Rat
  | .integer m _ _ => m
  | .float v _ => v.toRat

theorem Scalar.coerces_integerSet_iff {s : Scalar} {value : FieldValue} :
    FieldKind.integerSet.Coerces s value ↔
      ∃ n : Int64, s.toRat? = some (n.toInt : Rat) ∧ value = .integer n := by
  constructor
  · intro h
    cases h with
    | integer n => exact ⟨n, rfl, rfl⟩
    | float hfinite hvalue =>
        exact ⟨_, by rw [toRat?, if_pos hfinite, hvalue], rfl⟩
  · rintro ⟨n, hexact, rfl⟩
    cases s with
    | integer m =>
        have hm : (m.toInt : Rat) = n.toInt := Option.some.inj hexact
        obtain rfl : m = n := Int64.toInt_inj.1 (by exact_mod_cast hm)
        exact .integer m
    | float v =>
        rw [toRat?] at hexact
        split_ifs at hexact with hfinite
        exact .float hfinite (Option.some.inj hexact)
    | string _ => cases hexact
    | bool _ => cases hexact

/-- An integer past the signed range is rounded to a number past the range. -/
theorem Binary64.two_pow_le_toRat_ofInt {m : Int} (hlower : 2 ^ 63 ≤ m)
    (hupper : m < 2 ^ 64) :
    (2 : Rat) ^ 63 ≤ (ofInt m).toRat := by
  have hsize : (2 : Rat) ^ (63 : Int) ≤ (m.natAbs : Rat) := by
    have : 2 ^ 63 ≤ m.natAbs := by omega
    exact_mod_cast this
  have hlt : (m.natAbs : Rat) < (2 : Rat) ^ (1023 : Int) := by
    have : m.natAbs < 2 ^ 64 := by omega
    calc (m.natAbs : Rat) < (2 : Rat) ^ (64 : Int) := by exact_mod_cast this
      _ ≤ (2 : Rat) ^ (1023 : Int) :=
        zpow_le_zpow_right₀ (by norm_num) (by norm_num)
  have hround := two_zpow_le_magnitude_round false (by norm_num) hsize hlt
  obtain ⟨significand, exponent, hcan, heq, -⟩ :=
    exists_round_eq_finite false (Nat.cast_nonneg m.natAbs) hlt
  have hpositive : ¬ m < 0 := by omega
  have hofInt : ofInt m = round false m.natAbs := by
    rw [ofInt, decide_eq_false hpositive]
  have hsign : (ofInt m).isNegative = false := by rw [hofInt, heq, isNegative]
  rw [toRat, hsign, hofInt]
  exact_mod_cast hround

/-- **A number of JSON is the same integer as the scalar that it stands for**,
even where the scalar is rounded. -/
theorem Scalar.toRat?_eq_some_iff_of_standsFor {number : Json.Number}
    {s : Scalar}
    (h : Scalar.StandsFor (.number number) s) (n : Int64) :
    s.toRat? = some (n.toInt : Rat) ↔
      some number.toRat = some (n.toInt : Rat) := by
  cases h with
  | integer m hlower hupper => rfl
  | float hother =>
      cases number with
      | float v hfinite =>
          show (if v.isFinite = true then some v.toRat else none) = _ ↔ _
          rw [if_pos hfinite]
          rfl
      | integer m hlower hupper =>
          have hpast : ∀ k : Int64, k.toInt ≠ m := by
            rintro k rfl
            exact hother k hlower hupper rfl
          have hlarge : 2 ^ 63 ≤ m := by
            by_contra hsmall
            exact hpast (Int64.ofInt m) (Int64.toInt_ofInt_of_le
              (by exact_mod_cast hlower) (by omega))
          have hround : (2 : Rat) ^ 63 ≤ (Binary64.ofInt m).toRat :=
            Binary64.two_pow_le_toRat_ofInt hlarge hupper
          have hn : (n.toInt : Rat) < (2 : Rat) ^ 63 := by
            exact_mod_cast n.toInt_lt
          constructor
          · intro hexact
            change (if (Binary64.ofInt m).isFinite then
              some (Binary64.ofInt m).toRat
              else none) = some (n.toInt : Rat) at hexact
            split_ifs at hexact
            have heq : (Binary64.ofInt m).toRat = n.toInt :=
              Option.some.inj hexact
            exact absurd (heq ▸ hround) (not_le.2 hn)
          · intro hexact
            have heq : (m : Rat) = n.toInt := Option.some.inj hexact
            exact absurd (by exact_mod_cast heq.symm) (hpast n)

/-! ## The run over a list -/

section Run

variable {α : Type} {rat? : α → Option Rat} {Reads : α → Scalar → Prop}
  {p : Property}
  {limits : Limits} {q : Query} {xs : List α} {scalars : List Scalar}

/-- The query with these integers added to the values of a field, one after the
other. -/
def Query.pushIntegers (q : Query) (field : String) (integers : List Int64) :
    Query :=
  integers.foldl (fun q n => q.push field (.integer n)) q

/-- A value is read as one scalar, and it is exactly the integer that its scalar
is. -/
structure KeepsIntegers (rat? : α → Option Rat) (Reads : α → Scalar → Prop) :
    Prop where
  unique : ∀ {x s s'}, Reads x s → Reads x s' → s = s'
  same : ∀ {x s}, Reads x s → ∀ n : Int64,
    s.toRat? = some (n.toInt : Rat) ↔ rat? x = some (n.toInt : Rat)

/-- **One value**: it is taken for the integer that it is. -/
theorem Property.coerce_eq_ok_iff_of_reads (hkeeps : KeepsIntegers rat? Reads)
    (hkind : p.kind = .integerSet) {x : α} {s : Scalar} (hs : Reads x s)
    {value : FieldValue} :
    p.coerce s = .ok value ↔
      ∃ n : Int64, rat? x = some (n.toInt : Rat) ∧ value = .integer n := by
  rw [Property.coerce_eq_ok_iff, hkind, FieldKind.coerce?_eq_some_iff,
    Scalar.coerces_integerSet_iff]
  simp only [hkeeps.same hs]

theorem Property.coerce_eq_error_iff_of_reads
    (hkeeps : KeepsIntegers rat? Reads)
    (hkind : p.kind = .integerSet) {x : α} {s : Scalar} (hs : Reads x s)
    {e : FilterError} :
    p.coerce s = .error e ↔ ¬ IsInt64 (rat? x) ∧ e = .wrongType s p := by
  have htakes : (∃ value, p.coerce s = .ok value) ↔ IsInt64 (rat? x) := by
    simp only [Property.coerce_eq_ok_iff_of_reads hkeeps hkind hs, isInt64_iff]
    exact ⟨fun ⟨_, n, hn, _⟩ => ⟨n, hn⟩, fun ⟨n, hn⟩ => ⟨_, n, hn, rfl⟩⟩
  rw [← htakes]
  unfold Property.coerce
  cases p.kind.coerce? s <;> simp [eq_comm]

/-- **The run succeeds** if all values are integers, and adds these integers. -/
theorem pushAll_eq_ok_iff_of_reads (hkeeps : KeepsIntegers rat? Reads)
    (hkind : p.kind = .integerSet) (h : List.Forall₂ Reads xs scalars)
    {r : Query} :
    Condition.pushAll p q scalars = .ok r ↔
      ∃ integers : List Int64,
        List.Forall₂ (fun x (n : Int64) => rat? x = some (n.toInt : Rat)) xs
          integers ∧ q.pushIntegers p.field integers = r := by
  rw [Condition.pushAll_eq_foldlM]
  induction h generalizing q with
  | nil => simp [Query.pushIntegers]
  | @cons x s xs scalars hs _ ih =>
      rw [List.foldlM_cons, bind_eq_ok_iff]
      simp only [map_eq_ok_iff,
        Property.coerce_eq_ok_iff_of_reads hkeeps hkind hs, ih]
      constructor
      · rintro ⟨_, ⟨_, ⟨n, hn, rfl⟩, rfl⟩, integers, hrest, rfl⟩
        exact ⟨n :: integers, .cons hn hrest, rfl⟩
      · rintro ⟨_, hall, rfl⟩
        obtain ⟨n, integers, hn, hrest, rfl⟩ :=
          List.forall₂_cons_left_iff.1 hall
        exact ⟨_, ⟨_, ⟨n, hn, rfl⟩, rfl⟩, integers, hrest, rfl⟩

/-- **The run fails** at the first value that is no integer. -/
theorem pushAll_eq_error_iff_of_reads (hkeeps : KeepsIntegers rat? Reads)
    (hkind : p.kind = .integerSet) (h : List.Forall₂ Reads xs scalars)
    {e : FilterError} :
    Condition.pushAll p q scalars = .error e ↔
      ∃ before x after s, xs = before ++ x :: after ∧
        (∀ y ∈ before, IsInt64 (rat? y)) ∧
        ¬ IsInt64 (rat? x) ∧ Reads x s ∧ e = .wrongType s p := by
  rw [Condition.pushAll_eq_foldlM]
  induction h generalizing q with
  | nil => simp [pure, Except.pure]
  | @cons x s xs scalars hs _ ih =>
      rw [List.foldlM_cons, bind_eq_error_iff]
      simp only [map_eq_ok_iff, map_eq_error_iff, ih,
        Property.coerce_eq_ok_iff_of_reads hkeeps hkind hs,
        Property.coerce_eq_error_iff_of_reads hkeeps hkind hs]
      constructor
      · rintro (⟨hmisfit, rfl⟩ | ⟨_, ⟨_, ⟨n, hn, rfl⟩, rfl⟩, before, y, after,
          t, rfl, hbefore, hmisfit, ht, rfl⟩)
        · exact ⟨[], x, xs, s, rfl, by simp, hmisfit, hs, rfl⟩
        · exact ⟨x :: before, y, after, t, rfl,
            List.forall_mem_cons.2 ⟨isInt64_iff.2 ⟨n, hn⟩, hbefore⟩, hmisfit,
            ht, rfl⟩
      · rintro ⟨before, y, after, t, hsplit, hbefore, hmisfit, ht, rfl⟩
        cases before with
        | nil =>
            obtain ⟨rfl, rfl⟩ := List.cons.inj hsplit
            exact .inl ⟨hmisfit, by rw [hkeeps.unique ht hs]⟩
        | cons first before =>
            obtain ⟨rfl, rfl⟩ := List.cons.inj hsplit
            obtain ⟨hfirst, hbefore⟩ := List.forall_mem_cons.1 hbefore
            obtain ⟨n, hn⟩ := isInt64_iff.1 hfirst
            exact .inr ⟨_, ⟨_, ⟨n, hn, rfl⟩, rfl⟩, before, y, after, t, rfl,
              hbefore, hmisfit, ht, rfl⟩

end Run

/-! ## Conditions -/

/-- Adding these values to a query succeeds exactly if all of them are integers
of 64 bits, and then the query has just these integers more.  It fails exactly
at the first value that is none. -/
structure TakesIntegers {α : Type} (rat? : α → Option Rat)
    (Reads : α → Scalar → Prop)
    (p : Property) (run : Query → Except FilterError Query) (xs : List α) :
    Prop where
  accepts : ∀ q, (∃ r, run q = .ok r) ↔ ∀ x ∈ xs, IsInt64 (rat? x)
  adds : ∀ q r, run q = .ok r ↔
    ∃ integers : List Int64,
      List.Forall₂ (fun x (n : Int64) => rat? x = some (n.toInt : Rat)) xs
        integers ∧ q.pushIntegers p.field integers = r
  refuses : ∀ q e, run q = .error e ↔
    ∃ before x after s, xs = before ++ x :: after ∧
      (∀ y ∈ before, IsInt64 (rat? y)) ∧
      ¬ IsInt64 (rat? x) ∧ Reads x s ∧ e = .wrongType s p

section Conditions

variable {α : Type} {rat? : α → Option Rat} {Reads : α → Scalar → Prop}
  {p : Property}
  {limits : Limits} {xs : List α} {scalars : List Scalar}

theorem takesIntegers_pushAll (hkeeps : KeepsIntegers rat? Reads)
    (hkind : p.kind = .integerSet) (h : List.Forall₂ Reads xs scalars) :
    TakesIntegers rat? Reads p (fun q => Condition.pushAll p q scalars) xs where
  accepts q := by
    simp only [pushAll_eq_ok_iff_of_reads hkeeps hkind h, isInt64_iff]
    rw [← Filter.exists_forall₂_iff]
    exact ⟨fun ⟨_, integers, hall, _⟩ => ⟨integers, hall⟩,
      fun ⟨integers, hall⟩ => ⟨_, integers, hall, rfl⟩⟩
  adds q r := pushAll_eq_ok_iff_of_reads hkeeps hkind h
  refuses q e := pushAll_eq_error_iff_of_reads hkeeps hkind h

theorem Filter.outcome_compile_condition (limits : Limits) (c : Condition)
    (q : Query) :
    ((Filter.condition c).compile limits q).outcome = c.apply limits q := by
  have hdepth : ¬ limits.depth < 1 := Nat.not_lt.2 limits.depth_pos
  rw [outcome_compile_eq_foldlM, nodes, nodesFrom_condition, List.foldlM_cons,
    outcome_visit, if_neg hdepth]
  simp

/-- An equality on a field of integers is a list of one value. -/
theorem Condition.apply_equals_integerSet (hp : p ∈ Property.table)
    (hkind : p.kind = .integerSet) (limits : Limits) (s : Scalar) (q : Query) :
    (equals p.name s).apply limits q = pushAll p q [s] := by
  have hother : ¬ p.kind = .orbitDirection := by
    rw [hkind]
    decide
  rw [apply_equals_of_mem hp, if_neg hother, pushAll_eq_foldlM,
    List.foldlM_cons]
  simp

theorem Condition.apply_oneOf_integerSet (hp : p ∈ Property.table)
    (hkind : p.kind = .integerSet)
    (hlength : 1 ≤ scalars.length ∧ scalars.length ≤ limits.listLength)
    (q : Query) :
    (oneOf p.name scalars).apply limits q = pushAll p q scalars := by
  have htakes : p.kind.takesList = true :=
    FieldKind.takesList_iff.2 (.inr hkind)
  rw [apply_oneOf_of_length hlength, Property.resolve_eq_ok_iff.2 ⟨hp, rfl⟩]
  exact if_pos htakes

end Conditions

/-! ## Filters -/

/-- A number of JSON and the scalar that it is read as. -/
def Json.Number.ReadsAs (number : Json.Number) (s : Scalar) : Prop :=
  Scalar.StandsFor (.number number) s

theorem keepsIntegers_scalar : KeepsIntegers Scalar.toRat? Eq where
  unique h h' := h.symm.trans h'
  same h n := by rw [h]

theorem keepsIntegers_number :
    KeepsIntegers (fun number => some number.toRat) Json.Number.ReadsAs where
  unique h h' :=
    Option.some.inj ((Scalar.ofJson?_eq_some_iff.2 h).symm.trans
      (Scalar.ofJson?_eq_some_iff.2 h'))
  same := Scalar.toRat?_eq_some_iff_of_standsFor

namespace Filter

variable {limits : Limits} {p : Property}

/-- The query with a filter in JSON added. -/
def addJson (limits : Limits) (v : Json) (q : Query) :
    Except FilterError Query :=
  ofJson limits v >>= fun f => (f.compile limits q).outcome

theorem addJson_of_hasContent {v : Json} {c : Condition}
    (h : HasContent limits v (.condition c)) (q : Query) :
    addJson limits v q = c.apply limits q := by
  have hread : ofJson limits v = .ok (.condition c) :=
    ofJson_eq_ok_iff.2 (.condition limits.depth_pos h)
  rw [addJson, hread, ← outcome_compile_condition limits c q]
  rfl

/-- A number that an equality in JSON compares with. -/
theorem takesIntegers_of_equals (hp : p ∈ Property.table)
    (hkind : p.kind = .integerSet)
    {v reference : Json} {name : String} {number : Json.Number}
    (hparts : v.HasParts name [reference, .number number])
    (hname : Operator.equals.IsNamedBy name)
    (hreference : reference.RefersTo p.name) :
    TakesIntegers (fun number => some number.toRat) Json.Number.ReadsAs p
      (addJson limits v) [number] := by
  obtain ⟨s, hs⟩ :=
    Scalar.exists_standsFor_iff.2
      (show (Json.number number).IsScalar from trivial)
  have hrun : addJson limits v = fun q => Condition.pushAll p q [s] := by
    funext q
    rw [addJson_of_hasContent (.equals hparts hname hreference hs),
      Condition.apply_equals_integerSet hp hkind]
  rw [hrun]
  exact takesIntegers_pushAll keepsIntegers_number hkind (.cons hs .nil)

/-- Numbers that a membership in JSON lists. -/
theorem takesIntegers_of_oneOf (hp : p ∈ Property.table)
    (hkind : p.kind = .integerSet)
    {v reference : Json} {name : String} {numbers : List Json.Number}
    (hparts : v.HasParts name [reference, .array (numbers.map .number)])
    (hname : Operator.oneOf.IsNamedBy name)
    (hreference : reference.RefersTo p.name)
    (hlength : 1 ≤ numbers.length ∧ numbers.length ≤ limits.listLength) :
    TakesIntegers (fun number => some number.toRat) Json.Number.ReadsAs p
      (addJson limits v) numbers := by
  obtain ⟨scalars, hscalars⟩ := exists_forall₂_iff.2 fun (number : Json.Number)
      (_ : number ∈ numbers) =>
    Scalar.exists_standsFor_iff.2
      (show (Json.number number).IsScalar from trivial)
  have hread : List.Forall₂ Scalar.StandsFor (numbers.map .number) scalars :=
    List.forall₂_map_left_iff.2 hscalars
  have hitems : 1 ≤ (numbers.map Json.number).length ∧
      (numbers.map Json.number).length ≤ limits.listLength := by
    rwa [List.length_map]
  have hrun : addJson limits v = fun q => Condition.pushAll p q scalars := by
    funext q
    rw [addJson_of_hasContent (.oneOf hparts hname hreference hitems hread),
      Condition.apply_oneOf_integerSet hp hkind (hscalars.length_eq ▸ hlength)]
  rw [hrun]
  exact takesIntegers_pushAll keepsIntegers_number hkind hscalars

/-- **A field of integers never changes a number.**  It takes a number if the
number is exactly an integer of 64 bits, and is given that integer; the first
number that is none is refused for its type.  This is so for the numbers of an
equality and of a membership, in a filter that is read from JSON and in one that
is not. -/
theorem takesIntegers (limits : Limits) {p : Property} (hp : p ∈ Property.table)
    (hkind : p.kind = .integerSet) :
    (∀ v reference name number,
      Json.HasParts v name [reference, .number number] →
      Operator.equals.IsNamedBy name → reference.RefersTo p.name →
        TakesIntegers (fun number => some number.toRat) Json.Number.ReadsAs p
          (addJson limits v) [number]) ∧
    (∀ v reference name numbers,
      Json.HasParts v name [reference, .array (numbers.map .number)] →
      Operator.oneOf.IsNamedBy name → reference.RefersTo p.name →
      1 ≤ numbers.length ∧ numbers.length ≤ limits.listLength →
        TakesIntegers (fun number => some number.toRat) Json.Number.ReadsAs p
          (addJson limits v) numbers) ∧
    (∀ s, TakesIntegers Scalar.toRat? Eq p
      (fun q => (compile limits (.condition (.equals p.name s)) q).outcome)
      [s]) ∧
    (∀ scalars, 1 ≤ scalars.length ∧ scalars.length ≤ limits.listLength →
      TakesIntegers Scalar.toRat? Eq p
        (fun q =>
          (compile limits (.condition (.oneOf p.name scalars)) q).outcome)
        scalars) ∧
    (∀ s, (FilterError.wrongType s p).kind = .typeCoercion) ∧
    ∀ v, (compileJson limits v).outcome = addJson limits v .empty := by
  refine ⟨fun _ _ _ _ => takesIntegers_of_equals hp hkind,
    fun _ _ _ _ => takesIntegers_of_oneOf hp hkind, fun s => ?_,
    fun scalars hlength => ?_,
    fun _ => rfl, fun v => Journaled.outcome_bind _ _⟩
  · simp only [outcome_compile_condition,
      Condition.apply_equals_integerSet hp hkind]
    exact takesIntegers_pushAll keepsIntegers_scalar hkind (.cons rfl .nil)
  · simp only [outcome_compile_condition,
      Condition.apply_oneOf_integerSet hp hkind hlength]
    exact takesIntegers_pushAll keepsIntegers_scalar hkind
      (List.forall₂_same.2 fun _ _ => rfl)

/-- The negative zero is the integer zero. -/
example :
    FieldKind.integerSet.coerce? (.float (.zero true)) = some (.integer 0) := by
  decide +kernel

/-- The property of relative orbits. -/
private def relativeOrbit : Property :=
  ⟨"sat:relative_orbit", "relativeOrbit", .integerSet⟩

/-- Two orbits, the second of which is the least integer past the signed
range. -/
private def orbits : List Json.Number :=
  [.integer 7 (by decide) (by decide),
   .integer (2 ^ 63) (by decide) (by decide)]

/-- A membership that lists them. -/
private def orbitList : Json :=
  .object
    [("op", .string "in"),
     ("args", .array
       [.object [("property", .string "sat:relative_orbit")],
        .array (orbits.map .number)])]

/-- The integer is rounded on the way, and it is refused all the same. -/
theorem takesIntegers_past_range :
    relativeOrbit ∈ Property.table ∧ relativeOrbit.kind = .integerSet ∧
      addJson default orbitList .empty =
        .error (.wrongType (.float (.ofInt (2 ^ 63))) relativeOrbit) := by
  have hp : relativeOrbit ∈ Property.table := by decide
  have hname : Operator.oneOf.IsNamedBy "in" := ⟨"in", by decide, by decide⟩
  have hlength :
      1 ≤ orbits.length ∧ orbits.length ≤ (default : Limits).listLength := by
    decide
  have hfits : IsInt64 (some (7 : Rat)) := ⟨7, rfl, by decide, by decide⟩
  have hpast : ¬ IsInt64 (some ((2 ^ 63 : Int) : Rat)) := by
    rintro ⟨m, hm, -, hupper⟩
    have heq : 2 ^ 63 = m := by exact_mod_cast Option.some.inj hm
    omega
  have hread : Json.Number.ReadsAs (.integer (2 ^ 63) (by decide) (by decide))
      (.float (.ofInt (2 ^ 63))) :=
    Scalar.ofJson?_eq_some_iff.1 rfl
  have htakes := (takesIntegers default hp rfl).2.1 orbitList _ "in" orbits
    ⟨rfl, rfl⟩ hname rfl hlength
  refine ⟨hp, rfl,
    (htakes.refuses .empty _).2 ⟨[_], _, [], _, rfl, ?_, hpast, hread, rfl⟩⟩
  exact List.forall_mem_singleton.2 hfits

end Filter

end ItemSearch
