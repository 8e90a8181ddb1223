import Mathlib
import ItemSearch.Proofs.FirstDefect
import ItemSearch.Proofs.Query.Accumulation

/-!
# Why a filter does not compile

What can be wrong with a condition, and with a node of a filter.  Each case
supposes that the checks before it have passed, so that a node has one defect at
most, and the relations say with which words and as what kind of failure it is
reported.  Besides the node, only the directions matter that have been named
before: the one of the query, and those of the conditions on the way.

Compiling is one pass over the nodes, so that a filter is refused for the first
of them that has a defect, however many values have been added by then.

## Main results

* `Condition.apply_eq_error_iff`: what is refused at one condition.
* `refuses_visit`: what is refused at one node, after the nodes before it.
* `compile_eq_error_iff`: what a filter is refused for.
-/

namespace ItemSearch

open Outcome

variable {limits : Limits} {q : Query} {e : FilterError}

/-! ## Properties, values and directions -/

namespace Property

theorem resolve_eq_ok_iff {name : String} {p : Property} :
    resolve name = .ok p ↔ p ∈ table ∧ p.name = name := by
  rw [← find?_eq_some_iff, resolve]
  cases find? name <;> simp

theorem resolve_eq_error_iff {name : String} :
    resolve name = .error e ↔
      (∀ p ∈ table, p.name ≠ name) ∧ e = .unknownProperty name := by
  have hnone : find? name = none ↔ ∀ p ∈ table, p.name ≠ name := by
    simp [find?, List.find?_eq_none]
  rw [← hnone, resolve]
  cases find? name <;> simp [eq_comm]

/-- A value that names no direction is refused as such if it is a text, and for
its type if it is none. -/
theorem direction_eq_error_iff {p : Property} {s : Scalar} :
    p.direction s = .error e ↔
      (¬ ∃ d, s.Names d) ∧
        ((∃ text, s = .string text ∧ e = .notADirection text p) ∨
          (∀ text, s ≠ .string text) ∧ e = .wrongType s p) := by
  have hnames : (∃ d, s.Names d) ↔ ∃ d, p.direction s = .ok d :=
    exists_congr fun d => direction_eq_ok_iff.symm
  rw [hnames]
  cases s with
  | string text =>
      rw [direction]
      cases OrbitDirection.ofText? text <;> simp [eq_comm]
  | _ => simp [direction, eq_comm]

theorem coerce_eq_error_iff {p : Property} {s : Scalar}
    (hkind : p.kind ≠ .orbitDirection) :
    p.coerce s = .error e ↔ ¬ p.kind.Takes s ∧ e = .wrongType s p := by
  rw [FieldKind.takes_iff_coerce? hkind, coerce]
  cases p.kind.coerce? s <;> simp [eq_comm]

end Property

theorem Query.restrict_eq_error_iff {d : OrbitDirection} :
    q.restrict d = .error e ↔
      ∃ existing, q.direction = some existing ∧ existing ≠ d ∧
        e = .directionConflict existing d := by
  unfold restrict
  cases q.direction with
  | none => simp
  | some existing =>
      by_cases hsame : existing = d
      · simp [hsame]
      · dsimp only
        rw [if_neg hsame]
        constructor
        · intro h
          exact ⟨existing, rfl, hsame, (Except.error.inj h).symm⟩
        · rintro ⟨_, hexisting, -, rfl⟩
          obtain rfl := Option.some.inj hexisting
          rfl

/-! ## Conditions -/

namespace Condition

/-- What is wrong with a condition when these directions have been named before
it, the kind of failure that this is and the error that reports it. -/
inductive Defect (limits : Limits) (named : List OrbitDirection) :
    Condition → FailureKind → FilterError → Prop where
  | noValues (name : String) :
      Defect limits named (.oneOf name []) .malformedFilter (.noValues name)
  | listTooLong {name : String} {values : List Scalar}
      (h : limits.listLength < values.length) :
      Defect limits named (.oneOf name values) .malformedFilter
        (.listTooLong values.length limits.listLength)
  | listOfUnknown {name : String} {values : List Scalar}
      (hlength : 1 ≤ values.length ∧ values.length ≤ limits.listLength)
      (h : ∀ p ∈ Property.table, p.name ≠ name) :
      Defect limits named (.oneOf name values) .unsupportedProperty
        (.unknownProperty name)
  | takesNoList {p : Property} {values : List Scalar}
      (hlength : 1 ≤ values.length ∧ values.length ≤ limits.listLength)
      (hp : p ∈ Property.table)
      (h : ¬ (p.kind = .textSet ∨ p.kind = .integerSet)) :
      Defect limits named (.oneOf p.name values) .unsupportedOperator
        (.takesNoList p)
  /-- The first value of a list that its field does not take. -/
  | listedMisfit {p : Property} {before after : List Scalar} {value : Scalar}
      (hlength : (before ++ value :: after).length ≤ limits.listLength)
      (hp : p ∈ Property.table)
      (hkind : p.kind = .textSet ∨ p.kind = .integerSet)
      (hbefore : ∀ other ∈ before, p.kind.Takes other)
      (h : ¬ p.kind.Takes value) :
      Defect limits named (.oneOf p.name (before ++ value :: after))
        .typeCoercion
        (.wrongType value p)
  | unknownProperty {name : String} {value : Scalar}
      (h : ∀ p ∈ Property.table, p.name ≠ name) :
      Defect limits named (.equals name value) .unsupportedProperty
        (.unknownProperty name)
  /-- A text for the property of directions that names none. -/
  | notADirection {p : Property} {text : String} (hp : p ∈ Property.table)
      (hkind : p.kind = .orbitDirection) (h : ¬ p.kind.Takes (.string text)) :
      Defect limits named (.equals p.name (.string text)) .unsupportedValue
        (.notADirection text p)
  | misfit {p : Property} {value : Scalar} (hp : p ∈ Property.table)
      (hother : p.kind = .orbitDirection → ∀ text, value ≠ .string text)
      (h : ¬ p.kind.Takes value) :
      Defect limits named (.equals p.name value) .typeCoercion
        (.wrongType value p)
  /-- A direction other than one that has been named before. -/
  | conflict {p : Property} {value : Scalar}
      {existing requested : OrbitDirection}
      (hp : p ∈ Property.table) (hkind : p.kind = .orbitDirection)
      (hnames : value.Names requested) (hnamed : existing ∈ named)
      (h : existing ≠ requested) :
      Defect limits named (.equals p.name value) .conflictingConstraint
        (.directionConflict existing requested)

/-- A defect stays one when more directions have been named before, so that
neither their order nor their number matters. -/
theorem Defect.mono {named named' : List OrbitDirection} (hsub : named ⊆ named')
    {c : Condition} {kind : FailureKind} (h : c.Defect limits named kind e) :
    c.Defect limits named' kind e := by
  cases h with
  | conflict hp hkind hnames hnamed hne =>
      exact .conflict hp hkind hnames (hsub hnamed) hne
  | _ => constructor <;> assumption

theorem pushAll_eq_error_iff {p : Property} (hkind : p.kind ≠ .orbitDirection)
    {values : List Scalar} :
    pushAll p q values = .error e ↔
      ∃ before value after, values = before ++ value :: after ∧
        (∀ other ∈ before, p.kind.Takes other) ∧ ¬ p.kind.Takes value ∧
          e = .wrongType value p := by
  have hbefore : ∀ before : List Scalar, (∃ r, pushAll p q before = .ok r) ↔
      ∀ other ∈ before, p.kind.Takes other := by
    intro before
    simp [pushAll_eq_ok_iff, FieldKind.takes_iff_coerce? hkind]
  simp only [pushAll_eq_foldlM] at hbefore ⊢
  rw [foldlM_eq_error_iff]
  simp only [map_eq_error_iff, Property.coerce_eq_error_iff hkind, ← hbefore]
  constructor
  · rintro ⟨before, value, after, r, hsplit, hok, hvalue, rfl⟩
    exact ⟨before, value, after, hsplit, ⟨r, hok⟩, hvalue, rfl⟩
  · rintro ⟨before, value, after, hsplit, ⟨r, hok⟩, hvalue, rfl⟩
    exact ⟨before, value, after, r, hsplit, hok, hvalue, rfl⟩

/-- An equality is refused for its property, for its value or for the direction
that the value names. -/
theorem defect_of_apply_equals {name : String} {value : Scalar}
    (h : (equals name value).apply limits q = .error e) :
    (equals name value).Defect limits q.direction.toList e.kind e := by
  rw [apply_equals] at h
  rcases bind_eq_error_iff.1 h with hunknown | ⟨p, hp, hrest⟩
  · obtain ⟨hnone, rfl⟩ := Property.resolve_eq_error_iff.1 hunknown
    exact .unknownProperty hnone
  · obtain ⟨hmem, rfl⟩ := Property.resolve_eq_ok_iff.1 hp
    by_cases hkind : p.kind = .orbitDirection
    · rw [if_pos hkind] at hrest
      rcases bind_eq_error_iff.1 hrest with hvalue | ⟨d, hd, hrestrict⟩
      · obtain ⟨hnames, hcause⟩ := Property.direction_eq_error_iff.1 hvalue
        have hnot : ¬ p.kind.Takes value := by
          rwa [hkind, FieldKind.takes_direction_iff]
        rcases hcause with ⟨text, rfl, rfl⟩ | ⟨hother, rfl⟩
        · exact .notADirection hmem hkind hnot
        · exact .misfit hmem (fun _ => hother) hnot
      · obtain ⟨existing, hexisting, hne, rfl⟩ :=
          Query.restrict_eq_error_iff.1 hrestrict
        have hnamed : existing ∈ q.direction.toList := by simp [hexisting]
        exact .conflict hmem hkind
          (Property.direction_eq_ok_iff.1 hd) hnamed hne
    · rw [if_neg hkind] at hrest
      obtain ⟨hnot, rfl⟩ :=
        (Property.coerce_eq_error_iff hkind).1 (map_eq_error_iff.1 hrest)
      exact .misfit hmem (fun hdirection => absurd hdirection hkind) hnot

/-- A membership is refused for its list, for its property or for the first
value that does not fit. -/
theorem defect_of_apply_oneOf {name : String} {values : List Scalar}
    (h : (oneOf name values).apply limits q = .error e) :
    (oneOf name values).Defect limits q.direction.toList e.kind e := by
  rw [apply_oneOf] at h
  by_cases hnil : values = []
  · subst hnil
    obtain rfl := Except.error.inj h
    exact .noValues name
  rw [if_neg hnil] at h
  by_cases hlong : limits.listLength < values.length
  · rw [if_pos hlong] at h
    obtain rfl := Except.error.inj h
    exact .listTooLong hlong
  rw [if_neg hlong] at h
  have hlength : 1 ≤ values.length ∧ values.length ≤ limits.listLength :=
    ⟨List.length_pos_iff.2 hnil, Nat.not_lt.1 hlong⟩
  rcases bind_eq_error_iff.1 h with hunknown | ⟨p, hp, hrest⟩
  · obtain ⟨hnone, rfl⟩ := Property.resolve_eq_error_iff.1 hunknown
    exact .listOfUnknown hlength hnone
  · obtain ⟨hmem, rfl⟩ := Property.resolve_eq_ok_iff.1 hp
    by_cases htakes : p.kind.takesList = true
    · rw [if_pos htakes] at hrest
      obtain ⟨before, value, after, rfl, hbefore, hnot, rfl⟩ :=
        (pushAll_eq_error_iff (FieldKind.ne_of_takesList htakes)).1 hrest
      exact .listedMisfit hlength.2 hmem
        (FieldKind.takesList_iff.1 htakes) hbefore hnot
    · rw [if_neg htakes] at hrest
      obtain rfl := Except.error.inj hrest
      exact .takesNoList hlength hmem (mt FieldKind.takesList_iff.2 htakes)

theorem apply_equals_of_mem {p : Property} (hp : p ∈ Property.table)
    (value : Scalar) :
    (equals p.name value).apply limits q =
      if p.kind = .orbitDirection then p.direction value >>= q.restrict
      else (q.push p.field ·) <$> p.coerce value := by
  rw [apply_equals, Property.resolve_eq_ok_iff.2 ⟨hp, rfl⟩]
  rfl

theorem apply_oneOf_of_length {name : String} {values : List Scalar}
    (hlength : 1 ≤ values.length ∧ values.length ≤ limits.listLength) :
    (oneOf name values).apply limits q = Property.resolve name >>= fun p =>
      if p.kind.takesList then
        pushAll p q values
      else
        .error (.takesNoList p) := by
  rw [apply_oneOf, if_neg (List.length_pos_iff.1 hlength.1),
    if_neg (Nat.not_lt.2 hlength.2)]

theorem apply_of_defect {c : Condition} {kind : FailureKind}
    (h : c.Defect limits q.direction.toList kind e) :
    c.apply limits q = .error e ∧ e.kind = kind := by
  cases h with
  | noValues name => exact ⟨rfl, rfl⟩
  | @listTooLong name values hlong =>
      have hnil : values ≠ [] := by
        rintro rfl
        cases hlong
      rw [apply_oneOf, if_neg hnil, if_pos hlong]
      exact ⟨rfl, rfl⟩
  | listOfUnknown hlength hnone =>
      rw [apply_oneOf_of_length hlength,
        Property.resolve_eq_error_iff.2 ⟨hnone, rfl⟩]
      exact ⟨rfl, rfl⟩
  | @takesNoList p values hlength hp hkind =>
      rw [apply_oneOf_of_length hlength, Property.resolve_eq_ok_iff.2 ⟨hp, rfl⟩]
      exact ⟨if_neg (mt FieldKind.takesList_iff.1 hkind), rfl⟩
  | @listedMisfit p before after value hlength hp hkind hbefore hnot =>
      have hlist := FieldKind.takesList_iff.2 hkind
      have hpos : 1 ≤ (before ++ value :: after).length := by
        rw [List.length_append, List.length_cons]
        omega
      have hpush :
          pushAll p q (before ++ value :: after) =
            .error (.wrongType value p) :=
        (pushAll_eq_error_iff (FieldKind.ne_of_takesList hlist)).2
          ⟨before, value, after, rfl, hbefore, hnot, rfl⟩
      rw [apply_oneOf_of_length ⟨hpos, hlength⟩,
        Property.resolve_eq_ok_iff.2 ⟨hp, rfl⟩]
      exact ⟨(if_pos hlist).trans hpush, rfl⟩
  | unknownProperty hnone =>
      rw [apply_equals, Property.resolve_eq_error_iff.2 ⟨hnone, rfl⟩]
      exact ⟨rfl, rfl⟩
  | @notADirection p text hp hkind hnot =>
      rw [hkind, FieldKind.takes_direction_iff] at hnot
      rw [apply_equals_of_mem hp, if_pos hkind,
        Property.direction_eq_error_iff.2 ⟨hnot, .inl ⟨text, rfl, rfl⟩⟩]
      exact ⟨rfl, rfl⟩
  | @misfit p value hp hother hnot =>
      rw [apply_equals_of_mem hp]
      by_cases hkind : p.kind = .orbitDirection
      · rw [hkind, FieldKind.takes_direction_iff] at hnot
        rw [if_pos hkind,
          Property.direction_eq_error_iff.2 ⟨hnot, .inr ⟨hother hkind, rfl⟩⟩]
        exact ⟨rfl, rfl⟩
      · rw [if_neg hkind, (Property.coerce_eq_error_iff hkind).2 ⟨hnot, rfl⟩]
        exact ⟨rfl, rfl⟩
  | @conflict p value existing requested hp hkind hnames hnamed hne =>
      have hrestrict :
          q.restrict requested =
            .error (.directionConflict existing requested) :=
        Query.restrict_eq_error_iff.2
          ⟨existing, Option.mem_toList.1 hnamed, hne, rfl⟩
      rw [apply_equals_of_mem hp, if_pos hkind,
        Property.direction_eq_ok_iff.2 hnames]
      exact ⟨hrestrict, rfl⟩

/-- **What is refused at one condition** is what is wrong with it, given the
direction of the query. -/
theorem apply_eq_error_iff {c : Condition} :
    c.apply limits q = .error e ↔
      c.Defect limits q.direction.toList e.kind e := by
  constructor
  · intro h
    cases c with
    | equals name value => exact defect_of_apply_equals h
    | oneOf name values => exact defect_of_apply_oneOf h
  · intro h
    exact (apply_of_defect h).1

end Condition

/-! ## Nodes -/

namespace Filter

/-- What is wrong with a node by itself when these directions have been named
before it, the kind of failure that this is and the error that reports it. -/
inductive DefectAt (limits : Limits) (named : List OrbitDirection) :
    Nat × Filter → FailureKind → FilterError → Prop where
  | tooDeep {depth : Nat} {f : Filter} (h : limits.depth < depth) :
      DefectAt limits named (depth, f) .malformedFilter (.tooDeep limits.depth)
  | emptyJunction {depth : Nat} {connective : Connective}
      (hdepth : depth ≤ limits.depth) :
      DefectAt limits named
        (depth, .junction connective []) .malformedFilter .emptyJunction
  | condition {depth : Nat} {c : Condition} {kind : FailureKind}
      {e : FilterError}
      (hdepth : depth ≤ limits.depth) (h : c.Defect limits named kind e) :
      DefectAt limits named (depth, .condition c) kind e

/-- The directions that have been named when the nodes before have been passed:
that of the query, and those of the conditions. -/
def namedBefore (q : Query) (before : List (Nat × Filter)) :
    List OrbitDirection :=
  q.direction.toList ++
    (before.filterMap fun node => node.2.leaf?).flatMap Condition.directions

theorem DefectAt.mono {named named' : List OrbitDirection}
    (hsub : named ⊆ named')
    {node : Nat × Filter} {kind : FailureKind}
    (h : DefectAt limits named node kind e) :
    DefectAt limits named' node kind e := by
  cases h with
  | tooDeep hdeep => exact .tooDeep hdeep
  | emptyJunction hdepth => exact .emptyJunction hdepth
  | condition hdepth hdefect => exact .condition hdepth (hdefect.mono hsub)

theorem visit_of_defectAt {node : Nat × Filter} {kind : FailureKind}
    (h : DefectAt limits q.direction.toList node kind e) :
    (visit limits q node).outcome = .error e := by
  rw [outcome_visit]
  cases h with
  | tooDeep hdeep => exact if_pos hdeep
  | emptyJunction hdepth => exact if_neg (Nat.not_lt.2 hdepth)
  | condition hdepth hdefect =>
      rw [if_neg (Nat.not_lt.2 hdepth)]
      exact (Condition.apply_of_defect hdefect).1

/-- What is refused at one node is what is wrong with it, given the direction of
the query. -/
theorem visit_eq_error_iff {node : Nat × Filter} :
    (visit limits q node).outcome = .error e ↔
      DefectAt limits q.direction.toList node e.kind e := by
  refine ⟨fun h => ?_, visit_of_defectAt⟩
  obtain ⟨depth, f⟩ := node
  rw [outcome_visit] at h
  by_cases hdeep : limits.depth < depth
  · obtain rfl := Except.error.inj ((if_pos hdeep).symm.trans h)
    exact .tooDeep hdeep
  · have hdepth : depth ≤ limits.depth := Nat.not_lt.1 hdeep
    rw [if_neg hdeep] at h
    cases f with
    | condition c => exact .condition hdepth (Condition.apply_eq_error_iff.1 h)
    | junction connective operands =>
        dsimp only at h
        split_ifs at h with hnil
        obtain rfl := Except.error.inj h
        subst hnil
        exact .emptyJunction hdepth

/-! ## The pass over the nodes -/

/-- What has been named before a node is the direction of the query that the
node is added to. -/
theorem mem_direction_iff_of_pass {before : List (Nat × Filter)} {r : Query}
    (h : before.foldlM (fun q node => (visit limits q node).outcome) q = .ok r)
    {d : OrbitDirection} :
    d ∈ r.direction.toList ↔ d ∈ namedBefore q before := by
  have hpass := (foldlM_visit_eq_ok_iff.1 h).2
  obtain ⟨-, hagree, rfl⟩ := Condition.foldlM_apply_eq_ok_iff.1 hpass
  rw [Query.direction_extend, Option.mem_toList]
  constructor
  · exact List.mem_of_mem_head?
  · intro hd
    cases hhead : (namedBefore q before).head? with
    | none =>
        rw [List.head?_eq_none_iff.1 hhead] at hd
        cases hd
    | some first =>
        have hsame : first = d :=
          hagree first (List.mem_of_mem_head? hhead) d hd
        rw [← hsame]
        exact hhead

/-- **What is refused at one node, after the nodes before it**, is what is wrong
with it, given what they have named. -/
theorem refuses_visit (limits : Limits) (q : Query) :
    Refuses (fun q node => (visit limits q node).outcome) q
      (fun before node e =>
        DefectAt limits (namedBefore q before) node e.kind e) := by
  intro before r hbefore node e
  rw [visit_eq_error_iff]
  constructor
  · intro h
    exact h.mono fun d hd => (mem_direction_iff_of_pass hbefore).1 hd
  · intro h
    exact h.mono fun d hd => (mem_direction_iff_of_pass hbefore).2 hd

/-- **A filter is refused for the first of its nodes that has a defect.** -/
theorem compile_eq_error_iff {f : Filter} :
    (f.compile limits q).outcome = .error e ↔
      FirstDefect (fun before node e =>
        DefectAt limits (namedBefore q before) node e.kind e) f.nodes e := by
  rw [outcome_compile_eq_foldlM,
    foldlM_eq_error_iff_firstDefect (refuses_visit limits q)]

end Filter

end ItemSearch
