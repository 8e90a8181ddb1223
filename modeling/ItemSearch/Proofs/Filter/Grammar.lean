import Mathlib
import ItemSearch.Filter.Encoding
import ItemSearch.Proofs.Filter.Coercion
import ItemSearch.Proofs.Outcome

/-!
# The grammar of filters in JSON

What a JSON value has to look like to be read as a filter, without the reader:
`IsNode` says which values are nodes at a depth, and `StandsFor` says besides
which filter a node stands for, operand by operand.  A number stands for an
integer when it is stored as one of 64 bits, and for a binary64 number
otherwise.

The reader takes a node apart before it looks at the operands.  `content` is
this first half, and a junction in it still has its operands as JSON; the
grammar has one case for each way in which `content` succeeds.

## Main results

* `Operator.ofName?_eq_some_iff`, `Scalar.ofJson?_eq_some_iff`: names and
  scalars.
* `content_eq_ok_iff`: what a node says by itself.
* `readLevels_eq_ok_iff`: the reader accepts exactly what stands for a filter.
* `exists_standsFor_iff`: and these are the nodes.
-/

namespace ItemSearch

/-! ## Names, scalars and parts -/

namespace Operator

/-- The names of an operator. -/
def names : Operator → List String
  | .equals => ["=", "eq"]
  | .oneOf => ["in"]
  | .junction connective => [connective.word]

/-- The text is a name of the operator, in any letter case. -/
def IsNamedBy (operator : Operator) (name : String) : Prop :=
  ∃ word ∈ operator.names, name.toList.map Char.toLower = word.toList

theorem ofName?_eq_some_iff {name : String} {operator : Operator} :
    ofName? name = some operator ↔ operator.IsNamedBy name := by
  have hword : ∀ letters : List Char,
      (if letters = "=".toList ∨ letters = "eq".toList then some Operator.equals
        else if letters = "in".toList then some .oneOf
        else if letters = "and".toList then some (.junction .all)
        else if letters = "or".toList then some (.junction .any)
        else none) = some operator ↔
      ∃ word ∈ operator.names, letters = word.toList := by
    intro letters
    split_ifs with hequals hin hand hor
    · rcases hequals with rfl | rfl <;>
        rcases operator with _ | _ | (_ | _) <;> simp [names, Connective.word]
    · subst hin
      rcases operator with _ | _ | (_ | _) <;> simp [names, Connective.word]
    · subst hand
      rcases operator with _ | _ | (_ | _) <;> simp [names, Connective.word]
    · subst hor
      rcases operator with _ | _ | (_ | _) <;> simp [names, Connective.word]
    · rcases operator with _ | _ | (_ | _) <;>
        simp_all [names, Connective.word]
  exact hword (name.toList.map Char.toLower)

end Operator

namespace Json

/-- The value is a text, a truth value or a number. -/
def IsScalar : Json → Prop
  | .string _ | .bool _ | .number _ => True
  | .null | .array _ | .object _ => False

/-- The value is an object with this operator name and these arguments; what
other members it has does not matter. -/
def HasParts (v : Json) (name : String) (args : List Json) : Prop :=
  v.member? "op" = some (.string name) ∧ v.member? "args" = some (.array args)

/-- The value is an object that names this property. -/
def RefersTo (v : Json) (property : String) : Prop :=
  v.member? "property" = some (.string property)

theorem bind_string?_eq_some_iff {v? : Option Json} {s : String} :
    v?.bind string? = some s ↔ v? = some (.string s) := by
  rcases v? with _ | _ | _ | _ | _ | _ | _ <;> simp [string?]

theorem bind_array?_eq_some_iff {v? : Option Json} {items : List Json} :
    v?.bind array? = some items ↔ v? = some (.array items) := by
  rcases v? with _ | _ | _ | _ | _ | _ | _ <;> simp [array?]

end Json

namespace Scalar

/-- The scalar that a JSON value stands for. -/
inductive StandsFor : Json → Scalar → Prop where
  | string (s : String) : StandsFor (.string s) (.string s)
  | bool (b : Bool) : StandsFor (.bool b) (.bool b)
  | integer (n : Int64) (hlower) (hupper) :
      StandsFor (.number (.integer n.toInt hlower hupper)) (.integer n)
  /-- A number that is not stored as an integer of 64 bits. -/
  | float {number : Json.Number}
      (hother : ∀ (n : Int64) hlower hupper,
        number ≠ .integer n.toInt hlower hupper) :
      StandsFor (.number number) (.float number.toBinary64)

theorem ofJson?_eq_some_iff {v : Json} {s : Scalar} :
    ofJson? v = some s ↔ StandsFor v s := by
  constructor
  · intro h
    cases v with
    | null => cases h
    | bool b =>
        obtain rfl := Option.some.inj h
        exact .bool b
    | number number =>
        cases number with
        | float w hfinite =>
            obtain rfl := Option.some.inj h
            have hother : ∀ (n : Int64) hlower hupper,
                Json.Number.float w hfinite ≠
                  .integer n.toInt hlower hupper := by
              intro n hlower hupper heq
              cases heq
            exact .float hother
        | integer m hlower hupper =>
            rw [ofJson?] at h
            cases hm : int64? m with
            | some n =>
                rw [hm] at h
                obtain rfl := Option.some.inj h
                obtain rfl := int64?_eq_some_iff.1 hm
                exact .integer n hlower hupper
            | none =>
                rw [hm] at h
                obtain rfl := Option.some.inj h
                have hother : ∀ (n : Int64) hlower' hupper',
                    Json.Number.integer m hlower hupper ≠
                      .integer n.toInt hlower' hupper' := by
                  intro n hlower' hupper' heq
                  obtain rfl := Json.Number.integer.inj heq
                  rw [int64?_toInt] at hm
                  cases hm
                exact .float hother
    | string text =>
        obtain rfl := Option.some.inj h
        exact .string text
    | array items => cases h
    | object members => cases h
  · intro h
    cases h with
    | string s => rfl
    | bool b => rfl
    | integer n hlower hupper => rw [ofJson?, int64?_toInt]
    | @float number hother =>
        cases number with
        | float w hfinite => rfl
        | integer m hlower hupper =>
            have hm : int64? m = none := by
              rw [Option.eq_none_iff_forall_ne_some]
              intro n hn
              obtain rfl := int64?_eq_some_iff.1 hn
              exact hother n hlower hupper rfl
            rw [ofJson?, hm]
            rfl

theorem exists_standsFor_iff {v : Json} :
    (∃ s, StandsFor v s) ↔ v.IsScalar := by
  simp only [← ofJson?_eq_some_iff]
  cases v with
  | number number =>
      cases number with
      | float w hfinite => simp [ofJson?, Json.IsScalar]
      | integer m hlower hupper =>
          simp only [ofJson?, Json.IsScalar, iff_true]
          cases int64? m <;> simp
  | _ => simp [ofJson?, Json.IsScalar]

theorem ofJson?_eq_none_iff {v : Json} : ofJson? v = none ↔ ¬ v.IsScalar := by
  rw [← exists_standsFor_iff, Option.eq_none_iff_forall_ne_some, not_exists]
  exact forall_congr' fun s => not_congr ofJson?_eq_some_iff

end Scalar

namespace Filter

open Outcome

/-! ## The grammar -/

/-- The value is a node of a filter, at this depth and within the limits. -/
inductive IsNode (limits : Limits) : Nat → Json → Prop where
  | equals {depth : Nat} {v reference operand : Json} {name property : String}
      (hdepth : depth ≤ limits.depth)
      (hparts : v.HasParts name [reference, operand])
      (hname : Operator.equals.IsNamedBy name)
      (hreference : reference.RefersTo property)
      (hoperand : operand.IsScalar) : IsNode limits depth v
  | oneOf {depth : Nat} {v reference : Json} {items : List Json}
      {name property : String} (hdepth : depth ≤ limits.depth)
      (hparts : v.HasParts name [reference, .array items])
      (hname : Operator.oneOf.IsNamedBy name)
      (hreference : reference.RefersTo property)
      (hlength : 1 ≤ items.length ∧ items.length ≤ limits.listLength)
      (hitems : ∀ item ∈ items, item.IsScalar) : IsNode limits depth v
  | junction {depth : Nat} {v : Json} {args : List Json} {name : String}
      {connective : Connective} (hdepth : depth ≤ limits.depth)
      (hparts : v.HasParts name args)
      (hname : (Operator.junction connective).IsNamedBy name)
      (hargs : args ≠ [])
      (hnodes : ∀ arg ∈ args, IsNode limits (depth + 1) arg) :
      IsNode limits depth v

/-- What a node says by itself: a condition, or a junction of operands that are
still to be read. -/
inductive Content where
  | condition (c : Condition)
  | junction (connective : Connective) (operands : List Json)

/-- The operands that are still to be read. -/
def Content.operands : Content → List Json
  | .condition _ => []
  | .junction _ operands => operands

/-- The node says this by itself: the condition has the property and the scalars
that the arguments stand for, and the junction has the arguments as its
operands. -/
inductive HasContent (limits : Limits) (v : Json) : Content → Prop where
  | equals {reference operand : Json} {name property : String} {value : Scalar}
      (hparts : v.HasParts name [reference, operand])
      (hname : Operator.equals.IsNamedBy name)
      (hreference : reference.RefersTo property)
      (hvalue : Scalar.StandsFor operand value) :
      HasContent limits v (.condition (.equals property value))
  | oneOf {reference : Json} {items : List Json} {name property : String}
      {values : List Scalar}
      (hparts : v.HasParts name [reference, .array items])
      (hname : Operator.oneOf.IsNamedBy name)
      (hreference : reference.RefersTo property)
      (hlength : 1 ≤ items.length ∧ items.length ≤ limits.listLength)
      (hvalues : List.Forall₂ Scalar.StandsFor items values) :
      HasContent limits v (.condition (.oneOf property values))
  | junction {args : List Json} {name : String} {connective : Connective}
      (hparts : v.HasParts name args)
      (hname : (Operator.junction connective).IsNamedBy name)
      (hargs : args ≠ []) : HasContent limits v (.junction connective args)

/-- The node at this depth stands for the filter, whose operands are what the
operands of the node stand for, in their order. -/
inductive StandsFor (limits : Limits) : Nat → Json → Filter → Prop where
  | condition {depth : Nat} {v : Json} {c : Condition}
      (hdepth : depth ≤ limits.depth)
      (hcontent : HasContent limits v (.condition c)) :
      StandsFor limits depth v (.condition c)
  | junction {depth : Nat} {v : Json} {connective : Connective}
      {args : List Json}
      {operands : List Filter} (hdepth : depth ≤ limits.depth)
      (hcontent : HasContent limits v (.junction connective args))
      (hlength : args.length = operands.length)
      (hoperands : ∀ arg f, (arg, f) ∈ args.zip operands →
        StandsFor limits (depth + 1) arg f) :
      StandsFor limits depth v (.junction connective operands)

/-! ## A node by itself -/

/-- The filter of a node, given how operands are read. -/
def Content.complete (read : Json → Except FilterError Filter) :
    Content → Except FilterError Filter
  | .condition c => .ok (.condition c)
  | .junction connective operands => .junction connective <$> operands.mapM read

/-- What the arguments of an operator say. -/
def argumentContent (limits : Limits) (name : String) (args : List Json) :
    Operator → Except FilterError Content
  | .equals =>
      comparisonParts name args >>= fun sides =>
        (fun value => .condition (.equals sides.1 value)) <$>
          readScalar name sides.2
  | .oneOf =>
      comparisonParts name args >>= fun sides =>
        (fun values => .condition (.oneOf sides.1 values)) <$>
          readList limits sides.2
  | .junction connective =>
      if args = [] then
        .error (.noOperands name)
      else
        .ok (.junction connective args)

/-- What a node says by itself. -/
def content (limits : Limits) (v : Json) : Except FilterError Content :=
  nodeParts v >>= fun parts =>
    match Operator.ofName? parts.1 with
    | none => .error (.unknownOperator parts.1)
    | some operator => argumentContent limits parts.1 parts.2 operator

/-- **A node is taken apart before its operands are read.** -/
theorem readLevels_succ (limits : Limits) (levels : Nat) (v : Json) :
    readLevels limits (levels + 1) v =
      content limits v >>= Content.complete (readLevels limits levels) := by
  rw [readLevels, content, bind_assoc]
  refine bind_congr fun parts => ?_
  obtain ⟨name, args⟩ := parts
  dsimp only
  cases Operator.ofName? name with
  | none => rfl
  | some operator =>
      cases operator with
      | equals =>
          simp only [argumentContent, bind_assoc, bind_map_left]
          rfl
      | oneOf =>
          simp only [argumentContent, bind_assoc, bind_map_left]
          rfl
      | junction connective =>
          simp only [argumentContent]
          split
          · rfl
          · exact bind_pure_comp _ _

theorem nodeParts_eq_ok_iff {v : Json} {name : String} {args : List Json} :
    nodeParts v = .ok (name, args) ↔ v.HasParts name args := by
  cases v with
  | object members =>
      rw [nodeParts, Json.HasParts, ← Json.bind_string?_eq_some_iff,
        ← Json.bind_array?_eq_some_iff, Json.member?_object,
        Json.member?_object]
      cases (members.lookup "op").bind Json.string? with
      | none => simp
      | some found =>
          cases (members.lookup "args").bind Json.array? with
          | none => simp
          | some items => simp
  | _ => simp [nodeParts, Json.HasParts, Json.member?]

theorem comparisonParts_eq_ok_iff {name property : String} {args : List Json}
    {operand : Json} :
    comparisonParts name args = .ok (property, operand) ↔
      ∃ reference, args = [reference, operand] ∧
        reference.RefersTo property := by
  match args with
  | [] => simp [comparisonParts]
  | [_] => simp [comparisonParts]
  | [reference, other] =>
      have hrefers : reference.RefersTo property ↔
          (reference.member? "property").bind Json.string? = some property :=
        Json.bind_string?_eq_some_iff.symm
      have hsides : (∃ other', [reference, other] = [other', operand] ∧
          other'.RefersTo property) ↔
            reference.RefersTo property ∧ other = operand := by
        simp [and_comm]
      rw [comparisonParts, hsides, hrefers]
      cases (reference.member? "property").bind Json.string? with
      | none => simp
      | some found => simp
  | _ :: _ :: _ :: _ => simp [comparisonParts]

theorem readScalar_eq_ok_iff {name : String} {operand : Json} {value : Scalar} :
    readScalar name operand = .ok value ↔ Scalar.StandsFor operand value := by
  rw [readScalar, ← Scalar.ofJson?_eq_some_iff]
  cases Scalar.ofJson? operand <;> simp

theorem readListed_eq_ok_iff {item : Json} {value : Scalar} :
    readListed item = .ok value ↔ Scalar.StandsFor item value := by
  rw [readListed, ← Scalar.ofJson?_eq_some_iff]
  cases Scalar.ofJson? item <;> simp

theorem readList_eq_ok_iff {limits : Limits} {operand : Json}
    {values : List Scalar} :
    readList limits operand = .ok values ↔
      ∃ items, operand = .array items ∧
        (1 ≤ items.length ∧ items.length ≤ limits.listLength) ∧
        List.Forall₂ Scalar.StandsFor items values := by
  cases operand with
  | array items =>
      rw [readList]
      by_cases hnil : items = []
      · simp [hnil]
      rw [if_neg hnil]
      have hpos : 1 ≤ items.length := List.length_pos_iff.2 hnil
      by_cases hlong : limits.listLength < items.length
      · simp [hlong, Nat.not_le.2 hlong]
      rw [if_neg hlong, mapM_eq_ok_iff]
      simp [readListed_eq_ok_iff, hpos, Nat.not_lt.1 hlong]
  | _ => simp [readList]

theorem content_of_hasParts {limits : Limits} {v : Json} {name : String}
    {args : List Json}
    {operator : Operator} (hparts : v.HasParts name args)
    (hname : operator.IsNamedBy name) :
    content limits v = argumentContent limits name args operator := by
  have hoperator := Operator.ofName?_eq_some_iff.2 hname
  rw [content, nodeParts_eq_ok_iff.2 hparts]
  show (match Operator.ofName? name with
    | none => Except.error (FilterError.unknownOperator name)
    | some operator => argumentContent limits name args operator) = _
  rw [hoperator]

theorem content_eq_ok_iff {limits : Limits} {v : Json} {c : Content} :
    content limits v = .ok c ↔ HasContent limits v c := by
  constructor
  · intro h
    obtain ⟨⟨name, args⟩, hparts, hrest⟩ := bind_eq_ok_iff.1 h
    rw [nodeParts_eq_ok_iff] at hparts
    dsimp only at hrest
    cases hoperator : Operator.ofName? name with
    | none =>
        rw [hoperator] at hrest
        cases hrest
    | some operator =>
        rw [hoperator] at hrest
        rw [Operator.ofName?_eq_some_iff] at hoperator
        cases operator with
        | equals =>
            obtain ⟨⟨property, operand⟩, hsides, hread⟩ :=
              bind_eq_ok_iff.1 hrest
            obtain ⟨reference, rfl, hreference⟩ :=
              comparisonParts_eq_ok_iff.1 hsides
            obtain ⟨value, hvalue, rfl⟩ := map_eq_ok_iff.1 hread
            exact .equals hparts hoperator hreference
              (readScalar_eq_ok_iff.1 hvalue)
        | oneOf =>
            obtain ⟨⟨property, operand⟩, hsides, hread⟩ :=
              bind_eq_ok_iff.1 hrest
            obtain ⟨reference, rfl, hreference⟩ :=
              comparisonParts_eq_ok_iff.1 hsides
            obtain ⟨values, hvalues, rfl⟩ := map_eq_ok_iff.1 hread
            obtain ⟨items, rfl, hlength, hvalues⟩ :=
              readList_eq_ok_iff.1 hvalues
            exact .oneOf hparts hoperator hreference hlength hvalues
        | junction connective =>
            simp only [argumentContent] at hrest
            split at hrest
            · cases hrest
            · rename_i hargs
              obtain rfl := Except.ok.inj hrest
              exact .junction hparts hoperator hargs
  · intro h
    cases h with
    | equals hparts hname hreference hvalue =>
        rw [content_of_hasParts hparts hname]
        exact bind_eq_ok_iff.2
          ⟨_, comparisonParts_eq_ok_iff.2 ⟨_, rfl, hreference⟩,
          map_eq_ok_iff.2 ⟨_, readScalar_eq_ok_iff.2 hvalue, rfl⟩⟩
    | oneOf hparts hname hreference hlength hvalues =>
        rw [content_of_hasParts hparts hname]
        exact bind_eq_ok_iff.2
          ⟨_, comparisonParts_eq_ok_iff.2 ⟨_, rfl, hreference⟩,
          map_eq_ok_iff.2 ⟨_, readList_eq_ok_iff.2 ⟨_, rfl, hlength, hvalues⟩,
            rfl⟩⟩
    | junction hparts hname hargs =>
        rw [content_of_hasParts hparts hname]
        exact if_neg hargs

/-! ## Reading -/

theorem readLevels_zero (limits : Limits) (v : Json) :
    readLevels limits 0 v = .error (.tooDeep limits.depth) := rfl

/-- **The reader accepts exactly what stands for a filter.**  The levels that
are left and the depth of a node add up to one more than the limit. -/
theorem readLevels_eq_ok_iff {limits : Limits} {levels depth : Nat}
    (h : depth + levels = limits.depth + 1) {v : Json} {f : Filter} :
    readLevels limits levels v = .ok f ↔ StandsFor limits depth v f := by
  induction levels generalizing depth v f with
  | zero =>
      rw [readLevels_zero]
      constructor
      · intro hread
        cases hread
      · intro hstands
        cases hstands with
        | condition hdepth _ => omega
        | junction hdepth _ _ _ => omega
  | succ levels ih =>
      have hdepth : depth ≤ limits.depth := by omega
      have hbelow : depth + 1 + levels = limits.depth + 1 := by omega
      rw [readLevels_succ, bind_eq_ok_iff]
      simp only [content_eq_ok_iff]
      constructor
      · rintro ⟨c, hcontent, hcomplete⟩
        cases c with
        | condition c =>
            obtain rfl := Except.ok.inj hcomplete
            exact .condition hdepth hcontent
        | junction connective args =>
            obtain ⟨operands, hoperands, rfl⟩ := map_eq_ok_iff.1 hcomplete
            rw [mapM_eq_ok_iff, List.forall₂_iff_zip] at hoperands
            exact .junction hdepth hcontent hoperands.1
              fun arg f hmem => (ih hbelow).1 (hoperands.2 hmem)
      · intro hstands
        cases hstands with
        | condition _ hcontent => exact ⟨_, hcontent, rfl⟩
        | junction _ hcontent hlength hoperands =>
            refine ⟨_, hcontent, map_eq_ok_iff.2 ⟨_, ?_, rfl⟩⟩
            rw [mapM_eq_ok_iff, List.forall₂_iff_zip]
            exact ⟨hlength, fun hmem => (ih hbelow).2 (hoperands _ _ hmem)⟩

theorem ofJson_eq_ok_iff {limits : Limits} {v : Json} {f : Filter} :
    ofJson limits v = .ok f ↔ StandsFor limits 1 v f :=
  readLevels_eq_ok_iff (Nat.add_comm _ _)

/-! ## What stands for a filter -/

/-- Each item of a list has a counterpart when some list is the counterpart of
all. -/
theorem exists_forall₂_iff {α β : Type} {R : α → β → Prop} {xs : List α} :
    (∃ ys, List.Forall₂ R xs ys) ↔ ∀ x ∈ xs, ∃ y, R x y := by
  induction xs with
  | nil => simp
  | cons x xs ih =>
      rw [List.forall_mem_cons, ← ih]
      simp only [List.forall₂_cons_left_iff]
      constructor
      · rintro ⟨_, y, ys, hx, hxs, rfl⟩
        exact ⟨⟨y, hx⟩, ys, hxs⟩
      · rintro ⟨⟨y, hx⟩, ys, hxs⟩
        exact ⟨_, y, ys, hx, hxs, rfl⟩

theorem isNode_of_standsFor {limits : Limits} {depth : Nat} {v : Json}
    {f : Filter}
    (h : StandsFor limits depth v f) : IsNode limits depth v := by
  induction h with
  | condition hdepth hcontent =>
      cases hcontent with
      | equals hparts hname hreference hvalue =>
          exact .equals hdepth hparts hname hreference
            (Scalar.exists_standsFor_iff.1 ⟨_, hvalue⟩)
      | oneOf hparts hname hreference hlength hvalues =>
          refine .oneOf hdepth hparts hname hreference hlength
            fun item hitem => ?_
          exact Scalar.exists_standsFor_iff.1
            (exists_forall₂_iff.1 ⟨_, hvalues⟩ item hitem)
  | @junction depth v connective args operands hdepth hcontent hlength _ ih =>
      cases hcontent with
      | junction hparts hname hargs =>
          refine .junction hdepth hparts hname hargs fun arg harg => ?_
          have hpaired :
              args.Forall₂ (fun arg f => (arg, f) ∈ args.zip operands)
                operands :=
            List.forall₂_iff_zip.2 ⟨hlength, id⟩
          obtain ⟨f, hmem⟩ := exists_forall₂_iff.1 ⟨operands, hpaired⟩ arg harg
          exact ih arg f hmem

/-- **The nodes are the values that stand for a filter.** -/
theorem exists_standsFor_iff {limits : Limits} {depth : Nat} {v : Json} :
    (∃ f, StandsFor limits depth v f) ↔ IsNode limits depth v := by
  constructor
  · rintro ⟨f, hstands⟩
    exact isNode_of_standsFor hstands
  · intro hnode
    induction hnode with
    | equals hdepth hparts hname hreference hoperand =>
        obtain ⟨value, hvalue⟩ := Scalar.exists_standsFor_iff.2 hoperand
        exact ⟨_, .condition hdepth (.equals hparts hname hreference hvalue)⟩
    | oneOf hdepth hparts hname hreference hlength hitems =>
        obtain ⟨values, hvalues⟩ := exists_forall₂_iff.2 fun item hitem =>
          Scalar.exists_standsFor_iff.2 (hitems item hitem)
        exact ⟨_,
          .condition hdepth (.oneOf hparts hname hreference hlength hvalues)⟩
    | junction hdepth hparts hname hargs _ ih =>
        obtain ⟨operands, hoperands⟩ := exists_forall₂_iff.2 ih
        rw [List.forall₂_iff_zip] at hoperands
        exact ⟨_, .junction hdepth (.junction hparts hname hargs) hoperands.1
          fun arg f hmem => hoperands.2 hmem⟩

end Filter

end ItemSearch
