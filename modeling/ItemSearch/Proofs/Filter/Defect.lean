import Mathlib
import ItemSearch.Proofs.FirstDefect
import ItemSearch.Proofs.Filter.Grammar

/-!
# Why a JSON value is no filter

What can be wrong with a single node, layer by layer: with the list of a
membership, with the sides of a comparison, with the arguments of an operator,
with the node.  Each case supposes that the checks before it have passed, so
that a node has one defect at most, and the relations say with which words and
as what kind of failure it is reported.

The nodes of a JSON value stand in one list, each before its operands.  Reading
is one pass over this list, so that a value is refused for the first node in it
that has a defect.

## Main results

* `erase_readLevels`: reading goes through the nodes in order.
* `inspect_eq_error_iff`: what is refused at one node.
* `ofJson_classifies`: what comes of any JSON value, from its nodes.
-/

namespace ItemSearch

namespace Json

/-! ## The nodes of a value -/

/-- The operands among the arguments of an operator: all of them for a junction,
and none for a comparison. -/
def operandsAmong (args : List Json) : Operator → List Json
  | .junction _ => args
  | .equals | .oneOf => []

/-- The operands of a node. -/
def operands (v : Json) : List Json :=
  match v.member? "op", v.member? "args" with
  | some (.string name), some (.array args) =>
      ((Operator.ofName? name).map (operandsAmong args)).getD []
  | _, _ => []

theorem operands_of_hasParts {v : Json} {name : String} {args : List Json}
    {operator : Operator} (hparts : v.HasParts name args)
    (hname : operator.IsNamedBy name) :
    v.operands = operandsAmong args operator := by
  rw [operands, hparts.1, hparts.2]
  simp only [Operator.ofName?_eq_some_iff.2 hname]
  rfl

theorem sizeOf_lt_of_member? {v w : Json} {key : String}
    (h : v.member? key = some w) :
    sizeOf w < sizeOf v := by
  cases v with
  | object members =>
      rw [member?_object] at h
      have hmember : ∀ members :
          List (String × Json), members.lookup key = some w →
          sizeOf w < sizeOf members := by
        intro members hlookup
        induction members with
        | nil => cases hlookup
        | cons member rest ih =>
            obtain ⟨key', value⟩ := member
            rw [List.lookup_cons] at hlookup
            split at hlookup
            · obtain rfl := Option.some.inj hlookup
              simp only [List.cons.sizeOf_spec, Prod.mk.sizeOf_spec]
              omega
            · have hrest := ih hlookup
              simp only [List.cons.sizeOf_spec]
              omega
      have hlt := hmember members h
      simp only [object.sizeOf_spec]
      omega
  | _ => cases h

theorem sizeOf_lt_of_mem_operands {v w : Json} (h : w ∈ v.operands) :
    sizeOf w < sizeOf v := by
  rw [operands] at h
  split at h
  · rename_i name args hop hargs
    have hmem : w ∈ args := by
      cases hoperator : Operator.ofName? name with
      | none => simp [hoperator] at h
      | some operator => cases operator <;> simp_all [operandsAmong]
    have hitem : sizeOf w < sizeOf args := List.sizeOf_lt_of_mem hmem
    have harray := sizeOf_lt_of_member? hargs
    simp only [array.sizeOf_spec] at harray
    omega
  · cases h

/-- The nodes of a value at the given depth, each with its depth and before its
operands. -/
def nodesFrom (depth : Nat) (v : Json) : List (Nat × Json) :=
  (depth, v) :: v.operands.attach.flatMap fun operand =>
    nodesFrom (depth + 1) operand.1
termination_by sizeOf v
decreasing_by exact sizeOf_lt_of_mem_operands operand.2

/-- The nodes of a value, each with its depth; the value itself has depth
one. -/
def nodes (v : Json) : List (Nat × Json) :=
  v.nodesFrom 1

theorem nodesFrom_eq (depth : Nat) (v : Json) :
    v.nodesFrom depth =
      (depth, v) :: v.operands.flatMap (nodesFrom (depth + 1)) := by
  rw [nodesFrom]
  simp only [List.flatMap_subtype, List.unattach_attach]

/-! ## Defects -/

/-- What is wrong with the list of a membership. -/
inductive ListDefect (limits : Limits) : Json → FilterError → Prop where
  | notAList {operand : Json} (h : ∀ items, operand ≠ .array items) :
      ListDefect limits operand (.notAList operand)
  | empty : ListDefect limits (.array []) .emptyList
  | tooLong {items : List Json} (h : limits.listLength < items.length) :
      ListDefect limits (.array items)
        (.listTooLong items.length limits.listLength)
  | nonScalar {before after : List Json} {item : Json}
      (hlength : (before ++ item :: after).length ≤ limits.listLength)
      (hbefore : ∀ other ∈ before, other.IsScalar) (hitem : ¬ item.IsScalar) :
      ListDefect limits (.array (before ++ item :: after))
        (.nonScalarInList item)

/-- What is wrong with the sides of a comparison. -/
inductive SidesDefect (name : String) : List Json → FilterError → Prop where
  | wrongArity {args : List Json} (h : args.length ≠ 2) :
      SidesDefect name args (.wrongArity name args.length)
  | notAProperty {reference operand : Json}
      (h : ∀ property, ¬ reference.RefersTo property) :
      SidesDefect name [reference, operand] (.notAProperty name reference)

/-- What is wrong with the arguments of an operator. -/
inductive ArgumentDefect (limits : Limits) (name : String) (args : List Json) :
    Operator → FilterError → Prop where
  | sides {operator : Operator} {e : FilterError}
      (hoperator : operator = .equals ∨ operator = .oneOf)
      (h : SidesDefect name args e) :
      ArgumentDefect limits name args operator e
  | notAScalar {reference operand : Json} {property : String}
      (hargs : args = [reference, operand])
      (hreference : reference.RefersTo property) (h : ¬ operand.IsScalar) :
      ArgumentDefect limits name args .equals (.notAScalar name operand)
  | list {reference operand : Json} {property : String} {e : FilterError}
      (hargs : args = [reference, operand])
      (hreference : reference.RefersTo property)
      (h : ListDefect limits operand e) :
      ArgumentDefect limits name args .oneOf e
  | noOperands {connective : Connective} (h : args = []) :
      ArgumentDefect limits name args (.junction connective) (.noOperands name)

/-- What is wrong with the parts of a node. -/
inductive PartsDefect : Json → FilterError → Prop where
  | notANode {v : Json} (h : ∀ members, v ≠ .object members) :
      PartsDefect v (.notANode v)
  | missingOperator {members : List (String × Json)}
      (h : ∀ name, (object members).member? "op" ≠ some (.string name)) :
      PartsDefect (.object members) .missingOperator
  | missingArguments {v : Json} {name : String}
      (hop : v.member? "op" = some (.string name))
      (h : ∀ args, v.member? "args" ≠ some (.array args)) :
      PartsDefect v (.missingArguments name)

/-- What is wrong with a node by itself, the kind of failure that this is and
the error that reports it. -/
inductive NodeDefect (limits : Limits) :
    Nat × Json → FailureKind → FilterError → Prop where
  | tooDeep {depth : Nat} {v : Json} (h : limits.depth < depth) :
      NodeDefect limits (depth, v) .malformedFilter (.tooDeep limits.depth)
  | parts {depth : Nat} {v : Json} {e : FilterError}
      (hdepth : depth ≤ limits.depth)
      (h : PartsDefect v e) : NodeDefect limits (depth, v) .malformedFilter e
  | unknownOperator {depth : Nat} {v : Json} {name : String} {args : List Json}
      (hdepth : depth ≤ limits.depth) (hparts : v.HasParts name args)
      (h : ∀ operator : Operator, ¬ operator.IsNamedBy name) :
      NodeDefect limits (depth, v) .unsupportedOperator (.unknownOperator name)
  | arguments {depth : Nat} {v : Json} {name : String} {args : List Json}
      {operator : Operator} {e : FilterError} (hdepth : depth ≤ limits.depth)
      (hparts : v.HasParts name args) (hname : operator.IsNamedBy name)
      (h : ArgumentDefect limits name args operator e) :
      NodeDefect limits (depth, v) .malformedFilter e

end Json

namespace Filter

open Outcome Json

variable {limits : Limits} {name : String} {args : List Json} {e : FilterError}

/-! ## What each part of the reader refuses -/

theorem readScalar_eq_error_iff {operand : Json} :
    readScalar name operand = .error e ↔
      ¬ operand.IsScalar ∧ e = .notAScalar name operand := by
  rw [readScalar, ← Scalar.ofJson?_eq_none_iff]
  cases Scalar.ofJson? operand <;> simp [eq_comm]

theorem readListed_eq_error_iff {item : Json} :
    readListed item = .error e ↔
      ¬ item.IsScalar ∧ e = .nonScalarInList item := by
  rw [readListed, ← Scalar.ofJson?_eq_none_iff]
  cases Scalar.ofJson? item <;> simp [eq_comm]

theorem mapM_readListed_eq_error_iff {items : List Json} :
    items.mapM readListed = .error e ↔
      ∃ before item after, items = before ++ item :: after ∧
        (∀ other ∈ before, other.IsScalar) ∧ ¬ item.IsScalar ∧
          e = .nonScalarInList item := by
  rw [mapM_eq_error_iff]
  simp only [readListed_eq_ok_iff, Scalar.exists_standsFor_iff,
    readListed_eq_error_iff]

theorem readList_eq_error_iff {operand : Json} :
    readList limits operand = .error e ↔ ListDefect limits operand e := by
  constructor
  · intro h
    cases operand with
    | array items =>
        rw [readList] at h
        split_ifs at h with hnil hlong
        · subst hnil
          obtain rfl := Except.error.inj h
          exact .empty
        · obtain rfl := Except.error.inj h
          exact .tooLong hlong
        · obtain ⟨before, item, after, rfl, hbefore, hitem, rfl⟩ :=
            mapM_readListed_eq_error_iff.1 h
          exact .nonScalar (Nat.not_lt.1 hlong) hbefore hitem
    | _ =>
        obtain rfl := Except.error.inj h
        exact .notAList (by simp)
  · intro h
    cases h with
    | notAList hother =>
        cases operand with
        | array items => exact absurd rfl (hother items)
        | _ => rfl
    | empty => rfl
    | @tooLong items hlong =>
        have hnil : items ≠ [] := by
          intro heq
          subst heq
          simp at hlong
        rw [readList, if_neg hnil, if_pos hlong]
    | @nonScalar before after item hlength hbefore hitem =>
        have hnil : before ++ item :: after ≠ [] := by simp
        rw [readList, if_neg hnil, if_neg (Nat.not_lt.2 hlength)]
        exact mapM_readListed_eq_error_iff.2
          ⟨before, item, after, rfl, hbefore, hitem, rfl⟩

theorem comparisonParts_of_length_ne (h : args.length ≠ 2) :
    comparisonParts name args = .error (.wrongArity name args.length) := by
  unfold comparisonParts
  split
  · exact absurd rfl h
  · rfl

theorem comparisonParts_pair_eq_error_iff {reference operand : Json} :
    comparisonParts name [reference, operand] = .error e ↔
      (∀ property, ¬ reference.RefersTo property) ∧
        e = .notAProperty name reference := by
  have hrefers : ∀ property, reference.RefersTo property ↔
      (reference.member? "property").bind string? = some property :=
    fun property => bind_string?_eq_some_iff.symm
  rw [comparisonParts]
  simp only [hrefers]
  cases (reference.member? "property").bind string? with
  | some property => simp
  | none => simp [eq_comm]

theorem comparisonParts_eq_error_iff :
    comparisonParts name args = .error e ↔ SidesDefect name args e := by
  constructor
  · intro h
    by_cases hlength : args.length = 2
    · obtain ⟨reference, operand, rfl⟩ := List.length_eq_two.1 hlength
      obtain ⟨hnone, rfl⟩ := comparisonParts_pair_eq_error_iff.1 h
      exact .notAProperty hnone
    · rw [comparisonParts_of_length_ne hlength] at h
      obtain rfl := Except.error.inj h
      exact .wrongArity hlength
  · intro h
    cases h with
    | wrongArity hlength => exact comparisonParts_of_length_ne hlength
    | notAProperty hnone =>
        exact comparisonParts_pair_eq_error_iff.2 ⟨hnone, rfl⟩

theorem argumentContent_eq_error_iff {operator : Operator} :
    argumentContent limits name args operator = .error e ↔
      ArgumentDefect limits name args operator e := by
  constructor
  · intro h
    cases operator with
    | equals =>
        rcases bind_eq_error_iff.1 h with
            hsides | ⟨⟨property, operand⟩, hsides, hread⟩
        · exact .sides (.inl rfl) (comparisonParts_eq_error_iff.1 hsides)
        · obtain ⟨reference, rfl, hreference⟩ :=
            comparisonParts_eq_ok_iff.1 hsides
          obtain ⟨hscalar, rfl⟩ :=
            readScalar_eq_error_iff.1 (map_eq_error_iff.1 hread)
          exact .notAScalar rfl hreference hscalar
    | oneOf =>
        rcases bind_eq_error_iff.1 h with
            hsides | ⟨⟨property, operand⟩, hsides, hread⟩
        · exact .sides (.inr rfl) (comparisonParts_eq_error_iff.1 hsides)
        · obtain ⟨reference, rfl, hreference⟩ :=
            comparisonParts_eq_ok_iff.1 hsides
          exact .list rfl hreference
            (readList_eq_error_iff.1 (map_eq_error_iff.1 hread))
    | junction connective =>
        simp only [argumentContent] at h
        split_ifs at h with hnil
        obtain rfl := Except.error.inj h
        exact .noOperands hnil
  · intro h
    cases h with
    | sides hoperator hsides =>
        have hfails := comparisonParts_eq_error_iff.2 hsides
        rcases hoperator with rfl | rfl
        · exact bind_eq_error_iff.2 (.inl hfails)
        · exact bind_eq_error_iff.2 (.inl hfails)
    | notAScalar hargs hreference hscalar =>
        have hsides :=
          @comparisonParts_eq_ok_iff name _ _ _ |>.2 ⟨_, hargs, hreference⟩
        exact bind_eq_error_iff.2 (.inr ⟨_, hsides,
          map_eq_error_iff.2 (readScalar_eq_error_iff.2 ⟨hscalar, rfl⟩)⟩)
    | list hargs hreference hlist =>
        have hsides :=
          @comparisonParts_eq_ok_iff name _ _ _ |>.2 ⟨_, hargs, hreference⟩
        exact bind_eq_error_iff.2 (.inr ⟨_, hsides,
          map_eq_error_iff.2 (readList_eq_error_iff.2 hlist)⟩)
    | noOperands hnil =>
        subst hnil
        rfl

theorem nodeParts_object (members : List (String × Json)) :
    nodeParts (.object members) =
      match ((object members).member? "op").bind string? with
      | none => .error .missingOperator
      | some name =>
          match ((object members).member? "args").bind array? with
          | none => .error (.missingArguments name)
          | some args => .ok (name, args) := rfl

theorem nodeParts_eq_error_iff {v : Json} :
    nodeParts v = .error e ↔ PartsDefect v e := by
  constructor
  · intro h
    cases v with
    | object members =>
        rw [nodeParts_object] at h
        split at h
        · rename_i hop
          obtain rfl := Except.error.inj h
          refine .missingOperator fun name hname => ?_
          rw [bind_string?_eq_some_iff.2 hname] at hop
          cases hop
        · rename_i name hop
          split at h
          · rename_i hargs
            obtain rfl := Except.error.inj h
            refine .missingArguments (bind_string?_eq_some_iff.1 hop)
              fun args hfound => ?_
            rw [bind_array?_eq_some_iff.2 hfound] at hargs
            cases hargs
          · cases h
    | _ =>
        obtain rfl := Except.error.inj h
        exact .notANode (by simp)
  · intro h
    cases h with
    | notANode hother =>
        cases v with
        | object members => exact absurd rfl (hother members)
        | _ => rfl
    | missingOperator hnone =>
        rw [nodeParts_object]
        split
        · rfl
        · rename_i name hop
          exact absurd (bind_string?_eq_some_iff.1 hop) (hnone name)
    | missingArguments hop hnone =>
        cases v with
        | object members =>
            rw [nodeParts_object, bind_string?_eq_some_iff.2 hop]
            dsimp only
            split
            · rfl
            · rename_i args hargs
              exact absurd (bind_array?_eq_some_iff.1 hargs) (hnone args)
        | _ => cases hop

/-! ## What is refused at one node -/

theorem kind_of_partsDefect {v : Json} (h : PartsDefect v e) :
    e.kind = .malformedFilter := by
  cases h <;> rfl

theorem kind_of_argumentDefect {operator : Operator}
    (h : ArgumentDefect limits name args operator e) :
    e.kind = .malformedFilter := by
  cases h with
  | sides _ hsides => cases hsides <;> rfl
  | notAScalar _ _ _ => rfl
  | list _ _ hlist => cases hlist <;> rfl
  | noOperands _ => rfl

/-- What is checked at a node, its operands left aside. -/
def inspect (limits : Limits) (node : Nat × Json) : Except FilterError Unit :=
  if limits.depth < node.1 then .error (.tooDeep limits.depth)
  else (fun _ => ()) <$> content limits node.2

theorem inspect_of_le {depth : Nat} (hdepth : depth ≤ limits.depth) (v : Json) :
    inspect limits (depth, v) = (fun _ => ()) <$> content limits v :=
  if_neg (Nat.not_lt.2 hdepth)

/-- A node is refused for its parts, for the name of its operator or for its
arguments. -/
theorem nodeDefect_of_content {depth : Nat} {v : Json}
    (hdepth : depth ≤ limits.depth)
    (h : content limits v = .error e) :
    NodeDefect limits (depth, v) e.kind e := by
  rcases bind_eq_error_iff.1 h with hparts | ⟨⟨name, args⟩, hparts, hrest⟩
  · have hdefect := nodeParts_eq_error_iff.1 hparts
    rw [kind_of_partsDefect hdefect]
    exact .parts hdepth hdefect
  · rw [nodeParts_eq_ok_iff] at hparts
    dsimp only at hrest
    cases hoperator : Operator.ofName? name with
    | none =>
        rw [hoperator] at hrest
        obtain rfl := Except.error.inj hrest
        refine .unknownOperator hdepth hparts fun operator hname => ?_
        rw [Operator.ofName?_eq_some_iff.2 hname] at hoperator
        cases hoperator
    | some operator =>
        rw [hoperator] at hrest
        have hdefect := argumentContent_eq_error_iff.1 hrest
        rw [kind_of_argumentDefect hdefect]
        exact .arguments hdepth hparts
          (Operator.ofName?_eq_some_iff.1 hoperator) hdefect

theorem inspect_of_nodeDefect {node : Nat × Json} {kind : FailureKind}
    (h : NodeDefect limits node kind e) :
    inspect limits node = .error e ∧ e.kind = kind := by
  cases h with
  | tooDeep hdeep => exact ⟨if_pos hdeep, rfl⟩
  | parts hdepth hdefect =>
      rw [inspect_of_le hdepth, map_eq_error_iff]
      exact ⟨bind_eq_error_iff.2 (.inl (nodeParts_eq_error_iff.2 hdefect)),
        kind_of_partsDefect hdefect⟩
  | @unknownOperator depth v name args hdepth hparts hnone =>
      have hoperator : Operator.ofName? name = none := by
        rw [Option.eq_none_iff_forall_ne_some]
        intro operator hname
        exact hnone operator (Operator.ofName?_eq_some_iff.1 hname)
      rw [inspect_of_le hdepth, map_eq_error_iff]
      refine ⟨bind_eq_error_iff.2 (.inr ⟨_, nodeParts_eq_ok_iff.2 hparts, ?_⟩),
        rfl⟩
      simp only [hoperator]
  | arguments hdepth hparts hname hdefect =>
      rw [inspect_of_le hdepth, map_eq_error_iff,
        content_of_hasParts hparts hname]
      exact ⟨argumentContent_eq_error_iff.2 hdefect,
        kind_of_argumentDefect hdefect⟩

/-- **What is refused at one node** is what is wrong with it. -/
theorem inspect_eq_error_iff {node : Nat × Json} :
    inspect limits node = .error e ↔ NodeDefect limits node e.kind e := by
  constructor
  · intro h
    obtain ⟨depth, v⟩ := node
    by_cases hdeep : limits.depth < depth
    · obtain rfl := Except.error.inj ((if_pos hdeep).symm.trans h)
      exact .tooDeep hdeep
    · have hdepth := Nat.not_lt.1 hdeep
      rw [inspect_of_le hdepth, map_eq_error_iff] at h
      exact nodeDefect_of_content hdepth h
  · intro h
    exact (inspect_of_nodeDefect h).1

/-! ## The pass over the nodes -/

theorem operands_of_hasContent {v : Json} {c : Content}
    (h : HasContent limits v c) :
    v.operands = c.operands := by
  cases h with
  | equals hparts hname _ _ => exact operands_of_hasParts hparts hname
  | oneOf hparts hname _ _ _ => exact operands_of_hasParts hparts hname
  | junction hparts hname _ => exact operands_of_hasParts hparts hname

/-- **Reading goes through the nodes in order**, if what comes of it is left
aside.  The levels that are left and the depth of a node add up to one more than
the limit. -/
theorem erase_readLevels {levels depth : Nat}
    (h : depth + levels = limits.depth + 1)
    (v : Json) :
    (fun _ => ()) <$> readLevels limits levels v =
      (v.nodesFrom depth).foldlM (fun _ node => inspect limits node) () := by
  induction levels generalizing depth v with
  | zero =>
      have hdeep : limits.depth < depth := by omega
      have hhead : inspect limits (depth, v) = .error (.tooDeep limits.depth) :=
        if_pos hdeep
      rw [nodesFrom_eq, List.foldlM_cons, hhead]
      rfl
  | succ levels ih =>
      have hdepth : depth ≤ limits.depth := by omega
      have hbelow : depth + 1 + levels = limits.depth + 1 := by omega
      rw [readLevels_succ, nodesFrom_eq, List.foldlM_cons, inspect_of_le hdepth]
      cases hcontent : content limits v with
      | error e => rfl
      | ok c =>
          rw [operands_of_hasContent (content_eq_ok_iff.1 hcontent)]
          cases c with
          | condition c => rfl
          | junction connective args =>
              have hoperands := erase_mapM_eq_foldlM (ih hbelow) args
              show (fun _ => ()) <$> (junction connective <$> args.mapM
                  (readLevels limits levels)) =
                (args.flatMap (Json.nodesFrom (depth + 1))).foldlM
                  (fun _ node => inspect limits node) ()
              rw [← hoperands]
              cases args.mapM (readLevels limits levels) <;> rfl

theorem refuses_inspect (limits : Limits) :
    Refuses (fun _ node => inspect limits node) ()
      (fun _ node e => NodeDefect limits node e.kind e) :=
  fun _ _ _ _ _ => inspect_eq_error_iff

/-- A value is refused for the first of its nodes that has a defect. -/
theorem ofJson_eq_error_iff {v : Json} :
    ofJson limits v = .error e ↔
      FirstDefect (fun _ node e => NodeDefect limits node e.kind e) v.nodes
        e := by
  have hpass := @erase_readLevels limits _ _ (Nat.add_comm 1 limits.depth) v
  rw [← foldlM_eq_error_iff_firstDefect (refuses_inspect limits), Json.nodes,
    ← hpass, map_eq_error_iff]
  rfl

/-- **The reader accepts exactly the nodes and reports the first defect**: a
value is read when it is a node at depth one, as the filter that it stands for,
and otherwise it is refused for the first of its nodes that has a defect. -/
theorem ofJson_classifies (limits : Limits) (v : Json) :
    ((∃ f, ofJson limits v = .ok f) ↔ IsNode limits 1 v) ∧
    (∀ f, ofJson limits v = .ok f ↔ StandsFor limits 1 v f) ∧
    (∀ e, ofJson limits v = .error e ↔
      FirstDefect (fun _ node e => NodeDefect limits node e.kind e) v.nodes
        e) := by
  refine ⟨?_, fun f => ofJson_eq_ok_iff, fun e => ofJson_eq_error_iff⟩
  simp only [ofJson_eq_ok_iff]
  exact exists_standsFor_iff

end Filter

end ItemSearch
