import Mathlib
import ItemSearch.Json.Printer
import ItemSearch.Json.Reader
import ItemSearch.Proofs.Json.Scanning

/-!
# A value reads back from its text

The text of a value holds its tokens, and in these no two words or numbers stand
next to each other, so the tokens are found again.  Of the reader it is said
once what the tokens of a value do to it: wherever a value is due, they put the
reader behind this value, with the open arrays and objects as they were,
provided that these and the value together do not nest deeper than the limit.
Deeper than that the tokens are refused.  For arrays and objects this follows by
induction on the items and members that are still to come.

An object of which two members have one key is not read back, since the later
member takes the place of the earlier.

## Main results

* `isChain_tokens`: the tokens of a value are apart.
* `readsBack`: the tokens of a value take the reader behind that value.
* `ofText?_text`: which values read back, for any limit on the nesting.
-/

namespace ItemSearch.Json

/-- What holds for values without parts, and for an array or an object as soon
as it holds for the items or for the values of the members, holds for every
value. -/
theorem induction {P : Json → Prop} (null : P .null)
    (bool : ∀ value, P (.bool value))
    (number : ∀ value, P (.number value)) (string : ∀ value, P (.string value))
    (array : ∀ items, (∀ item ∈ items, P item) → P (.array items))
    (object : ∀ members, (∀ member ∈ members, P member.2) → P (.object members))
    (v : Json) : P v :=
  @Json.rec P (fun items => ∀ item ∈ items, P item)
    (fun members => ∀ member ∈ members, P member.2) (fun member => P member.2)
    null bool number string array object
    (by simp) (fun _ _ hhead htail => List.forall_mem_cons.2 ⟨hhead, htail⟩)
    (by simp) (fun _ _ hhead htail => List.forall_mem_cons.2 ⟨hhead, htail⟩)
    (fun _ _ hvalue => hvalue) v

/-! ## Nesting and keys -/

mutual

/-- How deep the arrays and objects of a value nest. -/
def nesting : Json → Nat
  | .null | .bool _ | .number _ | .string _ => 0
  | .array items => itemNesting items + 1
  | .object members => memberNesting members + 1

/-- How deep the deepest of some items nests. -/
def itemNesting : List Json → Nat
  | [] => 0
  | item :: rest => max item.nesting (itemNesting rest)

/-- How deep the deepest of some members nests. -/
def memberNesting : List (String × Json) → Nat
  | [] => 0
  | (_, value) :: rest => max value.nesting (memberNesting rest)

end

theorem itemNesting_le_iff {items : List Json} {n : Nat} :
    itemNesting items ≤ n ↔ ∀ item ∈ items, item.nesting ≤ n := by
  induction items with
  | nil => simp [itemNesting]
  | cons item rest ih => rw [itemNesting, Nat.max_le, ih, List.forall_mem_cons]

/-- No object in a value has two members with one key. -/
inductive HasDistinctKeys : Json → Prop where
  | null : HasDistinctKeys .null
  | bool (value : Bool) : HasDistinctKeys (.bool value)
  | number (value : Number) : HasDistinctKeys (.number value)
  | string (value : String) : HasDistinctKeys (.string value)
  | array {items : List Json} (hitems : ∀ item ∈ items, HasDistinctKeys item) :
      HasDistinctKeys (.array items)
  | object {members : List (String × Json)}
      (hkeys : (members.map Prod.fst).Nodup)
      (hmembers : ∀ member ∈ members, HasDistinctKeys member.2) :
      HasDistinctKeys (.object members)

/-! ## The tokens of a value -/

theorem isChain_cons_of_isMark {t : Token} {ts : List Token} (ht : t.IsMark)
    (hts : ts.IsChain Apart) : (t :: ts).IsChain Apart :=
  List.isChain_cons.2 ⟨fun _ _ => .inl ht, hts⟩

theorem isChain_append_of_isMark {ts us : List Token} (hts : ts.IsChain Apart)
    (hus : us.IsChain Apart) (hfirst : ∀ u ∈ us.head?, u.IsMark) :
    (ts ++ us).IsChain Apart :=
  List.isChain_append.2 ⟨hts, hus, fun _ _ u hu => .inr (hfirst u hu)⟩

/-- What follows an item up to the end of its array. -/
theorem isChain_laterItemTokens {items : List Json}
    (h : ∀ item ∈ items, item.tokens.IsChain Apart) :
    (laterItemTokens items ++ [Token.closeArray]).IsChain Apart ∧
      ∀ t ∈ (laterItemTokens items ++ [Token.closeArray]).head?, t.IsMark := by
  induction items with
  | nil => simp [laterItemTokens, Token.IsMark]
  | cons item rest ih =>
      obtain ⟨hitem, hrest⟩ := List.forall_mem_cons.1 h
      obtain ⟨hchain, hfirst⟩ := ih hrest
      rw [laterItemTokens, List.cons_append, List.append_assoc]
      exact ⟨isChain_cons_of_isMark trivial
        (isChain_append_of_isMark hitem hchain hfirst), by simp [Token.IsMark]⟩

/-- What follows a member up to the end of its object. -/
theorem isChain_laterMemberTokens {members : List (String × Json)}
    (h : ∀ member ∈ members, member.2.tokens.IsChain Apart) :
    (laterMemberTokens members ++ [Token.closeObject]).IsChain Apart ∧
      ∀ t ∈ (laterMemberTokens members ++ [Token.closeObject]).head?,
        t.IsMark := by
  induction members with
  | nil => simp [laterMemberTokens, Token.IsMark]
  | cons member rest ih =>
      obtain ⟨key, value⟩ := member
      obtain ⟨hvalue, hrest⟩ := List.forall_mem_cons.1 h
      obtain ⟨hchain, hfirst⟩ := ih hrest
      have hbehind := isChain_cons_of_isMark (t := .colon) trivial
        (isChain_append_of_isMark hvalue hchain hfirst)
      have hkey :=
        isChain_append_of_isMark
          (List.isChain_singleton (Token.string key)) hbehind
        (by simp [Token.IsMark])
      rw [laterMemberTokens, List.cons_append, List.cons_append,
        List.cons_append, List.append_assoc]
      exact ⟨isChain_cons_of_isMark trivial hkey, by simp [Token.IsMark]⟩

/-- **The tokens of a value are apart from each other.** -/
theorem isChain_tokens (v : Json) : v.tokens.IsChain Apart := by
  induction v using induction with
  | null => simp [tokens]
  | bool value => simp [tokens]
  | number value => simp [tokens]
  | string value => simp [tokens]
  | array items ih =>
      rw [tokens]
      refine isChain_cons_of_isMark trivial ?_
      cases items with
      | nil => simp [itemTokens]
      | cons item rest =>
          -- The first item is written like a later one without its comma.
          exact (isChain_laterItemTokens ih).1.tail
  | object members ih =>
      rw [tokens]
      refine isChain_cons_of_isMark trivial ?_
      cases members with
      | nil => simp [memberTokens]
      | cons member rest =>
          exact (isChain_laterMemberTokens ih).1.tail

theorem scan?_chars (v : Json) : Token.scan? v.chars = some v.tokens :=
  scan?_flatMap_chars v.isChain_tokens

/-! ## What the tokens of a value do to the reader -/

theorem put_of_not_mem {members : List (String × Json)} {key : String}
    {value : Json}
    (h : key ∉ members.map Prod.fst) :
    put members key value = members ++ [(key, value)] := by
  induction members with
  | nil => rfl
  | cons member rest ih =>
      obtain ⟨key', value'⟩ := member
      rw [List.map_cons, List.mem_cons, not_or] at h
      obtain ⟨hkey, hrest⟩ := h
      rw [put, if_neg (Ne.symm hkey), ih hrest, List.cons_append]

theorem put_of_nodup {before members : List (String × Json)} {key : String}
    {value : Json}
    (h : ((before ++ (key, value) :: members).map Prod.fst).Nodup) :
    put before key value = before ++ [(key, value)] := by
  rw [List.map_append, List.map_cons] at h
  exact put_of_not_mem fun hmem =>
    List.disjoint_of_nodup_append h hmem List.mem_cons_self

open Reader

variable {limit : Nat}

/-- Wherever a value is due, the tokens of this value put the reader behind it,
if the nesting stays within the limit, and are refused otherwise. -/
def ReadsBack (limit : Nat) (v : Json) : Prop :=
  ∀ (frames : List Frame) (mayClose : Bool), frames.length ≤ limit →
    v.tokens.foldlM (step? limit) (.value frames mayClose) =
      if frames.length + v.nesting ≤ limit then
        some (.behind frames v)
      else
        none

/-- Two tests of the limit, one after the other, are one test of both. -/
theorem ite_bind_ite {α β : Type} {p q r : Prop} [Decidable p] [Decidable q]
    [Decidable r]
    (h : r ↔ p ∧ q) {a : α} {b : β} {f : α → Option β}
    (hf : f a = if q then some b else none) :
    (if p then some a else none).bind f = if r then some b else none := by
  by_cases hp : p
  · by_cases hq : q
    · rw [if_pos hp, if_pos (h.2 ⟨hp, hq⟩), Option.bind_some, hf, if_pos hq]
    · rw [if_pos hp, if_neg fun hr => hq (h.1 hr).2, Option.bind_some, hf,
        if_neg hq]
  · rw [if_neg hp, if_neg fun hr => hp (h.1 hr).1, Option.bind_none]

/-- The items that follow an item, and the end of their array. -/
theorem foldlM_laterItemTokens {items : List Json}
    (hitems : ∀ item ∈ items, ReadsBack limit item)
    {frames : List Frame} (hframes : frames.length < limit) (before : List Json)
    (v : Json) :
    (laterItemTokens items ++ [Token.closeArray]).foldlM (step? limit)
        (.behind (.array before :: frames) v) =
      if frames.length + 1 + itemNesting items ≤ limit then
        some (.behind frames (.array ((v :: before).reverse ++ items)))
      else none := by
  induction items generalizing before v with
  | nil =>
      rw [itemNesting, if_pos (by omega), List.append_nil]
      rfl
  | cons item rest ih =>
      obtain ⟨hitem, hrest⟩ := List.forall_mem_cons.1 hitems
      have hread := hitem (.array (v :: before) :: frames) false hframes
      have hlater := ih hrest (v :: before) item
      rw [List.reverse_cons, List.append_assoc, List.singleton_append] at hlater
      rw [laterItemTokens, List.cons_append, List.foldlM_cons,
        List.append_assoc]
      -- The comma has been read.
      show ((item.tokens ++ (laterItemTokens rest ++ [Token.closeArray])).foldlM
        (step? limit) (.value (.array (v :: before) :: frames) false)) = _
      rw [List.foldlM_append, hread]
      refine ite_bind_ite ?_ hlater
      rw [itemNesting, List.length_cons]
      omega

/-- The members that follow a member, and the end of their object. -/
theorem foldlM_laterMemberTokens {members : List (String × Json)}
    (hmembers : ∀ member ∈ members, ReadsBack limit member.2)
    {frames : List Frame} (hframes : frames.length < limit)
    (before : List (String × Json)) {key : String} {v : Json}
    (hkeys : ((before ++ (key, v) :: members).map Prod.fst).Nodup) :
    (laterMemberTokens members ++ [Token.closeObject]).foldlM (step? limit)
        (.behind (.object before key :: frames) v) =
      if frames.length + 1 + memberNesting members ≤ limit then
        some (.behind frames (.object (before ++ (key, v) :: members)))
      else none := by
  induction members generalizing before key v with
  | nil =>
      rw [memberNesting, if_pos (by omega), ← put_of_nodup hkeys]
      rfl
  | cons member rest ih =>
      obtain ⟨key', value⟩ := member
      obtain ⟨hvalue, hrest⟩ := List.forall_mem_cons.1 hmembers
      have hread :=
        hvalue (.object (before ++ [(key, v)]) key' :: frames) false hframes
      have hsplit : before ++ (key, v) :: (key', value) :: rest =
          (before ++ [(key, v)]) ++ (key', value) :: rest := by simp
      have hlater := ih hrest (before ++ [(key, v)]) (hsplit ▸ hkeys)
      rw [← hsplit] at hlater
      rw [laterMemberTokens, List.cons_append, List.cons_append,
        List.cons_append, List.foldlM_cons, List.append_assoc]
      -- The comma, the key and the colon have been read.
      show ((value.tokens ++
        (laterMemberTokens rest ++ [Token.closeObject])).foldlM (step? limit)
        (.value (.object (put before key v) key' :: frames) false)) = _
      rw [put_of_nodup hkeys, List.foldlM_append, hread]
      refine ite_bind_ite ?_ hlater
      rw [memberNesting, List.length_cons]
      dsimp only
      omega

/-- An array is read back as soon as its items are. -/
theorem ReadsBack.array {items : List Json}
    (h : ∀ item ∈ items, ReadsBack limit item) :
    ReadsBack limit (.array items) := by
  intro frames mayClose _
  rw [tokens, nesting, List.foldlM_cons]
  by_cases hframes : frames.length < limit
  · have hopen : step? limit (.value frames mayClose) .openArray =
        some (.value (.array [] :: frames) true) := if_pos hframes
    rw [hopen]
    cases items with
    | nil =>
        rw [itemNesting, if_pos (by omega)]
        rfl
    | cons item rest =>
        obtain ⟨hitem, hrest⟩ := List.forall_mem_cons.1 h
        have hread := hitem (.array [] :: frames) true hframes
        have hlater := foldlM_laterItemTokens hrest hframes [] item
        show (itemTokens (item :: rest) ++ [Token.closeArray]).foldlM
          (step? limit) (.value (.array [] :: frames) true) = _
        rw [itemTokens, List.append_assoc, List.foldlM_append, hread]
        refine ite_bind_ite ?_ hlater
        rw [itemNesting, List.length_cons]
        omega
  · have hopen : step? limit (.value frames mayClose) .openArray = none :=
      if_neg hframes
    rw [hopen, if_neg (by omega)]
    rfl

/-- An object is read back as soon as the values of its members are, if its keys
are distinct. -/
theorem ReadsBack.object {members : List (String × Json)}
    (hkeys : (members.map Prod.fst).Nodup)
    (h : ∀ member ∈ members, ReadsBack limit member.2) :
    ReadsBack limit (.object members) := by
  intro frames mayClose _
  rw [tokens, nesting, List.foldlM_cons]
  by_cases hframes : frames.length < limit
  · have hopen : step? limit (.value frames mayClose) .openObject =
        some (.key frames [] true) := if_pos hframes
    rw [hopen]
    cases members with
    | nil =>
        rw [memberNesting, if_pos (by omega)]
        rfl
    | cons member rest =>
        obtain ⟨key, value⟩ := member
        obtain ⟨hvalue, hrest⟩ := List.forall_mem_cons.1 h
        have hread := hvalue (.object [] key :: frames) false hframes
        have hlater := foldlM_laterMemberTokens hrest hframes [] hkeys
        show (value.tokens ++ laterMemberTokens rest ++
          [Token.closeObject]).foldlM (step? limit)
          (.value (.object [] key :: frames) false) = _
        rw [List.append_assoc, List.foldlM_append, hread]
        refine ite_bind_ite ?_ hlater
        rw [memberNesting, List.length_cons]
        dsimp only
        omega
  · have hopen : step? limit (.value frames mayClose) .openObject = none :=
      if_neg hframes
    rw [hopen, if_neg (by omega)]
    rfl

/-- **The tokens of a value take the reader behind that value**, if no object
has two members with one key. -/
theorem readsBack {v : Json} (hv : v.HasDistinctKeys) : ReadsBack limit v := by
  induction hv with
  | null => exact fun frames _ hframes => (if_pos hframes).symm
  | bool value => exact fun frames _ hframes => (if_pos hframes).symm
  | number value => exact fun frames _ hframes => (if_pos hframes).symm
  | string value => exact fun frames _ hframes => (if_pos hframes).symm
  | array _ ih => exact .array ih
  | object hkeys _ ih => exact .object hkeys ih

/-- **A value reads back from its text** if it does not nest deeper than the
limit, and is refused if it does. -/
theorem ofText?_text {v : Json} (hv : v.HasDistinctKeys) (limit : Nat) :
    ofText? limit v.text = if v.nesting ≤ limit then some v else none := by
  have hread := readsBack hv [] false (Nat.zero_le limit)
  rw [ofText?, text, String.toList_ofList, scan?_chars, Option.bind_some,
    ofTokens?, hread, List.length_nil, Nat.zero_add]
  split <;> rfl

/-- Of two members with one key only the later one is read. -/
example :
    ofTokens? 1
        (tokens (.object [("a", .null), ("b", .null), ("a", .bool true)])) =
      some (.object [("a", .bool true), ("b", .null)]) :=
  rfl

end ItemSearch.Json
