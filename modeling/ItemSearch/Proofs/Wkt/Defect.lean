import Mathlib
import ItemSearch.Proofs.FirstDefect
import ItemSearch.Proofs.Wkt.RoundTrip
import ItemSearch.Proofs.Wkt.Writable

/-!
# Why a geometry is not written

What can be wrong with a geometry stands at a place of it: a list at any of its
levels may be empty, and a position may not be finite.  `Geometry.places` goes
through these places in the order in which they are stored, each list before its
items.  The writer puts its text together on the same way, so that it is refused
for the first place at which something is wrong, whatever sort of defect that
is.

What is written has a pair of parentheses for the geometry and one for each list
inside, down to the rings, and none besides.

## Main results

* `erase_write`: writing is a pass over the places, as far as refusals are
  concerned.
* `write_eq_error_iff`: a geometry is refused for its first defect.
* `count_write`: the parentheses of a text.
* `toWkt_refuses`: which geometries are written, what the others are refused
  for, and how many parentheses are written.
-/

namespace ItemSearch

open Outcome

namespace Wkt

/-! ## Places and defects -/

/-- Where something may be wrong with a geometry. -/
inductive Place where
  | lineString (positions : List Position)
  | multiPolygon (polygons : List (List Ring))
  | polygon (rings : List Ring)
  /-- A ring, with its index in its polygon. -/
  | ring (ring : Ring) (index : Nat)
  | position (position : Position)

/-- What is wrong at a place, the kind of failure that this is and the error
that reports it. -/
inductive Place.Defect : Place → FailureKind → SpatialError → Prop where
  /-- Line strings are not written, whatever is in them. -/
  | lineString (positions : List Position) :
      Defect (.lineString positions) .unsupportedGeometryType
        (.unwritableKind .lineString)
  | noPolygons : Defect (.multiPolygon []) .emptyInput .emptyMultiPolygon
  | noRings : Defect (.polygon []) .emptyInput .emptyPolygon
  /-- A ring without positions is reported with its index. -/
  | noPositions (index : Nat) :
      Defect (.ring [] index) .emptyInput (.emptyRing index)
  | notFinite {p : Position} (h : p.isFinite = false) :
      Defect (.position p) .malformedCoordinates (.notFinite p)

/-- The places of a ring with its index. -/
def ringPlaces (ring : Ring × Nat) : List Place :=
  .ring ring.1 ring.2 :: ring.1.map .position

/-- The places of a polygon. -/
def polygonPlaces (rings : List Ring) : List Place :=
  .polygon rings :: rings.zipIdx.flatMap ringPlaces

end Wkt

open Wkt in
/-- The places of a geometry, in the order in which they are stored. -/
def Geometry.places : Geometry → List Place
  | .point p => [.position p]
  | .lineString positions => [.lineString positions]
  | .polygon rings => polygonPlaces rings
  | .multiPolygon polygons =>
      .multiPolygon polygons :: polygons.flatMap polygonPlaces

namespace Wkt

/-- What is refused at a place by itself. -/
def check : Place → Except SpatialError Unit
  | .lineString _ => .error (.unwritableKind .lineString)
  | .multiPolygon polygons =>
      if polygons = [] then
        .error .emptyMultiPolygon
      else
        .ok ()
  | .polygon rings => if rings = [] then .error .emptyPolygon else .ok ()
  | .ring ring index => if ring = [] then .error (.emptyRing index) else .ok ()
  | .position p => if p.isFinite then .ok () else .error (.notFinite p)

theorem check_of_defect {place : Place} {kind : FailureKind} {e : SpatialError}
    (h : place.Defect kind e) : check place = .error e ∧ e.kind = kind := by
  cases h with
  | notFinite hnot => exact ⟨if_neg (Bool.eq_false_iff.1 hnot), rfl⟩
  | _ => exact ⟨rfl, rfl⟩

theorem check_eq_error_iff {place : Place} {e : SpatialError} :
    check place = .error e ↔ place.Defect e.kind e := by
  refine ⟨fun h => ?_, fun h => (check_of_defect h).1⟩
  cases place with
  | lineString positions =>
      obtain rfl := Except.error.inj h
      exact .lineString positions
  | multiPolygon polygons =>
      simp only [check] at h
      split_ifs at h with hnil
      obtain rfl := Except.error.inj h
      exact hnil ▸ .noPolygons
  | polygon rings =>
      simp only [check] at h
      split_ifs at h with hnil
      obtain rfl := Except.error.inj h
      exact hnil ▸ .noRings
  | ring ring index =>
      simp only [check] at h
      split_ifs at h with hnil
      obtain rfl := Except.error.inj h
      exact hnil ▸ .noPositions index
  | position p =>
      simp only [check] at h
      split_ifs at h with hfinite
      obtain rfl := Except.error.inj h
      exact .notFinite (Bool.eq_false_iff.2 hfinite)

/-! ## Writing as a pass over the places -/

/-- A pass over places, one after the other. -/
def pass (places : List Place) : Except SpatialError Unit :=
  places.foldlM (fun _ place => check place) ()

theorem pass_cons (place : Place) (rest : List Place) :
    pass (place :: rest) = check place >>= fun _ => pass rest := rfl

theorem erase_writePosition (p : Position) :
    (fun _ => ()) <$> writePosition p = pass [.position p] := by
  unfold writePosition
  simp only [pass_cons, check]
  split <;> rfl

/-- A level is a pass over its own place and those of its items. -/
private theorem erase_writeItems {α β : Type} {as : List α} {items : List β}
    {none : SpatialError} {write : β → Except SpatialError (List Char)}
    {level : List (List Char) → List Char} {place : Place}
    {parts : β → List Place}
    (hplace : check place = if as = [] then .error none else .ok ())
    (hwrite : ∀ item, (fun _ => ()) <$> write item = pass (parts item)) :
    (fun _ => ()) <$> (do
      if as = [] then
        throw none
      let texts ← items.mapM write
      pure (level texts)) = pass (place :: items.flatMap parts) := by
  rw [pass_cons, hplace]
  by_cases hnil : as = []
  · rw [if_pos hnil, if_pos hnil]
    rfl
  · have hitems :
        pass (items.flatMap parts) = (fun _ => ()) <$> items.mapM write :=
      (erase_mapM_eq_foldlM hwrite items).symm
    rw [if_neg hnil, if_neg hnil]
    show (fun _ => ()) <$>
      (items.mapM write >>= fun texts => pure (level texts)) =
      pass (items.flatMap parts)
    rw [hitems]
    cases items.mapM write <;> rfl

theorem erase_writeRing (ring : Ring × Nat) :
    (fun _ => ()) <$> writeRing ring.1 ring.2 = pass (ringPlaces ring) := by
  rw [ringPlaces, List.map_eq_flatMap]
  exact erase_writeItems rfl erase_writePosition

theorem erase_writePolygon (rings : List Ring) :
    (fun _ => ()) <$> writePolygon rings = pass (polygonPlaces rings) :=
  erase_writeItems rfl erase_writeRing

/-- A keyword in front of a body makes no difference to what is refused. -/
private theorem erase_keyword {x : Except SpatialError (List Char)}
    {whole : List Char → List Char} :
    (fun _ => ()) <$> (do
      let body ← x
      pure (whole body)) = (fun _ => ()) <$> x := by
  cases x <;> rfl

/-- **Writing is a pass over the places**, as far as refusals are concerned. -/
theorem erase_write (g : Geometry) :
    (fun _ => ()) <$> write g = pass g.places := by
  cases g with
  | point p => exact erase_keyword.trans (erase_writePosition p)
  | lineString positions => rfl
  | polygon rings => exact erase_keyword.trans (erase_writePolygon rings)
  | multiPolygon polygons => exact erase_writeItems rfl erase_writePolygon

/-- **A geometry is refused for its first defect.** -/
theorem write_eq_error_iff {g : Geometry} {e : SpatialError} :
    write g = .error e ↔
      FirstDefect (fun _ place e => place.Defect e.kind e) g.places e := by
  have hrefuses : Refuses (fun _ place => check place) ()
      (fun _ place e => place.Defect e.kind e) :=
    fun _ _ _ _ _ => check_eq_error_iff
  rw [← map_eq_error_iff (f := fun _ => ()), erase_write]
  exact foldlM_eq_error_iff_firstDefect hrefuses

/-! ## Parentheses -/

/-- The number of pairs of parentheses in the text of a geometry: one around
each list and one around a position that is a geometry by itself. -/
def pairCount : Geometry → Nat
  | .point _ => 1
  | .lineString _ => 0
  | .polygon rings => 1 + rings.length
  | .multiPolygon polygons =>
      1 + (polygons.map fun rings => 1 + rings.length).sum

section Count

variable {c : Char} (hc : c = '(' ∨ c = ')')
include hc

theorem count_enclose (inside : List Char) :
    (enclose inside).count c = 1 + inside.count c := by
  unfold enclose
  rcases hc with rfl | rfl <;> simp [Nat.add_comm]

theorem count_commaSeparated (texts : List (List Char)) :
    (commaSeparated texts).count c = (texts.map (List.count c)).sum := by
  have hgap : c ≠ ',' ∧ c ≠ ' ' := by
    rcases hc with rfl | rfl <;> decide
  induction texts with
  | nil => rfl
  | cons text rest ih =>
      cases rest with
      | nil => simp [commaSeparated]
      | cons next rest =>
          rw [commaSeparated_cons_cons, List.count_append,
            List.count_cons_of_ne hgap.1.symm,
            List.count_cons_of_ne hgap.2.symm, ih]
          exact List.sum_cons.symm

/-- The parentheses of a level are its own pair and those of its items. -/
theorem count_level {α : Type} {items : List α} {texts : List (List Char)}
    {write : α → Except SpatialError (List Char)} {size : α → Nat}
    (hwrite : ∀ item text, write item = .ok text → text.count c = size item)
    (h : items.mapM write = .ok texts) :
    (enclose (commaSeparated texts)).count c = 1 + (items.map size).sum := by
  have hsizes : texts.map (List.count c) = items.map size := by
    have hall := mapM_eq_ok_iff.1 h
    clear h
    induction hall with
    | nil => rfl
    | cons hfirst _ ih =>
        rw [List.map_cons, List.map_cons, hwrite _ _ hfirst, ih]
  rw [count_enclose hc, count_commaSeparated hc, hsizes]

theorem count_writePosition {p : Position} {text : List Char}
    (h : writePosition p = .ok text) : text.count c = 0 := by
  rw [List.count_eq_zero]
  intro hmem
  obtain ⟨hopen, hclose, -⟩ := flat_of_writePosition h c hmem
  rcases hc with rfl | rfl
  · exact hopen rfl
  · exact hclose rfl

theorem count_writeRing {ring : Ring} {index : Nat} {text : List Char}
    (h : writeRing ring index = .ok text) : text.count c = 1 := by
  unfold writeRing at h
  by_cases hnil : ring = []
  · rw [if_pos hnil] at h
    cases h
  rw [if_neg hnil] at h
  obtain ⟨texts, htexts, henclosed⟩ := bind_eq_ok_iff.1 h
  obtain rfl := Except.ok.inj henclosed
  rw [count_level hc (fun _ _ => count_writePosition hc) htexts]
  simp

theorem count_writePolygon {rings : List Ring} {text : List Char}
    (h : writePolygon rings = .ok text) : text.count c = 1 + rings.length := by
  unfold writePolygon at h
  by_cases hnil : rings = []
  · rw [if_pos hnil] at h
    cases h
  rw [if_neg hnil] at h
  obtain ⟨texts, htexts, henclosed⟩ := bind_eq_ok_iff.1 h
  obtain rfl := Except.ok.inj henclosed
  have hring :
      ∀ (p : Ring × Nat) text, writeRing p.1 p.2 = .ok text →
        text.count c = 1 :=
    fun _ _ => count_writeRing hc
  rw [count_level hc hring htexts]
  simp

/-- A keyword has no parentheses. -/
theorem count_keyword {name : String}
    (hname : name ∈ ["POINT", "POLYGON", "MULTIPOLYGON"]) :
    name.toList.count c = 0 := by
  rw [List.count_eq_zero]
  intro hmem
  have hupper := isUpper_of_mem_keyword hname hmem
  rcases hc with rfl | rfl <;> simp at hupper

/-- **The parentheses of a text** are one pair for the geometry and one for each
polygon and each ring in it. -/
theorem count_write {g : Geometry} {text : List Char} (h : write g = .ok text) :
    text.count c = pairCount g := by
  cases g with
  | point p =>
      obtain ⟨inside, hinside, htext⟩ := bind_eq_ok_iff.1 h
      obtain rfl := Except.ok.inj htext
      rw [List.count_append, count_keyword hc (by simp), count_enclose hc,
        count_writePosition hc hinside, pairCount]
  | lineString positions => cases h
  | polygon rings =>
      obtain ⟨body, hbody, htext⟩ := bind_eq_ok_iff.1 h
      obtain rfl := Except.ok.inj htext
      rw [List.count_append, count_keyword hc (by simp),
        count_writePolygon hc hbody, Nat.zero_add, pairCount]
  | multiPolygon polygons =>
      unfold write at h
      by_cases hnil : polygons = []
      · simp only [if_pos hnil] at h
        cases h
      simp only [if_neg hnil] at h
      obtain ⟨texts, htexts, htext⟩ := bind_eq_ok_iff.1 h
      obtain rfl := Except.ok.inj htext
      rw [List.count_append, count_keyword hc (by simp),
        count_level hc (fun _ _ => count_writePolygon hc) htexts, Nat.zero_add,
          pairCount]

end Count

/-- **What the writer accepts and refuses**: a line string is never written; any
other geometry is, if none of its lists is empty and all its positions are
finite; what is not written is refused for the first defect in the order of
storage; and a text has as many opening as closing parentheses, as many as there
are pairs to be written. -/
theorem toWkt_refuses (g : Geometry) :
    (∀ positions, g = .lineString positions →
      g.toWkt.outcome = .error (.unwritableKind .lineString) ∧
        (SpatialError.unwritableKind .lineString).kind =
          .unsupportedGeometryType) ∧
    ((∃ text, g.toWkt.outcome = .ok text) ↔
      g.Gapless ∧ ∀ p ∈ g.positions, p.isFinite = true) ∧
    (∀ e, g.toWkt.outcome = .error e ↔
      FirstDefect (fun _ place e => place.Defect e.kind e) g.places e) ∧
    (∀ text, g.toWkt.outcome = .ok text →
      text.toList.count '(' = pairCount g ∧
        text.toList.count ')' = pairCount g) := by
  rw [Geometry.outcome_toWkt]
  refine ⟨?_, ?_, fun e => ?_, fun text h => ?_⟩
  · rintro positions rfl
    exact ⟨rfl, rfl⟩
  · rw [← Geometry.writable_iff, ← exists_write_iff]
    simp only [map_eq_ok_iff]
    constructor
    · rintro ⟨_, text, htext, -⟩
      exact ⟨text, htext⟩
    · rintro ⟨text, htext⟩
      exact ⟨_, text, htext, rfl⟩
  · rw [map_eq_error_iff, write_eq_error_iff]
  · obtain ⟨chars, hchars, rfl⟩ := map_eq_ok_iff.1 h
    rw [String.toList_ofList]
    exact ⟨count_write (.inl rfl) hchars, count_write (.inr rfl) hchars⟩

/-- A position that is not finite goes before an empty ring behind it. -/
example :
    (Geometry.multiPolygon [[[⟨.zero false, .nan⟩], []], []]).toWkt.outcome =
        .error (.notFinite ⟨.zero false, .nan⟩) ∧
      (Geometry.polygon [[], [⟨.zero false, .nan⟩]]).toWkt.outcome =
        .error (.emptyRing 0) :=
  ⟨rfl, rfl⟩

end Wkt

end ItemSearch
