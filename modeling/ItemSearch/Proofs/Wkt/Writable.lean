import Mathlib
import ItemSearch.Wkt.Writer
import ItemSearch.Proofs.Outcome

/-!
# The geometries that can be written

A geometry has a well-known text if it is no line string, no level of it is
empty and all its ordinates are finite.  The levels are alike: a list has to
have an item, and each item has to be right in itself, which is what `Filled`
says once for rings, polygons and multi-polygons.

The shape of a geometry and its positions can be told apart: `Gapless` asks for
the shape alone.  A geometry is refused as malformed coordinates only for a
position, never for its shape.

## Main results

* `Filled.flatten`: levels of which none is empty have an item in the end.
* `writable_iff`: what is asked of a shape, and what of its positions.
* `exists_writeRing_iff`, `exists_writePolygon_iff`, `exists_write_iff`: each
  level of the writer accepts what is filled at that level.
* `Writable.positions`: a geometry that can be written has positions, all
  finite.
* `exists_not_finite_of_write`: what is refused as malformed coordinates.
-/

namespace ItemSearch

open Outcome

/-! ## Levels without gaps -/

/-- A list with at least one item, each of which has the property. -/
def Filled {α : Type} (P : α → Prop) (as : List α) : Prop :=
  as ≠ [] ∧ ∀ a ∈ as, P a

namespace Filled

variable {α β : Type} {P : α → Prop}

theorem flatten {lists : List (List α)} (h : Filled (Filled P) lists) :
    Filled P lists.flatten := by
  obtain ⟨hne, hall⟩ := h
  constructor
  · obtain ⟨as, rest, rfl⟩ := List.exists_cons_of_ne_nil hne
    have has : as ≠ [] := (hall as (by simp)).1
    simp [has]
  · intro a ha
    obtain ⟨as, has, hmem⟩ := List.mem_flatten.1 ha
    exact (hall as has).2 a hmem

/-- Items that come of other ones, one of each, fill their list. -/
theorem of_forall₂ {R : β → α → Prop} {bs : List β} {as : List α}
    (h : List.Forall₂ R bs as) (hne : bs ≠ []) (hR : ∀ b a, R b a → P a) :
    Filled P as := by
  have hboth : List.Forall₂ (fun a b => P a ∧ R b a) as bs :=
    h.flip.imp fun a b hab => ⟨hR b a hab, hab⟩
  refine ⟨?_, ((List.forall₂_and_left _ _).1 hboth).1⟩
  intro heq
  subst heq
  exact hne (List.forall₂_nil_right_iff.1 h)

/-- Where each item is right by its shape and by its parts, a list is filled
with such items by its shape and by all their parts. -/
theorem iff_flatMap {Q R : α → Prop} {S : β → Prop} {parts : α → List β}
    (h : ∀ a, Q a ↔ R a ∧ ∀ b ∈ parts a, S b) {as : List α} :
    Filled Q as ↔ Filled R as ∧ ∀ b ∈ as.flatMap parts, S b := by
  unfold Filled
  simp only [h, List.forall_mem_flatMap, and_assoc]
  rw [← forall₂_and]

end Filled

/-- A ring with positions, all of them finite. -/
def Ring.Writable (ring : Ring) : Prop :=
  Filled (fun p : Position => p.isFinite = true) ring

namespace Geometry

/-- No line string, with an item at every level and finite positions only. -/
def Writable : Geometry → Prop
  | .point p => p.isFinite = true
  | .lineString _ => False
  | .polygon rings => Filled Ring.Writable rings
  | .multiPolygon polygons => Filled (Filled Ring.Writable) polygons

/-- No line string, with an item at every level. -/
def Gapless : Geometry → Prop
  | .point _ => True
  | .lineString _ => False
  | .polygon rings => Filled (fun ring : Ring => ring ≠ []) rings
  | .multiPolygon polygons =>
      Filled (Filled fun ring : Ring => ring ≠ []) polygons

theorem writable_iff {g : Geometry} :
    g.Writable ↔ g.Gapless ∧ ∀ p ∈ g.positions, p.isFinite = true := by
  have hrings : ∀ rings : List Ring, Filled Ring.Writable rings ↔
      Filled (fun ring : Ring => ring ≠ []) rings ∧
        ∀ p ∈ rings.flatten, p.isFinite = true := by
    intro rings
    rw [← List.flatMap_id]
    exact Filled.iff_flatMap fun _ => Iff.rfl
  cases g with
  | point p => simp [Writable, Gapless, Geometry.positions]
  | lineString positions => simp [Writable, Gapless]
  | polygon rings => exact hrings rings
  | multiPolygon polygons =>
      show Filled (Filled Ring.Writable) polygons ↔
        Filled (Filled fun ring : Ring => ring ≠ []) polygons ∧
          ∀ p ∈ polygons.flatten.flatten, p.isFinite = true
      rw [List.flatten_flatten, ← List.flatMap_def]
      exact Filled.iff_flatMap hrings

theorem Writable.positions {g : Geometry} (h : g.Writable) :
    Filled (fun p : Position => p.isFinite = true) g.positions := by
  cases g with
  | point p =>
      have hp : p.isFinite = true := h
      exact ⟨List.cons_ne_nil p [], by simpa [Geometry.positions] using hp⟩
  | lineString ps => exact absurd h id
  | polygon rings => exact Filled.flatten h
  | multiPolygon polygons => exact (Filled.flatten h).flatten

end Geometry

/-! ## Writing level by level -/

namespace Wkt

theorem exists_writePosition_iff {p : Position} :
    (∃ text, writePosition p = .ok text) ↔ p.isFinite = true := by
  unfold writePosition
  by_cases hfinite : p.isFinite = true
  · simp [hfinite]
  · simp [hfinite]

/-- A level is written item by item if it is not empty. -/
private theorem exists_writeItems_iff {α β : Type} {as : List α}
    {items : List β}
    {none : SpatialError} {write : β → Except SpatialError (List Char)}
    {level : List (List Char) → List Char} :
    (∃ text, (do
      if as = [] then
        throw none
      let texts ← items.mapM write
      pure (level texts)) = Except.ok text) ↔
      as ≠ [] ∧ ∀ item ∈ items, ∃ text, write item = .ok text := by
  by_cases hnil : as = []
  · rw [if_pos hnil]
    simp [hnil, bind, Except.bind, throw, throwThe, MonadExceptOf.throw]
  · rw [if_neg hnil, ← exists_mapM_eq_ok_iff]
    constructor
    · intro h
      rcases h with ⟨text, h⟩
      rcases bind_eq_ok_iff.1 h with ⟨texts, htexts, -⟩
      exact ⟨hnil, texts, htexts⟩
    · intro h
      rcases h with ⟨-, texts, htexts⟩
      exact ⟨level texts, bind_eq_ok_iff.2 ⟨texts, htexts, rfl⟩⟩

theorem exists_writeRing_iff {ring : Ring} {index : Nat} :
    (∃ text, writeRing ring index = .ok text) ↔ ring.Writable := by
  refine exists_writeItems_iff.trans ?_
  simp only [exists_writePosition_iff]
  rfl

theorem exists_writePolygon_iff {rings : List Ring} :
    (∃ text, writePolygon rings = .ok text) ↔ Filled Ring.Writable rings := by
  -- the index of a ring is only there for the report of a failure
  have hrings :
      (∀ p ∈ rings.zipIdx, Ring.Writable p.1) ↔
        ∀ ring ∈ rings, ring.Writable := by
    rw [← List.forall_mem_map, List.zipIdx_map_fst]
  refine exists_writeItems_iff.trans ?_
  simp only [exists_writeRing_iff]
  rw [hrings]
  rfl

/-- A body is written behind a keyword whenever it is written at all. -/
private theorem exists_keyword_iff {α : Type} {x : Except SpatialError α}
    {whole : α → List Char} :
    (∃ text, (do
      let body ← x
      pure (whole body)) = Except.ok text) ↔ ∃ body, x = .ok body := by
  cases x with
  | ok body => simp [bind, Except.bind, pure, Except.pure]
  | error e => simp [bind, Except.bind]

theorem exists_write_iff {g : Geometry} :
    (∃ text, write g = .ok text) ↔ g.Writable := by
  cases g with
  | point p => exact exists_keyword_iff.trans exists_writePosition_iff
  | lineString ps => simp [write, Geometry.Writable]
  | polygon rings => exact exists_keyword_iff.trans exists_writePolygon_iff
  | multiPolygon polygons =>
      refine exists_writeItems_iff.trans ?_
      simp only [exists_writePolygon_iff]
      rfl

/-! ## Malformed coordinates -/

theorem not_isFinite_of_writePosition {p : Position} {e : SpatialError}
    (h : writePosition p = .error e) : p.isFinite = false := by
  unfold writePosition at h
  by_cases hfinite : p.isFinite = true
  · rw [if_pos hfinite] at h
    cases h
  · exact Bool.eq_false_iff.2 hfinite

/-- A level that is refused otherwise than for being empty is refused for an
item. -/
private theorem exists_item_of_writeItems {α β : Type} {as : List α}
    {items : List β}
    {none e : SpatialError} {write : β → Except SpatialError (List Char)}
    {level : List (List Char) → List Char}
    (h : (do
      if as = [] then
        throw none
      let texts ← items.mapM write
      pure (level texts)) = Except.error e) (hne : e.kind ≠ none.kind) :
    ∃ item ∈ items, write item = .error e := by
  by_cases hnil : as = []
  · rw [if_pos hnil] at h
    exact absurd (congrArg SpatialError.kind (Except.error.inj h).symm) hne
  · rw [if_neg hnil] at h
    rcases bind_eq_error_iff.1 h with htexts | ⟨texts, -, hpure⟩
    · exact exists_of_mapM_eq_error htexts
    · cases hpure

section Malformed

variable {e : SpatialError} (hkind : e.kind = .malformedCoordinates)
include hkind

private theorem kind_ne {none : SpatialError}
    (hnone : none.kind = .emptyInput) :
    e.kind ≠ none.kind := by
  rw [hkind, hnone]
  decide

theorem exists_not_finite_of_writeRing {ring : Ring} {index : Nat}
    (h : writeRing ring index = .error e) : ∃ p ∈ ring, p.isFinite = false := by
  obtain ⟨p, hp, hwrite⟩ := exists_item_of_writeItems h (kind_ne hkind rfl)
  exact ⟨p, hp, not_isFinite_of_writePosition hwrite⟩

theorem exists_not_finite_of_writePolygon {rings : List Ring}
    (h : writePolygon rings = .error e) :
    ∃ p ∈ rings.flatten, p.isFinite = false := by
  obtain ⟨⟨ring, index⟩, hring, hwrite⟩ :=
    exists_item_of_writeItems h (kind_ne hkind rfl)
  obtain ⟨p, hp, hfinite⟩ := exists_not_finite_of_writeRing hkind hwrite
  exact ⟨p, List.mem_flatten.2 ⟨ring, List.fst_mem_of_mem_zipIdx hring, hp⟩,
    hfinite⟩

/-- What is refused as malformed coordinates has a position that is not
finite. -/
theorem exists_not_finite_of_write {g : Geometry} (h : write g = .error e) :
    ∃ p ∈ g.positions, p.isFinite = false := by
  cases g with
  | point p =>
      rcases bind_eq_error_iff.1 h with hwrite | ⟨text, -, hpure⟩
      · exact ⟨p, List.mem_singleton_self p,
          not_isFinite_of_writePosition hwrite⟩
      · cases hpure
  | lineString positions =>
      rw [← Except.error.inj h] at hkind
      cases hkind
  | polygon rings =>
      rcases bind_eq_error_iff.1 h with hwrite | ⟨text, -, hpure⟩
      · exact exists_not_finite_of_writePolygon hkind hwrite
      · cases hpure
  | multiPolygon polygons =>
      obtain ⟨rings, hrings, hwrite⟩ :=
        exists_item_of_writeItems h (kind_ne hkind rfl)
      obtain ⟨p, hp, hfinite⟩ := exists_not_finite_of_writePolygon hkind hwrite
      refine ⟨p, ?_, hfinite⟩
      rw [Geometry.positions, List.flatten_flatten]
      exact List.mem_flatten.2 ⟨_, List.mem_map_of_mem hrings, hp⟩

end Malformed

end Wkt

end ItemSearch
