import Mathlib
import ItemSearch.Geometry.View
import ItemSearch.Proofs.Binary64.Extreme
import ItemSearch.Proofs.Wkt.Grammar

/-!
# The box around positions is the tightest one

Each bound of the box is the end of one ordinate of the positions, and the four
of them do not depend on each other: a position whose longitude is not a number
still counts for the latitudes.  So a box may have a bound that is not a number
beside bounds that are.

Only the positions themselves matter, not where they stand, so that positions
may be put in another order or into other rings and polygons, and the box is the
same up to the sign of its zeros.

## Main results

* `IsTightest.widen`, `IsTightest.foldl`: the box of one more position, and of
  any number.
* `ofPositions_eq_ok_iff`, `ofGeometry_eq_ok_iff`: what a box is taken of.
* `IsTightest.contains`, `IsTightest.alike`: what follows for a box.
* `ofPositions_tightest`: all this of any positions and any geometry of them.
-/

namespace ItemSearch.Box

open Binary64
open Wkt (FailsAs)

/-! ## Tightest boxes -/

/-- Each bound is the end of its ordinate among the positions. -/
structure IsTightest (b : Box) (positions : List Position) : Prop where
  west : IsLeastOf (positions.map Position.x) b.west
  south : IsLeastOf (positions.map Position.y) b.south
  east : IsGreatestOf (positions.map Position.x) b.east
  north : IsGreatestOf (positions.map Position.y) b.north

/-- Neither ordinate of the position is out of the bounds of the box. -/
structure Contains (b : Box) (p : Position) : Prop where
  west : b.west.numLe p.x = true
  east : p.x.numLe b.east = true
  south : b.south.numLe p.y = true
  north : p.y.numLe b.north = true

/-- All bounds are equal, where not-a-number is equal to itself. -/
structure Alike (b c : Box) : Prop where
  west : b.west.Alike c.west
  south : b.south.Alike c.south
  east : b.east.Alike c.east
  north : b.north.Alike c.north

variable {b c : Box} {positions others : List Position}

theorem isTightest_around (p : Position) : (around p).IsTightest [p] where
  west := isExtreme_singleton numLe_refl p.x
  south := isExtreme_singleton numLe_refl p.y
  east := isExtreme_singleton numLe_refl p.x
  north := isExtreme_singleton numLe_refl p.y

theorem IsTightest.widen (h : b.IsTightest positions) (p : Position) :
    (b.widen p).IsTightest (positions ++ [p]) := by
  constructor <;> rw [List.map_append]
  · exact chooses_least.step h.west p.x
  · exact chooses_least.step h.south p.y
  · exact chooses_greatest.step h.east p.x
  · exact chooses_greatest.step h.north p.y

theorem IsTightest.foldl (h : b.IsTightest positions) (more : List Position) :
    (more.foldl Box.widen b).IsTightest (positions ++ more) := by
  induction more generalizing b positions with
  | nil => rwa [List.append_nil]
  | cons p more ih =>
      rw [List.append_cons]
      exact ih (h.widen p)

theorem IsTightest.contains (h : b.IsTightest positions) {p : Position}
    (hp : p ∈ positions)
    (hx : p.x ≠ .nan) (hy : p.y ≠ .nan) : b.Contains p where
  west := h.west.before p.x (List.mem_map_of_mem hp) hx
  east := h.east.before p.x (List.mem_map_of_mem hp) hx
  south := h.south.before p.y (List.mem_map_of_mem hp) hy
  north := h.north.before p.y (List.mem_map_of_mem hp) hy

/-- The same positions have one tightest box. -/
theorem IsTightest.alike (hb : b.IsTightest positions)
    (hc : c.IsTightest others)
    (hsame : ∀ p, p ∈ positions ↔ p ∈ others) : b.Alike c := by
  have hordinate : ∀ (ordinate : Position → Binary64) (v : Binary64),
      v ∈ positions.map ordinate ↔ v ∈ others.map ordinate := by
    intro ordinate v
    simp only [List.mem_map, hsame]
  exact
    { west := hb.west.alike hc.west (hordinate Position.x)
      south := hb.south.alike hc.south (hordinate Position.y)
      east := hb.east.alike hc.east (hordinate Position.x)
      north := hb.north.alike hc.north (hordinate Position.y) }

/-! ## The box of positions and of a geometry -/

theorem ofPositions_cons (p : Position) (ps : List Position) :
    ofPositions (p :: ps) = .ok (ps.foldl Box.widen (around p)) := rfl

theorem isTightest_of_ofPositions (h : ofPositions positions = .ok b) :
    b.IsTightest positions := by
  cases positions with
  | nil => cases h
  | cons p ps =>
      obtain rfl := Except.ok.inj ((ofPositions_cons p ps).symm.trans h)
      exact (isTightest_around p).foldl ps

theorem exists_ofPositions_iff :
    (∃ b, ofPositions positions = .ok b) ↔ positions ≠ [] := by
  cases positions with
  | nil => simp [ofPositions, ofPositions?]
  | cons p ps => simp [ofPositions_cons]

theorem failsAs_ofPositions_iff :
    FailsAs (ofPositions positions) .noValidCoordinates ↔ positions = [] := by
  cases positions with
  | nil => simp [ofPositions, ofPositions?, FailsAs, SpatialError.kind]
  | cons p ps => simp [ofPositions_cons, FailsAs]

theorem ofGeometry_eq_ok_iff {g : Geometry} :
    ofGeometry g = .ok b ↔ ofPositions g.positions = .ok b := by
  unfold ofGeometry ofPositions
  cases ofPositions? g.positions <;> simp

theorem failsAs_ofGeometry_iff {g : Geometry} :
    FailsAs (ofGeometry g) .noValidCoordinates ↔ g.positions = [] := by
  rw [← failsAs_ofPositions_iff]
  unfold ofGeometry ofPositions FailsAs
  cases ofPositions? g.positions <;> simp [SpatialError.kind]

/-- The same positions have the same box, in whatever order and however often
they come. -/
theorem exists_alike_of_ofPositions (h : ofPositions positions = .ok b)
    (hsame : ∀ p, p ∈ positions ↔ p ∈ others) :
    ∃ c, ofPositions others = .ok c ∧ b.Alike c := by
  have hne : others ≠ [] := by
    rintro rfl
    exact exists_ofPositions_iff.1 ⟨b, h⟩
      (List.eq_nil_iff_forall_not_mem.2 (by simpa using hsame))
  obtain ⟨c, hc⟩ := exists_ofPositions_iff.2 hne
  exact ⟨c, hc,
    (isTightest_of_ofPositions h).alike (isTightest_of_ofPositions hc) hsame⟩

/-- **The box around positions is the tightest one.**  There is one unless there
is no position.  Its bounds are the ends of the ordinates, so it contains all
positions whose ordinates are numbers, and the same positions in another order
have the same box.  The box of a geometry is the box around its positions,
however they are grouped in it. -/
theorem ofPositions_tightest :
    (∀ positions,
      ((∃ b, ofPositions positions = .ok b) ↔ positions ≠ []) ∧
      (FailsAs (ofPositions positions) .noValidCoordinates ↔ positions = [])) ∧
    (∀ positions b, ofPositions positions = .ok b →
      b.IsTightest positions ∧
      (∀ p ∈ positions, p.x ≠ .nan → p.y ≠ .nan → b.Contains p) ∧
      ∀ others, (∀ p, p ∈ positions ↔ p ∈ others) →
        ∃ c, ofPositions others = .ok c ∧ b.Alike c) ∧
    (∀ g,
      (∀ b, ofGeometry g = .ok b ↔ ofPositions g.positions = .ok b) ∧
      (FailsAs (ofGeometry g) .noValidCoordinates ↔ g.positions = []) ∧
      ∀ b, ofGeometry g = .ok b →
        ∀ g' : Geometry, (∀ p, p ∈ g.positions ↔ p ∈ g'.positions) →
          ∃ c, ofGeometry g' = .ok c ∧ b.Alike c) ∧
    (∀ p : Position, ofGeometry (.point p) = .ok ⟨p.x, p.y, p.x, p.y⟩) := by
  refine ⟨fun positions => ?_, fun positions b h => ?_, fun g => ?_,
    fun p => rfl⟩
  · exact ⟨exists_ofPositions_iff, failsAs_ofPositions_iff⟩
  · have htight := isTightest_of_ofPositions h
    exact ⟨htight, fun p hp => htight.contains hp,
      fun others => exists_alike_of_ofPositions h⟩
  · refine ⟨fun b => ofGeometry_eq_ok_iff, failsAs_ofGeometry_iff,
      fun b h g' hsame => ?_⟩
    simp only [ofGeometry_eq_ok_iff] at h ⊢
    exact exists_alike_of_ofPositions h hsame

end ItemSearch.Box
