import Mathlib
import ItemSearch.Geometry.View
import ItemSearch.Proofs.Binary64.Order

/-!
# The box around positions

The box around some positions starts at the first one and is widened to one
after the other.  Around finite positions each step leaves its bounds finite and
in their order: west not past east, and south not past north.

The rectangle of a box has the four corners of the box, so the box around it has
the same bounds, each pair of them put in order.  That is the same box only if
they were in order.

## Main results

* `Ordered.widen`, `Ordered.foldl`: bounds in their order, over one step and
  over all.
* `exists_ofGeometry`: a geometry with positions, all of them finite, has such a
  box.
* `ofList_eq_ok_iff`: the bounds that a box may be given by.
* `ofGeometry_toPolygon`, `equal_sorted_iff`: the box around the rectangle of a
  box.
-/

namespace ItemSearch.Box

open Binary64

/-- A box with finite bounds, the western one not past the eastern one and the
southern one not past the northern one. -/
structure Ordered (b : Box) : Prop where
  longitudes : IsSpan b.west b.east
  latitudes : IsSpan b.south b.north

theorem ordered_around {p : Position} (hp : p.isFinite = true) :
    (around p).Ordered := by
  obtain ⟨hx, hy⟩ := Bool.and_eq_true_iff.1 hp
  exact ⟨isSpan_self hx, isSpan_self hy⟩

theorem Ordered.widen {b : Box} (h : b.Ordered) {p : Position}
    (hp : p.isFinite = true) :
    (b.widen p).Ordered := by
  obtain ⟨hx, hy⟩ := Bool.and_eq_true_iff.1 hp
  exact ⟨h.longitudes.widen hx, h.latitudes.widen hy⟩

theorem Ordered.foldl {b : Box} (h : b.Ordered) {ps : List Position}
    (hps : ∀ p ∈ ps, p.isFinite = true) : (ps.foldl Box.widen b).Ordered := by
  induction ps generalizing b with
  | nil => exact h
  | cons p ps ih =>
      obtain ⟨hp, hrest⟩ := List.forall_mem_cons.1 hps
      exact ih (h.widen hp) hrest

theorem exists_ofPositions? {ps : List Position} (hne : ps ≠ [])
    (hps : ∀ p ∈ ps, p.isFinite = true) :
    ∃ b, ofPositions? ps = some b ∧ b.Ordered := by
  cases ps with
  | nil => exact absurd rfl hne
  | cons p ps =>
      obtain ⟨hp, hrest⟩ := List.forall_mem_cons.1 hps
      exact ⟨_, rfl, (ordered_around hp).foldl hrest⟩

theorem exists_ofGeometry {g : Geometry} (hne : g.positions ≠ [])
    (hfinite : ∀ p ∈ g.positions, p.isFinite = true) :
    ∃ b, ofGeometry g = .ok b ∧ b.Ordered := by
  obtain ⟨b, hb, hordered⟩ := exists_ofPositions? hne hfinite
  refine ⟨b, ?_, hordered⟩
  rw [ofGeometry, hb]

/-! ## Bounds that are given -/

/-- The bounds of a box as they are given: four of them, or six with two
elevations. -/
inductive IsGiven : List Binary64 → Box → Prop where
  | plane (west south east north : Binary64) :
      IsGiven [west, south, east, north] ⟨west, south, east, north⟩
  | elevated (west south low east north high : Binary64) :
      IsGiven [west, south, low, east, north, high] ⟨west, south, east, north⟩

theorem IsGiven.mem {bounds : List Binary64} {b : Box} (h : IsGiven bounds b) :
    ∀ v ∈ b.bounds, v ∈ bounds := by
  cases h <;> simp [Box.bounds]

theorem ofList_eq_ok_iff {bounds : List Binary64} {b : Box} :
    ofList bounds = .ok b ↔
      IsGiven bounds b ∧ ∀ v ∈ bounds, v.isFinite = true := by
  have hfinite : ∀ {c : Box}, (if bounds.all isFinite then .ok c
      else .error (.boxNotFinite bounds)) = (.ok b : Except SpatialError Box) ↔
      c = b ∧ ∀ v ∈ bounds, v.isFinite = true := by
    intro c
    rw [← List.all_eq_true]
    by_cases hall : bounds.all isFinite = true
    · simp [hall]
    · simp [hall]
  constructor
  · intro h
    unfold ofList at h
    dsimp only at h
    split at h
    · cases h
    · rcases hfinite.1 h with ⟨rfl, hall⟩
      exact ⟨.plane _ _ _ _, hall⟩
    · rcases hfinite.1 h with ⟨rfl, hall⟩
      exact ⟨.elevated _ _ _ _ _ _, hall⟩
    · cases h
  · intro h
    rcases h with ⟨hgiven, hall⟩
    cases hgiven with
    | plane => exact hfinite.2 ⟨rfl, hall⟩
    | elevated => exact hfinite.2 ⟨rfl, hall⟩

/-- Bounds are refused for there being none, or else for their number or one of
them. -/
theorem kind_of_ofList {bounds : List Binary64} {e : SpatialError}
    (h : ofList bounds = .error e) :
    e.kind = .emptyInput ∨ e.kind = .malformedCoordinates := by
  unfold ofList at h
  dsimp only at h
  split at h
  · rw [← Except.error.inj h]
    exact .inl rfl
  · split at h
    · cases h
    · rw [← Except.error.inj h]
      exact .inr rfl
  · split at h
    · cases h
    · rw [← Except.error.inj h]
      exact .inr rfl
  · rw [← Except.error.inj h]
    exact .inr rfl

/-! ## The rectangle of a box -/

/-- The box with its western and eastern and its southern and northern bounds in
order. -/
def sorted (b : Box) : Box where
  west := b.west.least b.east
  south := b.south.least b.north
  east := b.west.greatest b.east
  north := b.south.greatest b.north

theorem ofGeometry_toPolygon (b : Box) :
    ofGeometry b.toPolygon = .ok b.sorted := by
  have hpositions :
      b.toPolygon.positions = [⟨b.west, b.south⟩, ⟨b.east, b.south⟩,
      ⟨b.east, b.north⟩, ⟨b.west, b.north⟩, ⟨b.west, b.south⟩] := rfl
  unfold ofGeometry ofPositions?
  rw [hpositions]
  simp [around, widen, sorted]

/-- A box is the one around its rectangle, zeros of either sign being equal,
exactly if its bounds are in order. -/
theorem equal_sorted_iff {b : Box} :
    b.sorted.equal b = true ↔
      b.west.numLe b.east = true ∧ b.south.numLe b.north = true := by
  rw [← numEq_least_greatest_iff, ← numEq_least_greatest_iff]
  simp only [equal, sorted, Bool.and_eq_true]
  tauto

end ItemSearch.Box
