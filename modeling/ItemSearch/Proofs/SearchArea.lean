import Mathlib
import ItemSearch.SearchArea
import ItemSearch.Proofs.Geometry.Reading
import ItemSearch.Proofs.Wkt.Normal

/-!
# Search areas from the request to the text

A request has an area in one of two forms, as the bounds of a box or as a
geometry, and the search service is given a text in either case.  What that text
says can be compared with what the area says of itself, its geometry and the box
around it.

The bounds of a box are finite, so its rectangle can always be written, but they
keep the places that they were given in.  A rectangle has no such places, and
the box around the text has its bounds in order.  So the two boxes are the same
only if the bounds were given in order.

The positions of a geometry that is read from JSON are finite, so it is written
unless its shape has no text, and then both boxes are taken of the same
geometry.

## Main results

* `failsAs_ambiguous_iff`, `ofRequest_eq_none_iff`: which members a request may
  have.
* `exists_isTextOfBox`, `agrees_of_isFinite`: the text of an area in either
  form.
* `ofRequest_consistent`: what comes of a request, from one end to the other.
-/

namespace ItemSearch.SearchArea

open Outcome
open Wkt (FailsAs)

/-! ## The members of a request -/

/-- A request has no geometry, or null in the place of one. -/
def Absent (shape : Option Json) : Prop :=
  shape = none ∨ shape = some .null

theorem present_eq_none_iff {shape : Option Json} :
    present shape = none ↔ Absent shape := by
  unfold present Absent
  split <;> simp_all

variable {bounds : Option (List Binary64)} {shape : Option Json}
  {area : SearchArea}

theorem ofRequest_neither (h : present shape = none) :
    ofRequest none shape = .ok none := by
  unfold ofRequest
  rw [h]

theorem ofRequest_bounds (h : present shape = none) (values : List Binary64) :
    ofRequest (some values) shape = (some <| .box ·) <$> Box.ofList values := by
  unfold ofRequest
  rw [h]

theorem ofRequest_shape {value : Json} (h : present shape = some value) :
    ofRequest none shape = (some <| .geometry ·) <$> Geometry.ofJson value := by
  unfold ofRequest
  rw [h]

theorem ofRequest_both {value : Json} (h : present shape = some value)
    (values : List Binary64) :
    ofRequest (some values) shape = .error .ambiguous := by
  unfold ofRequest
  rw [h]

/-- Only two members at once are ambiguous, for the errors of each are of other
kinds. -/
theorem failsAs_ambiguous_iff :
    FailsAs (ofRequest bounds shape) .ambiguousSpatialTerm ↔
      bounds ≠ none ∧ ¬ Absent shape := by
  rw [← present_eq_none_iff]
  cases hshape : present shape with
  | none =>
      have hnot : ¬ FailsAs (ofRequest bounds shape) .ambiguousSpatialTerm := by
        intro h
        rcases h with ⟨e, he, hkind⟩
        cases bounds with
        | none =>
            rw [ofRequest_neither hshape] at he
            cases he
        | some values =>
            rw [ofRequest_bounds hshape] at he
            have hbox := Box.kind_of_ofList (map_eq_error_iff.1 he)
            rw [hkind] at hbox
            exact absurd hbox (by decide)
      simp [hnot]
  | some value =>
      cases bounds with
      | none =>
          have hnot :
              ¬ FailsAs (ofRequest none shape) .ambiguousSpatialTerm := by
            intro h
            rcases h with ⟨e, he, hkind⟩
            rw [ofRequest_shape hshape] at he
            rcases Geometry.ofJson_error (map_eq_error_iff.1 he) with
              rfl | ⟨name, rfl⟩ | hmalformed
            · cases hkind
            · cases hkind
            · cases hmalformed.symm.trans hkind
          simp [hnot]
      | some values =>
          rw [ofRequest_both hshape]
          simp [FailsAs, SpatialError.kind]

theorem ofRequest_eq_none_iff :
    ofRequest bounds shape = .ok none ↔ bounds = none ∧ Absent shape := by
  rw [← present_eq_none_iff]
  have hsome : ∀ {α : Type} {x : Except SpatialError α} {f : α → SearchArea},
      (fun a => some (f a)) <$> x ≠ .ok none := by
    intro α x f h
    rcases map_eq_ok_iff.1 h with ⟨a, -, ha⟩
    cases ha
  cases hshape : present shape with
  | none =>
      cases bounds with
      | none => simp [ofRequest_neither hshape]
      | some values => simp [ofRequest_bounds hshape, hsome]
  | some value =>
      cases bounds with
      | none => simp [ofRequest_shape hshape, hsome]
      | some values => simp [ofRequest_both hshape]

theorem exists_of_ofRequest_bounds
    (h : ofRequest bounds shape = .ok (some area))
    (hshape : Absent shape) :
    ∃ values b, bounds = some values ∧ Box.ofList values = .ok b ∧
      area = .box b := by
  have hpresent := present_eq_none_iff.2 hshape
  cases bounds with
  | none =>
      rw [ofRequest_neither hpresent] at h
      cases h
  | some values =>
      rw [ofRequest_bounds hpresent] at h
      rcases map_eq_ok_iff.1 h with ⟨b, hb, hsome⟩
      exact ⟨values, b, rfl, hb, (Option.some.inj hsome).symm⟩

theorem exists_of_ofRequest_shape (h : ofRequest none shape = .ok (some area)) :
    ∃ value g, shape = some value ∧ Geometry.ofJson value = .ok g ∧
      area = .geometry g := by
  cases hpresent : present shape with
  | none =>
      rw [ofRequest_neither hpresent] at h
      cases h
  | some value =>
      rw [ofRequest_shape hpresent] at h
      rcases map_eq_ok_iff.1 h with ⟨g, hg, hsome⟩
      have hshape : shape = some value := by
        unfold present at hpresent
        split at hpresent
        · cases hpresent
        · exact hpresent
      exact ⟨value, g, hshape, hg, (Option.some.inj hsome).symm⟩

/-! ## The text of an area -/

theorem writable_toPolygon {b : Box} (h : ∀ v ∈ b.bounds, v.isFinite = true) :
    b.toPolygon.Writable := by
  simp only [Box.bounds, List.forall_mem_cons] at h
  simp [Box.toPolygon, Geometry.Writable, Ring.Writable, Filled,
    Position.isFinite, h]

/-- A text for a box: it is written of the area, read as its rectangle, and
bounded by the bounds of the box, each pair of them in order. -/
structure IsTextOfBox (b : Box) (t : String) : Prop where
  written : (box b).toWkt.outcome = .ok t
  read : (Geometry.ofWkt t).outcome = .ok (box b).toGeometry
  bounded : (Box.ofWkt t).outcome = .ok b.sorted

theorem exists_isTextOfBox {b : Box} (h : ∀ v ∈ b.bounds, v.isFinite = true) :
    ∃ t, IsTextOfBox b t := by
  obtain ⟨t, hwritten, hread⟩ :=
    Wkt.exists_toWkt_of_writable (writable_toPolygon h)
  have hbounded := Wkt.box_ok_iff.2 ⟨_, hread, Box.ofGeometry_toPolygon b⟩
  exact ⟨t, hwritten, hread, hbounded⟩

/-- What is written of a geometry agrees with it: only its shape keeps it from
having a text, and the box around a text is the one around the geometry. -/
structure Agrees (g : Geometry) : Prop where
  written : (∃ t, (geometry g).toWkt.outcome = .ok t) ↔ g.Gapless
  refused : ¬ FailsAs (geometry g).toWkt.outcome .malformedCoordinates
  bounded : ∀ t, (geometry g).toWkt.outcome = .ok t →
    ∃ b, (Box.ofWkt t).outcome = .ok b ∧ (geometry g).toBox = .ok b

theorem agrees_of_isFinite {g : Geometry}
    (h : ∀ p ∈ g.positions, p.isFinite = true) :
    Agrees g := by
  have houtcome : (geometry g).toWkt.outcome = String.ofList <$> Wkt.write g :=
    Geometry.outcome_toWkt g
  have hwritable : (∃ t, (geometry g).toWkt.outcome = .ok t) ↔ g.Writable := by
    rw [← Wkt.exists_write_iff, houtcome]
    simp only [map_eq_ok_iff]
    constructor
    · intro hwritten
      rcases hwritten with ⟨t, text, htext, -⟩
      exact ⟨text, htext⟩
    · intro hwritten
      rcases hwritten with ⟨text, htext⟩
      exact ⟨_, text, htext, rfl⟩
  refine ⟨?_, ?_, ?_⟩
  · rw [hwritable, Geometry.writable_iff]
    exact and_iff_left h
  · intro hfails
    rcases hfails with ⟨e, he, hkind⟩
    rw [houtcome] at he
    obtain ⟨p, hp, hnot⟩ :=
      Wkt.exists_not_finite_of_write hkind (map_eq_error_iff.1 he)
    rw [h p hp] at hnot
    cases hnot
  · intro t ht
    have hg := hwritable.1 ⟨t, ht⟩
    obtain ⟨t', ht', hread⟩ := Wkt.exists_toWkt_of_writable hg
    obtain rfl : t' = t := Except.ok.inj (ht'.symm.trans ht)
    obtain ⟨b, hb, -⟩ := Wkt.exists_box hg
    exact ⟨b, Wkt.box_ok_iff.2 ⟨g, hread, hb⟩, hb⟩

/-! ## From the request to the text -/

/-- **What comes of a request, from one end to the other**: it may have one
member only, and asks for no area without any.  The text of a box says what the
box does, and has the same box around it exactly if the bounds were given in
order.  A geometry that was read has a text unless it is a line string or has an
empty level, and the same box either way. -/
theorem ofRequest_consistent (bounds : Option (List Binary64))
    (shape : Option Json) :
    (FailsAs (ofRequest bounds shape) .ambiguousSpatialTerm ↔
      bounds ≠ none ∧ ¬ Absent shape) ∧
    (ofRequest bounds shape = .ok none ↔ bounds = none ∧ Absent shape) ∧
    (∀ area, ofRequest bounds shape = .ok (some area) → Absent shape →
      ∃ values b t, bounds = some values ∧ Box.IsGiven values b ∧
        area = .box b ∧ IsTextOfBox b t ∧ ∃ c, area.toBox = .ok c ∧
          (b.sorted.equal c = true ↔
            b.west.numLe b.east = true ∧ b.south.numLe b.north = true)) ∧
    (∀ area, ofRequest bounds shape = .ok (some area) → bounds = none →
      ∃ value g, shape = some value ∧ Geometry.ofJson value = .ok g ∧
        area = .geometry g ∧ Agrees g) := by
  refine ⟨failsAs_ambiguous_iff, ofRequest_eq_none_iff, ?_, ?_⟩
  · intro area harea hshape
    obtain ⟨values, b, hvalues, hb, rfl⟩ :=
      exists_of_ofRequest_bounds harea hshape
    have hgiven := Box.ofList_eq_ok_iff.1 hb
    have hfinite : ∀ v ∈ b.bounds, v.isFinite = true :=
      fun v hv => hgiven.2 v (hgiven.1.mem v hv)
    obtain ⟨t, ht⟩ := exists_isTextOfBox hfinite
    exact ⟨values, b, t, hvalues, hgiven.1, rfl, ht, b, rfl,
      Box.equal_sorted_iff⟩
  · intro area harea hnone
    rw [hnone] at harea
    obtain ⟨value, g, hvalue, hg, rfl⟩ := exists_of_ofRequest_shape harea
    exact ⟨value, g, hvalue, hg, rfl,
      agrees_of_isFinite (Geometry.isFinite_of_ofJson hg)⟩

end ItemSearch.SearchArea
