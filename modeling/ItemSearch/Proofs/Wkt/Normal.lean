import Mathlib
import ItemSearch.Wkt.Reader
import ItemSearch.Proofs.Geometry.Box
import ItemSearch.Proofs.Wkt.Grammar
import ItemSearch.Proofs.Wkt.RoundTrip
import ItemSearch.Proofs.Wkt.Writable

/-!
# The normal form of a text

The grammar leaves a text much freedom: the case of its letters, the commas and
blanks between its groups, the form of its numbers, further numbers behind the
first two of a position.  But the geometries that it describes have no gaps.
There is a part before the first comma and a group for each ring, and a number
has to be finite, so whatever is read can be written.

What is written is the normal form of the text.  It is read as the same
geometry, and so it is its own normal form.  The box around a text that is read
has finite bounds in their order, for there are positions to take it of.

## Main results

* `IsRing.writable`, `IsPolygon.filled`, `StandsFor.writable`: each level of the
  grammar describes what can be written at that level.
* `exists_toWkt_of_writable`: what is written of a geometry is read as this
  geometry.
* `exists_box`: there is a box around a geometry that can be written.
* `ofWkt_normalises`: what comes of a text that is read, and of its normal form.
-/

namespace ItemSearch.Wkt

open Outcome

/-! ## What the grammar describes -/

theorem IsPosition.isFinite {text : List Char} {p : Position}
    (h : IsPosition text p) :
    p.isFinite = true := by
  obtain ⟨words, more, -, hnumbers⟩ := h
  cases hnumbers with
  | cons hx hrest =>
      cases hrest with
      | cons hy _ => exact Bool.and_eq_true_iff.2 ⟨hx.2, hy.2⟩

theorem IsRing.writable {text : List Char} {ring : Ring}
    (h : IsRing text ring) :
    ring.Writable := by
  obtain ⟨-, parts, hparts, hpositions⟩ := h
  have hne : parts ≠ [] := by
    rw [← Text.fields_eq_of_splitsInto hparts]
    exact Text.fields_ne_nil text
  exact Filled.of_forall₂ hpositions hne fun _ _ => IsPosition.isFinite

theorem IsPolygon.filled {text : List Char} {rings : List Ring}
    (h : IsPolygon text rings) :
    Filled Ring.Writable rings := by
  obtain ⟨insides, hne, -, hrings⟩ := h
  exact Filled.of_forall₂ hrings hne fun _ _ => IsRing.writable

theorem IsMultiPolygon.filled {text : List Char} {polygons : List (List Ring)}
    (h : IsMultiPolygon text polygons) :
    Filled (Filled Ring.Writable) polygons := by
  obtain ⟨insides, hne, -, hpolygons⟩ := h
  exact Filled.of_forall₂ hpolygons hne fun _ _ => IsPolygon.filled

theorem StandsFor.writable {text : List Char} {g : Geometry}
    (h : StandsFor text g) :
    g.Writable := by
  obtain ⟨inside, name, -, -, hbody⟩ := h
  cases hbody with
  | point _ hposition => exact hposition.isFinite
  | polygon hrings => exact hrings.filled
  | multiPolygon hpolygons => exact hpolygons.filled

theorem writable_of_ofWkt {t : String} {g : Geometry}
    (h : (Geometry.ofWkt t).outcome = .ok g) : g.Writable := by
  rw [Geometry.outcome_ofWkt] at h
  exact (readTrimmed_eq_ok_iff.1 h).writable

/-! ## Writing and reading again -/

/-- What is written of a geometry is read as this geometry, so it can be
written. -/
theorem exists_toWkt_of_writable {g : Geometry} (h : g.Writable) :
    ∃ t, g.toWkt.outcome = .ok t ∧ (Geometry.ofWkt t).outcome = .ok g := by
  obtain ⟨text, htext⟩ := exists_write_iff.2 h
  refine ⟨String.ofList text, ?_, ?_⟩
  · rw [Geometry.outcome_toWkt]
    exact map_eq_ok_iff.2 ⟨text, htext, rfl⟩
  · rw [Geometry.outcome_ofWkt, String.toList_ofList]
    exact read_write htext

/-- The text that is written of what a text is read as. -/
def normal (t : String) : Journaled WktEvent SpatialError String :=
  Geometry.ofWkt t >>= Geometry.toWkt

theorem outcome_normal_of_ok {t : String} {g : Geometry}
    (h : (Geometry.ofWkt t).outcome = .ok g) :
    (normal t).outcome = g.toWkt.outcome := by
  rw [normal, Journaled.outcome_bind, h]
  rfl

/-! ## The box around a text -/

theorem exists_box {g : Geometry} (h : g.Writable) :
    ∃ b, Box.ofGeometry g = .ok b ∧ b.Ordered := by
  obtain ⟨hne, hfinite⟩ := h.positions
  exact Box.exists_ofGeometry hne hfinite

/-- The box around a text fails in no way but the one in which the text is
refused. -/
theorem box_error_iff {t : String} {e : SpatialError} :
    (Box.ofWkt t).outcome = .error e ↔
      (Geometry.ofWkt t).outcome = .error e := by
  rw [Box.outcome_ofWkt, bind_eq_error_iff]
  constructor
  · intro h
    rcases h with hread | ⟨g, hg, hbox⟩
    · exact hread
    · obtain ⟨b, hb, -⟩ := exists_box (writable_of_ofWkt hg)
      cases hb.symm.trans hbox
  · exact Or.inl

theorem box_ok_iff {t : String} {b : Box} :
    (Box.ofWkt t).outcome = .ok b ↔
      ∃ g, (Geometry.ofWkt t).outcome = .ok g ∧ Box.ofGeometry g = .ok b := by
  rw [Box.outcome_ofWkt, bind_eq_ok_iff]

theorem kind_ne_noValidCoordinates {t : String} {e : SpatialError}
    (h : (Geometry.ofWkt t).outcome = .error e) :
    e.kind ≠ .noValidCoordinates := by
  intro hkind
  rw [Geometry.outcome_ofWkt] at h
  rcases readTrimmed_error h with ⟨-, rfl⟩ | ⟨name, -, rfl⟩ | hmalformed
  · cases hkind
  · cases hkind
  · rw [hmalformed] at hkind
    cases hkind

/-- **Every text that is read can be written, and its normal form is stable**:
the geometry has no gaps and finite ordinates only, what is written of it is
read as the same geometry and is its own normal form.  There is a box around
exactly the texts that are read, with finite bounds in their order, and a text
that is refused is refused for the same reason, never for having no
positions. -/
theorem ofWkt_normalises (t : String) :
    (∀ g, (Geometry.ofWkt t).outcome = .ok g →
      g.Writable ∧ ∃ t', g.toWkt.outcome = .ok t' ∧
        (Geometry.ofWkt t').outcome = .ok g ∧ (normal t').outcome = .ok t') ∧
    ((∃ b, (Box.ofWkt t).outcome = .ok b) ↔
      ∃ g, (Geometry.ofWkt t).outcome = .ok g) ∧
    (∀ e, (Box.ofWkt t).outcome = .error e ↔
      (Geometry.ofWkt t).outcome = .error e) ∧
    ¬ FailsAs (Box.ofWkt t).outcome .noValidCoordinates ∧
    ∀ b, (Box.ofWkt t).outcome = .ok b → b.Ordered := by
  refine ⟨?_, ?_, fun _ => box_error_iff, ?_, ?_⟩
  · intro g hg
    have hwritable := writable_of_ofWkt hg
    obtain ⟨t', htext, hread⟩ := exists_toWkt_of_writable hwritable
    exact ⟨hwritable, t', htext, hread,
      (outcome_normal_of_ok hread).trans htext⟩
  · constructor
    · intro h
      rcases h with ⟨b, hb⟩
      obtain ⟨g, hg, -⟩ := box_ok_iff.1 hb
      exact ⟨g, hg⟩
    · intro h
      rcases h with ⟨g, hg⟩
      obtain ⟨b, hb, -⟩ := exists_box (writable_of_ofWkt hg)
      exact ⟨b, box_ok_iff.2 ⟨g, hg, hb⟩⟩
  · intro h
    rcases h with ⟨e, he, hkind⟩
    exact kind_ne_noValidCoordinates (box_error_iff.1 he) hkind
  · intro b hb
    obtain ⟨g, hg, hbox⟩ := box_ok_iff.1 hb
    obtain ⟨b', hb', hordered⟩ := exists_box (writable_of_ofWkt hg)
    obtain rfl := Except.ok.inj (hb'.symm.trans hbox)
    exact hordered

end ItemSearch.Wkt
