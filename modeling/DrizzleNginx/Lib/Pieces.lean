/-
# Pieces in segments

A sequence of pieces is put one behind the other into segments, and a segment is closed only between
two pieces.  Then no piece lies in two segments: each segment is a group of whole pieces.  Segments
that are taken from the front carry a beginning of the pieces.
-/
import Mathlib

namespace DrizzleNginx.Lib

variable {α : Type*} {pieces : List (List α)} {segs segs' : List (List α)} {s a : List α}

/-- The segments hold the pieces, group by group. -/
def Pieces (pieces segs : List (List α)) : Prop :=
  ∃ groups : List (List (List α)), groups.flatten = pieces ∧ groups.map List.flatten = segs

namespace Pieces

lemma single_nil : Pieces ([] : List (List α)) [[]] := ⟨[[]], rfl, rfl⟩

/-- Without the division into pieces, what is in the segments is the same. -/
lemma flatten (h : Pieces pieces segs) : segs.flatten = pieces.flatten := by
  obtain ⟨groups, rfl, rfl⟩ := h
  rw [List.flatten_flatten]

/-- A piece is put into the last segment. -/
lemma add (h : Pieces pieces (segs ++ [s])) (a : List α) :
    Pieces (pieces ++ [a]) (segs ++ [s ++ a]) := by
  obtain ⟨groups, rfl, hmap⟩ := h
  obtain ⟨front, last, rfl, hfront, hlast⟩ := List.map_eq_append_iff.mp hmap
  obtain ⟨g, rfl, hg⟩ := List.map_eq_singleton_iff.mp hlast
  refine ⟨front ++ [g ++ [a]], by simp, ?_⟩
  rw [List.map_append, hfront, List.map_singleton, List.flatten_append, hg, List.flatten_singleton]

/-- A new segment is opened. -/
lemma next (h : Pieces pieces segs) : Pieces pieces (segs ++ [[]]) := by
  obtain ⟨groups, rfl, rfl⟩ := h
  exact ⟨groups ++ [[]], by simp, by simp⟩

/-- The segments at the front hold a beginning of the pieces. -/
lemma front (h : Pieces pieces (segs ++ segs')) : ∃ ps, ps <+: pieces ∧ Pieces ps segs := by
  obtain ⟨groups, rfl, hmap⟩ := h
  obtain ⟨gs, gs', rfl, hgs, _⟩ := List.map_eq_append_iff.mp hmap
  exact ⟨gs.flatten, by simp, gs, rfl, hgs⟩

end Pieces
end DrizzleNginx.Lib
