import Mathlib.Combinatorics.SimpleGraph.Metric

/-!
# Spheres of a graph

The vertices at a distance from a vertex, level by level.
-/

namespace Library

variable {V : Type} {G : SimpleGraph V} {u v : V} {k m : ℕ}

/-- The next sphere is what is next to a sphere and not within it. -/
theorem edist_succ_iff : G.edist u v = (k + 1 : ℕ) ↔
    (k : ℕ∞) < G.edist u v ∧ ∃ y, G.edist u y = k ∧ G.Adj y v := by
  constructor
  · intro h
    refine ⟨by rw [h]; exact_mod_cast Nat.lt_succ_self k, ?_⟩
    rw [SimpleGraph.edist_comm] at h
    obtain ⟨p, hp⟩ := SimpleGraph.exists_walk_of_edist_eq_coe h
    cases p with
    | nil => simp at hp
    | @cons _ y _ hadj q =>
      have hlength : q.length = k := by simpa using hp
      have hle : G.edist y u ≤ k := hlength ▸ G.edist_le q
      have hstep : G.edist v y = 1 := SimpleGraph.edist_eq_one_iff_adj.mpr hadj
      have htriangle : G.edist v u ≤ G.edist v y + G.edist y u := SimpleGraph.edist_triangle
      rw [h, hstep, add_comm 1] at htriangle
      have hge : (k : ℕ∞) ≤ G.edist y u := by
        have hadd : (k : ℕ∞) + 1 ≤ G.edist y u + 1 := by exact_mod_cast htriangle
        exact (ENat.add_le_add_iff_right ENat.one_ne_top).mp hadd
      exact ⟨y, by rw [SimpleGraph.edist_comm]; exact le_antisymm hle hge, hadj.symm⟩
  · rintro ⟨hlt, y, hy, hadj⟩
    have hstep : G.edist y v = 1 := SimpleGraph.edist_eq_one_iff_adj.mpr hadj
    have htriangle : G.edist u v ≤ G.edist u y + G.edist y v := SimpleGraph.edist_triangle
    rw [hy, hstep] at htriangle
    have hge : (k : ℕ∞) + 1 ≤ G.edist u v := Order.add_one_le_of_lt hlt
    exact_mod_cast le_antisymm htriangle hge

/-- Beyond an empty sphere every sphere is empty. -/
lemma sphere_empty_of_le (h : ∀ v, G.edist u v ≠ k) (hkm : k ≤ m) (v : V) : G.edist u v ≠ m := by
  induction m, hkm using Nat.le_induction generalizing v with
  | base => exact h v
  | succ m _ ih =>
    intro hv
    obtain ⟨-, y, hy, -⟩ := edist_succ_iff.mp hv
    exact ih y hy

/-- Whatever is at a finite distance is nearer than an empty sphere. -/
lemma edist_lt_of_sphere_empty (h : ∀ v, G.edist u v ≠ k) (hv : G.edist u v ≤ m) :
    G.edist u v < k := by
  by_contra hge
  obtain ⟨d, hd⟩ := ENat.ne_top_iff_exists.mp (ne_top_of_le_ne_top (ENat.natCast_ne_top m) hv)
  rw [← hd, not_lt, Nat.cast_le] at hge
  exact sphere_empty_of_le h hge v hd.symm

end Library
