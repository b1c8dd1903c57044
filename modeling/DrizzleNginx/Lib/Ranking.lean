/-
# Runs that a rank bounds

A machine is busy for a while.  Each step that leaves it busy lowers a rank, except for what the
machine gains in the step.  So the steps for which it stays busy are at most as many as its rank at
the beginning, together with its gains.
-/
import DrizzleNginx.Lib.Run

namespace DrizzleNginx.Lib

variable {σ ℓ : Type*}

/-- A rank for the steps of a busy machine, in the states with an invariant. -/
structure Ranked (step : σ → ℓ → σ) (I busy : σ → Prop) (rank gain : σ → ℕ) : Prop where
  keeps : ∀ s l, I s → I (step s l)
  /-- A machine that has stopped does not become busy by itself. -/
  stops : ∀ s l, I s → busy (step s l) → busy s
  lowers : ∀ s l, I s → busy (step s l) → rank (step s l) + 1 + gain s ≤ rank s + gain (step s l)

namespace Ranked

variable {step : σ → ℓ → σ} {I busy : σ → Prop} {rank gain : σ → ℕ} {s : σ}

lemma busy_of_run (h : Ranked step I busy rank gain) (ls : List ℓ) (hI : I s)
    (hbusy : busy (run step s ls)) : busy s := by
  induction ls generalizing s with
  | nil => exact hbusy
  | cons l ls ih => exact h.stops s l hI (ih (h.keeps s l hI) hbusy)

/-- As long as the machine is busy, its steps are bounded by its rank and its gains. -/
theorem length_le (h : Ranked step I busy rank gain) (ls : List ℓ) (hI : I s)
    (hbusy : busy (run step s ls)) :
    ls.length + rank (run step s ls) + gain s ≤ rank s + gain (run step s ls) := by
  induction ls generalizing s with
  | nil => simp [run]
  | cons l ls ih =>
    have hI₁ := h.keeps s l hI
    have hrest := ih hI₁ hbusy
    have hfirst := h.lowers s l hI (h.busy_of_run ls hI₁ hbusy)
    change (ls.length + 1) + rank (run step (step s l) ls) + gain s ≤
      rank s + gain (run step (step s l) ls)
    omega

end Ranked
end DrizzleNginx.Lib
