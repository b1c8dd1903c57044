/-
# Cyclic order

The numbers below `n` in cyclic order, from a given one on.  As long as there are at most `n` of
them they are distinct, and `n` of them are all.
-/
import Mathlib

namespace DrizzleNginx.Lib

/-- The first `m` numbers below `n` in cyclic order, from `start` on. -/
def cyclic (n start m : ℕ) : List ℕ := (List.range m).map fun j => (start + j) % n

variable {n start m : ℕ}

@[simp] lemma cyclic_zero : cyclic n start 0 = [] := rfl

@[simp] lemma length_cyclic : (cyclic n start m).length = m := by simp [cyclic]

lemma cyclic_succ : cyclic n start (m + 1) = cyclic n start m ++ [(start + m) % n] := by
  simp [cyclic, List.range_succ]

/-- Where the order starts matters only up to whole turns. -/
lemma cyclic_mod : cyclic n (start % n) m = cyclic n start m := by
  simp [cyclic]

lemma lt_of_mem_cyclic (hn : 0 < n) {i : ℕ} (h : i ∈ cyclic n start m) : i < n := by
  obtain ⟨j, _, rfl⟩ := List.mem_map.mp h
  exact Nat.mod_lt _ hn

/-- Within one turn no number comes twice. -/
theorem nodup_cyclic (hm : m ≤ n) : (cyclic n start m).Nodup := by
  refine List.Nodup.map_on (fun i hi j hj heq => ?_) List.nodup_range
  rw [List.mem_range] at hi hj
  -- the smaller one is less than a turn behind, so there is nothing between them
  have hle : ∀ {a b : ℕ}, b < m → (start + a) % n = (start + b) % n → b ≤ a := by
    intro a b hb heq
    have hzero := Nat.sub_mod_eq_zero_of_mod_eq heq.symm
    rw [Nat.add_sub_add_left, Nat.mod_eq_of_lt (by omega)] at hzero
    omega
  exact Nat.le_antisymm (hle hi heq.symm) (hle hj heq)

/-- In one turn every number comes once. -/
theorem cyclic_perm : (cyclic n start n).Perm (List.range n) := by
  refine (List.subperm_of_subset (nodup_cyclic (Nat.le_refl n))
    fun i hi => ?_).perm_of_length_le (by simp)
  refine List.mem_range.mpr (lt_of_mem_cyclic ?_ hi)
  obtain ⟨j, hj, _⟩ := List.mem_map.mp hi
  exact Nat.zero_lt_of_lt (List.mem_range.mp hj)

end DrizzleNginx.Lib
