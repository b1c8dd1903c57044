/-
# Counting what is held

Holders point to at most one key each.  Counted key by key, over a list of keys without duplicates,
they are as many as there are holders that point to a key of the list.
-/
import Mathlib

namespace DrizzleNginx.Lib

variable {α κ : Type*} [DecidableEq κ] {keys : List κ}

/-- The number of holders that point to a key. -/
def heldBy (key : α → Option κ) (xs : List α) (k : κ) : ℕ := xs.countP fun x => key x = some k

omit [DecidableEq κ] in
/-- Keys that are counted once or not at all. -/
lemma countP_eq_sum {p : κ → Bool} {f : κ → ℕ} (h : ∀ k ∈ keys, f k = if p k then 1 else 0) :
    keys.countP p = (keys.map f).sum := by
  induction keys with
  | nil => rfl
  | cons k keys ih =>
    obtain ⟨hk, hkeys⟩ := List.forall_mem_cons.mp h
    rw [List.countP_cons, List.map_cons, List.sum_cons, ih hkeys, hk, Nat.add_comm]

/-- Each holder is counted with its own key, and not with the others. -/
lemma sum_indicator (hnodup : keys.Nodup) (o : Option κ) :
    (keys.map fun k => if o = some k then 1 else 0).sum = if o.any (· ∈ keys) then 1 else 0 := by
  induction keys with
  | nil => cases o <;> rfl
  | cons k keys ih =>
    obtain ⟨hk, hnodup⟩ := List.nodup_cons.mp hnodup
    rw [List.map_cons, List.sum_cons, ih hnodup]
    cases o with
    | none => rfl
    | some j =>
      by_cases hjk : j = k
      · subst hjk
        simp [hk]
      · simp [hjk]

/-- Counted key by key, the holders are those that point to one of the keys. -/
theorem sum_heldBy (hnodup : keys.Nodup) (key : α → Option κ) (xs : List α) :
    (keys.map (heldBy key xs)).sum = xs.countP fun x => (key x).any (· ∈ keys) := by
  induction xs with
  | nil =>
    have hnil : heldBy key [] = fun _ : κ => 0 := rfl
    simp [hnil]
  | cons x xs ih =>
    have hcons : heldBy key (x :: xs) = fun k =>
        heldBy key xs k + if key x = some k then 1 else 0 := by
      funext k
      rw [heldBy, List.countP_cons]
      simp [heldBy]
    rw [hcons, List.sum_map_add, ih, sum_indicator hnodup, List.countP_cons]

end DrizzleNginx.Lib
