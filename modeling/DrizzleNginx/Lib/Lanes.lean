/-
# Lanes

The entries of a list are in lanes.  The entries of one lane, in the order of the list, are what one
of several systems sees that share it: each entry has a place in its lane, and replacing an entry by
one of the same lane replaces it at its place.

The second part is about steps that cannot be seen from elsewhere.  A run looks like the run in
which they are left out.
-/
import DrizzleNginx.Lib.Run

namespace DrizzleNginx.Lib

/-! ## Lanes of a list -/

section Lanes

variable {α κ : Type*} [DecidableEq κ] (tag : α → κ)

/-- The entries of a lane. -/
def lane (v : κ) (xs : List α) : List α := xs.filter fun x => tag x = v

/-- The place in a lane of the entry at an index: how many entries of the lane are before it. -/
def place (v : κ) (xs : List α) (i : ℕ) : ℕ := (lane tag v (xs.take i)).length

variable {tag} {v : κ} {xs : List α} {i j : ℕ} {x y : α}

@[simp] lemma lane_nil : lane tag v [] = [] := rfl

lemma lane_cons :
    lane tag v (x :: xs) = if tag x = v then x :: lane tag v xs else lane tag v xs := by
  simp [lane, List.filter_cons]

lemma lane_concat : lane tag v (xs ++ [x]) = lane tag v xs ++ if tag x = v then [x] else [] := by
  rw [lane, List.filter_append]
  by_cases hx : tag x = v <;> simp [lane, hx]

lemma place_length : place tag v xs xs.length = (lane tag v xs).length := by
  rw [place, List.take_length]

lemma place_concat (hi : i ≤ xs.length) : place tag v (xs ++ [x]) i = place tag v xs i := by
  rw [place, List.take_append_of_le_length hi, place]

@[simp] lemma place_zero : place tag v xs 0 = 0 := rfl

lemma place_succ : place tag v (x :: xs) (i + 1) =
    (if tag x = v then 1 else 0) + place tag v xs i := by
  rw [place, List.take_succ_cons, lane_cons, place]
  split
  · rw [List.length_cons, Nat.add_comm]
  · rw [Nat.zero_add]

/-- An entry is at its place in its lane. -/
theorem getElem?_lane (hi : xs[i]? = some x) :
    (lane tag (tag x) xs)[place tag (tag x) xs i]? = some x := by
  induction xs generalizing i with
  | nil => simp at hi
  | cons a xs ih =>
    rw [lane_cons]
    cases i with
    | zero =>
      obtain rfl : a = x := by simpa using hi
      rw [if_pos rfl]
      rfl
    | succ i =>
      have ih := ih (i := i) (by simpa using hi)
      rw [place_succ]
      by_cases ha : tag a = tag x
      · rw [if_pos ha, if_pos ha, Nat.add_comm, List.getElem?_cons_succ]
        exact ih
      · rw [if_neg ha, if_neg ha, Nat.zero_add]
        exact ih

/-- Replacing an entry by one of its lane replaces it at its place. -/
theorem lane_set_self (hi : xs[i]? = some x) (hy : tag y = tag x) :
    lane tag (tag x) (xs.set i y) = (lane tag (tag x) xs).set (place tag (tag x) xs i) y := by
  induction xs generalizing i with
  | nil => simp at hi
  | cons a xs ih =>
    cases i with
    | zero =>
      obtain rfl : a = x := by simpa using hi
      rw [List.set_cons_zero, lane_cons, lane_cons, if_pos hy, if_pos rfl]
      rfl
    | succ i =>
      have ih := ih (i := i) (by simpa using hi)
      rw [List.set_cons_succ, lane_cons, lane_cons, place_succ, ih]
      by_cases ha : tag a = tag x
      · rw [if_pos ha, if_pos ha, if_pos ha, Nat.add_comm, List.set_cons_succ]
      · rw [if_neg ha, if_neg ha, if_neg ha, Nat.zero_add]

/-- Other lanes do not change. -/
theorem lane_set_of_ne (hi : xs[i]? = some x) (hy : tag y = tag x) (hv : tag x ≠ v) :
    lane tag v (xs.set i y) = lane tag v xs := by
  induction xs generalizing i with
  | nil => rfl
  | cons a xs ih =>
    cases i with
    | zero =>
      obtain rfl : a = x := by simpa using hi
      rw [List.set_cons_zero, lane_cons, lane_cons, if_neg (hy ▸ hv), if_neg hv]
    | succ i =>
      rw [List.set_cons_succ, lane_cons, lane_cons, ih (by simpa using hi)]

/-- The entries keep their places. -/
theorem place_set (hi : xs[i]? = some x) (hy : tag y = tag x) :
    place tag v (xs.set i y) j = place tag v xs j := by
  induction xs generalizing i j with
  | nil => rfl
  | cons a xs ih =>
    cases j with
    | zero => rfl
    | succ j =>
      cases i with
      | zero =>
        obtain rfl : a = x := by simpa using hi
        rw [List.set_cons_zero, place_succ, place_succ, hy]
      | succ i =>
        rw [List.set_cons_succ, place_succ, place_succ, ih (by simpa using hi)]

end Lanes

/-! ## Leaving steps out -/

section LeftOut

variable {σ ℓ : Type*} {step : σ → ℓ → σ} {keep : ℓ → Bool} {R : σ → σ → Prop}

/-- If steps that are left out cannot be seen from elsewhere, then a run looks like the run without
them. -/
theorem run_filter (hkeep : ∀ s t l, keep l → R s t → R (step s l) (step t l))
    (hdrop : ∀ s t l, ¬ keep l → R s t → R (step s l) t) {s t : σ} (h : R s t) (ls : List ℓ) :
    R (run step s ls) (run step t (ls.filter keep)) := by
  induction ls generalizing s t with
  | nil => exact h
  | cons l ls ih =>
    by_cases hl : keep l
    · rw [List.filter_cons_of_pos hl]
      exact ih (hkeep s t l hl h)
    · rw [List.filter_cons_of_neg hl]
      exact ih (hdrop s t l hl h)

end LeftOut

end DrizzleNginx.Lib
