/-
# Bounded stacks

A stack with room for `n` entries, the newest one first.  A push onto a full stack drops the oldest
entry.  Entries can also be taken out of the middle: the newest one with some property, or the one
at a given place.  So what is on the stack are pushed entries, in the order in which they were
pushed.
-/
import Mathlib

namespace DrizzleNginx.Lib.Stack

variable {α : Type*}

/-- An operation on a bounded stack. -/
inductive Op (α : Type*)
  | push (x : α)
  /-- The newest entry with a property is taken. -/
  | take (p : α → Bool)
  /-- The entry at a place is removed. -/
  | remove (i : ℕ)
  | skip

namespace Op

/-- The stack behind an operation. -/
def apply (n : ℕ) : Op α → List α → List α
  | push x, xs => (x :: xs).take n
  | take p, xs => xs.eraseP p
  | remove i, xs => xs.eraseIdx i
  | skip, xs => xs

/-- The entry that an operation pushes. -/
def pushed : Op α → Option α
  | push x => some x
  | _ => none

end Op

/-- The stack behind some operations, the first one first. -/
def run (n : ℕ) (ops : List (Op α)) (xs : List α) : List α :=
  ops.foldl (fun xs op => op.apply n xs) xs

variable {n : ℕ} {x : α} {xs : List α} {p : α → Bool}

/-! ## Single operations -/

/-- With room, a push drops nothing. -/
lemma push_of_lt (h : xs.length < n) : (Op.push x).apply n xs = x :: xs :=
  List.take_of_length_le h

/-- Without room, a push drops the oldest entry, and only that. -/
lemma push_of_full (h : xs.length = n) (hn : n ≠ 0) :
    (Op.push x).apply n xs = x :: xs.dropLast := by
  obtain ⟨m, rfl⟩ := Nat.exists_eq_succ_of_ne_zero hn
  rw [Op.apply, List.take_succ_cons, List.dropLast_eq_take, h, Nat.succ_sub_one]

/-- What is taken is newer than everything else with the property. -/
lemma take_of_split {l₁ l₂ : List α} (hx : p x) (hnew : ∀ y ∈ l₁, p y = false) :
    (Op.take p).apply n (l₁ ++ x :: l₂) = l₁ ++ l₂ := by
  have hnew : ∀ y ∈ l₁, ¬ p y := fun y hy h => Bool.false_ne_true ((hnew y hy).symm.trans h)
  rw [Op.apply, List.eraseP_append_right _ hnew, List.eraseP_cons_of_pos hx]

lemma take_of_forall_not (h : ∀ y ∈ xs, p y = false) : (Op.take p).apply n xs = xs :=
  List.eraseP_of_forall_not fun y hy hp => Bool.false_ne_true ((h y hy).symm.trans hp)

lemma remove_of_split {l₁ l₂ : List α} :
    (Op.remove l₁.length).apply n (l₁ ++ x :: l₂) = l₁ ++ l₂ := by
  rw [Op.apply, List.eraseIdx_append_of_length_le (Nat.le_refl _), Nat.sub_self,
    List.eraseIdx_cons_zero]

lemma remove_of_length_le {i : ℕ} (h : xs.length ≤ i) : (Op.remove i).apply n xs = xs :=
  List.eraseIdx_of_length_le h

/-- Behind an operation there is on the stack what was on it before, and the entry that is pushed,
in this order. -/
lemma apply_sublist (op : Op α) : (op.apply n xs).Sublist (op.pushed.toList ++ xs) := by
  cases op with
  | push x => exact List.take_sublist n (x :: xs)
  | take p => exact List.eraseP_sublist
  | remove i => exact List.eraseIdx_sublist xs i
  | skip => exact List.Sublist.refl xs

/-! ## Runs -/

/-- What is on the stack has been pushed, and newer entries are above older ones. -/
theorem run_sublist (ops : List (Op α)) :
    (run n ops xs).Sublist ((ops.filterMap Op.pushed).reverse ++ xs) := by
  induction ops generalizing xs with
  | nil => exact List.Sublist.refl xs
  | cons op ops ih =>
    have hstep : (run n (op :: ops) xs).Sublist
        ((ops.filterMap Op.pushed).reverse ++ (op.pushed.toList ++ xs)) :=
      ih.trans ((apply_sublist op).append_left _)
    have hpushed : ((op :: ops).filterMap Op.pushed).reverse =
        (ops.filterMap Op.pushed).reverse ++ op.pushed.toList := by
      cases h : op.pushed <;> simp [h]
    rw [hpushed, List.append_assoc]
    exact hstep

end DrizzleNginx.Lib.Stack
