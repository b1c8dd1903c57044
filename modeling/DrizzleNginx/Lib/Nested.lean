/-
# Settings of nested blocks

A block of a configuration is read directive by directive, and is then merged with the block around
it; both can fail.  Each is a fold in `Except`.  If the newer value of a setting prevails in every
step of such a fold, then the fold ends with the last value that is given, or with the value it
began with. So a block ends up with the value of the innermost block that gives one, or else with
the default.
-/
import Mathlib

namespace DrizzleNginx.Lib

universe u

variable {α γ ε : Type*} {β : Type u} {step : β → α → Except ε β} {xs : List α} {b b' : β}

/-! ## Folds that can fail -/

lemma bind_eq_ok {α β : Type u} {x : Except ε α} {f : α → Except ε β} {b : β} :
    (x >>= f) = .ok b ↔ ∃ a, x = .ok a ∧ f a = .ok b := by
  cases x with
  | error e => exact ⟨nofun, fun ⟨_, h, _⟩ => nomatch h⟩
  | ok a => exact ⟨fun h => ⟨a, rfl, h⟩, fun ⟨_, h, h'⟩ => (Except.ok.inj h) ▸ h'⟩

lemma foldlM_concat_eq_ok {a : α} : (xs ++ [a]).foldlM step b = .ok b' ↔
    ∃ b₁, xs.foldlM step b = .ok b₁ ∧ step b₁ a = .ok b' := by
  rw [List.foldlM_append, bind_eq_ok]
  simp only [List.foldlM_cons, List.foldlM_nil, bind_pure]

/-- What holds of the steps that have been taken and is kept by each step holds in the end. -/
theorem foldlM_induction {I : List α → β → Prop} (h₀ : I [] b)
    (hstep : ∀ xs b a b', I xs b → step b a = .ok b' → I (xs ++ [a]) b')
    (h : xs.foldlM step b = .ok b') : I xs b' := by
  induction xs using List.reverseRecOn generalizing b' with
  | nil =>
    obtain rfl : b = b' := Except.ok.inj h
    exact h₀
  | append_singleton xs a ih =>
    obtain ⟨b₁, h₁, ha⟩ := foldlM_concat_eq_ok.mp h
    exact hstep xs b₁ a b' (ih h₁) ha

/-! ## The first failure -/

/-- A fold fails as the first of its steps that fails. -/
theorem foldlM_eq_error {e : ε} : xs.foldlM step b = .error e ↔
    ∃ before a after b₁, xs = before ++ a :: after ∧ before.foldlM step b = .ok b₁ ∧
      step b₁ a = .error e := by
  constructor
  · intro h
    induction xs generalizing b with
    | nil => cases h
    | cons a xs ih =>
      rw [List.foldlM_cons] at h
      rcases hstep : step b a with e' | b₁
      · rw [hstep] at h
        cases h
        exact ⟨[], a, xs, b, rfl, rfl, hstep⟩
      · rw [hstep] at h
        obtain ⟨before, x, after, b₂, rfl, hbefore, hx⟩ := ih h
        refine ⟨a :: before, x, after, b₂, rfl, ?_, hx⟩
        rw [List.foldlM_cons, hstep]
        exact hbefore
  · rintro ⟨before, a, after, b₁, rfl, hbefore, ha⟩
    rw [List.foldlM_append, hbefore]
    change (a :: after).foldlM step b₁ = _
    rw [List.foldlM_cons, ha]
    rfl

/-- If it does not depend on what has been read whether a step succeeds, then the fold succeeds when
all of them do. -/
theorem foldlM_isOk {P : α → Prop} (hstep : ∀ b a, (∃ b', step b a = .ok b') ↔ P a) :
    (∃ b', xs.foldlM step b = .ok b') ↔ ∀ a ∈ xs, P a := by
  induction xs generalizing b with
  | nil => exact ⟨fun _ _ h => absurd h List.not_mem_nil, fun _ => ⟨b, rfl⟩⟩
  | cons a xs ih =>
    rw [List.forall_mem_cons, ← hstep b a]
    simp only [List.foldlM_cons, bind_eq_ok]
    constructor
    · rintro ⟨b', b₁, ha, hxs⟩
      exact ⟨⟨b₁, ha⟩, ih.mp ⟨b', hxs⟩⟩
    · rintro ⟨⟨b₁, ha⟩, hxs⟩
      obtain ⟨b', h⟩ := ih.mpr hxs
      exact ⟨b', b₁, ha, h⟩

/-- A failure, if it depends on the step alone. -/
theorem foldlM_eq_error_first {P F : α → Prop} {e : ε}
    (hstep : ∀ b a, (∃ b', step b a = .ok b') ↔ P a) (hfail : ∀ b a, step b a = .error e ↔ F a) :
    xs.foldlM step b = .error e ↔
      ∃ before a after, xs = before ++ a :: after ∧ (∀ x ∈ before, P x) ∧ F a := by
  rw [foldlM_eq_error]
  constructor
  · rintro ⟨before, a, after, b₁, rfl, hbefore, ha⟩
    exact ⟨before, a, after, rfl, (foldlM_isOk hstep).mp ⟨b₁, hbefore⟩, (hfail b₁ a).mp ha⟩
  · rintro ⟨before, a, after, rfl, hbefore, ha⟩
    obtain ⟨b₁, h⟩ := (foldlM_isOk hstep (b := b)).mpr hbefore
    exact ⟨before, a, after, b₁, rfl, h, (hfail b₁ a).mpr ha⟩

/-! ## The value that prevails -/

/-- The last value in a list of directives, or the innermost one in a list of blocks, the outermost
one first. -/
def innermost (f : α → Option γ) (xs : List α) : Option γ := xs.reverse.findSome? f

variable {f : α → Option γ}

@[simp] lemma innermost_nil : innermost f [] = none := rfl

@[simp] lemma innermost_concat {a : α} :
    innermost f (xs ++ [a]) = (f a).or (innermost f xs) := by
  rw [innermost, List.reverse_append, List.reverse_singleton, List.singleton_append,
    List.findSome?_cons]
  cases f a <;> rfl

/-- The block that gives the value is the last one that gives any. -/
lemma innermost_eq_some {c : γ} : innermost f xs = some c ↔
    ∃ outer a inner, xs = outer ++ a :: inner ∧ f a = some c ∧ ∀ x ∈ inner, f x = none := by
  rw [innermost, List.findSome?_eq_some_iff]
  constructor
  · rintro ⟨l₁, a, l₂, hxs, ha, hnone⟩
    refine ⟨l₂.reverse, a, l₁.reverse, ?_, ha, by simpa using hnone⟩
    simpa using congrArg List.reverse hxs
  · rintro ⟨outer, a, inner, rfl, ha, hnone⟩
    exact ⟨inner.reverse, a, outer.reverse, by simp, ha, by simpa using hnone⟩

lemma innermost_append {ys : List α} :
    innermost f (xs ++ ys) = (innermost f ys).or (innermost f xs) := by
  rw [innermost, List.reverse_append, List.findSome?_append]
  rfl

lemma innermost_map {δ : Type*} {k : γ → δ} :
    innermost (fun a => (f a).map k) xs = (innermost f xs).map k :=
  List.map_findSome?.symm

/-- The places of the steps make no difference. -/
lemma innermost_zipIdx {n : ℕ} : innermost (fun p => f p.1) (xs.zipIdx n) = innermost f xs := by
  have hfst : innermost f ((xs.zipIdx n).map Prod.fst) =
      innermost (fun p => f p.1) (xs.zipIdx n) := by
    rw [innermost, ← List.map_reverse, List.findSome?_map]
    rfl
  rw [← hfst, List.zipIdx_map_fst]

variable {g : β → Option γ}

/-- Directives: the last value prevails over the one before. -/
theorem get_foldlM (hget : ∀ b a b', step b a = .ok b' → g b' = (f a).or (g b))
    (h : xs.foldlM step b = .ok b') : g b' = (innermost f xs).or (g b) :=
  foldlM_induction (I := fun xs b' => g b' = (innermost f xs).or (g b)) rfl
    (fun xs b₁ a b₂ h₁ ha => by rw [hget b₁ a b₂ ha, h₁, innermost_concat, Option.or_assoc]) h

/-- Blocks: the innermost value prevails, and each merge puts the default where there is none. -/
theorem get_merge {d : Option γ} (hget : ∀ b a b', step b a = .ok b' →
      g b' = ((f a).or (g b)).or d) (hxs : xs ≠ []) (h : xs.foldlM step b = .ok b') :
    g b' = ((innermost f xs).or (g b)).or d := by
  have hfold : ∀ {b'}, xs.foldlM step b = .ok b' →
      (g b').or d = ((innermost f xs).or (g b)).or d := by
    refine foldlM_induction (I := fun xs b' =>
      (g b').or d = ((innermost f xs).or (g b)).or d) rfl fun xs b₁ a b₂ h₁ ha => ?_
    rw [hget b₁ a b₂ ha, Option.or_assoc, Option.or_self, Option.or_assoc, h₁, innermost_concat]
    simp only [Option.or_assoc]
  -- the last merge has put the default in
  obtain ⟨ys, a, rfl⟩ := (List.eq_nil_or_concat xs).resolve_left hxs
  rw [List.concat_eq_append] at h hfold
  obtain ⟨b₁, _, ha⟩ := foldlM_concat_eq_ok.mp h
  rw [List.concat_eq_append, ← hfold h, hget b₁ a b' ha]
  simp only [Option.or_assoc, Option.or_self]

end DrizzleNginx.Lib
