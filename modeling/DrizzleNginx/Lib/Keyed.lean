/-
# Options with keys

An option is the text of a key with a value behind it, as in `key=value`.  If no key begins another
one, then an option has one key and one value at most, whatever its value is.  A reader that goes
through the keys in turn and looks for each of them at the beginning of an option therefore finds
what has been written, in whatever order it tries them.
-/
import DrizzleNginx.Lib.Nested

namespace DrizzleNginx.Lib

/-- The texts of keys, none of which begins another one. -/
structure Keys (κ α : Type*) where
  text : κ → List α
  separate : ∀ k k', text k <+: text k' → k = k'

namespace Keys

variable {κ α : Type*} (K : Keys κ α) {k k' : κ} {v v' option : List α}

/-- The key and the value of an option are determined by its text. -/
theorem append_inj : K.text k ++ v = K.text k' ++ v' ↔ k = k' ∧ v = v' := by
  constructor
  · intro h
    have hk : K.text k <+: K.text k' ++ v' := ⟨v, h⟩
    have hk' : K.text k' <+: K.text k' ++ v' := List.prefix_append _ _
    obtain rfl : k = k' := by
      rcases List.prefix_or_prefix_of_prefix hk hk' with hle | hle
      · exact K.separate k k' hle
      · exact (K.separate k' k hle).symm
    exact ⟨rfl, List.append_cancel_left h⟩
  · rintro ⟨rfl, rfl⟩
    rfl

/-- The options that have one of the keys, with a value that it allows. -/
def Grammar (allows : κ → List α → Prop) (option : List α) : Prop :=
  ∃ k v, option = K.text k ++ v ∧ allows k v

lemma grammar_append {allows : κ → List α → Prop} :
    K.Grammar allows (K.text k ++ v) ↔ allows k v := by
  constructor
  · rintro ⟨k', v', h, hv⟩
    obtain ⟨rfl, rfl⟩ := K.append_inj.mp h
    exact hv
  · intro hv
    exact ⟨k, v, rfl, hv⟩

/-! ## Reading options -/

variable {ι β ε : Type*}

/-- A step of a reader looks at the key of an option and stores its value, if that is allowed.  The
option is a part of what the reader is given. -/
structure Reads (option : ι → List α) (step : β → ι → Except ε β) (allows : ι → κ → List α → Prop)
    (store : κ → List α → β → β) : Prop where
  ok : ∀ b a k v, option a = K.text k ++ v → allows a k v → step b a = .ok (store k v b)
  bad : ∀ b a k v, option a = K.text k ++ v → ¬ allows a k v → ∃ e, step b a = .error e
  unknown : ∀ b a, (∀ k, ¬ K.text k <+: option a) → ∃ e, step b a = .error e

namespace Reads

variable {K} {option : ι → List α} {step : β → ι → Except ε β} {allows : ι → κ → List α → Prop}
  {store : κ → List α → β → β} {as : List ι} {a : ι} {b b' : β}

lemma step_cases (h : K.Reads option step allows store) (hstep : step b a = .ok b') :
    ∃ k v, option a = K.text k ++ v ∧ allows a k v ∧ b' = store k v b := by
  by_cases hkey : ∃ k, K.text k <+: option a
  · obtain ⟨k, v, hv⟩ := hkey
    by_cases hallows : allows a k v
    · rw [h.ok b a k v hv.symm hallows] at hstep
      exact ⟨k, v, hv.symm, hallows, (Except.ok.inj hstep).symm⟩
    · obtain ⟨e, he⟩ := h.bad b a k v hv.symm hallows
      rw [he] at hstep
      cases hstep
  · obtain ⟨e, he⟩ := h.unknown b a fun k hk => hkey ⟨k, hk⟩
    rw [he] at hstep
    cases hstep

/-- A step succeeds exactly for the options of the grammar. -/
lemma step_isOk (h : K.Reads option step allows store) (b : β) (a : ι) :
    (∃ b', step b a = .ok b') ↔ K.Grammar (allows a) (option a) := by
  constructor
  · rintro ⟨b', hstep⟩
    obtain ⟨k, v, hv, hallows, _⟩ := h.step_cases hstep
    exact ⟨k, v, hv, hallows⟩
  · rintro ⟨k, v, hv, hallows⟩
    exact ⟨_, h.ok b a k v hv hallows⟩

/-- A field that belongs to no key stays. -/
lemma keeps {γ : Type*} {g : β → γ} (h : K.Reads option step allows store)
    (hstore : ∀ b k v, g (store k v b) = g b) (hfold : as.foldlM step b = .ok b') : g b' = g b := by
  refine foldlM_induction (I := fun _ b₁ => g b₁ = g b) rfl ?_ hfold
  intro _ b₁ a b₂ hb hstep
  obtain ⟨k, v, _, _, rfl⟩ := h.step_cases hstep
  rw [hstore, hb]

end Reads

/-! ## Values of options -/

variable [DecidableEq α]

/-- The value of an option with a certain key. -/
def value (k : κ) (option : List α) : Option (List α) :=
  if K.text k <+: option then some (option.drop (K.text k).length) else none

lemma value_eq_some : K.value k option = some v ↔ option = K.text k ++ v := by
  rw [value]
  constructor
  · intro h
    split at h
    · next hk =>
      obtain ⟨rest, rfl⟩ := hk
      rw [List.drop_left] at h
      rw [Option.some.inj h]
    · cases h
  · rintro rfl
    rw [if_pos (List.prefix_append _ _), List.drop_left]

@[simp] lemma value_append : K.value k (K.text k ++ v) = some v := K.value_eq_some.mpr rfl

lemma value_of_ne (hne : k ≠ k') : K.value k' (K.text k ++ v) = none := by
  rw [Option.eq_none_iff_forall_not_mem]
  intro v' h
  exact hne (K.append_inj.mp (K.value_eq_some.mp h)).1

/-- The last value that is given for a key. -/
def last (k : κ) (options : List (List α)) : Option (List α) := innermost (K.value k) options

/-- Options behind others prevail. -/
lemma last_append {γ : Type*} {os os' : List (List α)} {g : List α → γ} {d : γ} :
    ((K.last k (os ++ os')).map g).getD d =
      ((K.last k os').map g).getD (((K.last k os).map g).getD d) := by
  rw [last, last, last, innermost_append]
  cases innermost (K.value k) os' with
  | none => rfl
  | some v => rfl

variable {K}

/-- A field that belongs to a key ends with the last value that has been given for it. -/
theorem Reads.get [DecidableEq κ] {option : ι → List α} {step : β → ι → Except ε β}
    {allows : ι → κ → List α → Prop} {store : κ → List α → β → β} {as : List ι} {b b' : β}
    {γ : Type*} {g : β → γ} {k : κ} {f : List α → Option γ} (h : K.Reads option step allows store)
    (hother : ∀ b k' v, k' ≠ k → g (store k' v b) = g b)
    (hself : ∀ b a v, allows a k v → g (store k v b) = (f v).getD (g b))
    (hfold : as.foldlM step b = .ok b') :
    g b' = (innermost (fun a => (K.value k (option a)).bind f) as).getD (g b) := by
  have hget : ∀ b a b', step b a = .ok b' →
      some (g b') = ((K.value k (option a)).bind f).or (some (g b)) := by
    intro b a b' hstep
    obtain ⟨k', v, hv, hallows, rfl⟩ := h.step_cases hstep
    rw [hv, Option.or_some]
    by_cases hk : k' = k
    · obtain rfl := hk
      rw [value_append, Option.bind_some, hself b a v hallows]
    · rw [K.value_of_ne hk, Option.bind_none, Option.getD_none, hother b k' v hk]
  have hlast := get_foldlM (g := fun b => some (g b)) hget hfold
  rw [Option.or_some] at hlast
  exact Option.some.inj hlast

end Keys
end DrizzleNginx.Lib
