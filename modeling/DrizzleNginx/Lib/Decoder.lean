/-
# Decoders that read a value off the front of a list

A decoder of a stream format consumes a prefix of its input and returns the value it read
together with the rest.  It must never look beyond what it consumes: bytes that arrive
behind a complete value may not change that value.  This property is a field of the
structure below, so every decoder built from the combinators of this file has it, and the
laws of self-delimiting formats (round trip in front of arbitrary further input, no code
word a proper prefix of another, detection of truncated input) follow for all of them at
once.
-/
import Mathlib

namespace DrizzleNginx.Lib

/-- A decoder reads a value off the front of a list of symbols; the input behind what it
has consumed does not influence the result. -/
structure Decoder (β α : Type*) where
  /-- The value read and the rest of the input, or `none` if the input is not the beginning
  of anything the format allows, or ends too early. -/
  run : List β → Option (α × List β)
  /-- Further input is left untouched. -/
  run_append : ∀ {l v r} (q : List β), run l = some (v, r) → run (l ++ q) = some (v, r ++ q)

namespace Decoder

variable {β α γ δ : Type*}

lemma ext {d d' : Decoder β α} (h : ∀ l, d.run l = d'.run l) : d = d' := by
  obtain ⟨run, _⟩ := d
  obtain rfl : run = d'.run := funext h
  rfl

/-! ## Combinators -/

/-- Read nothing. -/
protected def pure (a : α) : Decoder β α where
  run l := some (a, l)
  run_append := by
    rintro l v r q h
    simp only [Option.some.injEq, Prod.mk.injEq] at h
    simp [h.1, h.2]

/-- Read a value, then another one with a decoder that may depend on the first. -/
protected def bind (d : Decoder β α) (f : α → Decoder β γ) : Decoder β γ where
  run l := (d.run l).bind fun p => (f p.1).run p.2
  run_append := by
    rintro l v r q h
    obtain ⟨⟨a, s⟩, hd, hf⟩ := Option.bind_eq_some_iff.mp h
    rw [d.run_append q hd]
    exact (f a).run_append q hf

/-- Apply a function to the value read. -/
protected def map (g : α → γ) (d : Decoder β α) : Decoder β γ :=
  d.bind fun a => Decoder.pure (g a)

lemma bind_run (d : Decoder β α) (f : α → Decoder β γ) (l : List β) :
    (d.bind f).run l = (d.run l).bind fun p => (f p.1).run p.2 := rfl

lemma map_run (g : α → γ) (d : Decoder β α) (l : List β) :
    (d.map g).run l = (d.run l).map fun p => (g p.1, p.2) := by
  change (d.run l).bind _ = _
  cases d.run l <;> rfl

lemma bind_assoc (d : Decoder β α) (f : α → Decoder β γ) (g : γ → Decoder β δ) :
    (d.bind f).bind g = d.bind fun a => (f a).bind g :=
  Decoder.ext fun _ => Option.bind_assoc ..

lemma bind_map (g : α → γ) (d : Decoder β α) (f : γ → Decoder β δ) :
    (d.map g).bind f = d.bind fun a => f (g a) := by
  refine Decoder.ext fun l => ?_
  rw [bind_run, map_run, bind_run, Option.bind_map]
  rfl

lemma map_bind (g : γ → δ) (d : Decoder β α) (f : α → Decoder β γ) :
    (d.bind f).map g = d.bind fun a => (f a).map g :=
  bind_assoc ..

lemma map_map (g : γ → δ) (f : α → γ) (d : Decoder β α) : (d.map f).map g = d.map (g ∘ f) :=
  bind_map ..

/-- Apply a partial function to the value read, failing where it is undefined. -/
def filterMap (g : α → Option γ) (d : Decoder β α) : Decoder β γ where
  run l := (d.run l).bind fun p => (g p.1).map fun b => (b, p.2)
  run_append := by
    rintro l v r q h
    obtain ⟨⟨a, s⟩, hd, hg⟩ := Option.bind_eq_some_iff.mp h
    obtain ⟨b, hb, hbv⟩ := Option.map_eq_some_iff.mp hg
    simp only [Prod.mk.injEq] at hbv
    obtain ⟨rfl, rfl⟩ := hbv
    rw [d.run_append q hd]
    simp [hb]

/-- Read exactly `n` symbols. -/
def take (n : ℕ) : Decoder β (List β) where
  run l := if n ≤ l.length then some (l.take n, l.drop n) else none
  run_append := by
    rintro l v r q h
    split at h
    · rename_i hn
      simp only [Option.some.injEq, Prod.mk.injEq] at h
      obtain ⟨rfl, rfl⟩ := h
      rw [if_pos (by rw [List.length_append]; omega), List.take_append_of_le_length hn,
        List.drop_append_of_le_length hn]
    · exact absurd h (by simp)

/-- Read `n` values, one after the other. -/
def replicate (d : Decoder β α) : ℕ → Decoder β (List α)
  | 0 => Decoder.pure []
  | n + 1 => d.bind fun a => (d.replicate n).map (a :: ·)

/-- The loop of `whileSome`: at most `n` rounds. -/
def whileSomeLoop (d : Decoder β (Option α)) : ℕ → List β → Option (List α × List β)
  | 0, _ => none
  | n + 1, l =>
    match d.run l with
    | none => none
    | some (none, r) => some ([], r)
    | some (some a, r) => (whileSomeLoop d n r).map fun p => (a :: p.1, p.2)

lemma whileSomeLoop_append {d : Decoder β (Option α)} :
    ∀ {n m : ℕ} {l r : List β} {v : List α} (q : List β), n ≤ m →
      whileSomeLoop d n l = some (v, r) → whileSomeLoop d m (l ++ q) = some (v, r ++ q) := by
  intro n
  induction n with
  | zero => intro m l r v q _ h; exact absurd h (by simp [whileSomeLoop])
  | succ n ih =>
    intro m l r v q hnm h
    obtain ⟨m, rfl⟩ : ∃ k, m = k + 1 := ⟨m - 1, by omega⟩
    rw [whileSomeLoop] at h ⊢
    rcases hd : d.run l with _ | ⟨_ | a, s⟩
    · rw [hd] at h; exact absurd h (by simp)
    · rw [hd] at h
      rw [d.run_append q hd]
      simp only [Option.some.injEq, Prod.mk.injEq] at h
      simp [h.1, h.2]
    · rw [hd] at h
      rw [d.run_append q hd]
      obtain ⟨⟨v', r'⟩, hloop, hv⟩ := Option.map_eq_some_iff.mp h
      simp only [Prod.mk.injEq] at hv
      obtain ⟨rfl, rfl⟩ := hv
      have hrest := ih (m := m) q (by omega) hloop
      simp [hrest]

/-- Read values for as long as `d` finds one; the round in which it finds none is consumed
as well.  The length of the input bounds the number of rounds. -/
def whileSome (d : Decoder β (Option α)) : Decoder β (List α) where
  run l := whileSomeLoop d (l.length + 1) l
  run_append := by
    rintro l v r q h
    exact whileSomeLoop_append q (by simp) h

/-- The loop of `sofar`: at most `n` rounds. -/
def sofarLoop (d : Decoder β (Option α)) : ℕ → List β → List α × Bool
  | 0, _ => ([], false)
  | n + 1, l =>
    match d.run l with
    | none => ([], false)
    | some (none, _) => ([], true)
    | some (some a, r) => ((sofarLoop d n r).1.cons a, (sofarLoop d n r).2)

/-- The values of `whileSome` that the input has in whole when it may not have arrived to its
end, and whether the end of the values is among it. -/
def sofar (d : Decoder β (Option α)) (l : List β) : List α × Bool := d.sofarLoop (l.length + 1) l

lemma sofarLoop_eq_iff (d : Decoder β (Option α)) {n : ℕ} {l : List β} {v : List α} :
    d.sofarLoop n l = (v, true) ↔ ∃ r, whileSomeLoop d n l = some (v, r) := by
  induction n generalizing l v with
  | zero => simp [sofarLoop, whileSomeLoop]
  | succ n ih =>
    rcases hd : d.run l with _ | ⟨_ | a, s⟩
    · simp [sofarLoop, whileSomeLoop, hd]
    · simp [sofarLoop, whileSomeLoop, hd]
    · simp only [sofarLoop, whileSomeLoop, hd, Prod.mk.injEq, Option.map_eq_some_iff]
      constructor
      · rintro ⟨rfl, hend⟩
        obtain ⟨r, hr⟩ := ih.mp (Prod.ext rfl hend)
        exact ⟨r, _, hr, rfl, rfl⟩
      · rintro ⟨_, ⟨v, r⟩, hr, rfl, rfl⟩
        rw [ih.mpr ⟨r, hr⟩]
        exact ⟨rfl, rfl⟩

/-- The end of the values is found where `whileSome` finds it, with the same values in front. -/
theorem sofar_eq_iff (d : Decoder β (Option α)) {l : List β} {v : List α} :
    d.sofar l = (v, true) ↔ ∃ r, d.whileSome.run l = some (v, r) :=
  d.sofarLoop_eq_iff

/-! ## Encodings -/

/-- The list `e` is an encoding of `a` for the decoder `d`. -/
def Decodes (d : Decoder β α) (e : List β) (a : α) : Prop :=
  d.run e = some (a, [])

namespace Decodes

variable {d : Decoder β α} {e e₁ e₂ : List β} {a b : α}

/-- An encoding is read off the front of any longer input. -/
theorem run_append (h : d.Decodes e a) (rest : List β) : d.run (e ++ rest) = some (a, rest) := by
  simpa using d.run_append rest h

lemma pure (a : α) : (Decoder.pure a : Decoder β α).Decodes [] a := rfl

lemma bind {f : α → Decoder β γ} {c : γ} (h : d.Decodes e₁ a) (hf : (f a).Decodes e₂ c) :
    (d.bind f).Decodes (e₁ ++ e₂) c := by
  change (d.run (e₁ ++ e₂)).bind _ = _
  rw [h.run_append]
  exact hf

lemma map (g : α → γ) (h : d.Decodes e a) : (d.map g).Decodes e (g a) := by
  have := h.bind (f := fun a => Decoder.pure (g a)) (pure (g a))
  rwa [List.append_nil] at this

lemma filterMap {g : α → Option γ} {c : γ} (h : d.Decodes e a) (hg : g a = some c) :
    (d.filterMap g).Decodes e c := by
  change (d.run e).bind _ = _
  rw [h]
  simp [hg]

lemma take (e : List β) : (Decoder.take e.length).Decodes e e := by
  simp [Decodes, Decoder.take]

/-- The encodings of several values, one after the other. -/
lemma replicate {ι : Type*} (enc : ι → List β) (val : ι → α) :
    ∀ xs : List ι, (∀ x ∈ xs, d.Decodes (enc x) (val x)) →
      (d.replicate xs.length).Decodes (xs.flatMap enc) (xs.map val) := by
  intro xs
  induction xs with
  | nil => intro _; exact pure []
  | cons x xs ih =>
    intro h
    have hx := h x List.mem_cons_self
    have hxs := ih fun y hy => h y (List.mem_cons_of_mem _ hy)
    rw [List.flatMap_cons]
    exact hx.bind (hxs.map (val x :: ·))

/-- The encodings of several values, each of them announced by `d`, up to the encoding of
the end. -/
lemma whileSome {ι : Type*} {d : Decoder β (Option α)} (enc : ι → List β) (val : ι → α)
    {stop : List β} (hstop : d.Decodes stop none) :
    ∀ xs : List ι, (∀ x ∈ xs, d.Decodes (enc x) (some (val x)) ∧ enc x ≠ []) →
      (d.whileSome).Decodes (xs.flatMap enc ++ stop) (xs.map val) := by
  -- the number of rounds is bounded by the length of the input, so count the symbols
  have hloop : ∀ (xs : List ι) (n : ℕ),
      (∀ x ∈ xs, d.Decodes (enc x) (some (val x)) ∧ enc x ≠ []) →
      xs.length < n → whileSomeLoop d n (xs.flatMap enc ++ stop) = some (xs.map val, []) := by
    intro xs
    induction xs with
    | nil =>
      intro n _ hn
      obtain ⟨n, rfl⟩ : ∃ k, n = k + 1 := ⟨n - 1, by simp at hn; omega⟩
      have hrun : d.run stop = some (none, []) := hstop
      simp [whileSomeLoop, hrun]
    | cons x xs ih =>
      intro n h hn
      obtain ⟨n, rfl⟩ : ∃ k, n = k + 1 := ⟨n - 1, by simp at hn; omega⟩
      have hx := (h x List.mem_cons_self).1
      have hxs := ih n (fun y hy => h y (List.mem_cons_of_mem _ hy)) (by simpa using hn)
      rw [whileSomeLoop, List.flatMap_cons, List.append_assoc, hx.run_append]
      simp [hxs]
  have hlen : ∀ xs : List ι, (∀ x ∈ xs, enc x ≠ []) → xs.length ≤ (xs.flatMap enc).length := by
    intro xs
    induction xs with
    | nil => simp
    | cons x xs ih =>
      intro h
      have hx : 0 < (enc x).length := List.length_pos_iff.mpr (h x List.mem_cons_self)
      have hxs := ih fun y hy => h y (List.mem_cons_of_mem _ hy)
      simp only [List.flatMap_cons, List.length_append, List.length_cons]
      omega
  intro xs h
  refine hloop xs _ h ?_
  have := hlen xs fun x hx => (h x hx).2
  simp only [List.length_append]
  omega

/-- No encoding is a proper prefix of another one, and an encoding determines its value. -/
theorem eq_of_prefix (h₁ : d.Decodes e a) (h₂ : d.Decodes (e ++ e₁) b) : e₁ = [] ∧ a = b := by
  have h := h₁.run_append e₁
  rw [show d.run (e ++ e₁) = some (b, []) from h₂] at h
  simp only [Option.some.injEq, Prod.mk.injEq] at h
  exact ⟨h.2.symm, h.1.symm⟩

/-- A decoder rejects every encoding that has been cut short. -/
theorem run_truncated (h : d.Decodes (e₁ ++ e₂) a) (hne : e₂ ≠ []) : d.run e₁ = none := by
  rcases hrun : d.run e₁ with _ | ⟨v, r⟩
  · rfl
  · exfalso
    have := d.run_append e₂ hrun
    rw [show d.run (e₁ ++ e₂) = some (a, []) from h] at this
    simp only [Option.some.injEq, Prod.mk.injEq] at this
    exact hne (List.append_eq_nil_iff.mp this.2.symm).2

lemma run_prefix {l : List β} (h : d.Decodes e a) (hl : l <+: e) (hne : l ≠ e) :
    d.run l = none ∧ l.length < e.length := by
  obtain ⟨more, rfl⟩ := hl
  have hmore : more ≠ [] := by
    rintro rfl
    exact hne (List.append_nil l).symm
  refine ⟨h.run_truncated hmore, ?_⟩
  have := List.length_pos_iff.mpr hmore
  rw [List.length_append]
  omega

section Sofar

variable {ι : Type*} {d : Decoder β (Option α)} (enc : ι → List β) (val : ι → α) {stop : List β}

lemma sofarLoop (hstop : d.Decodes stop none) (xs : List ι) (n : ℕ) (l : List β)
    (h : ∀ x ∈ xs, d.Decodes (enc x) (some (val x)) ∧ enc x ≠ [])
    (hl : l <+: xs.flatMap enc ++ stop) (hn : l.length < n) :
    ∃ k, (d.sofarLoop n l).1 = (xs.take k).map val ∧
      ((d.sofarLoop n l).2 = true ↔ l = xs.flatMap enc ++ stop) ∧
      ∀ j ≤ xs.length, j ≤ k ↔ ((xs.take j).flatMap enc).length ≤ l.length := by
  induction xs generalizing n l with
  | nil =>
    obtain ⟨n, rfl⟩ : ∃ k, n = k + 1 := ⟨n - 1, by omega⟩
    rw [List.flatMap_nil, List.nil_append] at hl ⊢
    refine ⟨0, ?_⟩
    by_cases hwhole : l = stop
    · subst hwhole
      have hrun : d.run l = some (none, []) := hstop
      simp [Decoder.sofarLoop, hrun]
    · obtain ⟨hrun, _⟩ := hstop.run_prefix hl hwhole
      simp [Decoder.sofarLoop, hrun, hwhole]
  | cons x xs ih =>
    obtain ⟨n, rfl⟩ : ∃ k, n = k + 1 := ⟨n - 1, by omega⟩
    obtain ⟨hx, hxne⟩ := h x List.mem_cons_self
    have hpos : 0 < (enc x).length := List.length_pos_iff.mpr hxne
    rw [List.flatMap_cons, List.append_assoc] at hl ⊢
    by_cases hwhole : enc x <+: l
    · obtain ⟨rest, rfl⟩ := hwhole
      have hrest := (List.prefix_append_right_inj _).mp hl
      rw [List.length_append] at hn
      obtain ⟨k, hval, hend, hk⟩ := ih n rest (fun y hy => h y (List.mem_cons_of_mem _ hy)) hrest
        (by omega)
      refine ⟨k + 1, ?_, ?_, fun j hj => ?_⟩
      · simp [Decoder.sofarLoop, hx.run_append, hval]
      · simp [Decoder.sofarLoop, hx.run_append, hend]
      · cases j with
        | zero => simp
        | succ j => simp [hk j (by simpa using hj)]
    · -- the encoding of the first value has been cut short
      have hcut : l <+: enc x :=
        (List.prefix_or_prefix_of_prefix hl (List.prefix_append _ _)).resolve_right hwhole
      obtain ⟨hrun, hlt⟩ := hx.run_prefix hcut fun heq => hwhole (heq ▸ List.prefix_refl _)
      refine ⟨0, ?_, ?_, fun j hj => ?_⟩
      · simp [Decoder.sofarLoop, hrun]
      · have hshort : l ≠ enc x ++ (xs.flatMap enc ++ stop) := by
          rintro rfl
          rw [List.length_append] at hlt
          omega
        simp [Decoder.sofarLoop, hrun, hshort]
      · cases j with
        | zero => simp
        | succ j =>
          rw [List.take_succ_cons, List.flatMap_cons, List.length_append]
          omega

/-- Of the encodings of several values, and of their end, a beginning has arrived.  A value is read
as soon as its last symbol is there, and not before; and likewise the end. -/
theorem sofar (hstop : d.Decodes stop none) (xs : List ι) {l : List β}
    (h : ∀ x ∈ xs, d.Decodes (enc x) (some (val x)) ∧ enc x ≠ [])
    (hl : l <+: xs.flatMap enc ++ stop) :
    ∃ k, (d.sofar l).1 = (xs.take k).map val ∧
      ((d.sofar l).2 = true ↔ l = xs.flatMap enc ++ stop) ∧
      ∀ j ≤ xs.length, j ≤ k ↔ ((xs.take j).flatMap enc).length ≤ l.length :=
  sofarLoop enc val hstop xs (l.length + 1) l h hl (Nat.lt_succ_self _)

end Sofar

end Decodes

end Decoder

end DrizzleNginx.Lib
