/-
# Runs of systems of parties

A run of a deterministic system is the list of the labels of its steps: what the
environment decides.  An invariant is proved for all states that runs reach by an induction
that is done here once; the steps may be asked to meet a condition, which can speak about
the state in which the step is taken.

The second part is about systems of parties that share a state: the parties are the entries
of a list, and a step replaces one of them.  What holds of each party is preserved if the
step establishes it for the party that moved and leaves it alone for the others.  Things
that the parties hold are counted with `List.countP`.
-/
import Mathlib

namespace DrizzleNginx.Lib

/-! ## Runs -/

section Runs

variable {σ ℓ : Type*} (step : σ → ℓ → σ)

/-- The state that a run reaches. -/
def run (s : σ) (ls : List ℓ) : σ := ls.foldl step s

/-- Every step of the run meets a condition in the state in which it is taken. -/
def Meets (C : σ → ℓ → Prop) : σ → List ℓ → Prop
  | _, [] => True
  | s, l :: ls => C s l ∧ Meets C (step s l) ls

@[simp] lemma run_nil (s : σ) : run step s [] = s := rfl

@[simp] lemma run_cons (s : σ) (l : ℓ) (ls : List ℓ) :
    run step s (l :: ls) = run step (step s l) ls := rfl

lemma run_append (s : σ) (ls ls' : List ℓ) :
    run step s (ls ++ ls') = run step (run step s ls) ls' := List.foldl_append

/-- Whether the steps of a given run meet a condition can be computed. -/
instance Meets.decidable (C : σ → ℓ → Prop) [∀ s l, Decidable (C s l)] :
    ∀ s ls, Decidable (Meets step C s ls)
  | _, [] => .isTrue trivial
  | s, l :: ls =>
    have := Meets.decidable C (step s l) ls
    inferInstanceAs (Decidable (C s l ∧ Meets step C (step s l) ls))

variable {step}

lemma meets_append {C : σ → ℓ → Prop} {ls ls' : List ℓ} {s : σ} :
    Meets step C s (ls ++ ls') ↔ Meets step C s ls ∧ Meets step C (run step s ls) ls' := by
  induction ls generalizing s with
  | nil => exact iff_of_eq (true_and _).symm
  | cons l ls ih => exact (and_congr_right fun _ => ih).trans and_assoc.symm

lemma Meets.mono {C D : σ → ℓ → Prop} (h : ∀ s l, C s l → D s l) :
    ∀ {ls : List ℓ} {s : σ}, Meets step C s ls → Meets step D s ls
  | [], _, _ => trivial
  | l :: _, s, hm => ⟨h s l hm.1, Meets.mono h hm.2⟩

lemma Meets.and {C D : σ → ℓ → Prop} :
    ∀ {ls : List ℓ} {s : σ}, Meets step C s ls → Meets step D s ls →
      Meets step (fun s l => C s l ∧ D s l) s ls
  | [], _, _, _ => trivial
  | _ :: _, _, hc, hd => ⟨⟨hc.1, hd.1⟩, Meets.and hc.2 hd.2⟩

/-- A condition that all steps meet is met by every run. -/
lemma Meets.of_forall {C : σ → ℓ → Prop} (h : ∀ s l, C s l) :
    ∀ (ls : List ℓ) (s : σ), Meets step C s ls
  | [], _ => trivial
  | l :: ls, s => ⟨h s l, Meets.of_forall h ls (step s l)⟩

/-- A condition on the labels is met by every run with such labels. -/
lemma Meets.of_mem {C : σ → ℓ → Prop} :
    ∀ {ls : List ℓ} (s : σ), (∀ l ∈ ls, ∀ s, C s l) → Meets step C s ls
  | [], _, _ => trivial
  | l :: _, s, h => ⟨h l List.mem_cons_self s, Meets.of_mem (step s l) fun l hl =>
      h l (List.mem_cons_of_mem _ hl)⟩

/-- An invariant that is preserved by the steps that meet a condition holds of every state
that is reached by a run whose steps all meet it. -/
theorem run_invariant {C : σ → ℓ → Prop} {I : σ → Prop}
    (hstep : ∀ s l, C s l → I s → I (step s l)) {s : σ} (hs : I s) {ls : List ℓ}
    (hm : Meets step C s ls) : I (run step s ls) := by
  induction ls generalizing s with
  | nil => exact hs
  | cons l ls ih => exact ih (hstep s l hm.1 hs) hm.2

/-- An invariant may be used in the proof of another one. -/
theorem run_invariant_of {C : σ → ℓ → Prop} {I J : σ → Prop}
    (hI : ∀ s l, C s l → I s → I (step s l))
    (hJ : ∀ s l, C s l → I s → J s → J (step s l)) {s : σ} (hs : I s) (hs' : J s) {ls : List ℓ}
    (hm : Meets step C s ls) : J (run step s ls) :=
  (run_invariant (I := fun s => I s ∧ J s)
    (fun s l hc h => ⟨hI s l hc h.1, hJ s l hc h.1 h.2⟩) ⟨hs, hs'⟩ hm).2

/-- An invariant holds before every step of a run. -/
lemma Meets.of_invariant {C : σ → ℓ → Prop} {I : σ → Prop}
    (hI : ∀ s l, C s l → I s → I (step s l)) :
    ∀ {ls : List ℓ} {s : σ}, I s → Meets step C s ls → Meets step (fun s _ => I s) s ls
  | [], _, _, _ => trivial
  | l :: _, s, hs, hm => ⟨hs, Meets.of_invariant hI (hI s l hm.1 hs) hm.2⟩

end Runs

/-! ## Replaying a run -/

section Replays

variable {σ τ ℓ μ : Type*} (step : σ → ℓ → σ) (A : σ → ℓ → List μ → Prop)

/-- The steps of a run, each replaced by what it amounts to in another system. -/
inductive Replays : σ → List ℓ → List μ → Prop
  | nil (s : σ) : Replays s [] []
  | cons {s : σ} {l : ℓ} {ls : List ℓ} {ms ms' : List μ} (h : A s l ms)
      (hrest : Replays (step s l) ls ms') : Replays s (l :: ls) (ms ++ ms')

variable {step A} {s : σ} {ls : List ℓ} {ms : List μ}

/-- If each step has the effect of what it amounts to, then so has each run. -/
theorem exists_replays {step' : τ → μ → τ} {f : σ → τ}
    (h : ∀ s l, ∃ ms, A s l ms ∧ f (step s l) = run step' (f s) ms) (s : σ) (ls : List ℓ) :
    ∃ ms, Replays step A s ls ms ∧ f (run step s ls) = run step' (f s) ms := by
  induction ls generalizing s with
  | nil => exact ⟨[], .nil s, rfl⟩
  | cons l ls ih =>
    obtain ⟨ms, hms, hstep⟩ := h s l
    obtain ⟨ms', hms', hrun⟩ := ih (step s l)
    exact ⟨ms ++ ms', .cons hms hms', by rw [run_append, ← hstep, ← hrun, run_cons]⟩

/-- Where it is known what each step amounts to, the run in the other system is known. -/
lemma Replays.eq_flatMap {g : ℓ → List μ} (h : Replays step A s ls ms)
    (hg : Meets step (fun s l => ∀ ms, A s l ms → ms = g l) s ls) : ms = ls.flatMap g := by
  induction h with
  | nil => rfl
  | @cons s l ls ms ms' hA _ ih => rw [List.flatMap_cons, hg.1 ms hA, ih hg.2]

end Replays

/-! ## Parties -/

section Parties

variable {α : Type*} {ps : List α} {i j : ℕ} {p q u : α}

/-- What holds of every party still does when one of them is replaced, if it holds of the
new party and the others keep it. -/
theorem forall_set {P Q : ℕ → α → Prop} (hP : ∀ j q, ps[j]? = some q → P j q) (hown : Q i u)
    (hothers : ∀ j q, j ≠ i → ps[j]? = some q → P j q → Q j q) :
    ∀ j q, (ps.set i u)[j]? = some q → Q j q := by
  intro j q hj
  rcases eq_or_ne j i with rfl | hne
  · rw [List.getElem?_set] at hj
    split at hj <;> simp_all
  · rw [List.getElem?_set_ne hne.symm] at hj
    exact hothers j q hne hj (hP j q hj)

/-- What holds of every party still does when a party arrives, if it holds of the new party
and the others keep it. -/
theorem forall_concat {P Q : ℕ → α → Prop} (hP : ∀ j q, ps[j]? = some q → P j q)
    (hown : Q ps.length u) (hothers : ∀ j q, ps[j]? = some q → P j q → Q j q) :
    ∀ j q, (ps ++ [u])[j]? = some q → Q j q := by
  intro j q hj
  rcases Nat.lt_trichotomy j ps.length with h | rfl | h
  · rw [List.getElem?_append_left h] at hj
    exact hothers j q hj (hP j q hj)
  · rw [List.getElem?_concat_length, Option.some.injEq] at hj
    exact hj ▸ hown
  · have : (ps ++ [u])[j]? = none := List.getElem?_eq_none (by simp; omega)
    simp [this] at hj

variable {t t' : α → Bool}

/-- Replacing a party changes the count by what the old and the new party contribute, if it
does not matter for the others whether they are counted before or after. -/
theorem countP_set_add_of (hi : ps[i]? = some p)
    (hothers : ∀ j q, j ≠ i → ps[j]? = some q → t' q = t q) :
    (ps.set i u).countP t' + (if t p then 1 else 0) =
      ps.countP t + (if t' u then 1 else 0) := by
  induction ps generalizing i with
  | nil => simp at hi
  | cons a ps ih =>
    cases i with
    | zero =>
      obtain rfl : a = p := by simpa using hi
      have hps : ps.countP t' = ps.countP t := by
        refine List.countP_congr fun q hq => ?_
        obtain ⟨j, hj⟩ := List.mem_iff_getElem?.mp hq
        rw [hothers (j + 1) q (by omega) (by simpa using hj)]
      rw [List.set_cons_zero, List.countP_cons, List.countP_cons, hps]
      omega
    | succ i =>
      have ha : t' a = t a := hothers 0 a (by omega) rfl
      have := ih (i := i) (by simpa using hi) fun j q hne hj =>
        hothers (j + 1) q (by omega) (by simpa using hj)
      rw [List.set_cons_succ, List.countP_cons, List.countP_cons, ha]
      omega

/-- Replacing a party changes the count by what the old and the new party contribute. -/
theorem countP_set_add (hi : ps[i]? = some p) :
    (ps.set i u).countP t + (if t p then 1 else 0) =
      ps.countP t + (if t u then 1 else 0) :=
  countP_set_add_of hi fun _ _ _ _ => rfl

lemma countP_pos_of_getElem? (hi : ps[i]? = some p) (hp : t p) : 0 < ps.countP t :=
  List.countP_pos_iff.mpr ⟨p, List.mem_of_getElem? hi, hp⟩

/-- Two parties count twice. -/
theorem two_le_countP (hij : i ≠ j) (hi : ps[i]? = some p) (hj : ps[j]? = some q) (hp : t p)
    (hq : t q) : 2 ≤ ps.countP t := by
  induction ps generalizing i j with
  | nil => simp at hi
  | cons a ps ih =>
    cases i with
    | zero =>
      cases j with
      | zero => exact absurd rfl hij
      | succ j =>
        obtain rfl : a = p := by simpa using hi
        have := countP_pos_of_getElem? (t := t) (by simpa using hj) hq
        rw [List.countP_cons, if_pos hp]
        omega
    | succ i =>
      cases j with
      | zero =>
        obtain rfl : a = q := by simpa using hj
        have := countP_pos_of_getElem? (t := t) (by simpa using hi) hp
        rw [List.countP_cons, if_pos hq]
        omega
      | succ j =>
        have := ih (i := i) (j := j) (by omega) (by simpa using hi) (by simpa using hj)
        rw [List.countP_cons]
        omega

end Parties

end DrizzleNginx.Lib
