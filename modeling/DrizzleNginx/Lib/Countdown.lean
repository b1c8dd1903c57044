/-
# Countdowns that can be paused

A countdown starts with some time.  The time that passes is taken from what is left, except while
the countdown is paused; when it is paused, what is left may be saved as something else.  How this
is done is the arithmetic of the countdown.  With integers, a pause raises what is left to 1 if it
has been used up, so what is left never differs from the time that was charged in any other way.
Another arithmetic agrees with the integers if it does so on the values that occur at the pauses.
-/
import DrizzleNginx.Lib.Run

namespace DrizzleNginx.Lib

/-- What happens to a countdown. -/
inductive Tick
  | pass (d : ℕ)
  | pause
  | resume
deriving DecidableEq, Repr

/-- How a countdown calculates: it spends time, and it saves what is left. -/
structure Gauge (α : Type*) where
  spend : α → ℕ → α
  save : α → α

/-- The arithmetic of integers. -/
def Gauge.int : Gauge ℤ := ⟨fun x d => x - d, max 1⟩

structure Countdown (α : Type*) where
  left : α
  paused : Bool := false

namespace Countdown

variable {α β : Type*}

def step (G : Gauge α) (c : Countdown α) : Tick → Countdown α
  | .pass d => if c.paused then c else { c with left := G.spend c.left d }
  | .pause => { left := G.save c.left, paused := true }
  | .resume => { c with paused := false }

/-- The countdown that starts with `t`. -/
def run (G : Gauge α) (t : α) (ts : List Tick) : Countdown α := Lib.run (step G) { left := t } ts

lemma run_concat (G : Gauge α) (t : α) (ts : List Tick) (tick : Tick) :
    run G t (ts ++ [tick]) = (run G t ts).step G tick := Lib.run_append (step G) _ ts [tick]

/-- The time that passes while the countdown is not paused. -/
def charged : Bool → List Tick → ℕ
  | _, [] => 0
  | paused, .pass d :: ts => (if paused then 0 else d) + charged paused ts
  | _, .pause :: ts => charged true ts
  | _, .resume :: ts => charged false ts

/-- Nothing is charged but the time that passes, and nothing is given back: at most, what is left
was raised to 1. -/
lemma left_of_run (c : Countdown ℤ) (ts : List Tick) :
    (Lib.run (step .int) c ts).left = c.left - charged c.paused ts ∨
    c.left - charged c.paused ts < (Lib.run (step .int) c ts).left ∧
      (Lib.run (step .int) c ts).left ≤ 1 := by
  induction ts generalizing c with
  | nil => exact .inl (Int.sub_zero _).symm
  | cons tick ts ih =>
    have h := ih (c.step .int tick)
    rw [Lib.run_cons]
    cases tick with
    | pass d =>
      cases hp : c.paused with
      | true =>
        simp only [step, hp, if_true] at h
        simpa [charged, hp, step] using h
      | false =>
        simp only [step, hp, Bool.false_eq_true, if_false, Gauge.int] at h
        simp only [charged, hp, step, Bool.false_eq_true, if_false, Gauge.int, Int.natCast_add]
        omega
    | pause =>
      simp only [step, Gauge.int] at h
      simp only [charged, step, Gauge.int]
      omega
    | resume => exact h

/-- What is left of a countdown in integers. -/
theorem left_run (t : ℤ) (ts : List Tick) : (run .int t ts).left = t - charged false ts ∨
    t - charged false ts < (run .int t ts).left ∧ (run .int t ts).left ≤ 1 :=
  left_of_run { left := t } ts

/-- What is left stays in a range of numbers around the start. -/
lemma left_run_bounds {t : ℤ} {ts : List Tick} {N : ℤ} (hpos : 0 ≤ t) (ht : t < N) (hone : 1 < N)
    (hN : (charged false ts : ℤ) < N) :
    -N < (run .int t ts).left ∧ (run .int t ts).left < N := by
  have hcharged : (0 : ℤ) ≤ charged false ts := Int.natCast_nonneg _
  rcases left_run t ts with h | ⟨h, h'⟩ <;> omega

/-- What is left stays in such a range all the time. -/
lemma meets_range {N : ℤ} (hone : 1 < N) : ∀ (ts : List Tick) (c : Countdown ℤ),
    -N < c.left - charged c.paused ts → c.left < N →
    Lib.Meets (step .int) (fun c _ => -N < c.left ∧ c.left < N) c ts
  | [], _, _, _ => trivial
  | tick :: ts, c, hlow, hhigh => by
    have hcharged : (0 : ℤ) ≤ charged c.paused (tick :: ts) := Int.natCast_nonneg _
    suffices -N < (c.step .int tick).left - charged (c.step .int tick).paused ts ∧
        (c.step .int tick).left < N from
      ⟨⟨by omega, hhigh⟩, meets_range hone ts _ this.1 this.2⟩
    cases tick with
    | pass d =>
      cases hp : c.paused <;> simp [step, charged, hp, Gauge.int] at hlow ⊢ <;> omega
    | pause =>
      simp only [step, charged, Gauge.int] at hlow ⊢
      omega
    | resume => exact ⟨hlow, hhigh⟩

/-- Two arithmetics agree on a countdown if they agree on the values that occur. -/
theorem run_map {G : Gauge α} {H : Gauge β} (f : α → β) {I : α → Prop}
    (hspend : ∀ x d, f (G.spend x d) = H.spend (f x) d)
    (hsave : ∀ x, I x → f (G.save x) = H.save (f x))
    {t : α} {ts : List Tick} (hI : Lib.Meets (step G) (fun c _ => I c.left) { left := t } ts) :
    run H (f t) ts = ⟨f (run G t ts).left, (run G t ts).paused⟩ := by
  suffices ∀ (ts : List Tick) (c : Countdown α), Lib.Meets (step G) (fun c _ => I c.left) c ts →
      Lib.run (step H) ⟨f c.left, c.paused⟩ ts =
        ⟨f (Lib.run (step G) c ts).left, (Lib.run (step G) c ts).paused⟩ from this ts _ hI
  intro ts
  induction ts with
  | nil => exact fun c _ => rfl
  | cons tick ts ih =>
    intro c hI
    have hstep : (⟨f c.left, c.paused⟩ : Countdown β).step H tick =
        ⟨f (c.step G tick).left, (c.step G tick).paused⟩ := by
      cases tick with
      | pass d =>
        unfold step
        simp only
        split
        · rfl
        · rw [← hspend]
      | pause =>
        simp only [step, hsave c.left hI.1]
      | resume => rfl
    rw [Lib.run_cons, Lib.run_cons, hstep]
    exact ih _ hI.2

end Countdown
end DrizzleNginx.Lib
