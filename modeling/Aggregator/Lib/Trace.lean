/-
  Infinite runs of a labelled transition system, and how fairness is used.

  A `Trace step` is an infinite run.  An invariant of the steps holds at every
  time (`Trace.inv`).  The liveness rule is `Trace.eventually`: if from some time
  on a measure never grows, and as long as `P` fails it shrinks again and again,
  then `P` holds at some time.  What makes the measure shrink is where a fairness
  assumption is used, usually by contradiction: a state component that no later
  step changes is still there when the fair step comes (`Trace.const`).
-/
import Aggregator.Lib.Run
import Mathlib.Order.WellFounded

namespace Aggregator

universe u v w
variable {S : Type u} {L : Type v}

/-- An infinite run. -/
structure Trace (step : S → L → S → Prop) where
  st : ℕ → S
  lab : ℕ → L
  next : ∀ n, step (st n) (lab n) (st (n + 1))

namespace Trace
variable {step : S → L → S → Prop} (ρ : Trace step)

/-- **The invariant rule.** -/
theorem inv {I : S → Prop} (hstep : ∀ s l t, I s → step s l t → I t) (h₀ : I (ρ.st 0)) (n : ℕ) :
    I (ρ.st n) := by
  induction n with
  | zero => exact h₀
  | succ n ih => exact hstep _ _ _ ih (ρ.next n)

/-- A component that no step from time `n` on changes. -/
theorem const {α : Type w} {f : S → α} {n : ℕ} (h : ∀ m ≥ n, f (ρ.st (m + 1)) = f (ρ.st m)) {m : ℕ}
    (hm : n ≤ m) : f (ρ.st m) = f (ρ.st n) := by
  induction m, hm using Nat.le_induction with
  | base => rfl
  | succ m hm ih => rw [h m hm, ih]

/-- A property that, from time `n` on, no step takes away. -/
theorem stable {P : S → Prop} {n : ℕ} (hstep : ∀ m ≥ n, P (ρ.st m) → P (ρ.st (m + 1)))
    (h : P (ρ.st n)) {m : ℕ} (hm : n ≤ m) : P (ρ.st m) := by
  induction m, hm using Nat.le_induction with
  | base => exact h
  | succ m hm ih => exact hstep m hm ih

/-- A measure that never grows is at no time larger than before. -/
theorem antitone {α : Type w} [Preorder α] {μ : S → α} {n : ℕ}
    (h : ∀ m ≥ n, μ (ρ.st (m + 1)) ≤ μ (ρ.st m)) {m : ℕ} (hm : n ≤ m) :
    μ (ρ.st m) ≤ μ (ρ.st n) := by
  induction m, hm using Nat.le_induction with
  | base => exact le_rfl
  | succ m hm ih => exact (h m hm).trans ih

/-- **The liveness rule.** -/
theorem eventually {α : Type w} [Preorder α] [WellFoundedLT α] {μ : S → α} {P : S → Prop} {n₀ : ℕ}
    (hle : ∀ n ≥ n₀, μ (ρ.st (n + 1)) ≤ μ (ρ.st n))
    (hlt : ∀ n ≥ n₀, ¬ P (ρ.st n) → ∃ m ≥ n, μ (ρ.st (m + 1)) < μ (ρ.st m)) :
    ∃ n ≥ n₀, P (ρ.st n) := by
  -- from every time on, by induction on the measure at that time
  suffices h : ∀ a, ∀ n ≥ n₀, μ (ρ.st n) = a → ∃ m ≥ n₀, P (ρ.st m) from
    h _ n₀ le_rfl rfl
  intro a
  induction a using WellFoundedLT.induction with
  | ind a ih =>
    rintro n hn rfl
    by_cases hP : P (ρ.st n)
    · exact ⟨n, hn, hP⟩
    obtain ⟨m, hm, hdrop⟩ := hlt n hn hP
    have hbefore : μ (ρ.st m) ≤ μ (ρ.st n) := ρ.antitone (fun k hk => hle k (hn.trans hk)) hm
    exact ih _ (hdrop.trans_le hbefore) (m + 1) (hn.trans (hm.trans (Nat.le_succ m))) rfl

end Trace

end Aggregator
