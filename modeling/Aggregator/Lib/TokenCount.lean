/-
  Counts of tokens that refill with time, and what can be taken from them in a
  window of time.

  A `TokenCount` has a level, a cap and a clock.  `Take rate c e c'` is a step
  at time `e.now` that takes `e.taken` tokens: what the count then holds, with
  what was taken, is at most the cap and at most the old level with the tokens
  that came in since.  The cap may grow.

  `TokenCount.takenIn_le`: along any run, at most the cap and the tokens that
  come in during a window are taken in it.
-/
import Aggregator.Lib.Run
import Mathlib.Algebra.Order.Field.Basic
import Mathlib.Tactic.GCongr
import Mathlib.Tactic.Linarith
import Mathlib.Tactic.Ring

namespace Aggregator

/-- A count of tokens. -/
structure TokenCount (K : Type) where
  level : K
  cap : K
  clock : K

/-- A step takes `taken` tokens at the time `now`. -/
structure Taking (K : Type) where
  now : K
  taken : K

variable {K : Type} [Field K] [LinearOrder K]

/-- What one step takes from `s` to `t`. -/
def Taking.within (s t : K) (e : Taking K) : K := if s ≤ e.now ∧ e.now ≤ t then e.taken else 0

namespace TokenCount

/-- A step of a count that refills at `rate`. -/
structure Take (rate : K) (c : TokenCount K) (e : Taking K) (c' : TokenCount K) : Prop where
  clock : c.clock ≤ e.now
  clock' : c'.clock = e.now
  taken : 0 ≤ e.taken
  cap : c.cap ≤ c'.cap
  level : 0 ≤ c'.level
  le_cap : c'.level + e.taken ≤ c'.cap
  le_level : c'.level + e.taken ≤ c.level + rate * (e.now - c.clock)

/-- What the steps of a run take from `s` to `t`. -/
def takenIn (s t : K) (es : List (Taking K)) : K := (es.map (Taking.within s t)).sum

/-- A count after `g` tokens were taken from `s` to `t`.  As long as the window
    is open, the tokens left count against those that came in since `s`. -/
structure Window (rate s t : K) (c : TokenCount K) (g : K) : Prop where
  closed : g ≤ c.cap + rate * (t - s)
  opened : c.clock ≤ t → g + c.level ≤ c.cap + rate * max 0 (c.clock - s)
  before : c.clock < s → g = 0

variable [IsStrictOrderedRing K] {rate s t : K} {c c' : TokenCount K} {e : Taking K}
  {es : List (Taking K)} {g : K}

/-- Up to its start, nothing is taken in a window. -/
theorem Window.start (hr : 0 ≤ rate) (hst : s ≤ t) (hl : 0 ≤ c.level) (hc : c.level ≤ c.cap) :
    Window rate s t c 0 := by
  have hopen : 0 ≤ rate * (t - s) := mul_nonneg hr (sub_nonneg.2 hst)
  have hmax : 0 ≤ rate * max 0 (c.clock - s) := mul_nonneg hr (le_max_left _ _)
  exact ⟨by linarith, fun _ => by linarith, fun _ => rfl⟩

/-- The account of an open window after a step in it. -/
theorem Window.take_within (hr : 0 ≤ rate) (h : Window rate s t c g) (he : Take rate c e c')
    (hs : s ≤ e.now) (ht : e.now ≤ t) :
    g + e.taken + c'.level ≤ c'.cap + rate * (e.now - s) := by
  by_cases hc : c.clock < s
  · -- the first step in the window finds at most the cap
    have hpos : 0 ≤ rate * (e.now - s) := mul_nonneg hr (sub_nonneg.2 hs)
    rw [h.before hc]
    linarith [he.le_cap]
  · have hold := h.opened (he.clock.trans ht)
    rw [max_eq_right (sub_nonneg.2 (not_lt.1 hc))] at hold
    have hsplit : rate * (e.now - s) = rate * (e.now - c.clock) + rate * (c.clock - s) := by ring
    linarith [he.le_level, he.cap]

/-- **One step keeps the account of a window.** -/
theorem Window.take (hr : 0 ≤ rate) (hst : s ≤ t) (h : Window rate s t c g)
    (he : Take rate c e c') : Window rate s t c' (g + e.within s t) := by
  unfold Taking.within
  by_cases ht : e.now ≤ t
  · by_cases hs : s ≤ e.now
    · have hopen := h.take_within hr he hs ht
      have hle : rate * (e.now - s) ≤ rate * (t - s) := by gcongr
      rw [if_pos ⟨hs, ht⟩]
      refine ⟨by linarith [he.level], fun _ => ?_, fun hlt => ?_⟩
      · rw [he.clock', max_eq_right (sub_nonneg.2 hs)]
        exact hopen
      · rw [he.clock'] at hlt
        exact absurd hs (not_le.2 hlt)
    · rw [if_neg fun hw => hs hw.1, h.before (he.clock.trans_lt (not_le.1 hs)), zero_add]
      exact .start hr hst he.level (by linarith [he.le_cap, he.taken])
  · rw [if_neg fun hw => ht hw.2, add_zero]
    refine ⟨h.closed.trans (by linarith [he.cap]), fun hc => ?_, fun hc => ?_⟩
    · rw [he.clock'] at hc
      exact absurd hc ht
    · rw [he.clock'] at hc
      exact absurd (hc.le.trans hst) ht

theorem Window.run (hr : 0 ≤ rate) (hst : s ≤ t) (h : Window rate s t c g)
    (hrun : Run (Take rate) c es c') : Window rate s t c' (g + takenIn s t es) := by
  induction hrun generalizing g with
  | nil => simpa [takenIn] using h
  | cons he _ ih => simpa [takenIn, add_assoc] using ih (h.take hr hst he)

/-- **What is taken in a window** is at most the cap and what comes in. -/
theorem takenIn_le (hr : 0 ≤ rate) (hst : s ≤ t) (hl : 0 ≤ c.level) (hc : c.level ≤ c.cap)
    (hrun : Run (Take rate) c es c') : takenIn s t es ≤ c'.cap + rate * (t - s) := by
  simpa using ((Window.start hr hst hl hc).run hr hst hrun).closed

end TokenCount

end Aggregator
