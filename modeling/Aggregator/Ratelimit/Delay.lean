/-
  The delay that `bucket.reserve` announces.

  A call that finds too few tokens raises the burst to its weight, so that the tokens
  can ever be there, and announces the larger of the two times until they are, in
  whole nanoseconds.  What the truncation leaves out is less than a nanosecond of
  refilling, and the same call at the announced time answers `0`.

  * `Capped.reserve`: a call keeps the tokens within the burst, if its weight is not
    negative;
  * `Bucket.reserve_later`: the announced delay is enough for a second call;
  * `Bucket.reserve_reachable`: both for every bucket that calls lead to, from one that
    was configured (`Limiter.configured`);
  * `Bucket.overfilled`: a call with a negative weight, which `Wait` never makes.
-/
import Aggregator.Ratelimit.Window

namespace Aggregator.Ratelimit

open Aggregator.Go

/-- A budget as `Configure` leaves it. -/
structure Budget.Configured (g : Budget) : Prop where
  rps : 0 < g.requestsPerSecond
  rpm : 0 < g.requestsPerMinute
  burst : 1 ≤ g.burst
  jitterMin : int64Min ≤ g.jitterMin
  jitter : g.jitterMin ≤ g.jitterMax
  jitterMax : g.jitterMax ≤ int64Max

namespace Bucket
variable {b b' : Bucket} {now weight : ℤ}

/-- Neither of the two delays of a call is too long for a `time.Duration`. -/
def DelayFits (b : Bucket) (now weight : ℤ) : Prop :=
  ¬Overflows (b.shortages ⟨now, weight⟩).1 ∧ ¬Overflows (b.shortages ⟨now, weight⟩).2

/-! ## Two calls -/

theorem delayFor_eq_floor {w : ℤ} {tokens rate : ℚ} (hr : 0 < rate)
    (hfits : ¬Overflows (short w tokens rate)) :
    delayFor (w - tokens) rate = ⌊max 0 (short w tokens rate)⌋ := by
  rcases le_or_gt (short w tokens rate) 0 with hnone | hpos
  · have hmiss : (w : ℚ) - tokens ≤ 0 := by simpa using (short_le hr).1 hnone
    rw [max_eq_left hnone, delayFor, if_pos (.inl hmiss), Int.floor_zero]
  · have hmiss : ¬((w : ℚ) - tokens ≤ 0 ∨ rate ≤ 0) := by
      rintro (h | h)
      · exact not_le.2 hpos ((short_le hr).2 (by simpa using h))
      · exact not_le.2 hr h
    have hdelay : delayFor (w - tokens) rate = float64ToInt64 (short w tokens rate) := if_neg hmiss
    have hle : ⌊short w tokens rate⌋ < int64Max + 1 :=
      Int.floor_lt.2 (by exact_mod_cast not_le.1 hfits)
    have hnonneg : 0 ≤ ⌊short w tokens rate⌋ := Int.floor_nonneg.2 hpos.le
    rw [max_eq_right hpos.le, hdelay]
    simp only [float64ToInt64, hpos.le, ↓reduceIte]
    exact if_pos ⟨by unfold int64Min; omega, by omega⟩

/-- A count that is short of at most `c` nanoseconds more than `d` is short of less than
    one after `d` of them, if `c` is less than one. -/
theorem short_topUp_lt {cap tokens rate : ℚ} {d : ℤ} (hr : 0 < rate) (hcap : (weight : ℚ) ≤ cap)
    (hd : 0 ≤ d) (hshort : short weight tokens rate < d + 1) :
    short weight (topUp cap tokens rate d) rate < 1 := by
  have hrest : short weight (topUp cap tokens rate d) rate ≤
      max 0 (short weight tokens rate - d) := by
    rw [short_topUp hr hcap hd (le_max_left _ _)]
    have := le_max_right 0 (short weight tokens rate - d)
    linarith
  refine hrest.trans_lt (max_lt one_pos ?_)
  linarith

/-- A call that has to wait takes nothing, and announces the longer delay. -/
theorem reserve_announces (hb : b.Wf) (hfits : b.DelayFits now weight)
    (hpos : 0 < (b.reserve now weight).1) :
    b.reserve now weight =
      (max ⌊max 0 (b.shortages ⟨now, weight⟩).1⌋ ⌊max 0 (b.shortages ⟨now, weight⟩).2⌋,
        (b.raise weight).refill now) := by
  have hrps := hb.rps
  have hrpm : 0 < b.budget.requestsPerMinute / 60 := by
    have := hb.rpm
    positivity
  have hhas : ¬((b.raise weight).refill now).has weight := by
    intro h
    simp [reserve, h] at hpos
  obtain ⟨hsecond, hminute⟩ := hfits
  simp only [shortages, refill_budget, raise_rps, raise_rpm] at hsecond hminute ⊢
  simp only [reserve, hhas, refill_budget, raise_rps, raise_rpm, Bool.false_eq_true, ↓reduceIte,
    delayFor_eq_floor hrps hsecond, delayFor_eq_floor hrpm hminute]

theorem lt_add_one_of_floor_le {s : ℚ} {d : ℤ} (h : ⌊max 0 s⌋ ≤ d) : s < d + 1 := by
  have hd : (⌊max 0 s⌋ : ℚ) ≤ d := by exact_mod_cast h
  have := Int.lt_floor_add_one (max 0 s)
  have := le_max_right 0 s
  linarith

theorem floor_le_int64Max {s : ℚ} (h : ¬Overflows s) : ⌊max 0 s⌋ ≤ int64Max :=
  Int.lt_add_one_iff.1
    (Int.floor_lt.2 (max_lt (by norm_num [int64Max]) (by exact_mod_cast not_le.1 h)))

/-- Both counts are short of less than a nanosecond after the delay. -/
theorem shortages_after (hrps : 0 < b.budget.requestsPerSecond)
    (hrpm : 0 < b.budget.requestsPerMinute) (hburst : weight ≤ b.budget.burst) {d : ℤ}
    (hd : 0 ≤ d) (hmax : d ≤ int64Max)
    (hsecond : short weight b.secondTokens b.budget.requestsPerSecond < d + 1)
    (hminute : short weight b.minuteTokens (b.budget.requestsPerMinute / 60) < d + 1) :
    (b.shortages ⟨b.lastRefill + d, weight⟩).1 < 1 ∧
      (b.shortages ⟨b.lastRefill + d, weight⟩).2 < 1 := by
  have hburst' : (weight : ℚ) ≤ b.budget.burst := by exact_mod_cast hburst
  have helapsed : timeSub (b.lastRefill + d) b.lastRefill = d := by
    rw [timeSub_of_mem (by omega) (by omega)]
    omega
  have hclock : b.lastRefill ≤ b.lastRefill + d := by omega
  obtain ⟨hs, hm⟩ := refill_tokens hclock
  rw [helapsed] at hs hm
  simp only [shortages, raise_of_le hburst, refill_budget, hs, hm]
  exact ⟨short_topUp_lt hrps hburst' hd hsecond,
    short_topUp_lt (by positivity) (le_max_of_le_right hburst') hd hminute⟩

/-- A shortage of less than a nanosecond is not told. -/
theorem reserve_eq_zero_of_shortages_lt {r : Reserve} (hrps : 0 < b.budget.requestsPerSecond)
    (hrpm : 0 < b.budget.requestsPerMinute)
    (h : (b.shortages r).1 < 1 ∧ (b.shortages r).2 < 1) : (b.reserve r.now r.weight).1 = 0 := by
  rw [reserve_eq_zero_iff hrps hrpm, has_iff_shortages hrps hrpm, or_iff_not_imp_right, not_not]
  rintro (hnone | hsecond | hminute | hoverflow)
  · exact hnone
  · exact absurd hsecond.1 (not_le.2 h.1)
  · exact absurd hminute.1 (not_le.2 h.2)
  · exact absurd (le_trans (by norm_num [int64Max]) hoverflow.1) (not_le.2 h.1)

/-- **The announced delay is enough**: the same call answers `0` after it. -/
theorem reserve_later (hb : b.Wf) (hfits : b.DelayFits now weight)
    (hpos : 0 < (b.reserve now weight).1) :
    ((b.reserve now weight).2.reserve (now + (b.reserve now weight).1) weight).1 = 0 := by
  have hreserve := reserve_announces hb hfits hpos
  obtain ⟨d, hd⟩ : ∃ d, d = (b.reserve now weight).1 := ⟨_, rfl⟩
  have hdelay : max ⌊max 0 (b.shortages ⟨now, weight⟩).1⌋ ⌊max 0 (b.shortages ⟨now, weight⟩).2⌋ = d := by
    rw [hd, hreserve]
  have hnext : (b.reserve now weight).2 = (b.raise weight).refill now := by rw [hreserve]
  rw [← hd] at hpos ⊢
  rw [hnext]
  have hmax : d ≤ int64Max :=
    hdelay ▸ max_le (floor_le_int64Max hfits.1) (floor_le_int64Max hfits.2)
  have hsecond := lt_add_one_of_floor_le ((le_max_left _ _).trans hdelay.le)
  have hminute := lt_add_one_of_floor_le ((le_max_right _ _).trans hdelay.le)
  have hrps : 0 < ((b.raise weight).refill now).budget.requestsPerSecond := by simpa using hb.rps
  have hrpm : 0 < ((b.raise weight).refill now).budget.requestsPerMinute := by simpa using hb.rpm
  have hburst : weight ≤ ((b.raise weight).refill now).budget.burst := by
    rw [refill_budget, raise_burst]
    exact le_max_right _ _
  have hshort := shortages_after hrps hrpm hburst hpos.le hmax hsecond hminute
  rw [refill_lastRefill] at hshort
  exact reserve_eq_zero_of_shortages_lt (r := ⟨now + d, weight⟩) hrps hrpm hshort

/-! ## The tokens -/

theorem Capped.raise (hb : b.Capped) (weight : ℤ) : (b.raise weight).Capped := by
  have hburst : (b.budget.burst : ℚ) ≤ (b.raise weight).budget.burst := by
    rw [raise_burst]
    exact_mod_cast le_max_left _ _
  refine ⟨by simpa using hb.rps, by simpa using hb.rpm, ?_, ?_⟩
  · rw [raise_secondTokens]
    exact ⟨hb.second.1, hb.second.2.trans hburst⟩
  · rw [raise_minuteTokens, raise_rpm]
    exact ⟨hb.minute.1, hb.minute.2.trans (max_le_max_left _ hburst)⟩

theorem Capped.refill (hb : b.Capped) (now : ℤ) : (b.refill now).Capped := by
  rcases lt_or_ge now b.lastRefill with hback | hnow
  · rw [Bucket.refill, if_pos hback]
    exact ⟨hb.rps, hb.rpm, hb.second, hb.minute⟩
  · have hrate : 0 ≤ b.budget.requestsPerMinute / 60 := by
      have := hb.rpm
      positivity
    obtain ⟨hs, hm⟩ := refill_tokens hnow
    obtain ⟨hs₀, hs₁, -⟩ := topUp_mem hb.rps.le le_rfl hb.second hnow
    obtain ⟨hm₀, hm₁, -⟩ := topUp_mem hrate le_rfl hb.minute hnow
    refine ⟨by simpa using hb.rps, by simpa using hb.rpm, ?_, ?_⟩
    · rw [hs, refill_budget]
      exact ⟨hs₀, hs₁⟩
    · rw [hm, refill_budget]
      exact ⟨hm₀, hm₁⟩

/-- A call keeps the tokens within the burst. -/
theorem Capped.reserve (hb : b.Capped) {r : Reserve} (hw : 0 ≤ r.weight) :
    (b.reserve r.now r.weight).2.Capped := by
  have hb₁ := (hb.raise r.weight).refill r.now
  have hw' : (0 : ℚ) ≤ r.weight := by exact_mod_cast hw
  simp only [Bucket.reserve]
  split
  · rename_i hhas
    simp only [has, Bool.and_eq_true, decide_eq_true_eq] at hhas
    exact ⟨hb₁.rps, hb₁.rpm, ⟨sub_nonneg.2 hhas.1, (sub_le_self _ hw').trans hb₁.second.2⟩,
      ⟨sub_nonneg.2 hhas.2, (sub_le_self _ hw').trans hb₁.minute.2⟩⟩
  · exact hb₁

theorem Capped.run (hb : b.Capped) {rs : List Reserve} (hrun : Run step b rs b')
    (hweights : ∀ r ∈ rs, 0 ≤ r.weight) : b'.Capped := by
  induction hrun with
  | nil b => exact hb
  | cons hstep _ ih =>
    obtain ⟨hw, hweights⟩ := List.forall_mem_cons.1 hweights
    obtain rfl := hstep
    exact ih (hb.reserve hw) hweights

theorem Wf.run (hb : b.Wf) {rs : List Reserve} (hrun : Run step b rs b') : b'.Wf := by
  refine hrun.inv (I := Wf) ?_ hb
  rintro b r _ hb rfl
  exact hb.reserve r.now r.weight

/-- **In every bucket that calls lead to**, the announced delay is enough, no count is
    negative, and if no weight was negative the counts are within the burst. -/
theorem reserve_reachable {g : Budget} (hg : g.Configured) {t₀ : ℤ} {rs : List Reserve}
    (hrun : Run step (newBucket g t₀) rs b) :
    (∀ now weight, 1 ≤ weight → b.DelayFits now weight → ∀ d, (b.reserve now weight).1 = d →
      0 < d → ((b.reserve now weight).2.reserve (now + d) weight).1 = 0) ∧
    (0 ≤ b.secondTokens ∧ 0 ≤ b.minuteTokens) ∧
    ((∀ r ∈ rs, 0 ≤ r.weight) → b.secondTokens ≤ b.budget.burst ∧
      b.minuteTokens ≤ max b.budget.requestsPerMinute b.budget.burst) := by
  have hnew : (newBucket g t₀).Wf := Limiter.newBucket_wf hg.rps hg.rpm hg.burst hg.jitterMin
    hg.jitter hg.jitterMax
  have hwf := hnew.run hrun
  refine ⟨?_, ⟨hwf.secondTokens, hwf.minuteTokens⟩, fun hweights => ?_⟩
  · rintro now weight - hfits d rfl hpos
    exact reserve_later hwf hfits hpos
  · have hcapped : (newBucket g t₀).Capped :=
      ⟨hg.rps, hg.rpm, ⟨hnew.secondTokens, le_rfl⟩, ⟨hnew.minuteTokens, le_rfl⟩⟩
    have := hcapped.run hrun hweights
    exact ⟨this.second.2, this.minute.2⟩

theorem threePerSecond_configured : threePerSecond.Configured :=
  ⟨by decide +kernel, by decide +kernel, by decide, by decide, by decide, by decide⟩

/-- A request for five tokens, more than the burst, when there is none. -/
theorem reserve_reachable_heavy :
    ∃ b, Run step (newBucket threePerSecond 0) [⟨0, 1⟩] b ∧
      (b.reserve 0 5).1 = 1666666666 ∧
      ((b.reserve 0 5).2.reserve (0 + 1666666666) 5).1 = 0 ∧ b.secondTokens ≤ b.budget.burst := by
  have hrun : Run step (newBucket threePerSecond 0) [⟨0, 1⟩] _ := .single rfl
  obtain ⟨hlater, -, hcapped⟩ := reserve_reachable threePerSecond_configured hrun
  have hdelay : (((newBucket threePerSecond 0).reserve 0 1).2.reserve 0 5).1 = 1666666666 := by
    decide +kernel
  refine ⟨_, hrun, hdelay, hlater 0 5 (by decide) ?_ 1666666666 hdelay (by decide), ?_⟩
  · exact ⟨by decide +kernel, by decide +kernel⟩
  · exact (hcapped (by simp)).1

/-- A call with a negative weight, which puts tokens back and leaves more than the
    burst. -/
theorem overfilled :
    threePerSecond.Configured ∧ ∃ b, Run step (newBucket threePerSecond 0) [⟨0, -5⟩] b ∧
      (b.budget.burst : ℚ) < b.secondTokens := by
  exact ⟨threePerSecond_configured, _, .single rfl, by decide +kernel⟩

end Bucket

/-- What `Configure` puts under an exchange. -/
theorem Limiter.configured {l l' : Limiter} {exchange : String} {g : Budget} {now : ℤ}
    (hmin : int64Min ≤ g.jitterMin) (hmin' : g.jitterMin ≤ int64Max) (hmax : g.jitterMax ≤ int64Max)
    (h : l.configure exchange g now = .ok l') :
    ∃ g' : Budget, g'.Configured ∧
      l'.buckets (exchangeKey exchange) = some (newBucket g' now) := by
  unfold configure at h
  dsimp only at h
  split at h
  · cases h
  split at h
  · cases h
  rename_i hrps
  obtain rfl := Except.ok.inj h
  refine ⟨_, ?_, set_buckets_self _ _ _⟩
  have hrps := not_le.1 hrps
  constructor <;> split_ifs <;> simp only [not_le, not_lt] at * <;>
    first | assumption | positivity | omega

end Aggregator.Ratelimit
