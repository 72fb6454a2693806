/-
  How much a bucket grants in a window of time.

  `bucket.reserve` answers `0` when it grants a request, and otherwise the time
  to wait.  Both counts of the bucket are `TokenCount`s, so the weight that is
  really taken in a window is bounded by the burst and by what is refilled.  But
  `0` is also the answer to a shortage that no positive number of nanoseconds
  stands for, and such a request takes no tokens.

  * `Bucket.reserve_eq_zero_iff`: `reserve` answers `0` iff it has the tokens or
    does not tell the shortage;
  * `Bucket.grantedIn_le`: in a run in which every shortage is told, the weight
    of the calls answered with `0` in a window keeps to both bounds;
  * `Bucket.granted_twice`: three requests per second, and two requests answered
    with `0` in the last nanosecond before the token is there.
-/
import Aggregator.Lib.TokenCount
import Aggregator.Ratelimit.Bucket

namespace Aggregator.Ratelimit

open Aggregator.Go

/-- A call of `bucket.reserve`. -/
structure Reserve where
  now : ℤ
  weight : ℤ
deriving DecidableEq, Repr

namespace Bucket

/-- The bucket after a call. -/
def step (b : Bucket) (r : Reserve) (b' : Bucket) : Prop := (b.reserve r.now r.weight).2 = b'

/-- The weight of the calls from `s` to `t` that were answered with `0`. -/
def grantedIn (s t : ℤ) : Bucket → List Reserve → ℤ
  | _, [] => 0
  | b, r :: rs =>
    let (delay, b') := b.reserve r.now r.weight
    (if delay = 0 ∧ s ≤ r.now ∧ r.now ≤ t then r.weight else 0) + b'.grantedIn s t rs

/-- The largest of the burst and the weights requested. -/
def maxBurst (burst : ℤ) (rs : List Reserve) : ℤ := rs.foldl (fun m r => max m r.weight) burst

/-! ## Answers -/

/-- A shortage of `s` nanoseconds for which `delayFor` gives a positive delay:
    at least one, and no more than fit. -/
def Told (s : ℚ) : Prop := 1 ≤ s ∧ s < int64Max + 1

/-- A shortage that does not fit, for which the delay is negative. -/
def Overflows (s : ℚ) : Prop := int64Max + 1 ≤ s

instance (s : ℚ) : Decidable (Told s) := inferInstanceAs (Decidable (_ ∧ _))

instance (s : ℚ) : Decidable (Overflows s) := inferInstanceAs (Decidable (_ ≤ _))

/-- The shortage of the count per second and of the one per minute. -/
def shortages (b : Bucket) (r : Reserve) : ℚ × ℚ :=
  let b := (b.raise r.weight).refill r.now
  (short r.weight b.secondTokens b.budget.requestsPerSecond,
    short r.weight b.minuteTokens (b.budget.requestsPerMinute / 60))

/-- A call finds the tokens, or a shortage that its answer tells: one of the two
    delays is positive, or both overflow. -/
def Tells (b : Bucket) (r : Reserve) : Prop :=
  let (s, m) := b.shortages r
  (s ≤ 0 ∧ m ≤ 0) ∨ Told s ∨ Told m ∨ (Overflows s ∧ Overflows m)

instance (b : Bucket) (r : Reserve) : Decidable (b.Tells r) :=
  inferInstanceAs (Decidable (_ ∨ _ ∨ _ ∨ _))

/-- The three values of `delayFor`. -/
theorem delayFor_cases (w : ℤ) (tokens : ℚ) {rate : ℚ} (hr : 0 < rate) :
    let s := short w tokens rate
    (¬Told s ∧ ¬Overflows s ∧ delayFor (w - tokens) rate = 0) ∨
      (Told s ∧ 0 < delayFor (w - tokens) rate) ∨
      (¬Told s ∧ Overflows s ∧ delayFor (w - tokens) rate = int64Min) := by
  intro s
  have hlt : s < 1 → ¬Told s ∧ ¬Overflows s := by
    intro h
    refine ⟨fun ht => not_lt.2 ht.1 h, fun ho => not_le.2 h (le_trans ?_ ho)⟩
    norm_num [int64Max]
  rcases le_or_gt s 0 with hnone | hpos
  · have hmiss : (w : ℚ) - tokens ≤ 0 := by simpa using (short_le hr).1 hnone
    have hs := hlt (hnone.trans_lt one_pos)
    exact .inl ⟨hs.1, hs.2, if_pos (.inl hmiss)⟩
  have hmiss : ¬((w : ℚ) - tokens ≤ 0 ∨ rate ≤ 0) := by
    rintro (h | h)
    · exact not_le.2 hpos ((short_le hr).2 (by simpa using h))
    · exact not_le.2 hr h
  have hdelay : delayFor (w - tokens) rate = float64ToInt64 s := if_neg hmiss
  simp only [hdelay, float64ToInt64, hpos.le, ↓reduceIte]
  rcases lt_or_ge s 1 with h | hge
  · have hzero : ⌊s⌋ = 0 := Int.floor_eq_zero_iff.2 ⟨hpos.le, h⟩
    exact .inl ⟨(hlt h).1, (hlt h).2, by rw [hzero]; rfl⟩
  rcases lt_or_ge s (int64Max + 1) with hfit | hbig
  · have hle : ⌊s⌋ < int64Max + 1 := Int.floor_lt.2 (by exact_mod_cast hfit)
    have hone : 1 ≤ ⌊s⌋ := Int.le_floor.2 (by exact_mod_cast hge)
    rw [if_pos ⟨by unfold int64Min; omega, by omega⟩]
    exact .inr (.inl ⟨⟨hge, hfit⟩, by omega⟩)
  · have hlarge : int64Max + 1 ≤ ⌊s⌋ := Int.le_floor.2 (by exact_mod_cast hbig)
    rw [if_neg (by omega)]
    exact .inr (.inr ⟨fun ht => not_le.2 ht.2 hbig, hbig, rfl⟩)

variable {b b' : Bucket} {r : Reserve} {rs : List Reserve}

/-- The tokens are there iff neither count is short. -/
theorem has_iff_shortages (hrps : 0 < b.budget.requestsPerSecond)
    (hrpm : 0 < b.budget.requestsPerMinute) :
    ((b.raise r.weight).refill r.now).has r.weight ↔
      (b.shortages r).1 ≤ 0 ∧ (b.shortages r).2 ≤ 0 := by
  have hrpm' : 0 < b.budget.requestsPerMinute / 60 := by positivity
  simp only [has, shortages, Bool.and_eq_true, decide_eq_true_eq, refill_budget, raise_rps,
    raise_rpm, short_le hrps, short_le hrpm']
  simp

/-- **`reserve` answers `0`** iff it has the tokens or does not tell the
    shortage. -/
theorem reserve_eq_zero_iff (hrps : 0 < b.budget.requestsPerSecond)
    (hrpm : 0 < b.budget.requestsPerMinute) :
    (b.reserve r.now r.weight).1 = 0 ↔
      ((b.raise r.weight).refill r.now).has r.weight ∨ ¬b.Tells r := by
  have hrpm' : 0 < b.budget.requestsPerMinute / 60 := by positivity
  have hhas := has_iff_shortages (r := r) hrps hrpm
  by_cases hh : ((b.raise r.weight).refill r.now).has r.weight
  · simp [reserve, hh]
  have hshort := mt hhas.2 hh
  have hsecond := delayFor_cases r.weight ((b.raise r.weight).refill r.now).secondTokens hrps
  have hminute := delayFor_cases r.weight ((b.raise r.weight).refill r.now).minuteTokens hrpm'
  have hneg : int64Min < 0 := by decide
  simp only [reserve, hh, shortages, Tells, refill_budget, raise_rps, raise_rpm] at hshort ⊢
  rcases hsecond with ⟨hs, hso, hsd⟩ | ⟨hs, hsd⟩ | ⟨hs, hso, hsd⟩ <;>
    rcases hminute with ⟨hm, hmo, hmd⟩ | ⟨hm, hmd⟩ | ⟨hm, hmo, hmd⟩ <;>
    simp only [*] <;> simp <;> omega

/-! ## The two counts -/

def secondCount (b : Bucket) : TokenCount ℚ := ⟨b.secondTokens, b.budget.burst, seconds b.lastRefill⟩

def minuteCount (b : Bucket) : TokenCount ℚ :=
  ⟨b.minuteTokens, max b.budget.requestsPerMinute b.budget.burst, seconds b.lastRefill⟩

/-- The tokens of a bucket keep to its burst. -/
structure Capped (b : Bucket) : Prop where
  rps : 0 < b.budget.requestsPerSecond
  rpm : 0 < b.budget.requestsPerMinute
  second : 0 ≤ b.secondTokens ∧ b.secondTokens ≤ b.budget.burst
  minute : 0 ≤ b.minuteTokens ∧
    b.minuteTokens ≤ max b.budget.requestsPerMinute b.budget.burst

/-- A count topped up stays within its cap and within what came in. -/
theorem topUp_mem {cap cap' tokens rate : ℚ} {now last : ℤ} (hr : 0 ≤ rate) (hcap : cap ≤ cap')
    (ht : 0 ≤ tokens ∧ tokens ≤ cap) (hnow : last ≤ now) :
    0 ≤ topUp cap' tokens rate (timeSub now last) ∧
      topUp cap' tokens rate (timeSub now last) ≤ cap' ∧
      topUp cap' tokens rate (timeSub now last) ≤ tokens + rate * (seconds now - seconds last) := by
  have hdiff : seconds now - seconds last = seconds (now - last) := by
    simp only [seconds]; push_cast; ring
  have hnn : 0 ≤ seconds (now - last) := by
    unfold seconds; have : (0 : ℚ) ≤ (now - last : ℤ) := by exact_mod_cast sub_nonneg.2 hnow
    positivity
  have hsub : seconds (timeSub now last) ≤ seconds (now - last) := by
    unfold seconds
    have : timeSub now last ≤ now - last := by unfold timeSub int64Min int64Max at *; omega
    have : (timeSub now last : ℚ) ≤ (now - last : ℤ) := by exact_mod_cast this
    gcongr
  have hsub' : 0 ≤ seconds (timeSub now last) := by
    unfold seconds
    have : (0 : ℚ) ≤ timeSub now last := by exact_mod_cast timeSub_nonneg hnow
    positivity
  rw [hdiff]
  unfold topUp
  split
  · exact ⟨ht.1, ht.2.trans hcap, le_add_of_nonneg_right (mul_nonneg hr hnn)⟩
  · have hin : 0 ≤ seconds (timeSub now last) * rate := mul_nonneg hsub' hr
    refine ⟨le_min (ht.1.trans (ht.2.trans hcap)) (add_nonneg ht.1 hin), min_le_left _ _,
      (min_le_right _ _).trans ?_⟩
    rw [mul_comm rate]
    gcongr

/-- What is deducted by a call. -/
def taken (b : Bucket) (r : Reserve) : Taking ℚ :=
  ⟨seconds r.now, if ((b.raise r.weight).refill r.now).has r.weight then r.weight else 0⟩

@[simp] theorem raise_lastRefill (w : ℤ) : (b.raise w).lastRefill = b.lastRefill := by
  unfold raise; split <;> rfl

/-- The counts before anything is deducted. -/
theorem refilled_mem (hb : b.Capped) (hnow : b.lastRefill ≤ r.now) :
    let b' := (b.raise r.weight).refill r.now
    (0 ≤ b'.secondTokens ∧ b'.secondTokens ≤ b'.budget.burst ∧
      b'.secondTokens ≤ b.secondTokens +
        b.budget.requestsPerSecond * (seconds r.now - seconds b.lastRefill)) ∧
    (0 ≤ b'.minuteTokens ∧
      b'.minuteTokens ≤ max b.budget.requestsPerMinute b'.budget.burst ∧
      b'.minuteTokens ≤ b.minuteTokens +
        b.budget.requestsPerMinute / 60 * (seconds r.now - seconds b.lastRefill)) := by
  intro b'
  have hburst : (b.budget.burst : ℚ) ≤ b'.budget.burst := by
    simp only [b', refill_budget, raise_burst]; exact_mod_cast le_max_left _ _
  have hrpm := hb.rpm
  obtain ⟨hs, hm⟩ := refill_tokens ((raise_lastRefill r.weight).trans_le hnow)
  simp only [raise_rps, raise_rpm, raise_secondTokens, raise_minuteTokens,
    raise_lastRefill] at hs hm
  have hbud : (b.raise r.weight).budget.burst = b'.budget.burst := by simp only [b', refill_budget]
  rw [hbud] at hs hm
  constructor
  · rw [hs]
    exact topUp_mem hb.rps.le hburst hb.second hnow
  · rw [hm]
    exact topUp_mem (by positivity) (max_le_max_left _ hburst) hb.minute hnow

/-- What is left in the counts and what is deducted are the refilled counts. -/
theorem reserve_tokens (b : Bucket) (r : Reserve) :
    let b' := (b.raise r.weight).refill r.now
    let b'' := (b.reserve r.now r.weight).2
    b''.secondTokens + (b.taken r).taken = b'.secondTokens ∧
      b''.minuteTokens + (b.taken r).taken = b'.minuteTokens ∧
      b''.budget = b'.budget ∧ b''.lastRefill = r.now := by
  simp only [reserve, taken]
  split
  · simp [refill_lastRefill]
  · simp [refill_lastRefill]

/-- **One call takes from both counts.** -/
theorem reserve_takes (hb : b.Capped) (hw : 0 < r.weight) (hnow : b.lastRefill ≤ r.now) :
    let b' := (b.reserve r.now r.weight).2
    TokenCount.Take b.budget.requestsPerSecond b.secondCount (b.taken r) b'.secondCount ∧
      TokenCount.Take (b.budget.requestsPerMinute / 60) b.minuteCount (b.taken r) b'.minuteCount ∧
      b'.Capped := by
  intro b'
  have hw' : (0 : ℚ) ≤ r.weight := by exact_mod_cast hw.le
  obtain ⟨⟨hs₀, hs₁, hs₂⟩, hm₀, hm₁, hm₂⟩ := refilled_mem hb hnow
  obtain ⟨hs, hm, hbud, hlast⟩ := reserve_tokens b r
  have htaken : 0 ≤ (b.taken r).taken := by simp only [taken]; split <;> simp [hw']
  have hnn : 0 ≤ b'.secondTokens ∧ 0 ≤ b'.minuteTokens := by
    simp only [b', reserve]
    split
    · rename_i hh
      simp only [has, Bool.and_eq_true, decide_eq_true_eq] at hh
      exact ⟨sub_nonneg.2 hh.1, sub_nonneg.2 hh.2⟩
    · exact ⟨hs₀, hm₀⟩
  have hclock : seconds b.lastRefill ≤ seconds r.now := by
    unfold seconds
    have : (b.lastRefill : ℚ) ≤ r.now := by exact_mod_cast hnow
    gcongr
  have hrps : b'.budget.requestsPerSecond = b.budget.requestsPerSecond := by
    rw [hbud, refill_budget, raise_rps]
  have hrpm : b'.budget.requestsPerMinute = b.budget.requestsPerMinute := by
    rw [hbud, refill_budget, raise_rpm]
  have hburst : (b.budget.burst : ℚ) ≤ b'.budget.burst := by
    rw [hbud, refill_budget, raise_burst]; exact_mod_cast le_max_left _ _
  rw [← hs, ← hbud] at hs₁
  rw [← hs] at hs₂
  rw [← hm, ← hbud, ← hrpm] at hm₁
  rw [← hm] at hm₂
  have hcap : max b.budget.requestsPerMinute (b.budget.burst : ℚ) ≤
      max b'.budget.requestsPerMinute b'.budget.burst := by
    rw [hrpm]; exact max_le_max_left _ hburst
  refine ⟨⟨hclock, congrArg seconds hlast, htaken, hburst, hnn.1, hs₁, hs₂⟩,
    ⟨hclock, congrArg seconds hlast, htaken, hcap, hnn.2, hm₁, hm₂⟩,
    ⟨hrps ▸ hb.rps, hrpm ▸ hb.rpm, ⟨hnn.1, ?_⟩, ⟨hnn.2, ?_⟩⟩⟩
  · exact (le_add_of_nonneg_right htaken).trans hs₁
  · exact (le_add_of_nonneg_right htaken).trans hm₁

/-! ## Runs -/

theorem within_taken (hb : b.Capped) (hr : b.Tells r) (s t : ℤ) :
    (b.taken r).within (seconds s) (seconds t) =
      (if (b.reserve r.now r.weight).1 = 0 ∧ s ≤ r.now ∧ r.now ≤ t then r.weight else 0 : ℤ) := by
  have hle : ∀ x y : ℤ, seconds x ≤ seconds y ↔ x ≤ y := by
    intro x y
    unfold seconds
    rw [div_le_div_iff_of_pos_right (by norm_num)]
    exact Int.cast_le
  have hzero : (b.reserve r.now r.weight).1 = 0 ↔
      ((b.raise r.weight).refill r.now).has r.weight := by
    rw [reserve_eq_zero_iff hb.rps hb.rpm]; simp [hr]
  simp only [Taking.within, taken, hle, hzero]
  by_cases hin : s ≤ r.now ∧ r.now ≤ t
  · simp only [hin, and_self, and_true, ↓reduceIte]
    split <;> simp
  · simp [hin]

/-- A run in which every shortage is told, as a run of both counts. -/
theorem run_takes (hrun : Run (Restrict step Tells) b rs b') (hb : b.Capped)
    (hclock : ∀ r ∈ rs, b.lastRefill ≤ r.now) (htimes : rs.Pairwise (·.now ≤ ·.now))
    (hw : ∀ r ∈ rs, 0 < r.weight) :
    ∃ es, Run (TokenCount.Take b.budget.requestsPerSecond) b.secondCount es b'.secondCount ∧
      Run (TokenCount.Take (b.budget.requestsPerMinute / 60)) b.minuteCount es b'.minuteCount ∧
      (∀ s t, TokenCount.takenIn (seconds s) (seconds t) es = (b.grantedIn s t rs : ℤ)) ∧
      b'.budget.burst = maxBurst b.budget.burst rs ∧
      b'.budget.requestsPerMinute = b.budget.requestsPerMinute := by
  induction hrun with
  | nil b => exact ⟨[], .nil _, .nil _, fun _ _ => by simp [TokenCount.takenIn, grantedIn], rfl, rfl⟩
  | @cons b _ b' r rs hstep _ ih =>
    obtain ⟨htell, rfl⟩ := hstep
    obtain ⟨hsecond, hminute, hcapped⟩ := reserve_takes hb (hw r List.mem_cons_self)
      (hclock r List.mem_cons_self)
    obtain ⟨-, -, hbud, hlast⟩ := reserve_tokens b r
    obtain ⟨hfirst, hrest⟩ := List.pairwise_cons.1 htimes
    obtain ⟨es, hs, hm, hsum, hburst, hrpm⟩ := ih hcapped
      (fun r' hr' => hlast.trans_le (hfirst r' hr')) hrest
      fun r' hr' => hw r' (List.mem_cons_of_mem _ hr')
    rw [hbud, refill_budget] at hs hm hburst hrpm
    rw [raise_rps] at hs
    rw [raise_rpm] at hm hrpm
    refine ⟨b.taken r :: es, .cons hsecond hs, .cons hminute hm, fun s t => ?_, ?_, hrpm⟩
    · have hhead := within_taken hb htell s t
      have htail := hsum s t
      simp only [TokenCount.takenIn, List.map_cons, List.sum_cons, grantedIn] at htail ⊢
      rw [hhead, htail]
      push_cast
      rfl
    · rw [hburst, raise_burst]
      rfl

/-- The bounds for a bucket that is not read before it was filled. -/
theorem Capped.granted_bounds (hb : b.Capped) (hrun : Run (Restrict step Tells) b rs b')
    (hclock : ∀ r ∈ rs, b.lastRefill ≤ r.now) (htimes : rs.Pairwise (·.now ≤ ·.now))
    (hw : ∀ r ∈ rs, 0 < r.weight) {s t : ℤ} (hst : s ≤ t) :
    (b.grantedIn s t rs : ℚ) ≤
        maxBurst b.budget.burst rs + b.budget.requestsPerSecond * seconds (t - s) ∧
      (b.grantedIn s t rs : ℚ) ≤
        max b.budget.requestsPerMinute (maxBurst b.budget.burst rs) +
          b.budget.requestsPerMinute / 60 * seconds (t - s) := by
  obtain ⟨es, hs, hm, hsum, hburst, hrpm⟩ := run_takes hrun hb hclock htimes hw
  have hrps := hb.rps.le
  have hrpm' := hb.rpm
  have hst' : seconds s ≤ seconds t := by
    unfold seconds
    have : (s : ℚ) ≤ t := by exact_mod_cast hst
    gcongr
  have hdiff : seconds t - seconds s = seconds (t - s) := by
    simp only [seconds]; push_cast; ring
  have hsecond := TokenCount.takenIn_le (c := b.secondCount) hrps hst' hb.second.1 hb.second.2 hs
  have hminute := TokenCount.takenIn_le (c := b.minuteCount) (by positivity) hst' hb.minute.1
    hb.minute.2 hm
  rw [hsum, hdiff, secondCount, hburst] at hsecond
  rw [hsum, hdiff, minuteCount, hburst, hrpm] at hminute
  exact ⟨hsecond, hminute⟩

/-- A call from before the bucket was filled winds its clock back. -/
theorem refill_back {now : ℤ} (h : now < b.lastRefill) (w : ℤ) :
    ({ b with lastRefill := now }.raise w).refill now = (b.raise w).refill now := by
  have hraise : { b with lastRefill := now }.raise w =
      { b.raise w with lastRefill := now } := by
    unfold raise; split <;> rfl
  have hstill : ∀ c : Bucket, c.lastRefill = now → c.refill now = c := by
    rintro c rfl
    have hzero : seconds (timeSub c.lastRefill c.lastRefill) ≤ 0 := by
      rw [← not_lt, seconds_pos, not_lt, timeSub_le_zero]
    simp only [refill, lt_irrefl, hzero, ↓reduceIte]
  have hback : (b.raise w).refill now = { b.raise w with lastRefill := now } := by
    rw [refill, if_pos (by rwa [raise_lastRefill])]
  rw [hraise, hback]
  exact hstill _ rfl

/-- A bucket wound back to an earlier first call makes the same run. -/
theorem run_back (h : r.now < b.lastRefill) (hrun : Run (Restrict step Tells) b (r :: rs) b') :
    Run (Restrict step Tells) { b with lastRefill := r.now } (r :: rs) b' ∧
      ∀ s t, { b with lastRefill := r.now }.grantedIn s t (r :: rs) =
        b.grantedIn s t (r :: rs) := by
  have hres : { b with lastRefill := r.now }.reserve r.now r.weight =
      b.reserve r.now r.weight := by
    unfold reserve; rw [refill_back h]
  have htell : { b with lastRefill := r.now }.Tells r ↔ b.Tells r := by
    unfold Tells shortages; rw [refill_back h]
  cases hrun with
  | cons hstep hrest =>
    refine ⟨.cons ⟨htell.2 hstep.1, ?_⟩ hrest, fun s t => ?_⟩
    · exact (congrArg Prod.snd hres).trans hstep.2
    · simp only [grantedIn, hres]

/-- What `Configure` makes of a budget it accepts. -/
theorem configure_ok {l l' : Limiter} {exchange : String} {budget : Budget} {start : ℤ}
    (h : l.configure exchange budget start = .ok l') :
    ∃ g : Budget, l' = l.set (exchangeKey exchange) (newBucket g start) ∧
      0 < g.requestsPerSecond ∧ 0 < g.requestsPerMinute ∧ 0 < g.burst := by
  unfold Limiter.configure at h
  dsimp only at h
  split at h
  · cases h
  split at h
  · cases h
  rename_i _ hrps
  have hrps := not_le.1 hrps
  refine ⟨_, (Except.ok.inj h).symm, ?_, ?_, ?_⟩ <;> split_ifs <;>
    simp only [not_le, not_lt] at * <;> first | assumption | positivity

/-- A bucket that `Configure` makes is full, whatever its clock says. -/
theorem capped_of_configure {l l' : Limiter} {exchange : String} {budget : Budget} {start : ℤ}
    (hconf : l.configure exchange budget start = .ok l')
    (hb : l'.buckets (exchangeKey exchange) = some b) (now : ℤ) :
    { b with lastRefill := now }.Capped := by
  obtain ⟨g, rfl, hrps, hrpm, hburst⟩ := configure_ok hconf
  have hnew : b = newBucket g start := by simpa [Limiter.set] using hb.symm
  subst hnew
  have hburst : (0 : ℚ) ≤ g.burst := by exact_mod_cast hburst.le
  exact ⟨hrps, hrpm, ⟨hburst, le_rfl⟩, ⟨le_max_of_le_right hburst, le_rfl⟩⟩

theorem grantedIn_le {l l' : Limiter} {exchange : String} {budget : Budget} {start : ℤ}
    (hconf : l.configure exchange budget start = .ok l')
    (hb : l'.buckets (exchangeKey exchange) = some b)
    (htimes : rs.Pairwise (·.now ≤ ·.now)) (hw : ∀ r ∈ rs, 0 < r.weight)
    (hrun : Run (Restrict step Tells) b rs b') {s t : ℤ} (hst : s ≤ t) :
    (b.grantedIn s t rs : ℚ) ≤
        maxBurst b.budget.burst rs + b.budget.requestsPerSecond * seconds (t - s) ∧
      (b.grantedIn s t rs : ℚ) ≤
        max b.budget.requestsPerMinute (maxBurst b.budget.burst rs) +
          b.budget.requestsPerMinute / 60 * seconds (t - s) := by
  have hcapped := capped_of_configure hconf hb
  cases rs with
  | nil => exact (hcapped b.lastRefill).granted_bounds hrun nofun htimes hw hst
  | cons r rs =>
    have hlater : ∀ r' ∈ r :: rs, r.now ≤ r'.now := by
      rintro r' hr'
      rcases List.mem_cons.1 hr' with rfl | hr'
      · exact le_rfl
      · exact (List.pairwise_cons.1 htimes).1 r' hr'
    rcases lt_or_ge r.now b.lastRefill with hearly | hlate
    · obtain ⟨hrun', hsame⟩ := run_back hearly hrun
      have hbounds := (hcapped r.now).granted_bounds hrun' hlater htimes hw hst
      rwa [hsame] at hbounds
    · exact (hcapped b.lastRefill).granted_bounds hrun
        (fun r' hr' => hlate.trans (hlater r' hr')) htimes hw hst

/-- A budget of three requests per second, without a burst. -/
def threePerSecond : Budget := ⟨3, 180, 1, 0, 0⟩

theorem configure_threePerSecond :
    Limiter.new.configure "binance" ⟨3, 0, 1, 0, 0⟩ 0 =
      .ok (Limiter.new.set "binance" (newBucket threePerSecond 0)) := by
  have hkey : exchangeKey "binance" = "binance" := by decide +kernel
  simp [Limiter.configure, hkey, threePerSecond]
  norm_num

theorem grantedIn_le_threePerSecond :
    ∃ b', Run (Restrict step Tells) (newBucket threePerSecond 0) [⟨0, 1⟩, ⟨333333334, 1⟩] b' ∧
      ((newBucket threePerSecond 0).grantedIn 0 333333334 [⟨0, 1⟩, ⟨333333334, 1⟩] : ℚ) ≤
        maxBurst 1 [⟨0, 1⟩, ⟨333333334, 1⟩] + 3 * seconds (333333334 - 0) := by
  have hrun : Run (Restrict step Tells) (newBucket threePerSecond 0) [⟨0, 1⟩, ⟨333333334, 1⟩] _ :=
    .cons ⟨by decide +kernel, rfl⟩ (.cons ⟨by decide +kernel, rfl⟩ (.nil _))
  have hkey : exchangeKey "binance" = "binance" := by decide +kernel
  have hb : (Limiter.new.set "binance" (newBucket threePerSecond 0)).buckets
      (exchangeKey "binance") = some (newBucket threePerSecond 0) := by
    simp [hkey, Limiter.set]
  have hbounds := grantedIn_le configure_threePerSecond hb (by simp) (by simp) hrun
    (show (0 : ℤ) ≤ 333333334 by decide)
  exact ⟨_, hrun, hbounds.1⟩

theorem granted_twice :
    Limiter.new.configure "binance" ⟨3, 0, 1, 0, 0⟩ 0 =
        .ok (Limiter.new.set "binance" (newBucket threePerSecond 0)) ∧
      ((newBucket threePerSecond 0).grantedIn 333333333 333333333
        [⟨0, 1⟩, ⟨333333333, 1⟩, ⟨333333333, 1⟩] : ℚ) >
        maxBurst 1 [⟨0, 1⟩, ⟨333333333, 1⟩, ⟨333333333, 1⟩] +
          3 * seconds (333333333 - 333333333) := by
  refine ⟨configure_threePerSecond, ?_⟩
  decide +kernel

end Bucket

end Aggregator.Ratelimit
