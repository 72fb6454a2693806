/-
  The instants a backfill plans, and when its loop ends.

  The loop starts at the bucket of the start of a request, which may lie before
  it, and goes on in steps of the interval, a product of `int64`s.

  * `planBackfillJobs_isFirst`: unless that product overflows, the jobs of an
    accepted request are those of the first multiples of the interval in its
    range, with keys that differ and the texts of their own two ends;
  * `planBackfillJobs_ends_iff`: the loop ends within one pass more than there
    may be jobs exactly when the product, however it wraps, is not negative.
-/
import Aggregator.Scheduler.Backfill

namespace Aggregator.Scheduler

open Aggregator.Go

/-- A list has the first `n` elements of a set, or all if there are fewer, in
    ascending order. -/
structure IsFirst (n : ℕ) (s : Set ℤ) (l : List ℤ) : Prop where
  ascending : l.Pairwise (· < ·)
  mem : ∀ t ∈ l, t ∈ s
  length_le : l.length ≤ n
  first : ∀ t ∈ s, t ∈ l ∨ l.length = n ∧ ∀ u ∈ l, u < t

namespace BackfillRequest

/-- The request is not rejected, whatever the loop does. -/
def Accepted (req : BackfillRequest) : Prop :=
  ∀ fuel e, planBackfillJobs fuel req ≠ some (.error e)

/-- The multiples of the interval in the range of a request. -/
def instants (req : BackfillRequest) : Set ℤ :=
  {t | req.startTime ≤ t ∧ t < req.endTime ∧ req.intervalSeconds * second ∣ t}

variable {req : BackfillRequest}

theorem Accepted.valid (h : req.Accepted) (hlag : req.paused = false) : req.Valid := by
  have h := h 0
  unfold planBackfillJobs at h
  rw [if_neg (by simp [hlag])] at h
  split_ifs at h with hint hrange hsymbol
  · exact absurd rfl (h _)
  · exact absurd rfl (h _)
  · exact absurd rfl (h _)
  · exact valid_of_checks hint hrange

theorem Accepted.of_checks (hint : 0 < req.intervalSeconds)
    (hzero : req.startTime ≠ 0 ∧ req.endTime ≠ 0) (hrange : req.startTime < req.endTime)
    (hsymbol : 0 < req.symbolID ∧ req.sourceSymbol ≠ "") : req.Accepted := by
  intro fuel e h
  unfold planBackfillJobs at h
  simp only [isZero, hint.not_ge, hzero, hrange, hsymbol, hsymbol.1.not_ge, decide_true,
    decide_false, Bool.not_true, Bool.or_self, Bool.false_eq_true, ↓reduceIte] at h
  split_ifs at h
  · simp only [Option.some.injEq, reduceCtorEq] at h
  · obtain ⟨jobs, -, hjobs⟩ := Option.map_eq_some_iff.1 h
    cases hjobs

theorem step_eq (hint : 0 < req.intervalSeconds)
    (hfits : req.intervalSeconds * second ≤ int64Max) :
    req.step = req.intervalSeconds * second := by
  refine wrap64_of_mem ?_ hfits
  unfold int64Min second
  omega

/-- The first bucket is the least multiple of the step from the start on. -/
theorem firstBucket_spec (hint : 0 < req.intervalSeconds) (hstep : 0 < req.step) :
    req.step ∣ req.firstBucket ∧ req.firstBucket < req.startTime + req.step := by
  have hbucket : scheduledBucket req.startTime req.intervalSeconds =
      req.startTime - req.startTime % req.step := by
    rw [scheduledBucket, if_neg (not_le.2 hint), truncate]
    exact if_neg (not_le.2 hstep)
  have hdvd : req.step ∣ req.startTime - req.startTime % req.step := Int.dvd_self_sub_emod
  have hnonneg := Int.emod_nonneg req.startTime hstep.ne'
  simp only [firstBucket, hbucket]
  split_ifs
  · exact ⟨dvd_add_self_right.2 hdvd, by omega⟩
  · exact ⟨hdvd, by omega⟩

/-- An instant of the range is one of the buckets, counted from the first. -/
theorem exists_bucket (hint : 0 < req.intervalSeconds) (hstep : 0 < req.step) {t : ℤ}
    (hstart : req.startTime ≤ t) (hdvd : req.step ∣ t) :
    ∃ i : ℕ, t = req.firstBucket + i * req.step := by
  obtain ⟨hfirst, hlt⟩ := firstBucket_spec hint hstep
  obtain ⟨k, hk⟩ := dvd_sub hdvd hfirst
  have hpos : 0 < k + 1 := by
    refine pos_of_mul_pos_right ?_ hstep.le
    rw [mul_add, ← hk]
    omega
  refine ⟨k.toNat, ?_⟩
  rw [Int.toNat_of_nonneg (by omega), mul_comm, ← hk]
  omega

/-- **The buckets** are the first instants of the range. -/
theorem buckets_isFirst (hreq : req.Valid) (hstep : 0 < req.step)
    (heq : req.step = req.intervalSeconds * second) :
    IsFirst req.withDefaults.maxJobs.toNat req.instants req.buckets where
  ascending := by
    refine List.pairwise_map.2 (List.pairwise_lt_range.imp ?_)
    intro i j hij
    have : (i : ℤ) * req.step < j * req.step := by gcongr
    omega
  mem := by
    intro t ht
    obtain ⟨i, hi, rfl⟩ := List.mem_map.1 ht
    have hend := ((lt_bucketCount hreq hstep.le).1 (List.mem_range.1 hi)).2
    have hstart := start_le_firstBucket hreq.interval
    have hnonneg : 0 ≤ (i : ℤ) * req.step := by positivity
    refine ⟨by omega, hend, heq ▸ ?_⟩
    exact dvd_add (firstBucket_spec hreq.interval hstep).1 (dvd_mul_left _ _)
  length_le := by
    rw [buckets, List.length_map, List.length_range]
    exact req.bucketCount_le
  first := by
    rintro t ⟨hstart, hend, hdvd⟩
    obtain ⟨i, rfl⟩ := exists_bucket hreq.interval hstep hstart (heq ▸ hdvd)
    by_cases hi : i < req.bucketCount
    · exact .inl (List.mem_map.2 ⟨i, List.mem_range.2 hi, rfl⟩)
    · have hlt : ∀ j < req.bucketCount, (j : ℤ) * req.step < i * req.step := by
        intro j hj
        have : j < i := by omega
        gcongr
      refine .inr ⟨?_, ?_⟩
      · -- the bucket after the last one is in the range, so only the limit keeps it out
        have hcount := (lt_bucketCount hreq hstep.le (i := req.bucketCount)).not.1 (lt_irrefl _)
        have hle : (req.bucketCount : ℤ) * req.step ≤ i * req.step := by
          have : req.bucketCount ≤ i := not_lt.1 hi
          gcongr
        have := req.bucketCount_le
        rw [buckets, List.length_map, List.length_range]
        omega
      · intro u hu
        obtain ⟨j, hj, rfl⟩ := List.mem_map.1 hu
        have := hlt j (List.mem_range.1 hj)
        omega

/-- Buckets are told apart by their keys. -/
theorem key_inj {t u : ℤ} (ht : second ∣ t) (hu : second ∣ u) (h : req.key t = req.key u) :
    t = u := by
  refine formatRFC3339_inj ht hu ?_
  simpa only [key, idempotencyKey, String.intercalate_cons_cons, String.intercalate_singleton,
    String.append_right_inj] using h

end BackfillRequest

/-- The text denotes the instant, to the second. -/
def Denotes (text : String) (t : ℤ) : Prop := second ∣ t ∧ formatRFC3339 t = text

theorem denotes_format {t : ℤ} (ht : second ∣ t) (u : ℤ) :
    Denotes (formatRFC3339 t) u ↔ u = t := by
  constructor
  · rintro ⟨hu, h⟩
    exact formatRFC3339_inj hu ht h
  · rintro rfl
    exact ⟨ht, rfl⟩

/-- The metadata of a job say from when to when its data are to be fetched. -/
def SpansFrom (interval : ℤ) (job : Job) : Prop :=
  ∃ start finish, metadataField job "start_time" = some (.str start) ∧
    metadataField job "end_time" = some (.str finish) ∧
    (∀ t, Denotes start t ↔ t = job.scheduledAt) ∧
    ∀ t, Denotes finish t ↔ t = job.scheduledAt + interval

theorem spansFrom_backfillJob {req : BackfillRequest} (hstep : second ∣ req.step) {bucket : ℤ}
    (hb : second ∣ bucket) : SpansFrom req.step (backfillJob req bucket).toJob :=
  ⟨_, _, rfl, rfl, denotes_format hb, denotes_format (dvd_add hb hstep)⟩

theorem planBackfillJobs_isFirst {req : BackfillRequest} (haccepted : req.Accepted)
    (hlag : req.paused = false) (hfits : req.intervalSeconds * second ≤ int64Max) :
    ∃ jobs,
      (∀ fuel, req.withDefaults.maxJobs.toNat + 2 ≤ fuel →
        planBackfillJobs fuel req = some (.ok jobs)) ∧
      IsFirst (if req.maxJobs ≤ 0 then 1000 else req.maxJobs.toNat) req.instants
        (jobs.map (·.scheduledAt)) ∧
      (jobs.map (·.idempotencyKey)).Nodup ∧
      ∀ job ∈ jobs, SpansFrom (req.intervalSeconds * second) job.toJob := by
  have hreq := haccepted.valid hlag
  have heq := BackfillRequest.step_eq hreq.interval hfits
  have hstep : 0 < req.step := by
    have := hreq.interval
    rw [heq]
    unfold second
    omega
  have hfirst := BackfillRequest.buckets_isFirst hreq hstep heq
  have hwhole : ∀ t ∈ req.buckets, second ∣ t :=
    fun t ht => (dvd_mul_left _ _).trans (hfirst.mem t ht).2.2
  have hmax : req.withDefaults.maxJobs.toNat =
      if req.maxJobs ≤ 0 then 1000 else req.maxJobs.toNat := by
    simp only [BackfillRequest.withDefaults]
    split_ifs <;> rfl
  refine ⟨req.buckets.map (backfillJob req.withDefaults), ?_, ?_, ?_, ?_⟩
  · intro fuel hfuel
    obtain ⟨result, hresult⟩ := Option.isSome_iff_exists.1 (planBackfillJobs_returns hstep.le hfuel)
    cases result with
    | error e => exact absurd hresult (haccepted fuel e)
    | ok jobs => rw [hresult, planBackfillJobs_eq hlag hresult]
  · rw [← hmax, List.map_map]
    exact (List.map_id req.buckets).symm ▸ hfirst
  · rw [List.map_map]
    refine List.Nodup.map_on ?_ (hfirst.ascending.imp ne_of_lt)
    intro t ht u hu hkey
    exact BackfillRequest.key_inj (hwhole t ht) (hwhole u hu) hkey
  · intro job hjob
    obtain ⟨t, ht, rfl⟩ := List.mem_map.1 hjob
    rw [← heq]
    exact spansFrom_backfillJob (heq ▸ dvd_mul_left _ _) (hwhole t ht)

theorem accepted_gap : gapRequest.Accepted :=
  .of_checks (by decide) (by decide) (by decide) (by decide)

/-- The two minutes of the gap are the first instants of its range. -/
theorem planBackfillJobs_isFirst_gap :
    gapRequest.Accepted ∧ gapRequest.paused = false ∧
      gapRequest.intervalSeconds * second ≤ int64Max ∧
      ∃ jobs, planBackfillJobs 1002 gapRequest = some (.ok jobs) ∧
        IsFirst 1000 gapRequest.instants (jobs.map (·.scheduledAt)) := by
  obtain ⟨jobs, hreturns, hfirst, -⟩ := planBackfillJobs_isFirst accepted_gap rfl (by decide)
  exact ⟨accepted_gap, rfl, by decide, jobs, hreturns 1002 le_rfl, hfirst⟩

/-! ## When the loop ends -/

/-- **The loop of an accepted request** ends within the passes that make or skip
    a bucket for each job and one more, or it never ends. -/
theorem planBackfillJobs_ends_iff {req : BackfillRequest} (haccepted : req.Accepted) :
    ((planBackfillJobs (req.withDefaults.maxJobs.toNat + 2) req).isSome ↔
      req.paused = true ∨ 0 ≤ req.step) ∧
    ((∃ fuel, (planBackfillJobs fuel req).isSome) ↔ req.paused = true ∨ 0 ≤ req.step) := by
  have hreturns : req.paused = true ∨ 0 ≤ req.step →
      (planBackfillJobs (req.withDefaults.maxJobs.toNat + 2) req).isSome := by
    rintro (hlag | hstep)
    · rw [planBackfillJobs, if_pos hlag]
      rfl
    · exact planBackfillJobs_returns hstep le_rfl
  have hends : ∀ fuel, (planBackfillJobs fuel req).isSome → req.paused = true ∨ 0 ≤ req.step := by
    intro fuel hsome
    cases hlag : req.paused with
    | true => exact .inl rfl
    | false =>
      obtain ⟨result, hresult⟩ := Option.isSome_iff_exists.1 hsome
      cases result with
      | error e => exact absurd hresult (haccepted fuel e)
      | ok jobs => exact .inr (step_nonneg_of_planBackfillJobs hlag hresult)
  exact ⟨⟨hends _, hreturns⟩, fun ⟨fuel, h⟩ => hends fuel h, fun h => ⟨_, hreturns h⟩⟩

theorem planBackfillJobs_ends_iff_gap :
    gapRequest.Accepted ∧ (planBackfillJobs 1002 gapRequest).isSome :=
  ⟨accepted_gap, (planBackfillJobs_ends_iff accepted_gap).1.2 (.inr (by decide))⟩

/-- An interval whose nanoseconds do not fit into an `int64`. -/
def overflowRequest : BackfillRequest := { gapRequest with intervalSeconds := 9223372037 }

theorem accepted_overflow : overflowRequest.Accepted :=
  .of_checks (by decide) (by decide) (by decide) (by decide)

/-- Its step is negative: the loop goes back in time from the start on. -/
theorem overflow_never_ends :
    overflowRequest.Accepted ∧ overflowRequest.paused = false ∧
      0 < overflowRequest.intervalSeconds ∧ overflowRequest.intervalSeconds ≤ int64Max ∧
      overflowRequest.startTime < overflowRequest.endTime ∧
      ∀ fuel, planBackfillJobs fuel overflowRequest = none := by
  refine ⟨accepted_overflow, rfl, by decide, by decide, by decide, ?_⟩
  intro fuel
  cases h : planBackfillJobs fuel overflowRequest with
  | none => rfl
  | some result =>
    cases result with
    | error e => exact absurd h (accepted_overflow fuel e)
    | ok jobs => exact absurd (step_nonneg_of_planBackfillJobs rfl h) (by decide)

end Aggregator.Scheduler
