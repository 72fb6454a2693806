/-
  Concurrent callers of a circuit breaker.

  A caller asks `Allow` and, if it is admitted, records one outcome later.  The
  breaker locks its circuits, so the calls of any number of callers are a
  sequence.  `Callers` has the breaker, the admitted calls without an outcome, and
  two counts the breaker does not keep: how often a circuit has become half-open,
  and how many calls were admitted since it last did.

  * `Callers.Inv.step`: while probes keep to the free passes and none overlaps a
    call from before the half-opening, a half-open circuit has admitted as many
    calls as it has passes and outstanding calls;
  * `Callers.halfOpen_of_run`: in such a run a half-open circuit admits at most
    `HalfOpenMaxPasses` calls, and only their successes close it;
  * `Callers.halfOpen_admits_two`: `Allow` does not count the probes it admits,
    and a late success closes the circuit.
-/
import Aggregator.Lib.Run
import Aggregator.Ratelimit.CircuitHistory

namespace Aggregator.Ratelimit

open Aggregator.Go

variable {ε : Type}

/-- An admitted call: `phase` is the half-open phase it was admitted in, if the
    circuit was half-open. -/
structure Admission where
  caller : ℕ
  key : Key
  phase : Option ℕ
deriving DecidableEq

/-- How many of some admitted calls are for a key. -/
def countFor (as : List Admission) (key : String) : ℕ := as.countP (·.key.string = key)

theorem countFor_append (as : List Admission) (a : Admission) (key : String) :
    countFor (as ++ [a]) key = countFor as key + if a.key.string = key then 1 else 0 := by
  rw [countFor, List.countP_append, List.countP_singleton]
  simp only [countFor, decide_eq_true_eq]

theorem countFor_erase {as : List Admission} {a : Admission} (ha : a ∈ as) (key : String) :
    countFor as key = countFor (as.erase a) key + if a.key.string = key then 1 else 0 := by
  rw [countFor, (List.perm_cons_erase ha).countP_eq, List.countP_cons]
  simp only [countFor, decide_eq_true_eq]

structure Callers where
  breaker : CircuitBreaker
  outstanding : List Admission
  phase : String → ℕ
  admitted : String → ℕ

/-- What a caller does next. -/
inductive Event (ε : Type) where
  | allow (caller : ℕ) (done : Option (Err ε)) (key : Key) (now : ℤ)
  | success (caller : ℕ)
  | failure (caller : ℕ) (kind : FailureKind) (now : ℤ)

namespace Circuit
variable {settings : CircuitSettings} {c : Circuit} {key : Key}

/-- A success leaves a circuit half-open only with one more pass. -/
theorem halfOpen_of_success
    (h : (c.after settings (.recordSuccess key : Call ε)).state = .halfOpen) :
    c.state = .halfOpen ∧ (c.after settings (.recordSuccess key : Call ε)).halfOpenPasses =
      c.halfOpenPasses + 1 := by
  by_cases hc : c.state = .halfOpen
  · simp only [after, hc, ↓reduceIte] at h ⊢
    split at h
    · cases h
    · rename_i hp
      rw [if_neg hp]
      exact ⟨trivial, rfl⟩
  · simp only [after, hc, ↓reduceIte] at h

theorem not_halfOpen_of_failure {kind : FailureKind} {now : ℤ} :
    (c.after settings (.recordFailure key kind now : Call ε)).state ≠ .halfOpen := by
  intro h
  simp only [after] at h
  split at h
  · cases h
  · rename_i hc
    exact hc (.inl h)

end Circuit

namespace Callers

/-- A new breaker, without callers. -/
def start (settings : CircuitSettings) : Callers := ⟨.new settings, [], fun _ => 0, fun _ => 0⟩

/-- An admitted call waits for its outcome. -/
def letIn (s : Callers) (caller : ℕ) (key : Key) (state : CircuitState) (b : CircuitBreaker) :
    Callers :=
  if state = .halfOpen then
    -- an open circuit becomes half-open with this call
    let phase :=
      if (s.breaker.stateFor key).state = .open_ then s.phase key.string + 1
      else s.phase key.string
    let admitted :=
      if (s.breaker.stateFor key).state = .open_ then 1 else s.admitted key.string + 1
    { breaker := b
      outstanding := s.outstanding ++ [⟨caller, key, some phase⟩]
      phase := Function.update s.phase key.string phase
      admitted := Function.update s.admitted key.string admitted }
  else { s with breaker := b, outstanding := s.outstanding ++ [⟨caller, key, none⟩] }

/-- The outcome of an admitted call is recorded. -/
def recorded (s : Callers) (a : Admission) (l : Call ε) : Callers :=
  { s with breaker := s.breaker.call l, outstanding := s.outstanding.erase a }

def step (s : Callers) : Event ε → Option Callers
  | .allow caller done key now =>
    match s.breaker.allow done key now with
    | (.error _, b) => some { s with breaker := b }
    | (.ok state, b) => some (s.letIn caller key state b)
  | .success caller => do
    let a ← s.outstanding.find? (·.caller = caller)
    some (s.recorded a (.recordSuccess a.key : Call ε))
  | .failure caller kind now => do
    let a ← s.outstanding.find? (·.caller = caller)
    some (s.recorded a (.recordFailure a.key kind now : Call ε))

/-- How many calls for a key wait for their outcome. -/
def waiting (s : Callers) (key : String) : ℕ := countFor s.outstanding key

/-- A probe is only made when a pass is free, and the first one when no call for
    its key is outstanding. -/
def FreePass (s : Callers) : Event ε → Prop
  | .allow _ none key now =>
    ((s.breaker.stateFor key).state = .open_ → (s.breaker.stateFor key).openUntil ≤ now →
      s.waiting key.string = 0) ∧
    ((s.breaker.stateFor key).state = .halfOpen →
      (s.breaker.stateFor key).halfOpenPasses + s.waiting key.string <
        s.breaker.settings.halfOpenMaxPasses)
  | _ => True

/-- The circuit of a key, when it is half-open: its outstanding calls were
    admitted in this phase, which has admitted them and those that passed. -/
structure InvAt (s : Callers) (key : Key) : Prop where
  phase : ∀ a ∈ s.outstanding, a.key.string = key.string → a.phase = some (s.phase key.string)
  count : (s.admitted key.string : ℤ) =
    (s.breaker.stateFor key).halfOpenPasses + s.waiting key.string
  bound : (s.admitted key.string : ℤ) ≤ s.breaker.settings.halfOpenMaxPasses

structure Inv (s : Callers) : Prop where
  passes : 0 < s.breaker.settings.halfOpenMaxPasses
  halfOpen : ∀ key, (s.breaker.stateFor key).state = .halfOpen → s.InvAt key

/-! ## What a step does -/

/-- The steps as a relation: `Allow` refuses, admits to a circuit that is not
    open, or half-opens it; and an outcome is recorded. -/
inductive Steps (s : Callers) : Event ε → Callers → Prop
  | refuse {caller done key now b} : b.settings = s.breaker.settings →
      (∀ k, b.stateFor k = s.breaker.stateFor k) →
      Steps s (.allow caller done key now) { s with breaker := b }
  | passes {caller key now b} : b.settings = s.breaker.settings →
      (∀ k, b.stateFor k = s.breaker.stateFor k) →
      Steps s (.allow caller none key now)
        (s.letIn caller key (s.breaker.stateFor key).state b)
  | halfOpen {caller key now b} : b.settings = s.breaker.settings →
      (s.breaker.stateFor key).state = .open_ → (s.breaker.stateFor key).openUntil ≤ now →
      (∀ k, b.stateFor k = if key.string = k.string then
        { s.breaker.stateFor key with state := .halfOpen, halfOpenPasses := 0 }
        else s.breaker.stateFor k) →
      Steps s (.allow caller none key now) (s.letIn caller key .halfOpen b)
  | success {a} : a ∈ s.outstanding →
      Steps s (.success a.caller) (s.recorded a (.recordSuccess a.key : Call ε))
  | failure {a kind now} : a ∈ s.outstanding →
      Steps s (.failure a.caller kind now) (s.recorded a (.recordFailure a.key kind now : Call ε))

theorem steps_allow {s t : Callers} {caller : ℕ} {done : Option (Err ε)} {key : Key} {now : ℤ}
    (h : s.step (.allow caller done key now) = some t) :
    Steps s (.allow caller done key now) t := by
  have hself : ∀ k, (s.breaker.set key (s.breaker.stateFor key)).stateFor k =
      s.breaker.stateFor k := by
    intro k
    rw [CircuitBreaker.stateFor_set]
    split
    · rename_i hk
      exact CircuitBreaker.stateFor_congr hk
    · rfl
  simp only [step, CircuitBreaker.allow] at h
  cases done with
  | some err =>
    obtain rfl := Option.some.inj h
    exact .refuse rfl fun _ => rfl
  | none =>
    by_cases ho : (s.breaker.stateFor key).state = .open_
    · by_cases hlt : now < (s.breaker.stateFor key).openUntil
      · simp only [ho, hlt, ↓reduceIte, Option.some.injEq] at h
        subst h
        exact .refuse rfl hself
      · simp only [ho, hlt, ↓reduceIte, Option.some.injEq] at h
        subst h
        exact .halfOpen rfl ho (not_lt.1 hlt) fun k => CircuitBreaker.stateFor_set _ _ _ k
    · simp only [Option.some.injEq] at h
      subst h
      exact .passes rfl hself

theorem steps_of_step {s t : Callers} {e : Event ε} (h : s.step e = some t) : Steps s e t := by
  have hfind : ∀ {caller a}, s.outstanding.find? (·.caller = caller) = some a →
      a ∈ s.outstanding ∧ caller = a.caller := by
    intro caller a ha
    have hc := List.find?_some ha
    simp only [decide_eq_true_eq] at hc
    exact ⟨List.mem_of_find?_eq_some ha, hc.symm⟩
  cases e with
  | allow caller done key now => exact steps_allow h
  | success caller =>
    obtain ⟨a, ha, h'⟩ := Option.bind_eq_some_iff.1 h
    obtain ⟨hm, rfl⟩ := hfind ha
    obtain rfl := Option.some.inj h'
    exact .success hm
  | failure caller kind now =>
    obtain ⟨a, ha, h'⟩ := Option.bind_eq_some_iff.1 h
    obtain ⟨hm, rfl⟩ := hfind ha
    obtain rfl := Option.some.inj h'
    exact .failure hm

/-! ## One step -/

section
variable {s t : Callers} {key : Key}

/-- What does not touch the circuit of a key and its calls. -/
theorem InvAt.frame (h : s.InvAt key) (hs : t.breaker.settings = s.breaker.settings)
    (hc : t.breaker.stateFor key = s.breaker.stateFor key)
    (hm : ∀ a ∈ t.outstanding, a.key.string = key.string → a ∈ s.outstanding)
    (hw : t.waiting key.string = s.waiting key.string)
    (hp : t.phase key.string = s.phase key.string)
    (ha : t.admitted key.string = s.admitted key.string) : t.InvAt key where
  phase := fun a hat hk => by rw [hp]; exact h.phase a (hm a hat hk) hk
  count := by rw [ha, hc, hw]; exact h.count
  bound := by rw [ha, hs]; exact h.bound

@[simp]
theorem letIn_breaker (s : Callers) (caller : ℕ) (key : Key) (state : CircuitState)
    (b : CircuitBreaker) : (s.letIn caller key state b).breaker = b := by
  unfold letIn; split <;> rfl

/-- An admission touches the circuit of its key only. -/
theorem InvAt.letIn_ne {caller : ℕ} {key' : Key} {state : CircuitState} {b : CircuitBreaker}
    (h : s.InvAt key) (hs : b.settings = s.breaker.settings)
    (hc : b.stateFor key = s.breaker.stateFor key) (hne : key'.string ≠ key.string) :
    (s.letIn caller key' state b).InvAt key := by
  have hmem : ∀ (p : Option ℕ), ∀ a ∈ s.outstanding ++ [⟨caller, key', p⟩],
      a.key.string = key.string → a ∈ s.outstanding := by
    intro p a ha hk
    rcases List.mem_append.1 ha with ha | ha
    · exact ha
    · obtain rfl := List.mem_singleton.1 ha
      exact absurd hk hne
  have hcount : ∀ (p : Option ℕ),
      countFor (s.outstanding ++ [⟨caller, key', p⟩]) key.string = s.waiting key.string := by
    intro p
    rw [countFor_append, if_neg hne, Nat.add_zero, waiting]
  unfold letIn
  split
  · refine h.frame hs hc (hmem _) (hcount _) ?_ ?_
    · simp only [Function.update_of_ne hne.symm]
    · simp only [Function.update_of_ne hne.symm]
  · exact h.frame hs hc (hmem _) (hcount _) rfl rfl

/-- The first probe of a phase. -/
theorem InvAt.opens {caller : ℕ} {key' : Key} {b : CircuitBreaker} (hk : key'.string = key.string)
    (hs : b.settings = s.breaker.settings) (hpos : 0 < s.breaker.settings.halfOpenMaxPasses)
    (ho : (s.breaker.stateFor key').state = .open_) (hp : (b.stateFor key).halfOpenPasses = 0)
    (hw : s.waiting key'.string = 0) : (s.letIn caller key' .halfOpen b).InvAt key := by
  simp only [letIn, ho, ↓reduceIte]
  refine ⟨fun a ha hak => ?_, ?_, ?_⟩
  · rcases List.mem_append.1 ha with ha | ha
    · have hnone := List.countP_eq_zero.1 hw a ha
      simp only [hak, hk, decide_true, not_true_eq_false] at hnone
    · obtain rfl := List.mem_singleton.1 ha
      simp only [← hk, Function.update_self]
  · simp only [waiting] at hw ⊢
    simp only [countFor_append, hp, ← hk, hw, Function.update_self, ↓reduceIte]
    omega
  · simp only [← hk, Function.update_self, hs]
    omega

/-- A further probe, which takes a free pass. -/
theorem InvAt.probe {caller : ℕ} {key' : Key} {b : CircuitBreaker} (hk : key'.string = key.string)
    (h : s.InvAt key) (hs : b.settings = s.breaker.settings)
    (hh : (s.breaker.stateFor key').state = .halfOpen)
    (hc : b.stateFor key = s.breaker.stateFor key)
    (hfree : (s.breaker.stateFor key').halfOpenPasses + s.waiting key'.string <
      s.breaker.settings.halfOpenMaxPasses) : (s.letIn caller key' .halfOpen b).InvAt key := by
  have hcount := h.count
  rw [CircuitBreaker.stateFor_congr hk, hk] at hfree
  simp only [letIn, hh, reduceCtorEq, ↓reduceIte]
  refine ⟨fun a ha hak => ?_, ?_, ?_⟩
  · simp only [← hk, Function.update_self]
    rcases List.mem_append.1 ha with ha | ha
    · rw [hk]
      exact h.phase a ha hak
    · obtain rfl := List.mem_singleton.1 ha
      rfl
  · simp only [waiting] at hcount ⊢
    simp only [countFor_append, hc, hk, Function.update_self, ↓reduceIte]
    push_cast
    omega
  · simp only [hk, Function.update_self, hs]
    push_cast
    omega

theorem stateFor_recorded {a : Admission} {l : Call ε} (hl : l.key = a.key)
    (hk : a.key.string = key.string) : (s.recorded a l).breaker.stateFor key =
      (s.breaker.stateFor key).after s.breaker.settings l := by
  rw [recorded, CircuitBreaker.stateFor_call, hl, if_pos hk]

theorem stateFor_recorded_of_ne {a : Admission} {l : Call ε} (hl : l.key = a.key)
    (hk : a.key.string ≠ key.string) :
    (s.recorded a l).breaker.stateFor key = s.breaker.stateFor key := by
  rw [recorded, CircuitBreaker.stateFor_call, hl, if_neg hk]

/-- An outcome of another key. -/
theorem InvAt.recorded_ne {a : Admission} {l : Call ε} (h : s.InvAt key) (ha : a ∈ s.outstanding)
    (hl : l.key = a.key) (hne : a.key.string ≠ key.string) : (s.recorded a l).InvAt key := by
  have hcount := countFor_erase ha key.string
  rw [if_neg hne] at hcount
  exact h.frame (CircuitBreaker.call_settings _ _) (stateFor_recorded_of_ne hl hne)
    (fun _ hm _ => List.mem_of_mem_erase hm) hcount.symm rfl rfl

/-- An outcome only matters to the circuit of its key. -/
theorem Inv.recorded {a : Admission} {l : Call ε} (h : s.Inv) (ha : a ∈ s.outstanding)
    (hl : l.key = a.key)
    (hown : ∀ key, a.key.string = key.string →
      ((s.breaker.stateFor key).after s.breaker.settings l).state = .halfOpen →
        (s.recorded a l).InvAt key) : (s.recorded a l).Inv := by
  refine ⟨by rw [Callers.recorded, CircuitBreaker.call_settings]; exact h.passes, fun key hh => ?_⟩
  by_cases hk : a.key.string = key.string
  · rw [stateFor_recorded hl hk] at hh
    exact hown key hk hh
  · rw [stateFor_recorded_of_ne hl hk] at hh
    exact (h.halfOpen key hh).recorded_ne ha hl hk

/-- A success that leaves the circuit half-open is one more pass. -/
theorem InvAt.pass {a : Admission} (h : s.InvAt key) (ha : a ∈ s.outstanding)
    (hk : a.key.string = key.string)
    (hp : ((s.recorded a (.recordSuccess a.key : Call ε)).breaker.stateFor key).halfOpenPasses =
      (s.breaker.stateFor key).halfOpenPasses + 1) :
    (s.recorded a (.recordSuccess a.key : Call ε)).InvAt key where
  phase := fun _ ha' hk' => h.phase _ (List.mem_of_mem_erase ha') hk'
  count := by
    have hadm := h.count
    have hcount := countFor_erase ha key.string
    rw [if_pos hk] at hcount
    simp only [recorded, waiting] at hp hadm ⊢
    omega
  bound := by
    rw [recorded, CircuitBreaker.call_settings]
    exact h.bound

/-- **One step keeps the invariant**, when its probe takes a free pass. -/
theorem Inv.step {e : Event ε} (h : s.Inv) (hfree : s.FreePass e) (ht : Steps s e t) : t.Inv := by
  cases ht with
  | refuse hset hst =>
    refine ⟨hset ▸ h.passes, fun key hh => ?_⟩
    rw [hst] at hh
    exact (h.halfOpen key hh).frame hset (hst key) (fun _ ha _ => ha) rfl rfl rfl
  | @passes caller key' now b hset hst =>
    refine ⟨by rw [letIn_breaker, hset]; exact h.passes, fun key hh => ?_⟩
    rw [letIn_breaker, hst] at hh
    have hi := h.halfOpen key hh
    by_cases hk : key'.string = key.string
    · rw [← CircuitBreaker.stateFor_congr hk] at hh
      rw [hh]
      exact .probe hk hi hset hh (hst key) (hfree.2 hh)
    · exact hi.letIn_ne hset (hst key) hk
  | @halfOpen caller key' now b hset ho hle hst =>
    refine ⟨by rw [letIn_breaker, hset]; exact h.passes, fun key hh => ?_⟩
    rw [letIn_breaker] at hh
    have hk' := hst key
    by_cases hk : key'.string = key.string
    · rw [if_pos hk] at hk'
      exact .opens hk hset h.passes ho (by rw [hk']) (hfree.1 ho hle)
    · rw [if_neg hk] at hk'
      rw [hk'] at hh
      exact (h.halfOpen key hh).letIn_ne hset hk' hk
  | @success a ha =>
    refine h.recorded ha rfl fun key hk hh => ?_
    obtain ⟨hs, hp⟩ := Circuit.halfOpen_of_success hh
    exact (h.halfOpen key hs).pass ha hk (by rw [stateFor_recorded rfl hk, hp])
  | @failure a kind now ha =>
    exact h.recorded ha rfl fun key hk hh => absurd hh Circuit.not_halfOpen_of_failure

/-- Only a success for its key closes a half-open circuit, or counts as a pass. -/
theorem success_of_pass {e : Event ε} (ht : Steps s e t)
    (hh : (s.breaker.stateFor key).state = .halfOpen)
    (hp : (t.breaker.stateFor key).state = .closed ∨ (t.breaker.stateFor key).state = .halfOpen ∧
      (s.breaker.stateFor key).halfOpenPasses < (t.breaker.stateFor key).halfOpenPasses) :
    ∃ a ∈ s.outstanding, e = .success a.caller ∧ a.key.string = key.string := by
  have hchanged : t.breaker.stateFor key ≠ s.breaker.stateFor key := by
    intro heq
    rw [heq, hh] at hp
    rcases hp with hp | ⟨-, hp⟩
    · cases hp
    · exact lt_irrefl _ hp
  cases ht with
  | refuse _ hst => exact absurd (hst key) hchanged
  | passes _ hst =>
    rw [letIn_breaker] at hchanged
    exact absurd (hst key) hchanged
  | @halfOpen caller key' now b _ ho _ hst =>
    rw [letIn_breaker, hst] at hchanged
    by_cases hk : key'.string = key.string
    · rw [CircuitBreaker.stateFor_congr hk, hh] at ho
      cases ho
    · exact absurd (if_neg hk) hchanged
  | @success a ha =>
    refine ⟨a, ha, rfl, ?_⟩
    by_contra hk
    exact hchanged (stateFor_recorded_of_ne rfl hk)
  | @failure a kind now ha =>
    by_cases hk : a.key.string = key.string
    · -- a failure opens the half-open circuit
      rw [stateFor_recorded rfl hk, Circuit.after, if_pos (.inl hh)] at hp
      rcases hp with hp | ⟨hp, -⟩ <;> cases hp
    · exact absurd (stateFor_recorded_of_ne rfl hk) hchanged

end

/-! ## Runs -/

theorem inv_start (settings : CircuitSettings) : (start settings).Inv :=
  ⟨CircuitBreaker.new_passes_pos settings, nofun⟩

/-- **A half-open circuit**, in a run whose probes each take a free pass: it has
    admitted at most `HalfOpenMaxPasses` calls, and only successes of calls it
    admitted in this phase count as a pass or close it. -/
theorem halfOpen_of_run {settings : CircuitSettings} {es : List (Event ε)} {s : Callers} {key : Key}
    (h : Run (Restrict (fun s e t => s.step e = some t) FreePass) (start settings) es s)
    (hh : (s.breaker.stateFor key).state = .halfOpen) :
    (s.admitted key.string : ℤ) ≤ s.breaker.settings.halfOpenMaxPasses ∧
    ∀ (e : Event ε) (t : Callers), s.step e = some t →
      (t.breaker.stateFor key).state = .closed ∨ (t.breaker.stateFor key).state = .halfOpen ∧
        (s.breaker.stateFor key).halfOpenPasses < (t.breaker.stateFor key).halfOpenPasses →
      ∃ a ∈ s.outstanding, e = .success a.caller ∧ a.key.string = key.string ∧
        a.phase = some (s.phase key.string) := by
  have hinv : s.Inv :=
    h.inv (fun _ _ _ hi hs => hi.step hs.1 (steps_of_step hs.2)) (inv_start settings)
  have hi := hinv.halfOpen key hh
  refine ⟨hi.bound, fun e t ht hp => ?_⟩
  obtain ⟨a, ha, he, hk⟩ := success_of_pass (steps_of_step ht) hh hp
  exact ⟨a, ha, he, hk, hi.phase a ha hk⟩

instance (s : Callers) : (e : Event ε) → Decidable (s.FreePass e)
  | .allow _ none _ _ => inferInstanceAs (Decidable ((_ → _ → _) ∧ (_ → _)))
  | .allow _ (some _) _ _ | .success _ | .failure _ _ _ => isTrue trivial

def klines : Key := ⟨"binance", "klines", "kline"⟩

/-- A circuit that a failure opens, for ten nanoseconds. -/
def brittle (passes : ℤ) : CircuitSettings := ⟨1, 10, passes⟩

/-- Two probes at once, with two passes; the first of them succeeds. -/
theorem halfOpen_of_run_two :
    ∃ s : Callers, (s.breaker.stateFor klines).state = .halfOpen ∧ s.waiting klines.string = 1 ∧
      (s.admitted klines.string : ℤ) ≤ s.breaker.settings.halfOpenMaxPasses := by
  obtain ⟨s, hs, hv⟩ := Option.map_eq_some_iff.1 (show
    (List.foldlM (fun (s : Callers) (e : Event Unit) => if s.FreePass e then s.step e else none)
      (start (brittle 2)) [.allow 0 none klines 0, .failure 0 .timeout 0, .allow 1 none klines 10,
        .allow 2 none klines 10, .success 1]).map
      (fun s => ((s.breaker.stateFor klines).state, s.waiting klines.string)) = some (.halfOpen, 1) by
    decide +kernel)
  obtain ⟨hh, hw⟩ := Prod.mk.inj hv
  exact ⟨s, hh, hw, (halfOpen_of_run (Run.of_foldlM_restrict hs) hh).1⟩

/-- With one pass, a half-open circuit admits two calls; and the late success of
    a call from before it opened closes it. -/
theorem halfOpen_admits_two :
    ∃ s t : Callers, (∃ es, Run (fun s (e : Event Unit) t => s.step e = some t)
        (start (brittle 1)) es s) ∧
      (s.breaker.stateFor klines).state = .halfOpen ∧
      s.breaker.settings.halfOpenMaxPasses < s.admitted klines.string ∧
      (∃ a ∈ s.outstanding, s.step (.success a.caller : Event Unit) = some t ∧ a.key = klines ∧
        a.phase = none) ∧ (t.breaker.stateFor klines).state = .closed := by
  obtain ⟨s, hs, hv⟩ := Option.map_eq_some_iff.1 (show
    (List.foldlM (fun (s : Callers) (e : Event Unit) => s.step e)
      (start (brittle 1)) [.allow 0 none klines 0, .allow 1 none klines 0, .failure 0 .timeout 0,
        .allow 2 none klines 10, .allow 3 none klines 10]).map
      (fun s => ((s.breaker.stateFor klines).state, s.admitted klines.string,
        s.breaker.settings.halfOpenMaxPasses, s.outstanding.head?,
        (s.step (.success 1 : Event Unit)).map (fun t => (t.breaker.stateFor klines).state))) =
      some (.halfOpen, 2, 1, some ⟨1, klines, none⟩, some .closed) by
    decide +kernel)
  simp only [Prod.mk.injEq] at hv
  obtain ⟨hh, ha, hm, ho, hc⟩ := hv
  obtain ⟨t, ht, hc⟩ := Option.map_eq_some_iff.1 hc
  exact ⟨s, t, ⟨_, Run.of_foldlM hs⟩, hh, by rw [ha, hm]; decide,
    ⟨_, List.mem_of_mem_head? ho, ht, rfl, rfl⟩, hc⟩

end Callers

end Aggregator.Ratelimit
