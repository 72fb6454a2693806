/-
  The circuits of a breaker along a sequence of calls.

  Calls act on one circuit each: `Circuit.after` is what a call does to the
  circuit of its key, and `CircuitBreaker.stateFor_call` says that it does
  nothing else.  What a circuit looks like is then read off the calls on its
  key: `failuresSince` counts the failures recorded since the last success, the
  last closing or the creation of the circuit.

  * `Circuit.Inv.after`: one call keeps the invariant of a circuit;
  * `CircuitBreaker.circuits_inv`: after any calls, a closed circuit has exactly
    the failures recorded since then, fewer than the threshold, and a half-open
    one fewer passes than allowed; an open circuit is left only by an `Allow`
    from `openUntil` on; and calls keep to the circuit of their key.
-/
import Aggregator.Ratelimit.CircuitBreaker

namespace Aggregator.Ratelimit

open Aggregator.Go

variable {ε : Type}

/-- A call, with the error of its context, if that is done, and the reading of
    the clock. -/
inductive Call (ε : Type) where
  | allow (done : Option (Err ε)) (key : Key) (now : ℤ)
  | recordSuccess (key : Key)
  | recordFailure (key : Key) (kind : FailureKind) (now : ℤ)

def Call.key : Call ε → Key
  | allow _ key _ | recordSuccess key | recordFailure key _ _ => key

def Call.isSuccess : Call ε → Bool
  | recordSuccess _ => true
  | _ => false

def Call.isFailure : Call ε → Bool
  | recordFailure _ _ _ => true
  | _ => false

/-- The breaker after a call. -/
def CircuitBreaker.call (b : CircuitBreaker) : Call ε → CircuitBreaker
  | .allow done key now => (b.allow done key now).2
  | .recordSuccess key => b.recordSuccess key
  | .recordFailure key kind now => b.recordFailure key kind now

/-- The breaker after some calls. -/
def CircuitBreaker.calls (b : CircuitBreaker) (cs : List (Call ε)) : CircuitBreaker :=
  cs.foldl call b

/-! ## One circuit -/

/-- What a call does to the circuit of its key. -/
def Circuit.after (settings : CircuitSettings) (c : Circuit) : Call ε → Circuit
  | .allow (some _) _ _ => c
  | .allow none _ now =>
    if c.state = .open_ ∧ c.openUntil ≤ now then { c with state := .halfOpen, halfOpenPasses := 0 }
    else c
  | .recordSuccess _ =>
    if c.state = .halfOpen then
      if c.halfOpenPasses + 1 ≥ settings.halfOpenMaxPasses then
        ⟨.closed, 0, .empty, 0, c.halfOpenPasses + 1⟩
      else { c with halfOpenPasses := c.halfOpenPasses + 1 }
    else { c with failures := 0, lastFailure := .empty }
  | .recordFailure _ kind now =>
    if c.state = .halfOpen ∨ c.failures + 1 ≥ settings.failureThreshold then
      ⟨.open_, c.failures + 1, kind, now + settings.cooldown, 0⟩
    else { c with failures := c.failures + 1, lastFailure := kind }

/-- The circuit of a key after `n` failures that count for it. -/
structure Circuit.Inv (settings : CircuitSettings) (n : ℤ) (c : Circuit) : Prop where
  failures : c.state = .closed → c.failures = n
  threshold : c.state = .closed → c.failures < settings.failureThreshold
  passes : c.state = .halfOpen → c.halfOpenPasses < settings.halfOpenMaxPasses

namespace Circuit
variable {settings : CircuitSettings} {c : Circuit}

/-- Only an `Allow` from `openUntil` on leaves the open state. -/
theorem leaves_open {l : Call ε} (ho : c.state = .open_) (h : (c.after settings l).state ≠ .open_) :
    ∃ key now, l = .allow none key now ∧ c.openUntil ≤ now := by
  cases l with
  | allow done key now =>
    cases done with
    | some e => exact absurd ho h
    | none =>
      refine ⟨key, now, rfl, not_lt.1 fun hlt => h ?_⟩
      rw [after, if_neg (fun hc => not_lt.2 hc.2 hlt)]
      exact ho
  | recordSuccess key =>
    rw [after, if_neg (by simp [ho])] at h
    exact absurd ho h
  | recordFailure key kind now =>
    simp only [after] at h
    split at h
    · exact absurd rfl h
    · exact absurd ho h

/-- A failure leaves a circuit closed only if it was closed. -/
theorem closed_of_failure {key : Key} {kind : FailureKind} {now : ℤ}
    (h : (c.after settings (.recordFailure key kind now : Call ε)).state = .closed) :
    c.state = .closed ∧ c.failures + 1 < settings.failureThreshold := by
  simp only [after] at h
  split at h
  · cases h
  · rename_i hc
    rw [not_or, not_le] at hc
    exact ⟨h, hc.2⟩

/-- **One call keeps the invariant.** -/
theorem Inv.after {n : ℤ} (hn : c.Inv settings n) (ht : 0 < settings.failureThreshold)
    (hp : 0 < settings.halfOpenMaxPasses) (l : Call ε) :
    (c.after settings l).Inv settings
      (if l.isSuccess then 0 else if l.isFailure then n + 1 else n) := by
  cases l with
  | allow done key now =>
    change (c.after settings (.allow done key now)).Inv settings n
    cases done with
    | some e => exact hn
    | none =>
      simp only [Circuit.after]
      split
      · exact ⟨nofun, nofun, fun _ => hp⟩
      · exact hn
  | recordSuccess key =>
    change (c.after settings (.recordSuccess key : Call ε)).Inv settings 0
    simp only [Circuit.after]
    split
    · rename_i hh
      split
      · exact ⟨fun _ => rfl, fun _ => ht, nofun⟩
      · rename_i hc
        have hne : c.state ≠ .closed := by rw [hh]; decide
        exact ⟨fun h => absurd h hne, fun h => absurd h hne, fun _ => not_le.1 hc⟩
    · rename_i hh
      exact ⟨fun _ => rfl, fun _ => ht, fun h => absurd h hh⟩
  | recordFailure key kind now =>
    change (c.after settings (.recordFailure key kind now : Call ε)).Inv settings (n + 1)
    refine ⟨fun h => ?_, fun h => ?_, fun h => ?_⟩
    · obtain ⟨hc, hlt⟩ := closed_of_failure h
      rw [Circuit.after, if_neg (by simp [hc, hlt])]
      exact congrArg (· + 1) (hn.failures hc)
    · obtain ⟨hc, hlt⟩ := closed_of_failure h
      rw [Circuit.after, if_neg (by simp [hc, hlt])]
      exact hlt
    · -- a failure half-opens no circuit
      simp only [Circuit.after] at h
      split at h
      · cases h
      · rename_i hc
        exact absurd (Or.inl h) hc

end Circuit

/-! ## The breaker -/

namespace CircuitBreaker
variable {b : CircuitBreaker} {key : Key}

theorem stateFor_set (b : CircuitBreaker) (key' : Key) (c : Circuit) (key : Key) :
    (b.set key' c).stateFor key = if key'.string = key.string then c else b.stateFor key := by
  unfold set stateFor
  by_cases h : key.string = key'.string
  · simp [h]
  · simp [h, Ne.symm h]

theorem states_set_of_ne {key' : Key} (h : key'.string ≠ key.string) (b : CircuitBreaker)
    (c : Circuit) : (b.set key' c).states key.string = b.states key.string := by
  simp only [set, h.symm, ↓reduceIte]

/-- A call writes the circuit of its key, or nothing. -/
theorem call_eq (b : CircuitBreaker) (l : Call ε) :
    (b.call l = b ∧ (b.stateFor l.key).after b.settings l = b.stateFor l.key) ∨
      b.call l = b.set l.key ((b.stateFor l.key).after b.settings l) := by
  cases l with
  | allow done key now =>
    cases done with
    | some e => exact .inl ⟨rfl, rfl⟩
    | none =>
      refine .inr ?_
      simp only [call, allow, Circuit.after, Call.key]
      split
      · rename_i ho
        by_cases hlt : now < (b.stateFor key).openUntil
        · simp only [hlt, ↓reduceIte, not_le.2 hlt, and_false]
        · simp only [hlt, ↓reduceIte, ho, not_lt.1 hlt, and_self]
      · rename_i s ho
        have hne : ¬(b.stateFor key).state = .open_ := ho
        simp only [hne, false_and, ↓reduceIte]
  | recordSuccess key =>
    refine .inr ?_
    simp only [call, recordSuccess, Circuit.after, Call.key]
    by_cases hh : (b.stateFor key).state = .halfOpen
    · simp only [hh, ↓reduceIte]
      by_cases hp : (b.stateFor key).halfOpenPasses + 1 ≥ b.settings.halfOpenMaxPasses
      · simp only [hp, ↓reduceIte]
      · simp only [hp, ↓reduceIte]
    · simp only [hh, ↓reduceIte]
  | recordFailure key kind now =>
    refine .inr ?_
    simp only [call, recordFailure, Circuit.after, Call.key]
    by_cases ho : (b.stateFor key).state = .halfOpen ∨
        (b.stateFor key).failures + 1 ≥ b.settings.failureThreshold
    · simp only [ho, ↓reduceIte]
    · simp only [ho, ↓reduceIte]

theorem call_settings (b : CircuitBreaker) (l : Call ε) : (b.call l).settings = b.settings := by
  rcases call_eq b l with ⟨h, -⟩ | h <;> rw [h]
  rfl

theorem calls_settings (b : CircuitBreaker) (ls : List (Call ε)) :
    (b.calls ls).settings = b.settings := by
  induction ls generalizing b with
  | nil => rfl
  | cons l ls ih => exact (ih (b.call l)).trans (call_settings b l)

theorem stateFor_congr {key' : Key} (h : key'.string = key.string) :
    b.stateFor key' = b.stateFor key := by
  unfold stateFor; rw [h]

/-- **What a call does to the circuits.** -/
theorem stateFor_call (b : CircuitBreaker) (l : Call ε) (key : Key) :
    (b.call l).stateFor key =
      if l.key.string = key.string then (b.stateFor key).after b.settings l
      else b.stateFor key := by
  rcases call_eq b l with ⟨h, hid⟩ | h
  · rw [h]
    split
    · rename_i hk; rw [← stateFor_congr hk, hid]
    · rfl
  · rw [h, stateFor_set]
    split
    · rename_i hk; rw [stateFor_congr hk]
    · rfl

/-- An open circuit admits no call before it may be half-opened. -/
theorem openUntil_le_of_allow {done : Option (Err ε)} {now : ℤ} {state : CircuitState}
    (h : (b.allow done key now).1 = .ok state) (ho : (b.stateFor key).state = .open_) :
    (b.stateFor key).openUntil ≤ now := by
  cases done with
  | some err => cases h
  | none =>
    by_contra hlt
    simp only [allow, ho, not_le.1 hlt, ↓reduceIte] at h
    cases h

/-- A failure that opens a circuit opens it for the cooldown. -/
theorem openUntil_of_opens {kind : FailureKind} {t : ℤ} (hne : (b.stateFor key).state ≠ .open_)
    (ho : ((b.recordFailure key kind t).stateFor key).state = .open_) :
    ((b.recordFailure key kind t).stateFor key).openUntil = t + b.settings.cooldown := by
  have hst := stateFor_call b (.recordFailure key kind t : Call Unit) key
  change (b.recordFailure key kind t).stateFor key = _ at hst
  rw [hst, Call.key, if_pos rfl, Circuit.after] at ho ⊢
  split
  · rfl
  · rename_i hc
    rw [if_neg hc] at ho
    exact absurd ho hne

/-! ## Histories -/

/-- A success is recorded for `key`, or its circuit closes. -/
def resets (b : CircuitBreaker) (key : Key) (l : Call ε) : Bool :=
  (l.isSuccess && l.key.string = key.string) ||
    ((b.stateFor key).state ≠ .closed && ((b.call l).stateFor key).state = .closed)

/-- The failures recorded for `key` along some calls since the last one that
    resets its count; `n` is the count before them.  No call on a key comes
    before its circuit is created, so from `0` on the creation needs no case of
    its own. -/
def failuresSince (key : Key) : CircuitBreaker → ℤ → List (Call ε) → ℤ
  | _, n, [] => n
  | b, n, l :: ls =>
    failuresSince key (b.call l)
      (if b.resets key l then 0
        else if l.isFailure && l.key.string = key.string then n + 1 else n) ls

/-- A circuit is closed by a success only. -/
theorem isSuccess_of_closes {l : Call ε} (h : (b.stateFor key).state ≠ .closed)
    (h' : ((b.call l).stateFor key).state = .closed) : l.isSuccess ∧ l.key.string = key.string := by
  rw [stateFor_call] at h'
  split at h'
  · rename_i hk
    refine ⟨?_, hk⟩
    cases l with
    | allow done k now =>
      cases done with
      | some e => exact absurd h' h
      | none =>
        simp only [Circuit.after] at h'
        split at h'
        · cases h'
        · exact absurd h' h
    | recordSuccess k => rfl
    | recordFailure k kind now => exact absurd (Circuit.closed_of_failure h').1 h
  · exact absurd h' h

theorem resets_iff {l : Call ε} :
    b.resets key l ↔ l.isSuccess ∧ l.key.string = key.string := by
  simp only [resets, Bool.or_eq_true, Bool.and_eq_true, decide_eq_true_eq, ne_eq]
  constructor
  · rintro (h | ⟨h, h'⟩)
    · exact h
    · exact isSuccess_of_closes h h'
  · exact .inl

/-- **Any calls keep the invariant of every circuit.** -/
theorem inv_calls (ht : 0 < b.settings.failureThreshold) (hp : 0 < b.settings.halfOpenMaxPasses)
    {n : ℤ} (hn : (b.stateFor key).Inv b.settings n) (ls : List (Call ε)) :
    ((b.calls ls).stateFor key).Inv (b.calls ls).settings (failuresSince key b n ls) := by
  induction ls generalizing b n with
  | nil => exact hn
  | cons l ls ih =>
    have hset := call_settings b l
    refine ih (by rwa [hset]) (by rwa [hset]) ?_
    rw [hset, stateFor_call]
    by_cases hk : l.key.string = key.string
    · have hstep := hn.after ht hp l
      have hr : b.resets key l = l.isSuccess := by
        rw [Bool.eq_iff_iff, resets_iff]; simp [hk]
      simpa [hk, hr] using hstep
    · have hr : b.resets key l = false := by
        rw [← Bool.not_eq_true, resets_iff]; simp [hk]
      simpa [hk, hr] using hn

theorem new_threshold_pos (settings : CircuitSettings) :
    0 < (new settings).settings.failureThreshold := by
  simp only [new]; split <;> omega

theorem new_passes_pos (settings : CircuitSettings) :
    0 < (new settings).settings.halfOpenMaxPasses := by
  simp only [new]; split <;> omega

theorem circuits_inv (settings : CircuitSettings) (ls : List (Call ε)) :
    let b := (new settings).calls ls
    (∀ key : Key, (b.stateFor key).state = .closed →
      (b.stateFor key).failures = failuresSince key (new settings) 0 ls ∧
        (b.stateFor key).failures < b.settings.failureThreshold) ∧
    (∀ key : Key, (b.stateFor key).state = .halfOpen →
      (b.stateFor key).halfOpenPasses < b.settings.halfOpenMaxPasses) ∧
    (∀ (l : Call ε) (key : Key), (b.stateFor key).state = .open_ →
      ((b.call l).stateFor key).state ≠ .open_ →
        ∃ key' now, l = .allow none key' now ∧ key'.string = key.string ∧
          (b.stateFor key).openUntil ≤ now) ∧
    ∀ (l : Call ε) (key : Key), l.key.string ≠ key.string →
      (b.call l).states key.string = b.states key.string := by
  intro b
  have hinv : ∀ key, (b.stateFor key).Inv b.settings (failuresSince key (new settings) 0 ls) := by
    intro key
    have h₀ : ((new settings).stateFor key).Inv (new settings).settings 0 :=
      ⟨fun _ => rfl, fun _ => new_threshold_pos settings, nofun⟩
    exact inv_calls (new_threshold_pos settings) (new_passes_pos settings) h₀ ls
  refine ⟨fun key h => ⟨(hinv key).failures h, (hinv key).threshold h⟩,
    fun key h => (hinv key).passes h, fun l key ho hleft => ?_, fun l key hne => ?_⟩
  · rw [stateFor_call] at hleft
    split at hleft
    · rename_i hk
      obtain ⟨key', now, rfl, hle⟩ := Circuit.leaves_open ho hleft
      exact ⟨key', now, rfl, hk, hle⟩
    · exact absurd ho hleft
  · rcases call_eq b l with ⟨h, -⟩ | h
    · rw [h]
    · rw [h, states_set_of_ne hne]

end CircuitBreaker

end Aggregator.Ratelimit
