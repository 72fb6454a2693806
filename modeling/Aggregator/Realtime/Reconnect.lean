/-
  Reconnecting to a stream (`internal/realtime/reconnect.go`).

  The state of a stream counts the attempts to reconnect since it was connected, and
  the delay before the next one doubles with each, up to a maximum.  The delay is
  computed as a `float64` and converted to an `int64`: what the conversion gives for a
  product that does not fit depends on the platform, so the comparison with the
  maximum is made for a negative result as well.

  * `backoffDelay_eq`: on every platform the delay is the exact product, or the
    maximum if that is smaller;
  * `backoffDelay_bounded`: the delay lies between the two bounds and does not
    decrease with the attempts;
  * `delays_sorted`: nor do the delays of a stream that stays down;
  * `isStale_run`, `shouldHeartbeat_run`: what makes a stream stale and a heartbeat due.
-/
import Aggregator.Go.Time
import Aggregator.Realtime.Keys

namespace Aggregator.Realtime

open Aggregator.Go

/-- What a platform makes of a `float64` that does not fit into an `int64`: amd64 has
    the smallest one, arm64 saturates. -/
structure Platform where
  overflow : ℚ → ℤ
  overflow_eq : ∀ q, overflow q = int64Min ∨ overflow q = int64Max

namespace Platform

/-- `int64(f)`. -/
def toInt64 (p : Platform) (q : ℚ) : ℤ :=
  let n := if 0 ≤ q then ⌊q⌋ else ⌈q⌉
  if int64Min ≤ n ∧ n ≤ int64Max then n else p.overflow q

/-- A whole number is converted to itself, if it fits. -/
theorem toInt64_intCast (p : Platform) {n : ℤ} (h₀ : 0 ≤ n) :
    n ≤ int64Max ∧ p.toInt64 n = n ∨
      int64Max < n ∧ (p.toInt64 n = int64Min ∨ p.toInt64 n = int64Max) := by
  have hmin : int64Min ≤ n := h₀.trans' (by decide)
  have hq : (0 : ℚ) ≤ n := by exact_mod_cast h₀
  unfold toInt64
  simp only [hq, ↓reduceIte, Int.floor_intCast, hmin, true_and]
  rcases le_or_gt n int64Max with h | h
  · rw [if_pos h]
    exact .inl ⟨h, rfl⟩
  · rw [if_neg (not_le.2 h)]
    exact .inr ⟨h, p.overflow_eq n⟩

end Platform

/-- The durations are `int64`s. -/
structure ReconnectManager where
  heartbeatInterval : ℤ
  staleAfter : ℤ
  backoffMin : ℤ
  backoffMax : ℤ
  int64s : ∀ d ∈ [heartbeatInterval, staleAfter, backoffMin, backoffMax],
    int64Min ≤ d ∧ d ≤ int64Max

/-- A field of the manager, or the default if it is not set. -/
def orDefault (d default : ℤ) : ℤ := if d ≤ 0 then default else d

theorem orDefault_pos {d default : ℤ} (h : 0 < default) : 0 < orDefault d default := by
  unfold orDefault
  split <;> omega

namespace ReconnectManager

def minDelay (m : ReconnectManager) : ℤ := orDefault m.backoffMin second

def maxDelay (m : ReconnectManager) : ℤ := orDefault m.backoffMax minute

def backoffDelay (p : Platform) (m : ReconnectManager) (attempt : ℤ) : ℤ :=
  let attempt := if attempt < 1 then 1 else attempt
  let multiplier : ℚ := 2 ^ (attempt - 1).toNat
  let delay := p.toInt64 (m.minDelay * multiplier)
  if delay > m.maxDelay ∨ delay < 0 then m.maxDelay else delay

section
variable (p : Platform) (m : ReconnectManager)

theorem minDelay_pos : 0 < m.minDelay := orDefault_pos (by decide)

theorem maxDelay_pos : 0 < m.maxDelay := orDefault_pos (by decide)

theorem maxDelay_le : m.maxDelay ≤ int64Max := by
  unfold maxDelay orDefault
  split
  · decide
  · exact (m.int64s m.backoffMax (by simp)).2

/-- **The delay on every platform**: a product that does not fit exceeds the
    maximum, and is read as a negative number or as one that is no smaller than it. -/
theorem backoffDelay_eq (attempt : ℤ) :
    m.backoffDelay p attempt = min (m.minDelay * 2 ^ (attempt - 1).toNat) m.maxDelay := by
  have hattempt : ((if attempt < 1 then 1 else attempt) - 1).toNat = (attempt - 1).toNat := by
    split <;> omega
  have hcast : (m.minDelay : ℚ) * 2 ^ (attempt - 1).toNat =
      ((m.minDelay * 2 ^ (attempt - 1).toNat : ℤ) : ℚ) := by
    push_cast
    rfl
  have hpos : 0 ≤ m.minDelay * 2 ^ (attempt - 1).toNat :=
    mul_nonneg m.minDelay_pos.le (by positivity)
  have hmax := m.maxDelay_le
  have hmax₀ := m.maxDelay_pos
  simp only [backoffDelay, hattempt, hcast]
  generalize m.minDelay * 2 ^ (attempt - 1).toNat = product at hpos ⊢
  rcases p.toInt64_intCast hpos with ⟨hfits, h⟩ | ⟨hfits, h | h⟩
  · rw [h]
    split <;> omega
  · rw [h, if_pos (.inr (by decide))]
    omega
  · rw [h]
    split <;> omega

theorem backoffDelay_mono : Monotone (m.backoffDelay p) := by
  intro a b hab
  rw [backoffDelay_eq, backoffDelay_eq]
  refine min_le_min_right _ (mul_le_mul_of_nonneg_left ?_ m.minDelay_pos.le)
  exact pow_le_pow_right₀ (by decide) (by omega)

/-- **The delay lies between the two bounds**, after the defaults, and does not
    decrease with the attempts. -/
theorem backoffDelay_bounded :
    (∀ attempt, min m.minDelay m.maxDelay ≤ m.backoffDelay p attempt ∧
      m.backoffDelay p attempt ≤ m.maxDelay) ∧
    ∀ a b, a ≤ b → m.backoffDelay p a ≤ m.backoffDelay p b := by
  refine ⟨fun attempt => ?_, fun a b hab => backoffDelay_mono p m hab⟩
  rw [backoffDelay_eq]
  have hpow : (1 : ℤ) ≤ 2 ^ (attempt - 1).toNat := one_le_pow₀ (by decide)
  refine ⟨min_le_min_right _ ?_, min_le_right _ _⟩
  exact le_mul_of_one_le_right m.minDelay_pos.le hpow

end

end ReconnectManager

/-! ## A stream -/

inductive StreamStatus where
  | connected
  | heartbeatFailed
  | disconnected
deriving DecidableEq, Repr

/-- A time that is not set is the zero time. -/
structure StreamState where
  exchange : String
  stream : String
  status : StreamStatus
  attempt : ℤ
  lastConnectedAt : ℤ
  lastMessageAt : ℤ
  lastHeartbeatAt : ℤ
  lagSeconds : ℤ
  lastError : String
  subscriptions : ℕ
  updatedAt : ℤ
deriving DecidableEq, Repr

namespace ReconnectManager

def connected (now : ℤ) (exchange stream : String) (subscriptions : ℕ) : StreamState where
  exchange := normalizeExchange exchange
  stream := normalizeStream stream
  status := .connected
  attempt := 0
  lastConnectedAt := now
  lastMessageAt := 0
  lastHeartbeatAt := now
  lagSeconds := 0
  lastError := ""
  subscriptions := subscriptions
  updatedAt := now

def recordMessage (now : ℤ) (s : StreamState) (eventTime : ℤ) : StreamState :=
  let eventTime := if isZero eventTime then now else eventTime
  { s with
    status := .connected
    lastMessageAt := now
    lagSeconds := max 0 (float64ToInt64 (seconds (timeSub now eventTime)))
    updatedAt := now }

/-- `Heartbeat`, `err` being the error of the ping. -/
def heartbeat (now : ℤ) (s : StreamState) (err : Option String) : StreamState :=
  match err with
  | some err => { s with status := .heartbeatFailed, lastError := err, updatedAt := now }
  | none => { s with status := .connected, lastHeartbeatAt := now, updatedAt := now }

/-- `Disconnected`: the state and the delay before the next attempt. -/
def disconnected (p : Platform) (m : ReconnectManager) (now : ℤ) (s : StreamState)
    (err : Option String) : StreamState × ℤ :=
  let s := { s with
    attempt := wrap64 (s.attempt + 1)
    status := .disconnected
    updatedAt := now
    lastError := err.getD s.lastError }
  (s, m.backoffDelay p s.attempt)

def shouldHeartbeat (m : ReconnectManager) (now : ℤ) (s : StreamState) : Bool :=
  isZero s.lastHeartbeatAt ||
    !(now < timeAdd s.lastHeartbeatAt (orDefault m.heartbeatInterval (15 * second)))

def isStale (m : ReconnectManager) (now : ℤ) (s : StreamState) : Bool :=
  let last := if isZero s.lastMessageAt then s.lastConnectedAt else s.lastMessageAt
  isZero last || !(now < timeAdd last (orDefault m.staleAfter (30 * second)))

end ReconnectManager

/-- What happens to a stream until it is connected anew. -/
inductive StreamEvent where
  | message (now eventTime : ℤ)
  | heartbeat (now : ℤ) (err : Option String)
  | disconnect (now : ℤ) (err : Option String)

namespace ReconnectManager
variable (p : Platform) (m : ReconnectManager)

/-- The delays a stream is given. -/
def delays (s : StreamState) : List StreamEvent → List ℤ
  | [] => []
  | .message now eventTime :: events => delays (recordMessage now s eventTime) events
  | .heartbeat now err :: events => delays (heartbeat now s err) events
  | .disconnect now err :: events =>
    (m.disconnected p now s err).2 :: delays (m.disconnected p now s err).1 events

theorem heartbeat_attempt (now : ℤ) (s : StreamState) (err : Option String) :
    (heartbeat now s err).attempt = s.attempt := by
  cases err <;> rfl

theorem disconnected_attempt {s : StreamState} (h₀ : 0 ≤ s.attempt) (h₁ : s.attempt < int64Max)
    (now : ℤ) (err : Option String) :
    (m.disconnected p now s err).1.attempt = s.attempt + 1 :=
  wrap64_of_mem (by unfold int64Min; omega) (by omega)

/-- Each delay is one for more attempts than the one before. -/
theorem exists_attempts {events : List StreamEvent} {s : StreamState} (h₀ : 0 ≤ s.attempt)
    (h₁ : s.attempt + events.length ≤ int64Max) :
    ∃ attempts : List ℤ, m.delays p s events = attempts.map (m.backoffDelay p) ∧
      (s.attempt :: attempts).IsChain (· < ·) := by
  induction events generalizing s with
  | nil => exact ⟨[], rfl, .singleton _⟩
  | cons event events ih =>
    rw [List.length_cons, Nat.cast_succ] at h₁
    cases event with
    | message now eventTime =>
      exact ih (s := recordMessage now s eventTime) h₀ (by simp only [recordMessage]; omega)
    | heartbeat now err =>
      rw [delays, ← heartbeat_attempt now s err] at *
      exact ih h₀ (by omega)
    | disconnect now err =>
      have hattempt := disconnected_attempt p m h₀ (by omega) now err
      obtain ⟨attempts, hdelays, hchain⟩ := ih (s := (m.disconnected p now s err).1)
        (by omega) (by omega)
      refine ⟨(m.disconnected p now s err).1.attempt :: attempts, ?_, ?_⟩
      · rw [delays, hdelays]
        rfl
      · exact List.isChain_cons_cons.2 ⟨by omega, hchain⟩

/-- **The delays of a stream that stays down** do not decrease, whatever messages and
    heartbeats come in between. -/
theorem delays_sorted {events : List StreamEvent} {s : StreamState} (h₀ : 0 ≤ s.attempt)
    (h₁ : s.attempt + events.length ≤ int64Max) :
    (m.delays p s events).Pairwise (· ≤ ·) := by
  obtain ⟨attempts, hdelays, hchain⟩ := exists_attempts p m h₀ h₁
  have hattempts := (List.isChain_iff_pairwise.1 hchain).of_cons
  rw [hdelays, List.pairwise_map]
  exact hattempts.imp fun hlt => backoffDelay_mono p m hlt.le

/-! ## Streams that are silent -/

def step (s : StreamState) : StreamEvent → StreamState
  | .message now eventTime => recordMessage now s eventTime
  | .heartbeat now err => heartbeat now s err
  | .disconnect now err => (m.disconnected p now s err).1

/-- The time of an event that sets `lastMessageAt`. -/
def messageTime : StreamEvent → Option ℤ
  | .message now _ => some now
  | _ => none

/-- The time of an event that sets `lastHeartbeatAt`. -/
def heartbeatTime : StreamEvent → Option ℤ
  | .heartbeat now none => some now
  | _ => none

/-- A field that some events set to their time has the time of the last of them. -/
theorem foldl_step_field {field : StreamState → ℤ} {time : StreamEvent → Option ℤ}
    (h : ∀ s event, field (m.step p s event) = (time event).getD (field s))
    (events : List StreamEvent) (s : StreamState) :
    field (events.foldl (m.step p) s) = (events.filterMap time).getLastD (field s) := by
  induction events generalizing s with
  | nil => rfl
  | cons event events ih =>
    rw [List.foldl_cons, ih, h]
    cases htime : time event with
    | none => rw [List.filterMap_cons_none htime, Option.getD_none]
    | some now => rw [List.filterMap_cons_some htime, Option.getD_some, List.getLastD_cons]

theorem step_lastMessageAt (s : StreamState) (event : StreamEvent) :
    (m.step p s event).lastMessageAt = (messageTime event).getD s.lastMessageAt := by
  rcases event with _ | ⟨_, _ | _⟩ | _ <;> rfl

theorem step_lastHeartbeatAt (s : StreamState) (event : StreamEvent) :
    (m.step p s event).lastHeartbeatAt = (heartbeatTime event).getD s.lastHeartbeatAt := by
  rcases event with _ | ⟨_, _ | _⟩ | _ <;> rfl

theorem step_lastConnectedAt (s : StreamState) (event : StreamEvent) :
    (m.step p s event).lastConnectedAt = s.lastConnectedAt := by
  rcases event with _ | ⟨_, _ | _⟩ | _ <;> rfl

section
variable {t₀ : ℤ} {events : List StreamEvent} (exchange stream : String) (subscriptions : ℕ)

theorem getLastD_ne_zero {times : List ℤ} (ht₀ : t₀ ≠ 0) (htimes : ∀ t ∈ times, t ≠ 0) :
    times.getLastD t₀ ≠ 0 := by
  have hall : ∀ t ∈ t₀ :: times, t ≠ 0 := List.forall_mem_cons.2 ⟨ht₀, htimes⟩
  exact hall _ List.getLastD_mem_cons

theorem due_iff {last now wait : ℤ} (h : last ≠ 0) :
    (isZero last || !decide (now < timeAdd last wait)) = true ↔ timeAdd last wait ≤ now := by
  simp [isZero, h]

/-- **A stream is stale** if its last message is long ago, or the connection if there was
    none; heartbeats do not count. -/
theorem isStale_run (ht₀ : t₀ ≠ 0) (htimes : ∀ t ∈ events.filterMap messageTime, t ≠ 0) (now : ℤ) :
    m.isStale now (events.foldl (m.step p) (connected t₀ exchange stream subscriptions)) ↔
      timeAdd ((events.filterMap messageTime).getLastD t₀) (orDefault m.staleAfter (30 * second)) ≤
        now := by
  set s := events.foldl (m.step p) (connected t₀ exchange stream subscriptions)
  have hmessage : s.lastMessageAt = (events.filterMap messageTime).getLastD 0 :=
    foldl_step_field p m (step_lastMessageAt p m) events _
  have hconnected : s.lastConnectedAt = t₀ := by
    refine List.foldlRecOn (motive := fun s => s.lastConnectedAt = t₀) events (m.step p) ?_ ?_
    · rfl
    · intro s h event _
      exact (step_lastConnectedAt p m s event).trans h
  have hlast : (if isZero s.lastMessageAt then s.lastConnectedAt else s.lastMessageAt) =
      (events.filterMap messageTime).getLastD t₀ := by
    rw [hmessage, hconnected]
    cases hmessages : events.filterMap messageTime with
    | nil => rfl
    | cons t times =>
      obtain ⟨ht, htimes⟩ := List.forall_mem_cons.1 (hmessages ▸ htimes)
      have hne : ¬ isZero (times.getLastD t) := by
        simpa only [isZero, decide_eq_true_iff] using getLastD_ne_zero ht htimes
      rw [List.getLastD_cons, List.getLastD_cons, if_neg hne]
  unfold isStale
  rw [hlast]
  exact due_iff (getLastD_ne_zero ht₀ htimes)

/-- **A heartbeat is due** if the last one that succeeded is long ago; messages do not
    count. -/
theorem shouldHeartbeat_run (ht₀ : t₀ ≠ 0)
    (htimes : ∀ t ∈ events.filterMap heartbeatTime, t ≠ 0) (now : ℤ) :
    m.shouldHeartbeat now (events.foldl (m.step p) (connected t₀ exchange stream subscriptions)) ↔
      timeAdd ((events.filterMap heartbeatTime).getLastD t₀)
        (orDefault m.heartbeatInterval (15 * second)) ≤ now := by
  have hheartbeat := foldl_step_field p m (step_lastHeartbeatAt p m) events
    (connected t₀ exchange stream subscriptions)
  unfold shouldHeartbeat
  rw [hheartbeat]
  exact due_iff (getLastD_ne_zero ht₀ htimes)

end

end ReconnectManager

end Aggregator.Realtime
