/-
  Snapshots of the latest events (`internal/realtime/snapshot.go`).

  A worker keeps the last event observed under each key.  `Flush` takes all of them,
  writes them to a sink without holding the lock, and puts them back if the write
  fails.  In between events are observed and other calls of `Flush` begin and end.

  `Flushes` is a worker along such steps.  An event is numbered in the order of
  `Observe`; the state has the number of the last one for each key and those that
  were written, which the program does not keep.

  * `observe_cases`, `take_cases`, `at_none_fail`: where a step leaves the events, the
    places being the buffer and the calls of `Flush` that are writing;
  * `Inv.step`: no event is in two places, and none is later than the last one;
  * `Located.step`: the last event of a key is in some place until it is written, if
    no failing `Flush` is disturbed;
  * `flush_keeps_iff`: along such a run, a failing `Flush` leaves the last events in
    the buffer exactly if it is not disturbed itself.
-/
import Aggregator.Lib.Run
import Aggregator.Lib.Table
import Aggregator.Realtime.Events

namespace Aggregator.Realtime

open Aggregator.Go

variable {π : Type}

/-- An event in the buffer, under its key; `seq` is its number. -/
structure Entry (π : Type) where
  key : String
  event : LatestEvent π
  seq : ℕ
  key_eq : event.key = .ok key

abbrev Entries (π : Type) := Table (Entry.key : Entry π → String)

structure SnapshotWorker (π : Type) where
  hasSink : Bool
  bucketSize : ℤ
  latest : Entries π

/-- What a call of `Flush` is writing, and the bucket that it writes to. -/
structure Batch (π : Type) where
  events : Entries π
  bucket : ℤ

namespace SnapshotWorker

/-- `NewSnapshotWorker`. -/
def new (hasSink : Bool) (bucket : ℤ) : SnapshotWorker π :=
  ⟨hasSink, if bucket ≤ 0 then minute else bucket, .empty⟩

def bucket (w : SnapshotWorker π) : ℤ := if w.bucketSize ≤ 0 then minute else w.bucketSize

/-- `Observe`: an event without a key is dropped. -/
def observe (w : SnapshotWorker π) (event : LatestEvent π) (now : ℤ) (seq : ℕ) : SnapshotWorker π :=
  let event := if isZero event.eventTime then { event with eventTime := now } else event
  match h : event.key with
  | .error _ => w
  | .ok key => { w with latest := w.latest.put ⟨key, event, seq, h⟩ }

/-- The first critical section of `Flush`; `events` is the buffer in the order in which
    the loop comes to the events. -/
def take (w : SnapshotWorker π) (events : Entries π) (now : ℤ) : SnapshotWorker π × Batch π :=
  ({ w with latest := .empty }, ⟨events, truncate now w.bucket⟩)

/-- The second one, after an error.  The key of an event is the one that it was under. -/
def putBack (w : SnapshotWorker π) (batch : Batch π) : SnapshotWorker π :=
  { w with latest := w.latest.putAll batch.events }

/-- `Flush` if nothing happens during the write; `err` is the error of the sink. -/
def flush {ε : Type} (w : SnapshotWorker π) (events : Entries π) (now : ℤ) (err : Option ε) :
    (ℕ × Option ε) × SnapshotWorker π :=
  if !w.hasSink then ((0, none), w)
  else
    let (w, batch) := w.take events now
    if batch.events.rows.isEmpty then ((0, none), w)
    else match err with
      | some err => ((0, some err), w.putBack batch)
      | none => ((batch.events.rows.length, none), w)

end SnapshotWorker

/-! ## Calls that overlap -/

structure Flushes (π : Type) where
  worker : SnapshotWorker π
  flushing : ℕ → Option (Batch π)
  begun : ℕ
  observed : ℕ
  last : String → Option ℕ
  flushed : List ℕ

inductive FlushEvent (π : Type)
  | observe (event : LatestEvent π) (now : ℤ)
  | take (events : Entries π) (now : ℤ)
  | finish (call : ℕ) (err : Option String)

namespace Flushes

def start (hasSink : Bool) (bucket : ℤ) : Flushes π :=
  ⟨.new hasSink bucket, fun _ => none, 0, 0, fun _ => none, []⟩

def observe (s : Flushes π) (event : LatestEvent π) (now : ℤ) : Flushes π :=
  { s with
    worker := s.worker.observe event now s.observed
    observed := s.observed + 1
    last := match event.key with
      | .error _ => s.last
      | .ok key => Function.update s.last key (some s.observed) }

/-- A call of `Flush` up to the write; it returns if there is nothing to write. -/
def take (s : Flushes π) (events : Entries π) (now : ℤ) : Flushes π :=
  if !s.worker.hasSink || events.rows.isEmpty then s
  else
    { s with
      worker := (s.worker.take events now).1
      flushing := Function.update s.flushing s.begun (some (s.worker.take events now).2)
      begun := s.begun + 1 }

/-- The rest of a call. -/
def finish (s : Flushes π) (call : ℕ) (batch : Batch π) (err : Option String) : Flushes π :=
  let flushing := Function.update s.flushing call none
  match err with
  | some _ => { s with worker := s.worker.putBack batch, flushing }
  | none => { s with flushing, flushed := batch.events.rows.map Entry.seq ++ s.flushed }

inductive Step : Flushes π → FlushEvent π → Flushes π → Prop
  | observe (s event now) : Step s (.observe event now) (s.observe event now)
  | take (s events now) : events.rows.Perm s.worker.latest.rows →
      Step s (.take events now) (s.take events now)
  | finish (s call batch err) : s.flushing call = some batch →
      Step s (.finish call err) (s.finish call batch err)

/-- `flush` is a call during which nothing else happens. -/
theorem run_flush (s : Flushes π) {events : Entries π}
    (hperm : events.rows.Perm s.worker.latest.rows) (now : ℤ) (err : Option String) :
    ∃ t, (Run Step s [.take events now] t ∨
        Run Step s [.take events now, .finish s.begun err] t) ∧
      t.worker = (s.worker.flush events now err).2 := by
  have hst := Step.take s events now hperm
  by_cases hsink : s.worker.hasSink
  · by_cases hempty : events.rows.isEmpty
    · -- an empty buffer is replaced by an empty one
      have htake : s.take events now = s := if_pos (by simp [hempty])
      have hlatest : s.worker.latest = .empty := by
        rw [List.isEmpty_iff] at hempty
        rw [hempty, List.nil_perm] at hperm
        exact Table.ext hperm
      refine ⟨s, .inl (.single (by rwa [htake] at hst)), ?_⟩
      have hflush : (s.worker.flush events now err).2 = { s.worker with latest := .empty } := by
        simp [SnapshotWorker.flush, SnapshotWorker.take, hsink, hempty]
      rw [hflush, ← hlatest]
    · have htake : s.take events now =
          { s with
            worker := (s.worker.take events now).1
            flushing := Function.update s.flushing s.begun (some (s.worker.take events now).2)
            begun := s.begun + 1 } := if_neg (by simp [hsink, hempty])
      have hbatch : (s.take events now).flushing s.begun = some (s.worker.take events now).2 := by
        rw [htake]
        exact Function.update_self ..
      refine ⟨_, .inr (.cons hst (.single (.finish _ s.begun _ err hbatch))), ?_⟩
      rw [htake]
      cases err <;> simp [finish, SnapshotWorker.flush, SnapshotWorker.take, hsink, hempty]
  · have htake : s.take events now = s := if_pos (by simp [hsink])
    refine ⟨s, .inl (.single (by rwa [htake] at hst)), ?_⟩
    simp [SnapshotWorker.flush, hsink]

/-- An event is in the buffer, or being written by a call of `Flush`. -/
def At (s : Flushes π) : Option ℕ → Entry π → Prop
  | none, e => e ∈ s.worker.latest
  | some call, e => ∃ batch, s.flushing call = some batch ∧ e ∈ batch.events

/-- The event with the number is the last one of its key, and not yet written. -/
def Pending (s : Flushes π) (key : String) (n : ℕ) : Prop := s.last key = some n ∧ n ∉ s.flushed

/-- The buffer has the last event of each key that is not yet written, or a later one. -/
def Kept (s : Flushes π) : Prop :=
  ∀ key n, s.Pending key n → ∃ e, s.worker.latest.find key = some e ∧ n ≤ e.seq

/-- While the call was writing, no event came into the buffer under a key that it puts
    back, and no other call is writing the last event of a key.  Only events that are the
    last ones of their keys and not yet written count. -/
def Undisturbed (s : Flushes π) (call : ℕ) : Prop :=
  ∀ key n, s.Pending key n → ∀ e, e.key = key → e.seq = n →
    (∀ other, other ≠ call → ¬ s.At (some other) e) ∧
    (s.At none e → ∀ e', s.At (some call) e' → e'.key ≠ key)

/-- The condition on the steps of a run: calls that fail were not disturbed. -/
def Calm (s : Flushes π) : FlushEvent π → Prop
  | .finish call (some _) => s.Undisturbed call
  | _ => True

end Flushes

/-! ## Where the events are -/

/-- An event is put into the buffer, or has no key. -/
theorem SnapshotWorker.observe_cases (w : SnapshotWorker π) (event : LatestEvent π) (now : ℤ)
    (seq : ℕ) :
    (∃ err, event.key = .error err ∧ w.observe event now seq = w) ∨
      ∃ e : Entry π, event.key = .ok e.key ∧ e.seq = seq ∧
        w.observe event now seq = { w with latest := w.latest.put e } := by
  have hkey : (if isZero event.eventTime then { event with eventTime := now } else event).key =
      event.key := by
    split <;> rfl
  unfold observe
  dsimp only
  split
  · rename_i err herr
    exact .inl ⟨err, hkey.symm.trans herr, rfl⟩
  · rename_i key hok
    exact .inr ⟨_, hkey.symm.trans hok, rfl, rfl⟩

namespace Flushes
variable {s t : Flushes π} {call : ℕ} {batch : Batch π} {e : Entry π}

theorem at_call (h : s.flushing call = some batch) : s.At (some call) e ↔ e ∈ batch.events := by
  constructor
  · rintro ⟨batch', hbatch', he⟩
    obtain rfl := Option.some.inj (hbatch'.symm.trans h)
    exact he
  · exact fun he => ⟨batch, h, he⟩

theorem at_some_finish (err : Option String) (i : ℕ) :
    (s.finish call batch err).At (some i) e ↔ i ≠ call ∧ s.At (some i) e := by
  have hflushing : (s.finish call batch err).flushing = Function.update s.flushing call none := by
    cases err <;> rfl
  unfold At
  rw [hflushing]
  by_cases hi : i = call
  · subst hi
    simp
  · simp [hi]

@[simp]
theorem begun_finish (err : Option String) : (s.finish call batch err).begun = s.begun := by
  cases err <;> rfl

theorem observed_finish (err : Option String) :
    (s.finish call batch err).observed = s.observed := by
  cases err <;> rfl

theorem last_finish (err : Option String) : (s.finish call batch err).last = s.last := by
  cases err <;> rfl

theorem at_none_fail (h : s.flushing call = some batch) (err : String) :
    (s.finish call batch (some err)).At none e ↔
      s.At (some call) e ∨ s.At none e ∧ ∀ e', s.At (some call) e' → e'.key ≠ e.key := by
  have hmem : (s.finish call batch (some err)).At none e ↔
      e ∈ s.worker.latest.putAll batch.events := Iff.rfl
  rw [hmem, Table.mem_putAll, at_call h]
  simp only [at_call h]
  exact Iff.rfl

@[simp]
theorem begun_observe (event : LatestEvent π) (now : ℤ) :
    (s.observe event now).begun = s.begun := by
  unfold observe
  rfl

@[simp]
theorem observed_observe (event : LatestEvent π) (now : ℤ) :
    (s.observe event now).observed = s.observed + 1 := by
  unfold observe
  rfl

@[simp]
theorem flushed_observe (event : LatestEvent π) (now : ℤ) :
    (s.observe event now).flushed = s.flushed := by
  unfold observe
  rfl

/-- An event with a key replaces the one in the buffer under the key. -/
theorem observe_cases (s : Flushes π) (event : LatestEvent π) (now : ℤ) :
    ((∀ p e, (s.observe event now).At p e ↔ s.At p e) ∧ (s.observe event now).last = s.last) ∨
      ∃ new : Entry π, event.key = .ok new.key ∧ new.seq = s.observed ∧
        (∀ e, (s.observe event now).At none e ↔ e = new ∨ s.At none e ∧ e.key ≠ new.key) ∧
        (∀ i e, (s.observe event now).At (some i) e ↔ s.At (some i) e) ∧
        (s.observe event now).last = Function.update s.last new.key (some s.observed) := by
  rcases s.worker.observe_cases event now s.observed with ⟨err, hkey, hw⟩ | ⟨new, hkey, hseq, hw⟩
  · refine .inl ⟨?_, ?_⟩
    · rintro (_ | i) e <;> simp only [At, observe, hw]
    · simp only [observe, hkey]
  · refine .inr ⟨new, hkey, hseq, fun e => ?_, fun i e => ?_, ?_⟩
    · simp only [At, observe, hw, Table.mem_put]
    · simp only [At, observe]
    · simp only [observe, hkey]

/-- `Flush` takes all events of the buffer. -/
theorem take_cases {events : Entries π} (h : events.rows.Perm s.worker.latest.rows) (now : ℤ) :
    s.take events now = s ∨
      ((∀ e, ¬ (s.take events now).At none e) ∧
      (∀ i e, (s.take events now).At (some i) e ↔
        if i = s.begun then s.At none e else s.At (some i) e) ∧
      (s.take events now).begun = s.begun + 1 ∧ (s.take events now).observed = s.observed ∧
      (s.take events now).last = s.last ∧ (s.take events now).flushed = s.flushed) := by
  unfold take
  split
  · exact .inl rfl
  · refine .inr ⟨fun e he => List.not_mem_nil he, fun i e => ?_, rfl, rfl, rfl, rfl⟩
    unfold At
    by_cases hi : i = s.begun
    · subst hi
      simp only [Function.update_self, Option.some.injEq, exists_eq_left', ↓reduceIte]
      exact h.mem_iff
    · simp [hi]

end Flushes

/-! ## Invariants -/

namespace Flushes

/-- No event is in two places, and none is later than the last one of its key. -/
structure Inv (s : Flushes π) : Prop where
  fresh : ∀ i, s.begun ≤ i → ∀ e, ¬ s.At (some i) e
  le_last : ∀ p e, s.At p e → ∃ n, s.last e.key = some n ∧ e.seq ≤ n
  lt_observed : ∀ key n, s.last key = some n → n < s.observed
  apart : ∀ p q e e', s.At p e → s.At q e' → e.seq = e'.seq → p = q

variable {s t : Flushes π}

theorem Inv.seq_lt (h : s.Inv) {p : Option ℕ} {e : Entry π} (he : s.At p e) : e.seq < s.observed := by
  obtain ⟨n, hn, hle⟩ := h.le_last p e he
  exact hle.trans_lt (h.lt_observed _ n hn)

theorem inv_start (hasSink : Bool) (bucket : ℤ) : (start hasSink bucket : Flushes π).Inv := by
  have hnone : ∀ p e, ¬ (start hasSink bucket : Flushes π).At p e := by
    rintro (_ | i) e he
    · exact List.not_mem_nil he
    · obtain ⟨batch, hbatch, -⟩ := he
      cases hbatch
  exact ⟨fun i _ => hnone (some i), fun p e he => absurd he (hnone p e), nofun,
    fun p q e e' he => absurd he (hnone p e)⟩

theorem Inv.observe (h : s.Inv) (event : LatestEvent π) (now : ℤ) : (s.observe event now).Inv := by
  rcases s.observe_cases event now with ⟨hat, hlast⟩ | ⟨new, -, hseq, hhere, hthere, hlast⟩
  · refine ⟨fun i hi e he => ?_, fun p e he => ?_, fun key n hn => ?_,
      fun p q e e' he he' => h.apart p q e e' ((hat p e).1 he) ((hat q e').1 he')⟩
    · rw [begun_observe] at hi
      exact h.fresh i hi e ((hat _ e).1 he)
    · rw [hlast]
      exact h.le_last p e ((hat p e).1 he)
    · rw [hlast] at hn
      rw [observed_observe]
      exact (h.lt_observed key n hn).trans (Nat.lt_succ_self _)
  · -- every other event is from before
    have hold : ∀ p e, (s.observe event now).At p e → p = none ∧ e = new ∨ s.At p e := by
      rintro (_ | i) e he
      · exact ((hhere e).1 he).imp (fun h => ⟨rfl, h⟩) And.left
      · exact .inr ((hthere i e).1 he)
    refine ⟨fun i hi e he => ?_, fun p e he => ?_, fun key n hn => ?_,
      fun p q e e' he he' heq => ?_⟩
    · rw [begun_observe] at hi
      exact h.fresh i hi e ((hthere i e).1 he)
    · rw [hlast, Function.update_apply]
      rcases hold p e he with ⟨-, rfl⟩ | he
      · exact ⟨s.observed, if_pos rfl, hseq.le⟩
      · split
        · exact ⟨s.observed, rfl, (h.seq_lt he).le⟩
        · exact h.le_last p e he
    · rw [observed_observe]
      rw [hlast, Function.update_apply] at hn
      split at hn
      · obtain rfl := Option.some.inj hn
        exact Nat.lt_succ_self _
      · exact (h.lt_observed key n hn).trans (Nat.lt_succ_self _)
    · rcases hold p e he with ⟨rfl, rfl⟩ | he <;> rcases hold q e' he' with ⟨rfl, rfl⟩ | he'
      · rfl
      · have := h.seq_lt he'
        omega
      · have := h.seq_lt he
        omega
      · exact h.apart p q e e' he he' heq

/-- A step that moves the events of one place to another, where it may drop some. -/
theorem Inv.move (h : s.Inv) (src dst : Option ℕ)
    (hold : ∀ p e, t.At p e → ∃ p', s.At p' e ∧ (p = dst ∧ p' = src ∨ p = p' ∧ p' ≠ src))
    (hfresh : ∀ i, t.begun ≤ i → ∀ e, ¬ t.At (some i) e) (hlast : t.last = s.last)
    (hobserved : t.observed = s.observed) : t.Inv := by
  refine ⟨hfresh, fun p e he => ?_, fun key n hn => ?_, fun p q e e' he he' heq => ?_⟩
  · obtain ⟨p', he, -⟩ := hold p e he
    rw [hlast]
    exact h.le_last p' e he
  · rw [hlast] at hn
    rw [hobserved]
    exact h.lt_observed key n hn
  · obtain ⟨p', he, hp⟩ := hold p e he
    obtain ⟨q', he', hq⟩ := hold q e' he'
    obtain rfl := h.apart p' q' e e' he he' heq
    rcases hp with ⟨rfl, rfl⟩ | ⟨rfl, hp⟩
    · exact (hq.resolve_right fun hq => hq.2 rfl).1.symm
    · exact (hq.resolve_left fun hq => hp hq.2).1.symm

theorem Inv.take (h : s.Inv) {events : Entries π} (hperm : events.rows.Perm s.worker.latest.rows)
    (now : ℤ) : (s.take events now).Inv := by
  rcases take_cases hperm now with hsame | ⟨hnone, hsome, hbegun, hobserved, hlast, -⟩
  · rw [hsame]
    exact h
  refine h.move none (some s.begun) ?_ ?_ hlast hobserved
  · rintro (_ | i) e he
    · exact absurd he (hnone e)
    · rw [hsome] at he
      split at he
      · rename_i hi
        exact ⟨none, he, .inl ⟨congrArg some hi, rfl⟩⟩
      · exact ⟨some i, he, .inr ⟨rfl, nofun⟩⟩
  · intro i hi e he
    rw [hbegun] at hi
    rw [hsome, if_neg (by omega)] at he
    exact h.fresh i (by omega) e he

theorem Inv.finish (h : s.Inv) {call : ℕ} {batch : Batch π} (hbatch : s.flushing call = some batch)
    (err : Option String) : (s.finish call batch err).Inv := by
  refine h.move (some call) none ?_ ?_ (last_finish err) (observed_finish err)
  · rintro (_ | i) e he
    · cases err with
      | none => exact ⟨none, he, .inr ⟨rfl, nofun⟩⟩
      | some err =>
        rcases (at_none_fail hbatch err).1 he with he | ⟨he, -⟩
        · exact ⟨some call, he, .inl ⟨rfl, rfl⟩⟩
        · exact ⟨none, he, .inr ⟨rfl, nofun⟩⟩
    · obtain ⟨hi, he⟩ := (at_some_finish err i).1 he
      exact ⟨some i, he, .inr ⟨rfl, fun heq => hi (Option.some.inj heq)⟩⟩
  · intro i hi e he
    rw [begun_finish] at hi
    exact h.fresh i hi e ((at_some_finish err i).1 he).2

theorem Inv.step {l : FlushEvent π} (h : s.Inv) (hst : Step s l t) : t.Inv := by
  cases hst with
  | observe event now => exact h.observe event now
  | take events now hperm => exact h.take hperm now
  | finish call batch err hbatch => exact h.finish hbatch err

/-- The last event of a key is in some place until it is written. -/
def Located (s : Flushes π) : Prop :=
  ∀ key n, s.Pending key n → ∃ p e, s.At p e ∧ e.key = key ∧ e.seq = n

theorem located_start (hasSink : Bool) (bucket : ℤ) : (start hasSink bucket : Flushes π).Located :=
  fun _ _ hpending => nomatch hpending.1

theorem Located.observe (h : s.Located) (event : LatestEvent π) (now : ℤ) :
    (s.observe event now).Located := by
  intro key n hpending
  unfold Pending at hpending
  rw [flushed_observe] at hpending
  rcases s.observe_cases event now with ⟨hat, hlast⟩ | ⟨new, -, hseq, hhere, hthere, hlast⟩
  · rw [hlast] at hpending
    obtain ⟨p, e, he, hkey, hn⟩ := h key n hpending
    exact ⟨p, e, (hat p e).2 he, hkey, hn⟩
  · rw [hlast, Function.update_apply] at hpending
    split at hpending
    · rename_i hnew
      exact ⟨none, new, (hhere new).2 (.inl rfl), hnew.symm, hseq.trans (Option.some.inj hpending.1)⟩
    · rename_i hother
      obtain ⟨p, e, he, rfl, hn⟩ := h key n hpending
      cases p with
      | none => exact ⟨none, e, (hhere e).2 (.inr ⟨he, hother⟩), rfl, hn⟩
      | some i => exact ⟨some i, e, (hthere i e).2 he, rfl, hn⟩

theorem Located.take (h : s.Located) (hinv : s.Inv) {events : Entries π}
    (hperm : events.rows.Perm s.worker.latest.rows) (now : ℤ) : (s.take events now).Located := by
  rcases take_cases hperm now with hsame | ⟨-, hsome, -, -, hlast, hflushed⟩
  · rw [hsame]
    exact h
  intro key n hpending
  unfold Pending at hpending
  rw [hlast, hflushed] at hpending
  obtain ⟨p, e, he, hkey, hn⟩ := h key n hpending
  cases p with
  | none => exact ⟨some s.begun, e, (hsome _ e).2 (by rwa [if_pos rfl]), hkey, hn⟩
  | some i =>
    have hi : i ≠ s.begun := fun hi => hinv.fresh i hi.ge e he
    exact ⟨some i, e, (hsome _ e).2 (by rwa [if_neg hi]), hkey, hn⟩

/-- What a call has written is no longer pending. -/
theorem Located.finish_ok (h : s.Located) {call : ℕ} {batch : Batch π}
    (hbatch : s.flushing call = some batch) : (s.finish call batch none).Located := by
  rintro key n ⟨hlast, hflushed⟩
  obtain ⟨hwritten, hflushed⟩ := not_or.1 fun h => hflushed (List.mem_append.2 h)
  obtain ⟨p, e, he, hkey, hn⟩ := h key n ⟨hlast, hflushed⟩
  cases p with
  | none => exact ⟨none, e, he, hkey, hn⟩
  | some i =>
    refine ⟨some i, e, (at_some_finish none i).2 ⟨?_, he⟩, hkey, hn⟩
    rintro rfl
    exact hwritten (List.mem_map.2 ⟨e, (at_call hbatch).1 he, hn⟩)

/-- The buffer of a failed call has all that is pending. -/
theorem Undisturbed.at_none {call : ℕ} {batch : Batch π} (h : s.Undisturbed call) (hs : s.Located)
    (hbatch : s.flushing call = some batch) (err : String) {key : String} {n : ℕ}
    (hpending : s.Pending key n) :
    ∃ e, (s.finish call batch (some err)).At none e ∧ e.key = key ∧ e.seq = n := by
  obtain ⟨p, e, he, hkey, hn⟩ := hs key n hpending
  obtain ⟨hothers, hbuffer⟩ := h key n hpending e hkey hn
  refine ⟨e, (at_none_fail hbatch err).2 ?_, hkey, hn⟩
  cases p with
  | none =>
    rw [hkey]
    exact .inr ⟨he, hbuffer he⟩
  | some i =>
    by_cases hi : i = call
    · exact .inl (hi ▸ he)
    · exact absurd he (hothers i hi)

theorem Located.step {l : FlushEvent π} (h : s.Located) (hinv : s.Inv)
    (hst : Restrict Step Calm s l t) : t.Located := by
  obtain ⟨hcalm, hst⟩ := hst
  cases hst with
  | observe event now => exact h.observe event now
  | take events now hperm => exact h.take hinv hperm now
  | finish call batch err hbatch =>
    cases err with
    | none => exact h.finish_ok hbatch
    | some err =>
      intro key n hpending
      obtain ⟨e, he⟩ := Undisturbed.at_none hcalm h hbatch err hpending
      exact ⟨none, e, he⟩

theorem reachable_inv {hasSink : Bool} {bucket : ℤ} {ls : List (FlushEvent π)}
    (hrun : Run (Restrict Step Calm) (start hasSink bucket) ls s) : s.Inv ∧ s.Located :=
  Run.inv (I := fun s => s.Inv ∧ s.Located)
    (fun _ _ _ h hst => ⟨h.1.step hst.2, h.2.step h.1 hst⟩) hrun
    ⟨inv_start hasSink bucket, located_start hasSink bucket⟩

/-! ## Failing calls -/

theorem find_eq_some_iff_at {key : String} {e : Entry π} :
    s.worker.latest.find key = some e ↔ s.At none e ∧ e.key = key :=
  Table.find_eq_some

/-- An event that is put back, or was in the buffer and is not overwritten, is disturbed
    by nothing: it is in one place. -/
theorem Inv.undisturbed_of_kept (h : s.Inv) {call : ℕ} {batch : Batch π}
    (hbatch : s.flushing call = some batch) (err : String)
    (hkept : (s.finish call batch (some err)).Kept) : s.Undisturbed call := by
  intro key n hpending e hkey hn
  obtain ⟨e₁, hfind, hle⟩ := hkept key n hpending
  obtain ⟨he₁, hkey₁⟩ := find_eq_some_iff_at.1 hfind
  -- the buffer has the last event itself, none is later
  have hseq : e.seq = e₁.seq := by
    obtain ⟨m, hm, hle'⟩ := (h.finish hbatch (some err)).le_last none e₁ he₁
    rw [hkey₁] at hm
    obtain rfl := Option.some.inj (hpending.1.symm.trans hm)
    omega
  rcases (at_none_fail hbatch err).1 he₁ with he₁ | ⟨he₁, hbuffer⟩
  · refine ⟨fun other hother he => ?_, fun he => ?_⟩
    · exact hother (Option.some.inj (h.apart _ _ e e₁ he he₁ hseq))
    · cases h.apart _ _ e e₁ he he₁ hseq
  · refine ⟨fun other _ he => ?_, fun _ e' he' => ?_⟩
    · cases h.apart _ _ e e₁ he he₁ hseq
    · rw [← hkey₁]
      exact hbuffer e' he'

/-- **A failing call keeps the last events** exactly if it was not disturbed, along every
    run whose failing calls were not. -/
theorem flush_keeps_iff {hasSink : Bool} {bucket : ℤ} {ls : List (FlushEvent π)}
    (hrun : Run (Restrict Step Calm) (start hasSink bucket) ls s) {call : ℕ} {err : String}
    (hst : Step s (.finish call (some err)) t) : t.Kept ↔ s.Undisturbed call := by
  obtain ⟨hinv, hlocated⟩ := reachable_inv hrun
  cases hst with
  | finish _ batch _ hbatch =>
    constructor
    · exact hinv.undisturbed_of_kept hbatch err
    · intro h key n hpending
      obtain ⟨e, he, hkey, hn⟩ := h.at_none hlocated hbatch err hpending
      exact ⟨e, find_eq_some_iff_at.2 ⟨he, hkey⟩, hn.ge⟩

/-- A market event with its number as the payload. -/
def ticker (symbol : String) (n : ℕ) : LatestEvent ℕ := ⟨kindMarket, "okx", symbol, 0, 1, 1, n⟩

def observedOne (symbol : String) : Flushes ℕ := (start true minute).observe (ticker symbol 0) 1

/-- While the event of a symbol is written, one of another symbol is observed. -/
def writing (symbol other : String) : Flushes ℕ :=
  ((observedOne symbol).take (observedOne symbol).worker.latest 1).observe (ticker other 1) 1

theorem run_writing (symbol other : String) :
    Run (Restrict Step Calm) (start true minute)
      [.observe (ticker symbol 0) 1, .take (observedOne symbol).worker.latest 1,
        .observe (ticker other 1) 1] (writing symbol other) := by
  unfold writing
  refine .cons (t := observedOne symbol) ⟨trivial, .observe _ _ _⟩ ?_
  exact .cons ⟨trivial, .take _ _ _ (List.Perm.refl _)⟩ (.single ⟨trivial, .observe _ _ _⟩)

/-- An event of another symbol does not disturb the call. -/
theorem flush_keeps_other : ∃ t,
    Step (writing "BTC" "ETH") (.finish 0 (some "timeout")) t ∧ t.Kept := by
  obtain ⟨batch, hbatch⟩ : ∃ batch, (writing "BTC" "ETH").flushing 0 = some batch :=
    Option.isSome_iff_exists.1 (by decide +kernel)
  have hst := Step.finish _ 0 batch (some "timeout") hbatch
  refine ⟨_, hst, (flush_keeps_iff (run_writing "BTC" "ETH") hst).2 ?_⟩
  rintro key n - e rfl -
  have hbegun : (writing "BTC" "ETH").begun = 1 := by decide +kernel
  refine ⟨fun other hother => ?_, fun he e' he' => ?_⟩
  · exact (reachable_inv (run_writing "BTC" "ETH")).1.fresh other (by omega) e
  · have hbuffer : (writing "BTC" "ETH").worker.latest.rows.map Entry.key =
        ["deriv:latest:market:okx:ETH"] := by
      decide +kernel
    have hcall : ((writing "BTC" "ETH").flushing 0).map (·.events.rows.map Entry.key) =
        some ["deriv:latest:market:okx:BTC"] := by
      decide +kernel
    rw [hbatch, Option.map_some, Option.some.injEq] at hcall
    have hkey := List.mem_map_of_mem (f := Entry.key) he
    have hkey' := List.mem_map_of_mem (f := Entry.key) ((at_call hbatch).1 he')
    rw [hbuffer, List.mem_singleton] at hkey
    rw [hcall, List.mem_singleton] at hkey'
    rw [hkey, hkey']
    decide

theorem isSome_flushing_writing : ((writing "BTC" "BTC").flushing 0).isSome := by decide +kernel

/-- The state after the write has failed. -/
def putOver : Flushes ℕ :=
  (writing "BTC" "BTC").finish 0 (((writing "BTC" "BTC").flushing 0).get isSome_flushing_writing)
    (some "timeout")

/-- An event of the same symbol does: the older one is put over it. -/
theorem flush_overwrites :
    Run Step (start true minute)
      [.observe (ticker "BTC" 0) 1, .take (observedOne "BTC").worker.latest 1,
        .observe (ticker "BTC" 1) 1] (writing "BTC" "BTC") ∧
    (writing "BTC" "BTC").worker.latest.rows.map (·.event.payload) = [1] ∧
    Step (writing "BTC" "BTC") (.finish 0 (some "timeout")) putOver ∧
    putOver.worker.latest.rows.map (·.event.payload) = [0] ∧ ¬ putOver.Kept := by
  refine ⟨(run_writing "BTC" "BTC").mono fun _ _ _ h => h.2, by decide +kernel,
    .finish _ 0 _ _ (Option.some_get isSome_flushing_writing).symm, by decide +kernel, ?_⟩
  intro hkept
  obtain ⟨e, hfind, hle⟩ := hkept "deriv:latest:market:okx:BTC" 1
    ⟨by decide +kernel, by decide +kernel⟩
  have hseq : (putOver.worker.latest.find "deriv:latest:market:okx:BTC").map Entry.seq =
      some 0 := by
    decide +kernel
  rw [hfind, Option.map_some, Option.some.injEq] at hseq
  omega

end Flushes

end Aggregator.Realtime
