/-
  Commands to Redis (`RedisStore.command` of `internal/realtime/redis.go`).

  A command opens a connection, writes up to three requests and reads the reply to
  each before it writes the next one.  The connection is what the network makes of
  it: the error of dialling and of each request, and the bytes that the server sends.

  `command_completes`: a command returns a reply or an error if the replies that it gets
  to can be read.
-/
import Aggregator.Lib.Outcome
import Aggregator.Realtime.Replies

namespace Aggregator.Realtime

open Aggregator.Go

structure RedisOptions where
  addr : String
  password : String
  db : ℤ

structure Conn where
  dialErr : Option String
  writeErr : Value → Option String
  bytes : Value
  close : ReadError

namespace Conn
variable (conn : Conn) (stack : ℕ)

/-- A request and the reply to it, with what the server sends after it. -/
def exchange (args : List Value) (bytes : Value) : Except Stop (RedisReply × Value) :=
  match conn.writeErr (writeRESP args) with
  | some err => .error (.error (.other err))
  | none => readRESP conn.close stack bytes

/-- A request that is made only if `c`, whose reply is not used. -/
def exchangeIf (c : Prop) [Decidable c] (args : List Value) (bytes : Value) : Except Stop Value :=
  if c then (conn.exchange stack args bytes).map Prod.snd else .ok bytes

def command (options : RedisOptions) (args : List Value) : Except Stop RedisReply :=
  if trimSpace options.addr = "" then .error (.error (.other "redis addr is required"))
  else match conn.dialErr with
    | some err => .error (.error (.other ("dial redis: " ++ err)))
    | none => do
      let bytes ← conn.exchangeIf stack (trimSpace options.password ≠ "")
        [ascii "AUTH", options.password.toUTF8.toList] conn.bytes
      let bytes ← conn.exchangeIf stack (options.db > 0)
        [ascii "SELECT", ascii (toString options.db)] bytes
      (conn.exchange stack args bytes).map Prod.fst

/-- The reply that begins the bytes can be read. -/
def Readable (bytes : Value) : Prop :=
  ∀ depth start, Begins conn.close bytes depth start →
    depth < stack ∧ ¬ Oversized conn.close start

variable {conn stack}

theorem exchange_ends {bytes : Value} (h : conn.Readable stack bytes) (args : List Value) :
    Ends (fun r => Replies conn.close 1 bytes r.2) (fun s => s.isCrash = false)
      (conn.exchange stack args bytes) := by
  unfold exchange
  split
  · rfl
  · refine ends_iff.2 ⟨fun r hr => replies_of_readRESP stack bytes r.1 r.2 hr 0 r.2 .zero, ?_⟩
    intro s hs
    by_contra hcrash
    obtain ⟨depth, start, hbegins, hbad⟩ := begins_of_crash ⟨s, hs, by simpa using hcrash⟩
    obtain ⟨hlt, hsize⟩ := h depth start hbegins
    exact hbad.elim (not_le_of_gt hlt) hsize

/-- After a request there is one reply less to come, if it was made. -/
theorem exchangeIf_ends {c : Prop} [Decidable c] {bytes : Value} (h : conn.Readable stack bytes)
    (args : List Value) :
    Ends (fun rest => ∃ k ≤ 1, Replies conn.close k bytes rest) (fun s => s.isCrash = false)
      (conn.exchangeIf stack c args bytes) := by
  unfold exchangeIf
  split
  · exact ends_map.2 ((exchange_ends h args).mono (fun r hr => ⟨1, le_rfl, hr⟩) fun _ hs => hs)
  · exact ⟨0, Nat.zero_le 1, .zero⟩

end Conn

theorem completes_iff_ends {α : Type} {m : Except Stop α} :
    Completes m ↔ Ends (fun _ => True) (fun s => s.isCrash = false) m := by
  rw [← not_crashes_iff, ends_iff, Crashes]
  simp

/-- Some replies and then some more. -/
theorem Replies.trans {close : ReadError} {m n : ℕ} {bytes mid out : Value}
    (h : Replies close m bytes mid) (h' : Replies close n mid out) :
    Replies close (m + n) bytes out := by
  induction h with
  | zero => rwa [Nat.zero_add]
  | simple hline _ ih =>
    rw [Nat.succ_add]
    exact .simple hline (ih h')
  | integer hline hvalue _ ih =>
    rw [Nat.succ_add]
    exact .integer hline hvalue (ih h')
  | null hkind hheader hsize _ ih =>
    rw [Nat.succ_add]
    exact .null hkind hheader hsize (ih h')
  | bulk hheader hsize hlength _ ih =>
    rw [Nat.succ_add]
    exact .bulk hheader hsize hlength (ih h')
  | array hheader hsize hitems _ _ ih =>
    rw [Nat.succ_add]
    exact .array hheader hsize hitems (ih h')

/-- **A command returns** if each of the first three replies can be read. -/
theorem Conn.command_completes {conn : Conn} {stack : ℕ}
    (h : ∀ k ≤ 2, ∀ rest, Replies conn.close k conn.bytes rest → conn.Readable stack rest)
    (options : RedisOptions) (args : List Value) : Completes (conn.command stack options args) := by
  rw [completes_iff_ends]
  unfold command
  split
  · rfl
  split
  · rfl
  refine (exchangeIf_ends (h 0 (by decide) conn.bytes .zero) _).bind ?_
  rintro rest ⟨k, hk, hrest⟩
  refine (exchangeIf_ends (h k (by omega) rest hrest) _).bind ?_
  rintro rest' ⟨k', hk', hrest'⟩
  have hreadable := h (k + k') (by omega) rest' (hrest.trans hrest')
  exact ends_map.2 ((exchange_ends hreadable args).mono (fun _ _ => trivial) fun _ hs => hs)

end Aggregator.Realtime
