/-
  Redis on the other end of a connection.

  `Redis` is a server of which only that is assumed which the store of
  `internal/realtime/redis.go` relies on: it answers in RESP, `AUTH` and `SELECT` write
  nothing, `SET` and `GET` write and read a value of the database of the connection.
  Whenever it serves a request it may drop values, as the policy of its memory asks
  (`REDIS_EVICTION_POLICY`), and of course it may refuse the request.

  A `Link` is what the network does to one connection: it may not be established, a
  request may not be written, and of the bytes that the server answers only the first
  `arriving` ones may arrive.  The client reads the answers as `Conn.command` does.

  * `Answer.read_cut`: an answer that does not arrive as a whole is an error;
  * `Link.talks`: `Talk` lists what can come of the requests of one connection, wherever
    it breaks;
  * `Link.exists_arriving`: requests that are not refused are answered if enough of the
    answers arrives.
-/
import Aggregator.Go.Url
import Aggregator.Realtime.Redis

namespace Aggregator.Realtime

open Aggregator.Go Aggregator.Go.Url

/-! ## Answers -/

inductive Answer
  | ok
  | refused (line : Value)
  | null
  | value (value : Value)

namespace Answer

def bytes : Answer → Value
  | ok => '+'.toUInt8 :: (ascii "OK" ++ crlf)
  | refused line => '-'.toUInt8 :: (line ++ crlf)
  | null => '$'.toUInt8 :: (ascii "-1" ++ crlf)
  | value v => writeBulk v

/-- The answer is one of RESP: the reason of a refusal is one line, and a value can be
    held in memory. -/
def Framed : Answer → Prop
  | ok | null => True
  | refused line => '\n'.toUInt8 ∉ line
  | value v => (v.length : ℤ) + 2 ≤ maxAlloc

/-- What the client makes of the answer. -/
def reply : Answer → Except Stop RedisReply
  | ok => .ok { data := ascii "OK" }
  | refused line => .error (.error (.redis line))
  | null => .ok { isNil := true }
  | value v => .ok { data := v }

variable {close : ReadError} {a : Answer}

theorem header_null (close : ReadError) (rest : Value) :
    Header close (null.bytes ++ rest) '$' (-1) rest := by
  refine ⟨ascii "-1", ascii "-1" ++ crlf ++ rest, ?_, readLine_crlf (by decide) rest, rfl⟩
  simp [bytes]

theorem read_bytes (h : a.Framed) (stack : ℕ) (rest : Value) :
    readRESP close (stack + 1) (a.bytes ++ rest) = a.reply.map (·, rest) := by
  cases a with
  | ok => exact readRESP_simple (readLine_crlf (by decide) rest) stack
  | refused line => exact readRESP_error (readLine_crlf h rest) stack
  | null => exact readRESP_nil (.inl rfl) (header_null close rest) (by decide) stack
  | value v => exact readRESP_writeBulk h stack rest

/-! ## Answers that are cut off -/

theorem readLine_of_notMem {bytes : Value} (h : '\n'.toUInt8 ∉ bytes) :
    readLine close bytes = .error (.error (.read close)) := by
  have hall : bytes.dropWhile (· ≠ '\n'.toUInt8) = [] := by
    rw [List.dropWhile_eq_nil_iff]
    exact fun b hb => decide_eq_true fun heq => h (heq ▸ hb)
  rw [readLine, hall]

/-- The beginning of a line and of what follows it. -/
theorem prefix_line {line payload pre : Value} (hline : '\n'.toUInt8 ∉ line)
    (h : pre <+: line ++ crlf ++ payload) :
    '\n'.toUInt8 ∉ pre ∨ ∃ w, w <+: payload ∧ pre = line ++ crlf ++ w := by
  rcases List.prefix_or_prefix_of_prefix h (List.prefix_append (line ++ crlf) payload) with
    hpre | ⟨w, rfl⟩
  · have hsplit : line ++ crlf = (line ++ ['\r'.toUInt8]) ++ ['\n'.toUInt8] := by
      simp [crlf, ascii]
    rw [hsplit, List.prefix_concat_iff] at hpre
    rcases hpre with rfl | hpre
    · exact .inr ⟨[], List.nil_prefix, by rw [hsplit, List.append_nil]⟩
    · left
      intro hmem
      rcases List.mem_append.1 (hpre.subset hmem) with hmem | hmem
      · exact hline hmem
      · exact absurd (List.mem_singleton.1 hmem) (by decide)
  · exact .inr ⟨w, (List.prefix_append_right_inj _).1 h, rfl⟩

/-- The beginning of an answer that is one line. -/
theorem read_cut_line {kind : Char} (hkind : kind ∈ ['+', '-', ':', '$', '*']) {line pre : Value}
    (hline : '\n'.toUInt8 ∉ line) (h : pre <+: kind.toUInt8 :: (line ++ crlf))
    (hne : pre ≠ kind.toUInt8 :: (line ++ crlf)) (stack : ℕ) :
    ∃ err, readRESP close (stack + 1) pre = .error (.error err) := by
  cases pre with
  | nil => exact ⟨.read close, rfl⟩
  | cons c tail =>
    obtain ⟨rfl, htail⟩ := List.cons_prefix_cons.1 h
    rw [← List.append_nil (line ++ crlf)] at htail
    rcases prefix_line hline htail with hnone | ⟨w, hw, rfl⟩
    · exact ⟨_, readRESP_line_error hkind (readLine_of_notMem hnone) stack⟩
    · rw [List.prefix_nil.1 hw, List.append_nil] at hne
      exact absurd rfl hne

/-- **An answer that does not arrive as a whole is an error.** -/
theorem read_cut (hframed : a.Framed) {pre : Value} (h : pre <+: a.bytes) (hne : pre ≠ a.bytes)
    (stack : ℕ) : ∃ err, readRESP close (stack + 1) pre = .error (.error err) := by
  cases a with
  | ok => exact read_cut_line (by simp) (by decide) h hne stack
  | refused line => exact read_cut_line (by simp) hframed h hne stack
  | null => exact read_cut_line (by simp) (by decide) h hne stack
  | value v =>
    cases pre with
    | nil => exact ⟨.read close, rfl⟩
    | cons c tail =>
      have hsplit : (value v).bytes =
          '$'.toUInt8 :: (itoa v.length ++ crlf ++ (v ++ crlf)) := by
        simp [bytes, writeBulk]
      rw [hsplit] at h hne
      obtain ⟨rfl, htail⟩ := List.cons_prefix_cons.1 h
      rcases prefix_line (newline_notMem_itoa _) htail with hnone | ⟨w, hw, rfl⟩
      · exact ⟨_, readRESP_line_error (by simp) (readLine_of_notMem hnone) stack⟩
      · -- the header has arrived: what is missing is missing from the value
        have hlt : w.length < v.length + 2 := by
          refine lt_of_le_of_ne (by simpa [crlf, ascii] using hw.length_le) fun heq => hne ?_
          rw [hw.eq_of_length (by simpa [crlf, ascii] using heq)]
        have hmax : maxAlloc ≤ int64Max := by decide
        have hv : (v.length : ℤ) + 2 ≤ maxAlloc := hframed
        have hwrap : wrap64 (v.length + 2) = v.length + 2 :=
          wrap64_of_mem (by unfold int64Min; omega) (by omega)
        have hheader := header_itoa close '$' (by omega : (v.length : ℤ) ≤ int64Max) w
        have hshort : ¬((v.length : ℤ) + 2).toNat ≤ w.length := by omega
        rw [readRESP_bulk hheader (by omega), hwrap, make_eq_ok (by omega) (by omega), readFull,
          if_neg hshort]
        split
        · exact ⟨_, rfl⟩
        · exact ⟨_, rfl⟩

end Answer

/-! ## The server -/

/-- The request that stores a value, for some seconds or for good. -/
def setRequest (key value : Value) (seconds : Option ℤ) : List Value :=
  [ascii "SET", key, value] ++
    match seconds with
    | some n => [ascii "EX", ascii (toString n)]
    | none => []

/-- What is assumed of a server.  `items` are the values of its databases and `db` is
    the database of a connection. -/
structure Redis where
  State : Type
  Session : Type
  connected : Session
  db : Session → ℤ
  items : State → ℤ → Value → Option Item
  /-- The answer to a request at a time, and the connection and the server after it. -/
  serve : State → Session → ℤ → List Value → Answer × Session × State
  framed : ∀ s c now request, (serve s c now request).1.Framed
  db_connected : db connected = 0
  /-- A request that is refused writes nothing. -/
  refused : ∀ {s c now request}, (serve s c now request).1.reply.isOk = false →
    ∀ d k, ∀ item ∈ items (serve s c now request).2.2 d k, item ∈ items s d k
  auth : ∀ {s c now password}, (serve s c now [ascii "AUTH", password]).1.reply.isOk →
    db (serve s c now [ascii "AUTH", password]).2.1 = db c ∧
    ∀ d k, ∀ item ∈ items (serve s c now [ascii "AUTH", password]).2.2 d k, item ∈ items s d k
  select : ∀ {s c now} {n : ℤ}, 0 < n →
    (serve s c now [ascii "SELECT", ascii (toString n)]).1.reply.isOk →
    db (serve s c now [ascii "SELECT", ascii (toString n)]).2.1 = n ∧
    ∀ d k, ∀ item ∈ items (serve s c now [ascii "SELECT", ascii (toString n)]).2.2 d k,
      item ∈ items s d k
  /-- A value that is stored replaces the one before. -/
  set : ∀ {s c now key value} {seconds : Option ℤ}, (∀ n ∈ seconds, 0 < n) →
    (serve s c now (setRequest key value seconds)).1.reply.isOk →
    ∀ d k, ∀ item ∈ items (serve s c now (setRequest key value seconds)).2.2 d k,
      if d = db c ∧ k = key then item = ⟨value, seconds.map (now + · * second)⟩
      else item ∈ items s d k
  /-- A value that is found is there and has not expired. -/
  get : ∀ {s c now key} {reply : RedisReply},
    (serve s c now [ascii "GET", key]).1.reply = .ok reply →
    (reply.isNil = false →
      ∃ item ∈ items s (db c) key, ¬item.expired now ∧ item.value = reply.data) ∧
    ∀ d k, ∀ item ∈ items (serve s c now [ascii "GET", key]).2.2 d k, item ∈ items s d k

namespace Redis

/-- Values have been dropped, but none written. -/
def Drops (redis : Redis) (s t : redis.State) : Prop :=
  ∀ d k, ∀ item ∈ redis.items t d k, item ∈ redis.items s d k

theorem Drops.trans {redis : Redis} {s t u : redis.State} (h : redis.Drops s t)
    (h' : redis.Drops t u) : redis.Drops s u :=
  fun d k item hi => h d k item (h' d k item hi)

end Redis

/-! ## Conversations -/

/-- What the network does to a connection.  A request that cannot be written, or only
    in part, may have reached the server. -/
structure Link where
  dialErr : Option String
  writeErr : Value → Option String
  reaches : Value → Bool
  arriving : ℕ
  close : ReadError

section
variable (redis : Redis)

/-- The server answers the requests of a connection, of which the client makes the
    next one when it has the whole answer to the one before and is not refused.  The
    first result is what arrives of the answers. -/
def Link.converse (link : Link) (now : ℤ) :
    redis.State → redis.Session → List (List Value) → ℕ → Value × redis.State
  | s, _, [], _ => ([], s)
  | s, c, request :: requests, arriving =>
    let served := redis.serve s c now request
    let answer := served.1
    if (link.writeErr (writeRESP request)).isSome then
      ([], if link.reaches (writeRESP request) then served.2.2 else s)
    else if answer.reply.isOk = false ∨ arriving < answer.bytes.length then
      (answer.bytes.take arriving, served.2.2)
    else
      let rest := link.converse now served.2.2 served.2.1 requests
        (arriving - answer.bytes.length)
      (answer.bytes ++ rest.1, rest.2)

/-- What can come of the requests of a connection. -/
inductive Talk (now : ℤ) : redis.State → redis.Session → List (List Value) →
    Except Stop RedisReply → redis.State → Prop
  /-- The next request does not reach the server. -/
  | unreached {s c requests err} : Talk now s c requests (.error (.error err)) s
  /-- It is refused, or its answer does not arrive. -/
  | unanswered {s c request requests err} :
      Talk now s c (request :: requests) (.error (.error err)) (redis.serve s c now request).2.2
  | answered {s c request reply} : (redis.serve s c now request).1.reply = .ok reply →
      Talk now s c [request] (.ok reply) (redis.serve s c now request).2.2
  | next {s c request request' requests reply res t} :
      (redis.serve s c now request).1.reply = .ok reply →
      Talk now (redis.serve s c now request).2.2 (redis.serve s c now request).2.1
        (request' :: requests) res t →
      Talk now s c (request :: request' :: requests) res t

end

/-- The requests of a command. -/
def RedisOptions.requests (options : RedisOptions) (args : List Value) : List (List Value) :=
  (if trimSpace options.password ≠ "" then [[ascii "AUTH", options.password.toUTF8.toList]]
    else []) ++
  ((if options.db > 0 then [[ascii "SELECT", ascii (toString options.db)]] else []) ++ [args])

namespace Conn

/-- Requests one after the other, of which only the last reply is used. -/
def exchangeAll (conn : Conn) (stack : ℕ) : List (List Value) → Value → Except Stop RedisReply
  | [], _ => .ok {}
  | [args], bytes => (conn.exchange stack args bytes).map Prod.fst
  | args :: args' :: requests, bytes => do
    let (_, bytes) ← conn.exchange stack args bytes
    conn.exchangeAll stack (args' :: requests) bytes

theorem command_eq {conn : Conn} {options : RedisOptions} (haddr : trimSpace options.addr ≠ "")
    (hdial : conn.dialErr = none) (stack : ℕ) (args : List Value) :
    conn.command stack options args =
      conn.exchangeAll stack (options.requests args) conn.bytes := by
  have hmap : ∀ (m : Except Stop (RedisReply × Value)) (f : Value → Except Stop RedisReply),
      (m.map Prod.snd >>= f) = (m >>= fun r => f r.2) := by
    intro m f
    cases m <;> rfl
  simp only [command, if_neg haddr, hdial, exchangeIf, RedisOptions.requests]
  by_cases hpassword : trimSpace options.password ≠ "" <;> by_cases hdb : options.db > 0
  · simp only [if_pos hpassword, if_pos hdb, List.singleton_append, exchangeAll, hmap]
  · simp only [if_pos hpassword, if_neg hdb, List.singleton_append, List.nil_append, exchangeAll,
      hmap]
    rfl
  · simp only [if_neg hpassword, if_pos hdb, List.singleton_append, List.nil_append, exchangeAll,
      hmap]
    rfl
  · simp only [if_neg hpassword, if_neg hdb, List.nil_append, exchangeAll]
    rfl

end Conn

namespace Link
variable {redis : Redis} {now : ℤ} {s : redis.State} {c : redis.Session}

/-- The client's end of the connection. -/
def conn (link : Link) (bytes : Value) : Conn := ⟨link.dialErr, link.writeErr, bytes, link.close⟩

@[simp] theorem conn_bytes (link : Link) (bytes : Value) : (link.conn bytes).bytes = bytes := rfl

/-- One request and what arrives of the answer to it. -/
theorem exchange_cases (link : Link) (stack : ℕ) (request : List Value) {answer : Answer}
    (hframed : answer.Framed) (bytes : Value) :
    (∀ err, link.writeErr (writeRESP request) = some err →
      (link.conn bytes).exchange (stack + 1) request [] = .error (.error (.other err))) ∧
    (link.writeErr (writeRESP request) = none →
      (∀ n, answer.reply.isOk = false ∨ n < answer.bytes.length →
        ∃ err, (link.conn bytes).exchange (stack + 1) request (answer.bytes.take n) =
          .error (.error err)) ∧
      ∀ rest, (link.conn bytes).exchange (stack + 1) request (answer.bytes ++ rest) =
        answer.reply.map (·, rest)) := by
  refine ⟨fun err herr => ?_, fun hnone => ⟨fun n hn => ?_, fun rest => ?_⟩⟩
  · simp only [Conn.exchange, conn, herr]
  · simp only [Conn.exchange, conn, hnone]
    by_cases hlen : n < answer.bytes.length
    · refine Answer.read_cut hframed (List.take_prefix n _) (fun heq => ?_) stack
      have := congrArg List.length heq
      rw [List.length_take] at this
      omega
    · rw [List.take_of_length_le (not_lt.1 hlen), ← List.append_nil answer.bytes,
        Answer.read_bytes hframed]
      have hrefused := hn.resolve_right hlen
      cases answer with
      | refused line => exact ⟨_, rfl⟩
      | ok => cases hrefused
      | null => cases hrefused
      | value v => cases hrefused
  · simp only [Conn.exchange, conn, hnone]
    exact Answer.read_bytes hframed stack rest

/-- **Every command is a conversation**, wherever the connection breaks. -/
theorem talks (link : Link) (now : ℤ) (stack : ℕ) (bytes : Value) {requests : List (List Value)}
    (hne : requests ≠ []) (arriving : ℕ) :
    Talk redis now s c requests
      ((link.conn bytes).exchangeAll (stack + 1) requests
        (link.converse redis now s c requests arriving).1)
      (link.converse redis now s c requests arriving).2 := by
  induction requests generalizing s c arriving with
  | nil => exact absurd rfl hne
  | cons request requests ih =>
    obtain ⟨hfail, hwrite⟩ := exchange_cases link stack request (redis.framed s c now request) bytes
    -- an error of the first exchange is the result of the command
    have herror : ∀ {bytes' : Value} {err : RespError},
        (link.conn bytes).exchange (stack + 1) request bytes' = .error (.error err) →
        (link.conn bytes).exchangeAll (stack + 1) (request :: requests) bytes' =
          .error (.error err) := by
      intro bytes' err h
      cases requests with
      | nil => rw [Conn.exchangeAll, h]; rfl
      | cons request' requests => rw [Conn.exchangeAll, h]; rfl
    rw [converse]
    cases hw : link.writeErr (writeRESP request) with
    | some err =>
      dsimp only [Option.isSome_some]
      rw [if_pos rfl, herror (hfail err hw)]
      split
      · exact .unanswered
      · exact .unreached
    | none =>
      obtain ⟨hcut, hread⟩ := hwrite hw
      dsimp only [Option.isSome_none]
      rw [if_neg Bool.false_ne_true]
      split
      · rename_i hlost
        obtain ⟨err, herr⟩ := hcut arriving hlost
        rw [herror herr]
        exact .unanswered
      · rename_i harrived
        rw [not_or, Bool.not_eq_false] at harrived
        obtain ⟨reply, hreply⟩ := exists_ok_of_isOk harrived.1
        have hexchange := fun rest => (hread rest).trans (congrArg (Except.map (·, rest)) hreply)
        cases requests with
        | nil =>
          rw [Conn.exchangeAll, hexchange]
          exact .answered hreply
        | cons request' requests =>
          rw [Conn.exchangeAll, hexchange]
          exact .next hreply (ih (List.cons_ne_nil _ _) _)

end Link

/-! ## Conversations in which nothing is lost -/

/-- The server refuses none of the requests. -/
inductive Redis.Accepts (redis : Redis) (now : ℤ) :
    redis.State → redis.Session → List (List Value) → Prop
  | nil {s c} : Accepts redis now s c []
  | cons {s c request requests} : (redis.serve s c now request).1.reply.isOk →
      Accepts redis now (redis.serve s c now request).2.2 (redis.serve s c now request).2.1 requests →
      Accepts redis now s c (request :: requests)

/-- The connection is established, and requests are written. -/
def Link.Open (link : Link) : Prop := link.dialErr = none ∧ ∀ request, link.writeErr request = none

/-- A command is answered if enough of the answers arrives. -/
theorem Link.exists_arriving {redis : Redis} {now : ℤ} {s : redis.State} {c : redis.Session}
    (stack : ℕ) {requests : List (List Value)} (haccepts : redis.Accepts now s c requests) :
    ∃ n, ∀ link : Link, link.Open → ∀ arriving ≥ n, ∀ bytes,
      ((link.conn bytes).exchangeAll (stack + 1) requests
        (link.converse redis now s c requests arriving).1).isOk := by
  induction haccepts with
  | nil => exact ⟨0, fun _ _ _ _ _ => rfl⟩
  | @cons s c request requests hok _ ih =>
    obtain ⟨n, hn⟩ := ih
    refine ⟨(redis.serve s c now request).1.bytes.length + n, ?_⟩
    intro link hopen arriving harriving bytes
    obtain ⟨-, hwrite⟩ := exchange_cases link stack request (redis.framed s c now request) bytes
    obtain ⟨-, hread⟩ := hwrite (hopen.2 _)
    obtain ⟨reply, hreply⟩ := exists_ok_of_isOk hok
    have harrives : ¬((redis.serve s c now request).1.reply.isOk = false ∨
        arriving < (redis.serve s c now request).1.bytes.length) := by
      rw [hok]
      simp only [Bool.true_eq_false, false_or, not_lt]
      omega
    rw [converse, hopen.2]
    dsimp only [Option.isSome_none]
    rw [if_neg Bool.false_ne_true, if_neg harrives]
    cases requests with
    | nil =>
      rw [Conn.exchangeAll, hread, hreply]
      rfl
    | cons request' requests =>
      rw [Conn.exchangeAll, hread, hreply]
      exact hn link hopen _ (by omega) bytes

end Aggregator.Realtime
