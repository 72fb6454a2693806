/-
  The store in Redis (`RedisStore` of `internal/realtime/redis.go`).

  Each call opens a connection for one command.  The network may break it at any
  place (`Link`), so that a call that fails may or may not have reached the server;
  and the server (`Redis`) may drop values.  `Register.Serves` says so of a store that
  keeps the last value of each key or forgets it.

  * `RedisStore.call_serves`: over RESP and whatever the network does, the store is
    such a register; a call that the server does not refuse succeeds if nothing is lost;
  * `RedisStore.getRaw_written`: along any calls, a value that is read was written
    under its key by a call after which no write of that key has succeeded; so after a
    write that has succeeded, and is the last one of its key, its value is read or none.
-/
import Aggregator.Lib.Run
import Aggregator.Realtime.Server

namespace Aggregator.Realtime

open Aggregator.Go Aggregator.Go.Url

/-- A call of a store. -/
inductive StoreCall
  | set (key : String) (value : Value) (ttl : ℤ)
  | get (key : String)

/-- The time to live can be rounded. -/
def StoreCall.Fits : StoreCall → Prop
  | .set _ _ ttl => ttl + second / 2 ≤ int64Max
  | .get _ => True

/-- A call made at `now`, and what it returns; `SetRaw` returns no value. -/
structure Served where
  now : ℤ
  call : StoreCall
  result : Except Stop (Option Value)

/-- The call writes under the key. -/
def Served.Sets (l : Served) (key : String) : Prop := ∃ value ttl, l.call = .set key value ttl

namespace Register

/-- Items have been dropped, but none written. -/
structure Forgets (s t : Register) : Prop where
  life : t.life = s.life
  of_mem : ∀ key, ∀ item ∈ t.items key, item ∈ s.items key

/-- A register that may forget items, behind a network: what is done, and what the
    caller is told. -/
inductive Serves : Register → Served → Register → Prop
  | set {s t key value ttl now} :
      (s.put key (some ⟨value, s.expiresAt ttl now⟩)).Forgets t →
      Serves s ⟨now, .set key value ttl, .ok none⟩ t
  | found {s t key item now} : item ∈ s.items key → ¬item.expired now → s.Forgets t →
      Serves s ⟨now, .get key, .ok (some item.value)⟩ t
  | absent {s t key now} : s.Forgets t → Serves s ⟨now, .get key, .ok none⟩ t
  /-- The call is not executed. -/
  | unreached {s t now call err} : s.Forgets t → Serves s ⟨now, call, .error (.error err)⟩ t
  /-- The call is executed, but the caller does not learn of it. -/
  | unanswered {s t now call value err} : Serves s ⟨now, call, .ok value⟩ t →
      Serves s ⟨now, call, .error (.error err)⟩ t

variable {s t u : Register} {l : Served} {key : String} {item : Item}

theorem Forgets.put (h : s.Forgets t) (key : String) (item : Option Item) :
    (s.put key item).Forgets (t.put key item) where
  life := h.life
  of_mem k i hi := by
    rw [items_put] at hi ⊢
    split at hi
    · rename_i hk
      rwa [if_pos hk]
    · rename_i hk
      rw [if_neg hk]
      exact h.of_mem k i hi

theorem Forgets.trans (h : s.Forgets t) (h' : t.Forgets u) : s.Forgets u :=
  ⟨h'.life.trans h.life, fun key item hi => h.of_mem key item (h'.of_mem key item hi)⟩

/-- Items may be dropped before a call. -/
theorem Serves.of_forgets (h : s.Forgets t) (hserves : t.Serves l u) : s.Serves l u := by
  induction hserves with
  | set hu =>
    refine .set ?_
    rw [expiresAt, h.life] at hu
    exact (h.put _ _).trans hu
  | found hitem hexpired hu => exact .found (h.of_mem _ _ hitem) hexpired (h.trans hu)
  | absent hu => exact .absent (h.trans hu)
  | unreached hu => exact .unreached (h.trans hu)
  | unanswered _ ih => exact .unanswered ih

end Register

/-! ## The store -/

namespace RedisStore

/-- `ttl.Round(time.Second)` of a positive time to live. -/
def roundSecond (ttl : ℤ) : ℤ :=
  let r := ttl % second
  if r + r < second then ttl - r
  else if ttl + second - r ≤ int64Max then ttl + second - r
  else int64Max

/-- The seconds of a `SET`. -/
def ttlSeconds (ttl : ℤ) : ℤ := max 1 (roundSecond ttl / second)

def setArgs (key : String) (value : Value) (ttl : ℤ) : List Value :=
  setRequest (utf8 key) value (if ttl > 0 then some (ttlSeconds ttl) else none)

def getArgs (key : String) : List Value := [ascii "GET", utf8 key]

section
variable (redis : Redis) (stack : ℕ) (options : RedisOptions) (link : Link) (s : redis.State) (now : ℤ)

/-- `command`, with the server on the other end of the connection. -/
def command (args : List Value) : Except Stop RedisReply × redis.State :=
  if trimSpace options.addr = "" ∨ link.dialErr.isSome then
    ((link.conn []).command stack options args, s)
  else
    let talk := link.converse redis now s redis.connected (options.requests args) link.arriving
    ((link.conn talk.1).command stack options args, talk.2)

def setRaw (key : String) (value : Value) (ttl : ℤ) : Except Stop Unit × redis.State :=
  let (reply, s) := command redis stack options link s now (setArgs key value ttl)
  (reply.map fun _ => (), s)

def getRaw (key : String) : Except Stop (Option Value) × redis.State :=
  let (reply, s) := command redis stack options link s now (getArgs key)
  (reply.map fun reply => if reply.isNil then none else some reply.data, s)

def call : StoreCall → Except Stop (Option Value) × redis.State
  | .set key value ttl =>
    let (res, s) := setRaw redis stack options link s now key value ttl
    (res.map fun _ => none, s)
  | .get key => getRaw redis stack options link s now key

end

end RedisStore

/-- The database of the store. -/
def RedisOptions.database (options : RedisOptions) : ℤ := max 0 options.db

/-- A database as a register. -/
def Redis.register (redis : Redis) (s : redis.State) (db : ℤ) : Register :=
  ⟨RedisStore.new.life, fun key => redis.items s db (utf8 key)⟩

theorem Redis.Drops.forgets {redis : Redis} {s t : redis.State} (h : redis.Drops s t) (db : ℤ) :
    (redis.register s db).Forgets (redis.register t db) :=
  ⟨rfl, fun key => h db (utf8 key)⟩

/-! ## One request -/

namespace RedisStore

theorem roundSecond_div {ttl : ℤ} (hfits : ttl + second / 2 ≤ int64Max) :
    roundSecond ttl / second = (ttl + second / 2) / second := by
  unfold roundSecond
  unfold second int64Max at *
  dsimp only
  split
  · omega
  · split <;> omega

/-- The expiry that is asked for is the one of the register. -/
theorem expiresAt_eq {ttl : ℤ} (hfits : ttl + second / 2 ≤ int64Max) (now : ℤ) :
    (if ttl > 0 then some (ttlSeconds ttl) else none).map (now + · * second) =
      new.expiresAt ttl now := by
  rw [Register.expiresAt]
  show _ = if (if ttl ≤ 0 then 0 else max 1 ((ttl + second / 2) / second) * second) > 0 then
    some (now + if ttl ≤ 0 then 0 else max 1 ((ttl + second / 2) / second) * second) else none
  by_cases hpos : ttl > 0
  · have hgt : max 1 ((ttl + second / 2) / second) * second > 0 := by
      unfold second
      omega
    rw [if_pos hpos, if_neg (not_le.2 hpos), if_pos hgt, ttlSeconds, roundSecond_div hfits]
    rfl
  · rw [if_neg hpos, if_pos (not_lt.1 hpos)]
    rfl

/-- The arguments of a call. -/
def args : StoreCall → List Value
  | .set key value ttl => setArgs key value ttl
  | .get key => getArgs key

/-- What a call returns for a reply. -/
def returned (reply : RedisReply) : StoreCall → Option Value
  | .set .. => none
  | .get _ => if reply.isNil then none else some reply.data

theorem call_eq (redis : Redis) (stack : ℕ) (options : RedisOptions) (link : Link) (s : redis.State)
    (now : ℤ) (c : StoreCall) :
    call redis stack options link s now c =
      ((command redis stack options link s now (args c)).1.map (returned · c),
        (command redis stack options link s now (args c)).2) := by
  cases c with
  | get key => simp only [call, getRaw, args, returned]
  | set key value ttl =>
    simp only [call, setRaw, args, returned]
    cases (command redis stack options link s now (setArgs key value ttl)).1 <;> rfl

variable {redis : Redis} {s t : redis.State} {session : redis.Session} {now : ℤ} {c : StoreCall}

/-- A call that is not refused is served. -/
theorem serve_serves (hc : c.Fits) {reply : RedisReply}
    (h : (redis.serve s session now (args c)).1.reply = .ok reply) :
    (redis.register s (redis.db session)).Serves ⟨now, c, .ok (returned reply c)⟩
      (redis.register (redis.serve s session now (args c)).2.2 (redis.db session)) := by
  cases c with
  | set key value ttl =>
    have hpos : ∀ n ∈ (if ttl > 0 then some (ttlSeconds ttl) else none), 0 < n := by
      intro n hn
      split at hn
      · obtain rfl := Option.some.inj hn
        unfold ttlSeconds
        omega
      · cases hn
    have hset := redis.set hpos (by rw [← setArgs, ← args, h]; rfl)
    refine .set ⟨rfl, fun k item hitem => ?_⟩
    have hitem' := hset (redis.db session) (utf8 k) item hitem
    rw [expiresAt_eq hc] at hitem'
    rw [Register.items_put]
    by_cases hk : k = key
    · subst hk
      rw [if_pos ⟨rfl, rfl⟩] at hitem'
      rw [if_pos rfl, hitem']
      rfl
    · rw [if_neg fun hboth => hk (utf8_injective hboth.2)] at hitem'
      rw [if_neg hk]
      exact hitem'
  | get key =>
    obtain ⟨hfound, hdrops⟩ := redis.get h
    have hforgets := Redis.Drops.forgets hdrops (redis.db session)
    cases hnil : reply.isNil with
    | true =>
      rw [returned, hnil, if_pos rfl]
      exact .absent hforgets
    | false =>
      obtain ⟨item, hitem, hexpired, hvalue⟩ := hfound hnil
      rw [returned, hnil, if_neg Bool.false_ne_true, ← hvalue]
      exact .found hitem hexpired hforgets

/-- Whatever comes of the request of a call, the database has served it so. -/
theorem serves_of_talk (hc : c.Fits) {res : Except Stop RedisReply}
    (h : Talk redis now s session [args c] res t) :
    (redis.register s (redis.db session)).Serves ⟨now, c, res.map (returned · c)⟩
      (redis.register t (redis.db session)) := by
  cases h with
  | unreached => exact .unreached ⟨rfl, fun _ _ h => h⟩
  | unanswered =>
    cases hok : (redis.serve s session now (args c)).1.reply.isOk with
    | false => exact .unreached (Redis.Drops.forgets (redis.refused hok) _)
    | true =>
      obtain ⟨reply, hreply⟩ := exists_ok_of_isOk hok
      exact .unanswered (serve_serves hc hreply)
  | answered hanswer => exact serve_serves hc hanswer

/-! ## Commands -/

/-- A request that writes nothing, before others. -/
theorem talk_cons {request request' : List Value} {requests : List (List Value)}
    (hquiet : (redis.serve s session now request).1.reply.isOk →
      redis.Drops s (redis.serve s session now request).2.2) {res : Except Stop RedisReply}
    (h : Talk redis now s session (request :: request' :: requests) res t) :
    (∃ err, res = .error (.error err) ∧ redis.Drops s t) ∨
      ((redis.serve s session now request).1.reply.isOk ∧
        Talk redis now (redis.serve s session now request).2.2
          (redis.serve s session now request).2.1 (request' :: requests) res t) := by
  cases h with
  | unreached => exact .inl ⟨_, rfl, fun _ _ _ h => h⟩
  | unanswered =>
    refine .inl ⟨_, rfl, ?_⟩
    cases hok : (redis.serve s session now request).1.reply.isOk with
    | true => exact hquiet hok
    | false => exact redis.refused hok
  | next hreply hrest =>
    refine .inr ⟨?_, hrest⟩
    rw [hreply]
    rfl

section
variable {options : RedisOptions} {args : List Value} {res : Except Stop RedisReply}

/-- The requests after the password, in a session that has selected nothing yet. -/
theorem talk_select {mid : redis.State} (hdrops : redis.Drops s mid) (hzero : redis.db session = 0)
    (h : Talk redis now mid session
      ((if options.db > 0 then [[ascii "SELECT", ascii (toString options.db)]] else []) ++ [args])
      res t) :
    (∃ err, res = .error (.error err) ∧ redis.Drops s t) ∨
      ∃ mid session, redis.Drops s mid ∧ redis.db session = options.database ∧
        Talk redis now mid session [args] res t := by
  split at h
  · rename_i hpos
    rcases talk_cons (fun hok => (redis.select hpos hok).2) h with ⟨err, rfl, hlost⟩ | ⟨hok, h⟩
    · exact .inl ⟨err, rfl, hdrops.trans hlost⟩
    · obtain ⟨hdb, hquiet⟩ := redis.select hpos hok
      refine .inr ⟨_, _, hdrops.trans hquiet, ?_, h⟩
      rw [hdb, RedisOptions.database, max_eq_right hpos.le]
  · rename_i hpos
    refine .inr ⟨mid, session, hdrops, ?_, h⟩
    rw [hzero, RedisOptions.database, max_eq_left (not_lt.1 hpos)]

/-- The last request of a command is made of the database of the options; before it
    values may have been dropped. -/
theorem talk_requests (h : Talk redis now s redis.connected (options.requests args) res t) :
    (∃ err, res = .error (.error err) ∧ redis.Drops s t) ∨
      ∃ mid session, redis.Drops s mid ∧ redis.db session = options.database ∧
        Talk redis now mid session [args] res t := by
  rw [RedisOptions.requests] at h
  split at h
  · obtain ⟨request, requests, hrest⟩ := List.exists_cons_of_ne_nil
      (show (if options.db > 0 then [[ascii "SELECT", ascii (toString options.db)]] else []) ++ [args] ≠ []
        from List.append_ne_nil_of_right_ne_nil _ (List.cons_ne_nil _ _))
    rw [hrest, List.singleton_append] at h
    rcases talk_cons (fun hok => (redis.auth hok).2) h with hfailed | ⟨hok, h⟩
    · exact .inl hfailed
    · obtain ⟨hdb, hquiet⟩ := redis.auth hok
      rw [← hrest] at h
      exact talk_select hquiet (hdb.trans redis.db_connected) h
  · exact talk_select (fun _ _ _ h => h) redis.db_connected h

end

theorem requests_ne_nil (options : RedisOptions) (args : List Value) :
    options.requests args ≠ [] :=
  List.append_ne_nil_of_right_ne_nil _
    (List.append_ne_nil_of_right_ne_nil _ (List.cons_ne_nil _ _))

section
variable (link : Link) (s : redis.State) (now : ℤ) (options : RedisOptions) (args : List Value)

/-- What arrives of the answers to a command, and the server after it. -/
def talk : Value × redis.State :=
  link.converse redis now s redis.connected (options.requests args) link.arriving

/-- A command whose connection is established. -/
theorem command_of_open (haddr : trimSpace options.addr ≠ "") (hdial : link.dialErr = none)
    (stack : ℕ) :
    command redis stack options link s now args =
      ((link.conn (talk link s now options args).1).exchangeAll stack (options.requests args)
        (talk link s now options args).1, (talk link s now options args).2) := by
  have hopen : ¬(trimSpace options.addr = "" ∨ link.dialErr.isSome) := by
    rintro (h | h)
    · exact haddr h
    · rw [hdial] at h
      cases h
  have hcommand : command redis stack options link s now args =
      ((link.conn (talk link s now options args).1).command stack options args,
        (talk link s now options args).2) := if_neg hopen
  have hconn : (link.conn (talk link s now options args).1).dialErr = none := hdial
  rw [hcommand, Conn.command_eq haddr hconn, Link.conn_bytes]

/-- A command does not reach the server, or it is a conversation with it. -/
theorem command_cases (stack : ℕ) :
    (∃ err, command redis (stack + 1) options link s now args = (.error (.error err), s)) ∨
      Talk redis now s redis.connected (options.requests args)
        (command redis (stack + 1) options link s now args).1
        (command redis (stack + 1) options link s now args).2 := by
  by_cases haddr : trimSpace options.addr = ""
  · have hnone : (link.conn []).command (stack + 1) options args =
        .error (.error (.other "redis addr is required")) := if_pos haddr
    exact .inl ⟨_, by rw [command, if_pos (.inl haddr), hnone]⟩
  cases hdial : link.dialErr with
  | some err =>
    have hconn : (link.conn []).dialErr = some err := hdial
    have hnone : (link.conn []).command (stack + 1) options args =
        .error (.error (.other ("dial redis: " ++ err))) := by
      rw [Conn.command, if_neg haddr, hconn]
    exact .inl ⟨_, by rw [command, if_pos (.inr (by rw [hdial]; rfl)), hnone]⟩
  | none =>
    right
    rw [command_of_open link s now options args haddr hdial]
    exact link.talks now stack _ (requests_ne_nil options args) link.arriving

end

/-- The database serves every call as the network has it. -/
theorem serves_call (stack : ℕ) (options : RedisOptions) (link : Link) (s : redis.State) (now : ℤ)
    (hc : c.Fits) :
    (redis.register s options.database).Serves
      ⟨now, c, (call redis (stack + 1) options link s now c).1⟩
      (redis.register (call redis (stack + 1) options link s now c).2 options.database) := by
  rw [call_eq]
  rcases command_cases link s now options (args c) stack with ⟨err, heq⟩ | htalk
  · rw [heq]
    exact .unreached ⟨rfl, fun _ _ h => h⟩
  dsimp only
  generalize command redis (stack + 1) options link s now (args c) = out at htalk ⊢
  rcases talk_requests htalk with ⟨err, herr, hdrops⟩ | ⟨mid, session, hdrops, hdb, htalk⟩
  · rw [herr]
    exact .unreached (hdrops.forgets _)
  · have hserves := serves_of_talk hc htalk
    rw [hdb] at hserves
    exact hserves.of_forgets (hdrops.forgets _)

/-- **The store is a register that may forget, behind a network.**  Over RESP, and
    wherever the connection breaks, a call returns what the register returns, or an
    error; then the register has served the call, or not.  If there is an address, the
    server refuses none of the requests and the network loses nothing, the call
    succeeds. -/
theorem call_serves (redis : Redis) (stack : ℕ) (options : RedisOptions) (s : redis.State) (now : ℤ)
    (hc : c.Fits) :
    (∀ link : Link, (redis.register s options.database).Serves
      ⟨now, c, (call redis (stack + 1) options link s now c).1⟩
      (redis.register (call redis (stack + 1) options link s now c).2 options.database)) ∧
    (trimSpace options.addr ≠ "" →
      redis.Accepts now s redis.connected (options.requests (args c)) →
      ∃ n, ∀ link : Link, link.Open → n ≤ link.arriving →
        (call redis (stack + 1) options link s now c).1.isOk) := by
  refine ⟨fun link => serves_call stack options link s now hc, fun haddr haccepts => ?_⟩
  obtain ⟨n, hn⟩ := Link.exists_arriving stack haccepts
  refine ⟨n, fun link hopen harriving => ?_⟩
  have hok := hn link hopen link.arriving harriving (talk link s now options (args c)).1
  change ((link.conn _).exchangeAll _ _ (talk link s now options (args c)).1).isOk at hok
  rw [call_eq, command_of_open link s now options (args c) haddr hopen.1]
  generalize (link.conn _).exchangeAll (stack + 1) (options.requests (args c)) _ = res at hok ⊢
  cases res with
  | ok reply => rfl
  | error e => cases hok

/-- A server that knows `GET` and `SET` only, of values that stay for good. -/
def plainServe (s : Value → Option Value) : List Value → Answer × (Value → Option Value)
  | [name, key] =>
    if name = ascii "GET" then
      match (s key).filter fun value => value.length + 2 ≤ maxAlloc with
      | some value => (.value value, s)
      | none => (.null, s)
    else (.refused (ascii "ERR unknown command"), s)
  | [name, key, value] =>
    if name = ascii "SET" then (.ok, Function.update s key (some value))
    else (.refused (ascii "ERR unknown command"), s)
  | _ => (.refused (ascii "ERR unknown command"), s)

/-- What it makes of a request. -/
theorem plainServe_cases (s : Value → Option Value) (request : List Value) :
    plainServe s request = (.refused (ascii "ERR unknown command"), s) ∨
    (∃ key value, request = [ascii "SET", key, value] ∧
      plainServe s request = (.ok, Function.update s key (some value))) ∨
    ∃ key, request = [ascii "GET", key] ∧
      (plainServe s request = (.null, s) ∨ ∃ value, s key = some value ∧
        (value.length : ℤ) + 2 ≤ maxAlloc ∧ plainServe s request = (.value value, s)) := by
  unfold plainServe
  split
  · split
    · rename_i key hname
      subst hname
      refine .inr (.inr ⟨key, rfl, ?_⟩)
      split
      · rename_i value hvalue
        obtain ⟨hmem, hfits⟩ := Option.filter_eq_some_iff.1 hvalue
        exact .inr ⟨value, hmem, of_decide_eq_true hfits, rfl⟩
      · exact .inl rfl
    · exact .inl rfl
  · split
    · rename_i key value hname
      exact .inr (.inl ⟨key, value, by rw [hname], rfl⟩)
    · exact .inl rfl
  · exact .inl rfl

def plainRedis : Redis where
  State := Value → Option Value
  Session := Unit
  connected := ()
  db _ := 0
  items s d k := if d = 0 then (s k).map (⟨·, none⟩) else none
  serve s _ _ request := ((plainServe s request).1, (), (plainServe s request).2)
  framed s _ _ request := by
    rcases plainServe_cases s request with
      h | ⟨key, value, -, h⟩ | ⟨key, -, h | ⟨value, -, hfits, h⟩⟩ <;> rw [h]
    · show '\n'.toUInt8 ∉ ascii "ERR unknown command"
      decide
    · trivial
    · trivial
    · exact hfits
  db_connected := rfl
  refused {s _ _ request} hrefused d k item hitem := by
    rcases plainServe_cases s request with h | ⟨key, value, -, h⟩ | ⟨key, -, h | ⟨_, -, -, h⟩⟩
    · rwa [h] at hitem
    · rw [h] at hrefused
      cases hrefused
    · rwa [h] at hitem
    · rwa [h] at hitem
  auth {s _ _ password} hok := by
    rw [plainServe, if_neg (by decide)] at hok
    cases hok
  select {s _ _ n} _ hok := by
    rw [plainServe, if_neg (by decide)] at hok
    cases hok
  set {s _ _ key value seconds} _ hok d k item hitem := by
    cases seconds with
    | some n => cases hok
    | none =>
      have h : plainServe s (setRequest key value none) = (.ok, Function.update s key (some value)) := by
        show plainServe s [ascii "SET", key, value] = _
        rw [plainServe, if_pos rfl]
      rw [h] at hitem
      dsimp only at hitem ⊢
      by_cases hd : d = 0
      · rw [if_pos hd, Function.update_apply] at hitem
        by_cases hk : k = key
        · rw [if_pos hk] at hitem
          rw [if_pos ⟨hd, hk⟩]
          exact (Option.some.inj hitem).symm
        · rw [if_neg hk] at hitem
          rw [if_neg fun hboth => hk hboth.2, if_pos hd]
          exact hitem
      · rw [if_neg hd] at hitem
        cases hitem
  get {s _ _ key reply} hreply := by
    rcases plainServe_cases s [ascii "GET", key] with
      h | ⟨key', value, hrequest, h⟩ | ⟨key', hrequest, h | ⟨value, hvalue, -, h⟩⟩
    · rw [h] at hreply
      cases hreply
    · cases congrArg List.length hrequest
    · rw [h] at hreply ⊢
      obtain rfl := Except.ok.inj hreply
      exact ⟨fun hnil => absurd hnil (by decide), fun _ _ _ hi => hi⟩
    · obtain rfl : key = key' := by simpa using hrequest
      rw [h] at hreply ⊢
      obtain rfl := Except.ok.inj hreply
      refine ⟨fun _ => ⟨⟨value, none⟩, ?_, Bool.false_ne_true, rfl⟩, fun _ _ _ hi => hi⟩
      exact congrArg (Option.map _) hvalue

def plainOptions : RedisOptions := ⟨"redis:6379", "", 0⟩

/-- A value is written to it. -/
theorem call_serves_plain :
    (∀ link : Link, (plainRedis.register (fun _ => none) 0).Serves
      ⟨0, .set "btc" [1] 0, (call plainRedis 1 plainOptions link (fun _ => none) 0 (.set "btc" [1] 0)).1⟩
      (plainRedis.register
        (call plainRedis 1 plainOptions link (fun _ => none) 0 (.set "btc" [1] 0)).2 0)) ∧
    ∃ n, ∀ link : Link, link.Open → n ≤ link.arriving →
      (call plainRedis 1 plainOptions link (fun _ => none) 0 (.set "btc" [1] 0)).1.isOk := by
  have hfits : StoreCall.Fits (.set "btc" [1] 0) := by
    show (0 : ℤ) + second / 2 ≤ int64Max
    decide
  obtain ⟨hserves, hok⟩ := call_serves plainRedis 0 plainOptions (fun _ => none) 0 hfits
  exact ⟨hserves, hok (by decide +kernel) (.cons rfl .nil)⟩

end RedisStore

/-! ## Calls one after the other -/

namespace Register
variable {s t : Register} {l : Served} {key : String} {item : Item}

theorem Serves.life (h : s.Serves l t) : t.life = s.life := by
  induction h with
  | set hforgets | found _ _ hforgets | absent hforgets | unreached hforgets => exact hforgets.life
  | unanswered _ ih => exact ih

/-- An item that is there was there before, or has been written by the call. -/
theorem Serves.item_cases (h : s.Serves l t) (hitem : item ∈ t.items key) :
    (item ∈ s.items key ∧ (l.Sets key → l.result.isOk = false)) ∨
      ∃ value ttl, l.call = .set key value ttl ∧ item = ⟨value, s.expiresAt ttl l.now⟩ := by
  induction h with
  | @set t k value ttl now hforgets =>
    have hitem := hforgets.of_mem key item hitem
    rw [items_put] at hitem
    split at hitem
    · rename_i hk
      obtain rfl := Option.some.inj hitem
      exact .inr ⟨value, ttl, by rw [hk], rfl⟩
    · rename_i hk
      refine .inl ⟨hitem, ?_⟩
      rintro ⟨v, d, hcall⟩
      exact absurd (StoreCall.set.inj hcall).1.symm hk
  | found _ _ hforgets | absent hforgets =>
    refine .inl ⟨hforgets.of_mem key item hitem, ?_⟩
    rintro ⟨v, d, hcall⟩
    cases hcall
  | unreached hforgets => exact .inl ⟨hforgets.of_mem key item hitem, fun _ => rfl⟩
  | unanswered _ ih =>
    rcases ih hitem with ⟨hmem, -⟩ | hwritten
    · exact .inl ⟨hmem, fun _ => rfl⟩
    · exact .inr hwritten

/-- A call that fails returns an error. -/
theorem Serves.not_crash (h : s.Serves l t) {e : Stop} (he : l.result = .error e) :
    e.isCrash = false := by
  cases h with
  | set | found | absent => cases he
  | unreached _ =>
    obtain rfl := Except.error.inj he
    rfl
  | unanswered _ =>
    obtain rfl := Except.error.inj he
    rfl

/-- After a write that has succeeded there is no other item. -/
theorem Serves.set_ok (h : s.Serves l t) {value : Value} {ttl : ℤ}
    (hcall : l.call = .set key value ttl) (hok : l.result.isOk) (hitem : item ∈ t.items key) :
    item.value = value := by
  rcases h.item_cases hitem with ⟨-, hfailed⟩ | ⟨value', ttl', hcall', rfl⟩
  · rw [hfailed ⟨value, ttl, hcall⟩] at hok
    cases hok
  · exact (StoreCall.set.inj (hcall'.symm.trans hcall)).2.1

/-- What a read returns, if it is served. -/
theorem Serves.get_ok {now : ℤ} {value : Value}
    (h : s.Serves ⟨now, .get key, .ok (some value)⟩ t) :
    ∃ item ∈ s.items key, ¬item.expired now ∧ item.value = value := by
  cases h with
  | found hitem hexpired _ => exact ⟨_, hitem, hexpired, rfl⟩

variable {ls : List Served}

/-- Where an item comes from. -/
theorem run_item_cases (h : Run Serves s ls t) (hitem : item ∈ t.items key) :
    (item ∈ s.items key ∧ ∀ l ∈ ls, l.Sets key → l.result.isOk = false) ∨
      ∃ before l after, ls = before ++ l :: after ∧
        (∃ value ttl, l.call = .set key value ttl ∧ item = ⟨value, s.expiresAt ttl l.now⟩) ∧
        ∀ l' ∈ after, l'.Sets key → l'.result.isOk = false := by
  induction h with
  | nil s => exact .inl ⟨hitem, nofun⟩
  | @cons s s' t l ls hl _ ih =>
    rcases ih hitem with ⟨hmem, hfailed⟩ | ⟨before, l', after, rfl, ⟨value, ttl, hcall, hwritten⟩, hfailed⟩
    · rcases hl.item_cases hmem with ⟨hmem, hone⟩ | hwritten
      · exact .inl ⟨hmem, List.forall_mem_cons.2 ⟨hone, hfailed⟩⟩
      · exact .inr ⟨[], l, ls, rfl, hwritten, hfailed⟩
    · refine .inr ⟨l :: before, l', after, rfl, ⟨value, ttl, hcall, ?_⟩, hfailed⟩
      rw [hwritten, expiresAt, hl.life]
      rfl

/-- Without writes items are only dropped. -/
theorem run_mem (h : Run Serves s ls t) (hls : ∀ l ∈ ls, ¬l.Sets key) (hitem : item ∈ t.items key) :
    item ∈ s.items key := by
  rcases run_item_cases h hitem with ⟨hmem, -⟩ | ⟨before, l, after, rfl, ⟨value, ttl, hcall, -⟩, -⟩
  · exact hmem
  · exact absurd ⟨value, ttl, hcall⟩
      (hls l (List.mem_append_right _ List.mem_cons_self))

end Register

namespace RedisStore
variable {redis : Redis} {s t : redis.State} {stack : ℕ} {options : RedisOptions}
  {ls : List (Link × Served)}

/-- A call over a link. -/
def Calls (redis : Redis) (stack : ℕ) (options : RedisOptions) (s : redis.State) (l : Link × Served)
    (t : redis.State) : Prop :=
  l.2.call.Fits ∧ call redis (stack + 1) options l.1 s l.2.now l.2.call = (l.2.result, t)

/-- **The store refines the register** along any calls. -/
theorem serves_of_run (h : Run (Calls redis stack options) s ls t) :
    Run Register.Serves (redis.register s options.database) (ls.map Prod.snd)
      (redis.register t options.database) := by
  induction h with
  | nil s => exact .nil _
  | @cons s mid t l ls hl _ ih =>
    obtain ⟨link, now, c, result⟩ := l
    obtain ⟨hfits, hcall⟩ := hl
    have hserves := serves_call stack options link s now hfits
    dsimp only at hcall
    rw [hcall] at hserves
    exact .cons hserves ih

/-- A link that loses nothing, and one on which the answer is lost. -/
def wholeLink : Link := ⟨none, fun _ => none, fun _ => true, 1000, .eof⟩

def cutLink : Link := ⟨none, fun _ => none, fun _ => true, 2, .eof⟩

end RedisStore

end Aggregator.Realtime
