/-
  Writing latest values (`internal/realtime/events.go`).

  A `NormalizedWriter` turns the rows of a result into events and stores each under
  the key of its kind, exchange and symbol.  The JSON text of a row is modelled by the
  row.  A `World` is a store, with the errors that it gives to the calls made of it and
  the times that the clock shows; the state has all events that were stored, which the
  program does not keep.

  * `write_eq`: a call writes the events of a result in order, up to the first error;
  * `Holds.writeNormalized`: the store has the last event written under a key;
  * `adds_writeNormalized`, `wrote_write`: the events of a result are stored and no
    others, all of them if the store does not fail;
  * `latest_upToDate_iff`: this is the latest one, at all times, exactly if every event
    is at least as late as the one that it replaces.
-/
import Aggregator.Go.Time
import Aggregator.Lib.Effect
import Aggregator.Lib.History
import Aggregator.Normalizers.Market
import Aggregator.Realtime.Keys
import Aggregator.Scheduler.Models

namespace Aggregator.Realtime

open Aggregator.Go Aggregator.Normalizers Aggregator.Scheduler

structure LatestEvent (π : Type) where
  kind : String
  exchange : String
  sourceSymbol : String
  symbolID : ℤ
  eventTime : ℤ
  receivedAt : ℤ
  payload : π

def LatestEvent.key {π : Type} (event : LatestEvent π) : Except String String :=
  latestKey event.kind event.exchange event.sourceSymbol event.symbolID

/-- A text, or the row of which it is the JSON. -/
inductive Payload
  | raw (text : String)
  | market (row : NormalizedMarketSnapshot)
  | openInterest (row : NormalizedOpenInterest)
  | funding (row : NormalizedFundingSnapshot)
  | orderbookImbalance (row : NormalizedOrderbookImbalance)

/-- What is stored under a key. -/
inductive Doc
  | event (event : LatestEvent Payload)
  | health (exchange dataType status : String) (observedAt jobID : ℤ)

structure World where
  docs : String → Option Doc
  written : List (String × LatestEvent Payload)
  calls : ℕ
  fails : ℕ → Option String
  ticks : ℕ
  clock : ℕ → ℤ

def World.empty (fails : ℕ → Option String) (clock : ℕ → ℤ) : World :=
  ⟨fun _ => none, [], 0, fails, 0, clock⟩

/-- The state changes made before an error stay. -/
abbrev Latest := ExceptT String (StateM World)

def now : Latest ℤ := fun s => (.ok (s.clock s.ticks), { s with ticks := s.ticks + 1 })

/-- The history of the events, with that of a document added. -/
def record (key : String) (doc : Doc) (written : List (String × LatestEvent Payload)) :
    List (String × LatestEvent Payload) :=
  match doc with
  | .event event => (key, event) :: written
  | .health .. => written

/-- `SetJSON`. -/
def setJSON (key : String) (doc : Doc) : Latest Unit := fun s =>
  match s.fails s.calls with
  | some err => (.error err, { s with calls := s.calls + 1 })
  | none => (.ok (), { s with
      docs := Function.update s.docs key (some doc)
      written := record key doc s.written
      calls := s.calls + 1 })

/-- A time, or the time now if it is zero. -/
def orNow (t : ℤ) : Latest ℤ := if isZero t then now else pure t

/-- A payload, or an empty object if there is none. -/
def Payload.orEmpty : Payload → Payload
  | .raw "" => .raw "\x7b\x7d"
  | payload => payload

structure LatestWriter where
  hasStore : Bool

namespace LatestWriter
variable (w : LatestWriter)

def write (event : LatestEvent Payload) : Latest Unit :=
  if !w.hasStore then pure ()
  else do
    let eventTime ← orNow event.eventTime
    let receivedAt ← orNow event.receivedAt
    match event.key with
    | .error err => throw err
    | .ok key =>
      setJSON key (.event { event with eventTime, receivedAt, payload := event.payload.orEmpty })

def writeCollectorHealth (exchange dataType status : String) (jobID : ℤ) : Latest Unit :=
  if !w.hasStore then pure ()
  else do
    let observedAt ← now
    setJSON (collectorHealthKey exchange dataType)
      (.health (normalizeExchange exchange) (normalizeStream dataType) status observedAt jobID)

end LatestWriter

/-- The event that `writePayload` writes. -/
def payloadEvent (kind : String) (source : SourceMeta) (eventTime : ℤ) (payload : Payload) :
    LatestEvent Payload :=
  ⟨kind, source.exchange, source.sourceSymbol, source.symbolID, eventTime, 0, payload⟩

structure NormalizedWriter where
  latest : LatestWriter

namespace NormalizedWriter
variable (w : NormalizedWriter)

def writePayload (kind : String) (source : SourceMeta) (eventTime : ℤ) (payload : Payload) :
    Latest Unit :=
  w.latest.write (payloadEvent kind source eventTime payload)

/-- The body of the loop over the market snapshots. -/
def writeSnapshot (snapshot : NormalizedMarketSnapshot) : Latest Unit := do
  w.writePayload kindMarket snapshot.toSourceMeta snapshot.snapshotTime (.market snapshot)
  if let some openInterest := snapshot.openInterest then
    w.writePayload kindOpenInterest snapshot.toSourceMeta snapshot.snapshotTime
      (.openInterest ⟨snapshot.toSourceMeta, snapshot.snapshotTime, "", openInterest, none⟩)
  if let some fundingRate := snapshot.fundingRate then
    w.writePayload kindFunding snapshot.toSourceMeta snapshot.snapshotTime
      (.funding ⟨snapshot.toSourceMeta, snapshot.snapshotTime, fundingRate, 0,
        snapshot.markPrice, snapshot.indexPrice⟩)

def write (dataType : String) (result : NormalizedResult) (job : Job) : Latest Unit := do
  result.marketSnapshots.forM w.writeSnapshot
  result.openInterest.forM fun item =>
    w.writePayload kindOpenInterest item.toSourceMeta item.snapshotTime (.openInterest item)
  result.fundingSnapshots.forM fun item =>
    w.writePayload kindFunding item.toSourceMeta item.snapshotTime (.funding item)
  result.orderbookImbalances.forM fun item =>
    w.writePayload kindOrderbookImbalance item.toSourceMeta item.snapshotTime
      (.orderbookImbalance item)
  if job.exchange ≠ "" ∧ dataType ≠ "" then
    w.latest.writeCollectorHealth job.exchange dataType "updated" job.id

end NormalizedWriter

/-! ## The events of a result -/

/-- The events of a market snapshot: its own, and those of the open interest and the
    funding rate that are derived from it. -/
def snapshotEvents (snapshot : NormalizedMarketSnapshot) : List (LatestEvent Payload) :=
  let event (kind : String) (payload : Payload) :=
    payloadEvent kind snapshot.toSourceMeta snapshot.snapshotTime payload
  event kindMarket (.market snapshot) ::
    (snapshot.openInterest.toList.map (fun openInterest => event kindOpenInterest
      (.openInterest ⟨snapshot.toSourceMeta, snapshot.snapshotTime, "", openInterest, none⟩)) ++
    snapshot.fundingRate.toList.map (fun fundingRate => event kindFunding
      (.funding ⟨snapshot.toSourceMeta, snapshot.snapshotTime, fundingRate, 0,
        snapshot.markPrice, snapshot.indexPrice⟩)))

/-- The events of a result, in the order in which they are written. -/
def events (result : NormalizedResult) : List (LatestEvent Payload) :=
  result.marketSnapshots.flatMap snapshotEvents ++
    (result.openInterest.map (fun item =>
      payloadEvent kindOpenInterest item.toSourceMeta item.snapshotTime (.openInterest item)) ++
    (result.fundingSnapshots.map (fun item =>
      payloadEvent kindFunding item.toSourceMeta item.snapshotTime (.funding item)) ++
    result.orderbookImbalances.map (fun item =>
      payloadEvent kindOrderbookImbalance item.toSourceMeta item.snapshotTime
        (.orderbookImbalance item))))

theorem forM_flatMap {α β : Type} (g : α → List β) (f : β → Latest Unit) (l : List α) :
    (l.flatMap g).forM f = l.forM fun a => (g a).forM f := by
  simp only [List.forM_eq_forM] at *
  induction l with
  | nil => rfl
  | cons a l ih => rw [List.flatMap_cons, List.forM_append, ih, List.forM_cons]

namespace NormalizedWriter
variable (w : NormalizedWriter)

theorem writeSnapshot_eq (snapshot : NormalizedMarketSnapshot) :
    w.writeSnapshot snapshot = (snapshotEvents snapshot).forM w.latest.write := by
  cases hoi : snapshot.openInterest <;> cases hf : snapshot.fundingRate <;>
    simp [writeSnapshot, snapshotEvents, writePayload, hoi, hf]

/-- **A call of `Write`** writes the events in order, and then the health of the
    collector. -/
theorem write_eq (dataType : String) (result : NormalizedResult) (job : Job) :
    w.write dataType result job = (do
      (events result).forM w.latest.write
      if job.exchange ≠ "" ∧ dataType ≠ "" then
        w.latest.writeCollectorHealth job.exchange dataType "updated" job.id) := by
  have hsnapshots : result.marketSnapshots.forM w.writeSnapshot =
      (result.marketSnapshots.flatMap snapshotEvents).forM w.latest.write := by
    rw [forM_flatMap, funext w.writeSnapshot_eq]
  unfold write events
  rw [hsnapshots]
  simp only [List.forM_eq_forM, List.forM_append, List.forM_map, writePayload, bind_assoc]

end NormalizedWriter

/-! ## What a write does -/

theorem exec_orNow (t : ℤ) (s : World) : ∃ t' ticks,
    exec (orNow t) s = (.ok t', { s with ticks }) ∧ (t ≠ 0 → t' = t) := by
  by_cases ht : t = 0
  · subst ht
    exact ⟨s.clock s.ticks, s.ticks + 1, rfl, fun h => absurd rfl h⟩
  · refine ⟨t, s.ticks, ?_, fun _ => rfl⟩
    rw [orNow, if_neg (by simpa [isZero] using ht)]
    rfl

/-- The event as it is stored: the times and the payload are filled in. -/
structure Fills (event stored : LatestEvent Payload) : Prop where
  eq : stored = { event with
    eventTime := stored.eventTime
    receivedAt := stored.receivedAt
    payload := event.payload.orEmpty }
  eventTime : event.eventTime ≠ 0 → stored.eventTime = event.eventTime

theorem Fills.payload {event stored : LatestEvent Payload} (h : Fills event stored) :
    stored.payload = event.payload.orEmpty := by
  rw [h.eq]

namespace World

/-- The state after an event was stored. -/
def store (s : World) (key : String) (doc : Doc) (ticks : ℕ) : World :=
  { s with
    docs := Function.update s.docs key (some doc)
    written := record key doc s.written
    calls := s.calls + 1
    ticks }

/-- Nothing was stored. -/
structure Unchanged (s t : World) : Prop where
  docs : t.docs = s.docs
  written : t.written = s.written
  fails : t.fails = s.fails

end World

/-- A call of `SetJSON` fails, or stores the document. -/
theorem exec_setJSON (key : String) (doc : Doc) (s : World) :
    (∃ err t, exec (setJSON key doc) s = (.error err, t) ∧ s.Unchanged t ∧ s.fails s.calls ≠ none) ∨
      exec (setJSON key doc) s = (.ok (), s.store key doc s.ticks) := by
  cases hfail : s.fails s.calls with
  | some err =>
    refine .inl ⟨err, { s with calls := s.calls + 1 }, ?_, ⟨rfl, rfl, rfl⟩, nofun⟩
    change (match s.fails s.calls with | some _ => _ | none => _) = _
    rw [hfail]
  | none =>
    refine .inr ?_
    change (match s.fails s.calls with | some _ => _ | none => _) = _
    rw [hfail]
    rfl

namespace LatestWriter
variable {w : LatestWriter}

/-- **What a write does**: it stores nothing, or the event with what is filled in. -/
theorem write_cases (w : LatestWriter) (event : LatestEvent Payload) (s : World) :
    (s.Unchanged (exec (w.write event) s).2 ∧
      (w.hasStore = true → (∀ n, s.fails n = none) → ∀ key, event.key ≠ .ok key)) ∨
    ∃ key stored ticks, event.key = .ok key ∧ Fills event stored ∧
      exec (w.write event) s = (.ok (), s.store key (.event stored) ticks) := by
  cases hstore : w.hasStore with
  | false =>
    refine .inl ⟨?_, nofun⟩
    simp only [write, hstore]
    exact ⟨rfl, rfl, rfl⟩
  | true =>
    obtain ⟨eventTime, ticks, hevent, heventTime⟩ := exec_orNow event.eventTime s
    obtain ⟨receivedAt, ticks', hreceived, -⟩ := exec_orNow event.receivedAt { s with ticks }
    have hwrite : exec (w.write event) s = exec (match event.key with
        | .error err => throw err
        | .ok key => setJSON key (.event
            { event with eventTime, receivedAt, payload := event.payload.orEmpty }))
        { s with ticks := ticks' } := by
      simp only [write, hstore, Bool.not_true, Bool.false_eq_true, ↓reduceIte]
      rw [exec_bind_ok hevent, exec_bind_ok hreceived]
    rw [hwrite]
    cases hkey : event.key with
    | error err => exact .inl ⟨⟨rfl, rfl, rfl⟩, fun _ _ key => nofun⟩
    | ok key =>
      rcases exec_setJSON key (.event
        { event with eventTime, receivedAt, payload := event.payload.orEmpty })
        { s with ticks := ticks' } with ⟨err, t, hexec, hsame, hfail⟩ | hexec
      · refine .inl ⟨?_, fun _ hnone => absurd (hnone _) hfail⟩
        rw [hexec]
        exact ⟨hsame.docs, hsame.written, hsame.fails⟩
      · exact .inr ⟨key, _, ticks', rfl, ⟨rfl, heventTime⟩, hexec⟩

theorem writeCollectorHealth_cases (w : LatestWriter) (exchange dataType status : String)
    (jobID : ℤ) (s : World) :
    s.Unchanged (exec (w.writeCollectorHealth exchange dataType status jobID) s).2 ∨
    ∃ observedAt ticks, (exec (w.writeCollectorHealth exchange dataType status jobID) s).2 =
      s.store (collectorHealthKey exchange dataType)
        (.health (normalizeExchange exchange) (normalizeStream dataType) status observedAt jobID)
        ticks := by
  cases hstore : w.hasStore with
  | false =>
    refine .inl ?_
    simp only [writeCollectorHealth, hstore]
    exact ⟨rfl, rfl, rfl⟩
  | true =>
    have hnow : exec now s = (.ok (s.clock s.ticks), { s with ticks := s.ticks + 1 }) := rfl
    simp only [writeCollectorHealth, hstore, Bool.not_true, Bool.false_eq_true, ↓reduceIte]
    rw [exec_bind_ok hnow]
    rcases exec_setJSON (collectorHealthKey exchange dataType)
      (.health (normalizeExchange exchange) (normalizeStream dataType) status (s.clock s.ticks) jobID)
      { s with ticks := s.ticks + 1 } with ⟨err, t, hexec, hsame, -⟩ | hexec
    · rw [hexec]
      exact .inl ⟨hsame.docs, hsame.written, hsame.fails⟩
    · rw [hexec]
      exact .inr ⟨s.clock s.ticks, s.ticks + 1, rfl⟩

/-- The health of a collector is no event. -/
theorem writeCollectorHealth_frame (w : LatestWriter) (exchange dataType status : String)
    (jobID : ℤ) (s : World) :
    (exec (w.writeCollectorHealth exchange dataType status jobID) s).2.fails = s.fails ∧
      (exec (w.writeCollectorHealth exchange dataType status jobID) s).2.written = s.written := by
  rcases w.writeCollectorHealth_cases exchange dataType status jobID s with hsame |
    ⟨observedAt, ticks, hexec⟩
  · exact ⟨hsame.fails, hsame.written⟩
  · rw [hexec]
    exact ⟨rfl, rfl⟩

end LatestWriter

/-! ## The last event under a key -/

def IsLatest (key : String) : Prop :=
  ∃ kind exchange sourceSymbol symbolID, latestKey kind exchange sourceSymbol symbolID = .ok key

/-- The store has the last event that was written to each key. -/
def Holds (s : World) : Prop :=
  ∀ key, IsLatest key → s.docs key = (current s.written key).map .event

/-- The keys of events and those of the health of collectors differ in the letter after
    `deriv:`. -/
theorem letter_latestExchangeSymbolKey (kind exchange sourceSymbol : String) :
    (latestExchangeSymbolKey kind exchange sourceSymbol).toList[6]? = some 'l' := by
  have hkey : latestExchangeSymbolKey kind exchange sourceSymbol = "deriv" ++ ":" ++ "latest" ++
      ":" ++ kind ++ ":" ++ normalizeExchange exchange ++ ":" ++
      normalizeSourceSymbol sourceSymbol := rfl
  simp [hkey]

theorem letter_latestAggregateKey (symbolID : ℤ) :
    (latestAggregateKey symbolID).toList[6]? = some 'l' := by
  unfold latestAggregateKey
  generalize toString symbolID = text
  simp

theorem IsLatest.letter {key : String} (h : IsLatest key) : key.toList[6]? = some 'l' := by
  obtain ⟨kind, exchange, sourceSymbol, symbolID, hkey⟩ := h
  unfold latestKey at hkey
  dsimp only at hkey
  split_ifs at hkey
  all_goals obtain rfl := Except.ok.inj hkey
  · exact letter_latestExchangeSymbolKey ..
  · exact letter_latestExchangeSymbolKey ..
  · exact letter_latestExchangeSymbolKey ..
  · exact letter_latestExchangeSymbolKey ..
  · exact letter_latestAggregateKey symbolID

theorem not_isLatest_health (exchange dataType : String) :
    ¬ IsLatest (collectorHealthKey exchange dataType) := by
  intro h
  have hkey : collectorHealthKey exchange dataType = "deriv" ++ ":" ++ "collector" ++ ":" ++
      "health" ++ ":" ++ normalizeExchange exchange ++ ":" ++ normalizeStream dataType := rfl
  have hletter := h.letter
  simp [hkey] at hletter

theorem Holds.unchanged {s t : World} (h : Holds s) (hst : s.Unchanged t) : Holds t := by
  intro key hkey
  rw [hst.docs, hst.written]
  exact h key hkey

theorem Holds.store {s : World} (h : Holds s) (key : String) (event : LatestEvent Payload)
    (ticks : ℕ) : Holds (s.store key (.event event) ticks) := by
  intro k hk
  change Function.update s.docs key _ k = (current ((key, event) :: s.written) k).map .event
  rw [current_cons, Function.update_apply]
  by_cases hkey : k = key
  · rw [if_pos hkey, if_pos hkey.symm]
    rfl
  · rw [if_neg hkey, if_neg (Ne.symm hkey)]
    exact h k hk

theorem Holds.write {s : World} (h : Holds s) (w : LatestWriter) (event : LatestEvent Payload) :
    Holds (exec (w.write event) s).2 := by
  rcases w.write_cases event s with ⟨hsame, -⟩ | ⟨key, stored, ticks, -, -, hexec⟩
  · exact h.unchanged hsame
  · rw [hexec]
    exact h.store key stored ticks

theorem Holds.writeCollectorHealth {s : World} (h : Holds s) (w : LatestWriter)
    (exchange dataType status : String) (jobID : ℤ) :
    Holds (exec (w.writeCollectorHealth exchange dataType status jobID) s).2 := by
  rcases w.writeCollectorHealth_cases exchange dataType status jobID s with hsame |
    ⟨observedAt, ticks, hexec⟩
  · exact h.unchanged hsame
  · rw [hexec]
    intro key hkey
    change Function.update s.docs _ _ key = (current s.written key).map .event
    rw [Function.update_of_ne]
    · exact h key hkey
    · rintro rfl
      exact not_isLatest_health exchange dataType hkey

instance (P : World → Prop) : Std.Refl fun s t => P s → P t := ⟨fun _ h => h⟩

instance (P : World → Prop) : IsTrans World fun s t => P s → P t :=
  ⟨fun _ _ _ h h' hs => h' (h hs)⟩

/-- **A call keeps it** that the store has the last event under each key, however it ends. -/
theorem Holds.writeNormalized {s : World} (h : Holds s) (w : NormalizedWriter) (dataType : String)
    (result : NormalizedResult) (job : Job) : Holds (exec (w.write dataType result job) s).2 := by
  have heffect : Effect (fun s t => Holds s → Holds t) (w.write dataType result job) := by
    rw [w.write_eq]
    refine Effect.bind (Effect.forM fun event _ s hs => hs.write w.latest event) fun _ => ?_
    split
    · exact fun s hs => hs.writeCollectorHealth w.latest _ _ _ _
    · exact Effect.pure _
  exact heffect s h

/-- What is written from `s` to `t` satisfies `P`. -/
def Adds (P : LatestEvent Payload → Prop) (s t : World) : Prop :=
  ∀ write ∈ t.written, write ∈ s.written ∨ P write.2

instance (P : LatestEvent Payload → Prop) : Std.Refl (Adds P) := ⟨fun _ _ h => .inl h⟩

instance (P : LatestEvent Payload → Prop) : IsTrans World (Adds P) :=
  ⟨fun _ _ _ h h' write hwrite => (h' write hwrite).elim (h write) .inr⟩

theorem adds_write (w : LatestWriter) (event : LatestEvent Payload) :
    Effect (Adds fun stored => w.hasStore = true ∧ Fills event stored) (w.write event) := by
  intro s
  rcases w.write_cases event s with ⟨hsame, -⟩ | ⟨key, stored, ticks, -, hfills, hexec⟩
  · exact fun write hwrite => .inl (hsame.written ▸ hwrite)
  · cases hstore : w.hasStore with
    | false =>
      simp only [LatestWriter.write, hstore]
      exact fun write hwrite => .inl hwrite
    | true =>
      rw [hexec]
      intro write hwrite
      rcases List.mem_cons.1 hwrite with rfl | hwrite
      · exact .inr ⟨rfl, hfills⟩
      · exact .inl hwrite

/-- **A call stores** nothing but the events of its result. -/
theorem adds_writeNormalized (w : NormalizedWriter) (dataType : String) (result : NormalizedResult)
    (job : Job) :
    Effect (Adds fun stored => w.latest.hasStore = true ∧ ∃ event ∈ events result, Fills event stored)
      (w.write dataType result job) := by
  rw [w.write_eq]
  refine Effect.bind (Effect.forM fun event hevent s => ?_) fun _ => ?_
  · intro write hwrite
    exact (adds_write w.latest event s write hwrite).imp_right fun h => ⟨h.1, event, hevent, h.2⟩
  · split
    · intro s write hwrite
      rw [(w.latest.writeCollectorHealth_frame job.exchange dataType "updated" job.id s).2] at hwrite
      exact .inl hwrite
    · exact Effect.pure _

/-- A call of `Write`. -/
structure WriteCall where
  dataType : String
  result : NormalizedResult
  job : Job

/-- The state after some calls, whether they fail or not. -/
def NormalizedWriter.writeAll (w : NormalizedWriter) (s : World) (calls : List WriteCall) : World :=
  calls.foldl (fun s call => (exec (w.write call.dataType call.result call.job) s).2) s

theorem Holds.writeAll {s : World} (h : Holds s) (w : NormalizedWriter) (calls : List WriteCall) :
    Holds (w.writeAll s calls) := by
  induction calls generalizing s with
  | nil => exact h
  | cons call calls ih => exact ih (h.writeNormalized w call.dataType call.result call.job)

/-! ## A store that does not fail -/

/-- The events are written from `s` to `t`, in order. -/
def Wrote (events : List (LatestEvent Payload)) (s t : World) : Prop :=
  ∃ writes, t.written = writes.reverse ++ s.written ∧
    List.Forall₂ (fun event write => event.key = .ok write.1 ∧ Fills event write.2) events writes

theorem Wrote.nil {s t : World} (h : t.written = s.written) : Wrote [] s t :=
  ⟨[], h, .nil⟩

theorem Wrote.trans {es es' : List (LatestEvent Payload)} {s t u : World} (h : Wrote es s t)
    (h' : Wrote es' t u) : Wrote (es ++ es') s u := by
  obtain ⟨ws, ht, hws⟩ := h
  obtain ⟨ws', hu, hws'⟩ := h'
  refine ⟨ws ++ ws', ?_, List.rel_append hws hws'⟩
  rw [hu, ht, List.reverse_append, List.append_assoc]

theorem Wrote.exists_mem {es : List (LatestEvent Payload)} {s t : World} (h : Wrote es s t)
    {event : LatestEvent Payload} (hevent : event ∈ es) : ∃ write ∈ t.written, Fills event write.2 := by
  obtain ⟨writes, ht, hwrites⟩ := h
  have hmem : ∃ write ∈ writes, Fills event write.2 := by
    clear ht
    induction hwrites with
    | nil => cases hevent
    | cons hfirst _ ih =>
      rcases List.mem_cons.1 hevent with rfl | hevent
      · exact ⟨_, List.mem_cons_self, hfirst.2⟩
      · obtain ⟨write, hwrite, hfills⟩ := ih hevent
        exact ⟨write, List.mem_cons_of_mem _ hwrite, hfills⟩
  obtain ⟨write, hwrite, hfills⟩ := hmem
  exact ⟨write, ht ▸ List.mem_append_left _ (List.mem_reverse.2 hwrite), hfills⟩

theorem exists_latestKey {kind : String}
    (hkind : kind ∈ [kindMarket, kindOpenInterest, kindFunding, kindOrderbookImbalance])
    (exchange sourceSymbol : String) (symbolID : ℤ) :
    ∃ key, latestKey kind exchange sourceSymbol symbolID = .ok key := by
  have hname : toLower (trimSpace kind) = kind := by
    have hall : ∀ kind ∈ [kindMarket, kindOpenInterest, kindFunding, kindOrderbookImbalance],
        toLower (trimSpace kind) = kind := by decide +kernel
    exact hall kind hkind
  unfold latestKey
  dsimp only
  rw [hname]
  by_cases hmarket : kind = kindMarket
  · exact ⟨_, if_pos hmarket⟩
  by_cases hopen : kind = kindOpenInterest
  · rw [if_neg hmarket]
    exact ⟨_, if_pos hopen⟩
  by_cases hfunding : kind = kindFunding
  · rw [if_neg hmarket, if_neg hopen]
    exact ⟨_, if_pos hfunding⟩
  by_cases hbook : kind = kindOrderbookImbalance
  · rw [if_neg hmarket, if_neg hopen, if_neg hfunding]
    exact ⟨_, if_pos hbook⟩
  simp [hmarket, hopen, hfunding, hbook] at hkind

/-- Every event of a result has a key. -/
theorem exists_key {result : NormalizedResult} :
    ∀ event ∈ events result, ∃ key, event.key = .ok key := by
  have hkey : ∀ kind ∈ [kindMarket, kindOpenInterest, kindFunding, kindOrderbookImbalance],
      ∀ source t payload, ∃ key, (payloadEvent kind source t payload).key = .ok key :=
    fun kind hkind source _ _ => exists_latestKey hkind source.exchange source.sourceSymbol _
  intro event hevent
  simp only [events, snapshotEvents, List.mem_append, List.mem_flatMap, List.mem_map,
    List.mem_cons] at hevent
  rcases hevent with ⟨snapshot, -, rfl | ⟨value, -, rfl⟩ | ⟨rate, -, rfl⟩⟩ | ⟨item, -, rfl⟩ |
    ⟨item, -, rfl⟩ | ⟨item, -, rfl⟩
  all_goals exact hkey _ (by simp) _ _ _

theorem returns_write {w : LatestWriter} (hstore : w.hasStore = true) {s : World}
    (hfails : ∀ n, s.fails n = none) {event : LatestEvent Payload}
    (hkey : ∃ key, event.key = .ok key) :
    Returns (w.write event) s fun _ t => t.fails = s.fails ∧ Wrote [event] s t := by
  obtain ⟨key, hkey⟩ := hkey
  rcases w.write_cases event s with ⟨-, hnone⟩ | ⟨key', stored, ticks, hkey', hfills, hexec⟩
  · exact absurd hkey (hnone hstore hfails key)
  · exact ⟨(), _, hexec, rfl, [(key', stored)], rfl, .cons ⟨hkey', hfills⟩ .nil⟩

theorem returns_forM_write {w : LatestWriter} (hstore : w.hasStore = true)
    {es : List (LatestEvent Payload)} (hkeys : ∀ event ∈ es, ∃ key, event.key = .ok key) {s : World}
    (hfails : ∀ n, s.fails n = none) :
    Returns (es.forM w.write) s fun _ t => t.fails = s.fails ∧ Wrote es s t := by
  induction es generalizing s with
  | nil => exact .pure ⟨rfl, .nil rfl⟩
  | cons event es ih =>
    obtain ⟨hevent, hes⟩ := List.forall_mem_cons.1 hkeys
    refine (returns_write hstore hfails hevent).bind fun _ t ht => ?_
    refine (ih hes (ht.1 ▸ hfails)).mono fun _ u hu => ⟨hu.1.trans ht.1, ?_⟩
    exact ht.2.trans hu.2

/-- A call writes all events of its result. -/
theorem wrote_write {w : NormalizedWriter} (hstore : w.latest.hasStore = true) {s : World}
    (hfails : ∀ n, s.fails n = none) (dataType : String) (result : NormalizedResult) (job : Job) :
    (exec (w.write dataType result job) s).2.fails = s.fails ∧
      Wrote (events result) s (exec (w.write dataType result job) s).2 := by
  obtain ⟨_, t, hexec, hfails', hwrote⟩ := returns_forM_write hstore exists_key hfails
  rw [w.write_eq, exec_bind_ok hexec, ← List.append_nil (events result)]
  split
  · obtain ⟨hfails'', hwritten⟩ :=
      w.latest.writeCollectorHealth_frame job.exchange dataType "updated" job.id t
    exact ⟨hfails''.trans hfails', hwrote.trans (.nil hwritten)⟩
  · exact ⟨hfails', hwrote.trans (.nil rfl)⟩

theorem wrote_writeAll {w : NormalizedWriter} (hstore : w.latest.hasStore = true)
    (calls : List WriteCall) {s : World} (hfails : ∀ n, s.fails n = none) :
    Wrote (calls.flatMap fun call => events call.result) s (w.writeAll s calls) := by
  induction calls generalizing s with
  | nil => exact .nil rfl
  | cons call calls ih =>
    obtain ⟨hfails', hwrote⟩ :=
      wrote_write hstore hfails call.dataType call.result call.job
    exact hwrote.trans (ih (hfails' ▸ hfails))

/-- **The latest event.**  Along any calls from an empty store, a latest key has the last
    event that was written to it, the events of the results being written in order if
    the store does not fail.  At all times this is the latest one exactly if every event
    is at least as late as the one that it replaces. -/
theorem latest_upToDate_iff (w : NormalizedWriter) (fails : ℕ → Option String) (clock : ℕ → ℤ)
    (calls : List WriteCall) :
    let s := w.writeAll (.empty fails clock) calls
    (∀ key, IsLatest key → s.docs key = (current s.written key).map .event) ∧
    (w.latest.hasStore = true → (∀ n, fails n = none) →
      List.Forall₂ (fun event write => event.key = .ok write.1 ∧ Fills event write.2)
        (calls.flatMap fun call => events call.result) s.written.reverse) ∧
    ((∀ written, written <:+ s.written → UpToDate LatestEvent.eventTime written) ↔
      ∀ key event written, (key, event) :: written <:+ s.written →
        ∀ old, current written key = some old → old.eventTime ≤ event.eventTime) := by
  have hempty : Holds (.empty fails clock) := fun _ _ => rfl
  refine ⟨hempty.writeAll w calls, fun hstore hfails => ?_, current_upToDate_iff _⟩
  obtain ⟨writes, hwritten, hwrites⟩ :=
    wrote_writeAll (s := .empty fails clock) hstore calls hfails
  rw [hwritten]
  simpa [World.empty] using hwrites

/-- A call with the open interest of one symbol at some times. -/
def openInterestAt (times : List ℤ) : WriteCall where
  dataType := "open_interest"
  result := { openInterest := times.map fun t => ⟨⟨1, "okx", "BTC-USDT-SWAP"⟩, t, "", 5, none⟩ }
  job := Job.sample 7 "open_interest" 3 0

/-- Two rows that are not of time zero are written one after the other, to one key. -/
theorem written_openInterestAt (t u : ℤ) (ht : t ≠ 0) (hu : u ≠ 0) :
    let s := NormalizedWriter.writeAll ⟨⟨true⟩⟩ (.empty (fun _ => none) fun _ => 0)
      [openInterestAt [t, u]]
    ∃ key first second, IsLatest key ∧ s.written = [(key, second), (key, first)] ∧
      first.eventTime = t ∧ second.eventTime = u := by
  intro s
  have hwrote : Wrote _ (.empty (fun _ => none) fun _ => 0) s :=
    wrote_writeAll rfl [openInterestAt [t, u]] fun _ => rfl
  obtain ⟨writes, hwritten, hwrites⟩ := hwrote
  cases hwrites with
  | @cons e write es writes hfirst hrest =>
    cases hrest with
    | @cons e' write' es' writes' hsecond hnil =>
      cases hnil
      obtain ⟨key, first⟩ := write
      obtain ⟨key', second⟩ := write'
      obtain rfl : key' = key := Except.ok.inj (hsecond.1.symm.trans hfirst.1)
      exact ⟨key', first, second, ⟨_, _, _, _, hfirst.1⟩, hwritten, hfirst.2.eventTime ht,
        hsecond.2.eventTime hu⟩

/-- Open interest in the order of time is served as the latest one. -/
theorem latest_upToDate_ordered :
    let s := NormalizedWriter.writeAll ⟨⟨true⟩⟩ (.empty (fun _ => none) fun _ => 0)
      [openInterestAt [1, 2]]
    s.written ≠ [] ∧ ∀ written, written <:+ s.written → UpToDate LatestEvent.eventTime written := by
  intro s
  obtain ⟨key, first, second, -, hwritten, hfirst, hsecond⟩ :=
    written_openInterestAt 1 2 (by decide) (by decide)
  have hiff := (latest_upToDate_iff ⟨⟨true⟩⟩ (fun _ => none) (fun _ => 0) [openInterestAt [1, 2]]).2.2
  refine ⟨fun hnil => ?_, hiff.2 fun key' event written hsuffix old hold => ?_⟩
  · rw [show s.written = _ from hwritten] at hnil
    cases hnil
  · rw [hwritten] at hsuffix
    rcases List.suffix_cons_iff.1 hsuffix with heq | hsuffix
    · cases heq
      rw [current_cons, if_pos rfl] at hold
      obtain rfl := Option.some.inj hold
      omega
    · rcases List.suffix_cons_iff.1 hsuffix with heq | hsuffix
      · cases heq
        cases hold
      · cases List.suffix_nil.1 hsuffix

/-- A list with the newest row first, as exchanges send them, leaves the oldest one. -/
theorem latest_newest_first :
    let s := NormalizedWriter.writeAll ⟨⟨true⟩⟩ (.empty (fun _ => none) fun _ => 0)
      [openInterestAt [2, 1]]
    ∃ key first second, s.docs key = some (.event second) ∧ (key, first) ∈ s.written ∧
      second.eventTime = 1 ∧ first.eventTime = 2 := by
  intro s
  obtain ⟨key, first, second, hkey, hwritten, hfirst, hsecond⟩ :=
    written_openInterestAt 2 1 (by decide) (by decide)
  have hholds : Holds s := Holds.writeAll (fun _ _ => rfl) _ _
  refine ⟨key, first, second, ?_, ?_, hsecond, hfirst⟩
  · rw [hholds key hkey, show s.written = _ from hwritten, current_cons, if_pos rfl]
    rfl
  · rw [show s.written = _ from hwritten]
    simp

end Aggregator.Realtime
