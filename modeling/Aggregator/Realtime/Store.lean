/-
  The stores of latest values (`internal/realtime/store.go`).

  A store has one value for each key, with an expiry: the memory store keeps it in
  a map, Redis does so on a server.  A `FallbackStore` writes to the fallback what
  the primary does not take, and reads from the fallback what the primary does not
  have.

  `System` is a fallback store along the calls made of it.  Each call says which of
  the two stores fails and what the clock shows when they are asked.  The state has
  the last value written under each key, which the program does not keep.

  * `System.Inv.step`: a call keeps it that what a read can find is the last
    value, if no write leaves an older value behind it;
  * `System.getRaw_newest`: then a read that finds the primary returns the last
    value written, or none;
  * `System.getRaw_stale`: a value written during an outage is hidden by the older
    one in the primary.
-/
import Aggregator.Go.Time
import Aggregator.Lib.Checks
import Aggregator.Lib.Run

namespace Aggregator.Realtime

open Aggregator.Go

abbrev Value := List UInt8

structure Item where
  value : Value
  expiresAt : Option ℤ
deriving DecidableEq

def Item.expired (item : Item) (now : ℤ) : Bool :=
  match item.expiresAt with
  | some t => !(now < t)
  | none => false

/-- The item expires no later than one with the given expiry. -/
def Item.endsBy (item : Item) : Option ℤ → Bool
  | some t => item.expired t
  | none => true

/-- A store that keeps the last value of each key until it expires.  `life` is
    what it makes of a time to live. -/
structure Register where
  life : ℤ → ℤ
  items : String → Option Item

/-- `NewMemoryStore`. -/
def MemoryStore.new : Register := ⟨id, fun _ => none⟩

/-- An empty Redis, which is told a time to live in whole seconds. -/
def RedisStore.new : Register where
  life ttl := if ttl ≤ 0 then 0 else max 1 ((ttl + second / 2) / second) * second
  items := fun _ => none

namespace Register
variable {ε : Type}

def expiresAt (s : Register) (ttl now : ℤ) : Option ℤ :=
  if s.life ttl > 0 then some (now + s.life ttl) else none

def put (s : Register) (key : String) (item : Option Item) : Register :=
  { s with items := Function.update s.items key item }

/-- `SetRaw`: `err` is the error of the store, if it cannot be used. -/
def setRaw (s : Register) (err : Option ε) (key : String) (value : Value) (ttl now : ℤ) :
    Except ε Unit × Register :=
  match err with
  | some err => (.error err, s)
  | none => (.ok (), s.put key (some ⟨value, s.expiresAt ttl now⟩))

/-- `GetRaw`: the value, if there is one. -/
def getRaw (s : Register) (err : Option ε) (key : String) (now : ℤ) :
    Except ε (Option Value) × Register :=
  match err with
  | some err => (.error err, s)
  | none =>
    match s.items key with
    | none => (.ok none, s)
    | some item =>
      if item.expired now then (.ok none, s.put key none)
      else (.ok (some item.value), s)

end Register

/-- What the environment decides during a call: which stores cannot be used, and
    the time at which each is asked. -/
structure Env (ε : Type) where
  primaryErr : Option ε
  fallbackErr : Option ε
  primaryNow : ℤ
  fallbackNow : ℤ

structure FallbackStore where
  primary : Option Register
  fallback : Option Register

namespace FallbackStore
variable {ε : Type}

def setRaw (s : FallbackStore) (env : Env ε) (key : String) (value : Value) (ttl : ℤ) :
    Except ε Unit × FallbackStore :=
  let tried : Option (Except ε Unit × Register) :=
    s.primary.map fun p => p.setRaw env.primaryErr key value ttl env.primaryNow
  let s := { s with primary := tried.map Prod.snd }
  match tried with
  | some (.ok (), _) => (.ok (), s)
  | _ =>
    match s.fallback with
    | none => ((tried.map Prod.fst).getD (.ok ()), s)
    | some f =>
      let (res, f) := f.setRaw env.fallbackErr key value ttl env.fallbackNow
      (res, { s with fallback := some f })

def getRaw (s : FallbackStore) (env : Env ε) (key : String) :
    Except ε (Option Value) × FallbackStore :=
  let tried : Option (Except ε (Option Value) × Register) :=
    s.primary.map fun p => p.getRaw env.primaryErr key env.primaryNow
  let s := { s with primary := tried.map Prod.snd }
  match tried with
  | some (.ok (some value), _) => (.ok (some value), s)
  | _ =>
    match s.fallback with
    | none => (.ok none, s)
    | some f =>
      let (res, f) := f.getRaw env.fallbackErr key env.fallbackNow
      (res, { s with fallback := some f })

end FallbackStore

/-! ## Calls one after the other -/

/-- A call of the store. -/
inductive Call (ε : Type) where
  | set (env : Env ε) (key : String) (value : Value) (ttl : ℤ)
  | get (env : Env ε) (key : String)

def Call.env {ε : Type} : Call ε → Env ε
  | set env _ _ _ | get env _ => env

/-- A store, the value of the last successful `SetRaw` for each key, and the
    clock. -/
structure System where
  store : FallbackStore
  last : String → Option Value
  clock : ℤ

namespace System
variable {ε : Type}

/-- Two empty stores. -/
def start (primaryLife fallbackLife : ℤ → ℤ) (clock : ℤ) : System :=
  ⟨⟨some ⟨primaryLife, fun _ => none⟩, some ⟨fallbackLife, fun _ => none⟩⟩, fun _ => none, clock⟩

/-- The clock does not run backwards. -/
def InOrder (s : System) (env : Env ε) : Prop :=
  s.clock ≤ env.primaryNow ∧ env.primaryNow ≤ env.fallbackNow

instance (s : System) (env : Env ε) : Decidable (s.InOrder env) :=
  inferInstanceAs (Decidable (_ ∧ _))

def step (s : System) (c : Call ε) : Option System :=
  if s.InOrder c.env then
    match c with
    | .set env key value ttl =>
      match s.store.setRaw env key value ttl with
      | (.ok (), store) => some ⟨store, Function.update s.last key (some value), env.fallbackNow⟩
      | (.error _, store) => some ⟨store, s.last, env.fallbackNow⟩
    | .get env key => some ⟨(s.store.getRaw env key).2, s.last, env.fallbackNow⟩
  else none

/-- A write leaves no older value behind: one that the primary takes outlives the
    value in the fallback, and one that goes to the fallback finds none in the
    primary that has not expired. -/
def LeavesNone (s : System) : Call ε → Prop
  | .set env key _ ttl =>
    match env.primaryErr, env.fallbackErr with
    | none, _ => ∀ p ∈ s.store.primary, ∀ f ∈ s.store.fallback, ∀ item ∈ f.items key,
        item.endsBy (p.expiresAt ttl env.primaryNow)
    | some _, none => ∀ p ∈ s.store.primary, ∀ item ∈ p.items key, item.expired env.fallbackNow
    | some _, some _ => True
  | .get _ _ => True

end System

/-! ## What a read can find -/

/-- A value that a read can find, at `clock` or later, while the primary answers is
    the last one written under its key. -/
structure Newest (last : String → Option Value) (clock : ℤ) (p f : Register) : Prop where
  primary : ∀ key, ∀ item ∈ p.items key, ¬item.expired clock → last key = some item.value
  fallback : ∀ key, ∀ item ∈ f.items key, ∀ t, clock ≤ t → ¬item.expired t →
    (∀ q ∈ p.items key, q.expired t) → last key = some item.value

theorem Item.expired_mono {item : Item} {t u : ℤ} (h : item.expired t) (htu : t ≤ u) :
    item.expired u := by
  unfold expired at h ⊢
  split at h
  · simp only [Bool.not_eq_eq_eq_not, Bool.not_true, decide_eq_false_iff_not, not_lt] at h ⊢
    exact h.trans htu
  · cases h

theorem Item.expired_of_endsBy {item : Item} {value : Value} {expiry : Option ℤ} {t : ℤ}
    (h : item.endsBy expiry) (ht : (⟨value, expiry⟩ : Item).expired t) : item.expired t := by
  cases expiry with
  | none => cases ht
  | some u =>
    refine expired_mono h ?_
    simpa [expired] using ht

namespace Register
variable {ε : Type} {s : Register} {key k : String} {now : ℤ}

@[simp]
theorem items_put (s : Register) (key k : String) (item : Option Item) :
    (s.put key item).items k = if k = key then item else s.items k := by
  simp only [put, Function.update_apply]

/-- A read removes expired items at most. -/
structure Swept (s : Register) (now : ℤ) (s' : Register) : Prop where
  life : s'.life = s.life
  of_mem : ∀ k, ∀ item ∈ s'.items k, item ∈ s.items k
  kept : ∀ k, ∀ item ∈ s.items k, ¬item.expired now → item ∈ s'.items k

theorem Swept.refl (s : Register) (now : ℤ) : s.Swept now s :=
  ⟨rfl, fun _ _ h => h, fun _ _ h _ => h⟩

theorem swept_getRaw (s : Register) (err : Option ε) (key : String) (now : ℤ) :
    s.Swept now (s.getRaw err key now).2 := by
  unfold getRaw
  split
  · exact .refl s now
  · split
    · exact .refl s now
    · rename_i item hitem
      split
      · rename_i hexp
        refine ⟨rfl, fun k i hi => ?_, fun k i hi hne => ?_⟩
        · rw [items_put] at hi
          split at hi
          · cases hi
          · exact hi
        · rw [items_put]
          split
          · rename_i hk
            rw [hk, hitem] at hi
            obtain rfl := Option.some.inj hi
            exact absurd hexp hne
          · exact hi
      · exact .refl s now

/-- A read that finds a value found one that has not expired. -/
theorem getRaw_eq_some {err : Option ε} {value : Value}
    (h : (s.getRaw err key now).1 = .ok (some value)) :
    ∃ item ∈ s.items key, ¬item.expired now ∧ item.value = value := by
  unfold getRaw at h
  split at h
  · cases h
  · split at h
    · cases h
    · rename_i item hitem
      split at h
      · cases h
      · rename_i hexp
        exact ⟨item, hitem, hexp, Option.some.inj (Except.ok.inj h)⟩

/-- A read of a store in use that finds no value found none, or an expired one. -/
theorem expired_of_getRaw (h : ∀ value, (s.getRaw (none : Option ε) key now).1 ≠ .ok (some value)) :
    ∀ item ∈ s.items key, item.expired now := by
  intro item hitem
  by_contra hexp
  have hitem : s.items key = some item := hitem
  exact h item.value (by simp only [getRaw, hitem, hexp]; rfl)

end Register

namespace FallbackStore
variable {ε : Type} {p f : Register} {env : Env ε} {key : String}

/-- A value is written to the primary, or else to the fallback, or not at all. -/
theorem setRaw_cases (p f : Register) (env : Env ε) (key : String) (value : Value) (ttl : ℤ) :
    (env.primaryErr = none ∧ setRaw ⟨some p, some f⟩ env key value ttl =
      (.ok (), ⟨some (p.put key (some ⟨value, p.expiresAt ttl env.primaryNow⟩)), some f⟩)) ∨
    (env.primaryErr.isSome ∧ env.fallbackErr = none ∧ setRaw ⟨some p, some f⟩ env key value ttl =
      (.ok (), ⟨some p, some (f.put key (some ⟨value, f.expiresAt ttl env.fallbackNow⟩))⟩)) ∨
    (∃ err, setRaw ⟨some p, some f⟩ env key value ttl = (.error err, ⟨some p, some f⟩)) := by
  obtain ⟨pe, fe, pn, fn⟩ := env
  cases pe with
  | none => exact .inl ⟨rfl, rfl⟩
  | some e =>
    cases fe with
    | none => exact .inr (.inl ⟨rfl, rfl, rfl⟩)
    | some e' => exact .inr (.inr ⟨e', rfl⟩)

/-- A read removes expired items at most. -/
theorem getRaw_swept (p f : Register) (env : Env ε) (key : String) :
    ∃ p' f', (getRaw ⟨some p, some f⟩ env key).2 = ⟨some p', some f'⟩ ∧
      p.Swept env.primaryNow p' ∧ f.Swept env.fallbackNow f' := by
  have hp := p.swept_getRaw env.primaryErr key env.primaryNow
  simp only [getRaw, Option.map_some]
  generalize p.getRaw env.primaryErr key env.primaryNow = r at hp
  obtain ⟨res, p'⟩ := r
  split
  · exact ⟨p', f, rfl, hp, .refl f _⟩
  · exact ⟨p', _, rfl, hp, f.swept_getRaw env.fallbackErr key env.fallbackNow⟩

/-- What a read that finds the primary returns is from the primary, or from the
    fallback if the primary has none. -/
theorem getRaw_eq_some {value : Value} (hp : env.primaryErr = none)
    (h : (getRaw ⟨some p, some f⟩ env key).1 = .ok (some value)) :
    (∃ item ∈ p.items key, ¬item.expired env.primaryNow ∧ item.value = value) ∨
    ((∀ item ∈ p.items key, item.expired env.primaryNow) ∧
      ∃ item ∈ f.items key, ¬item.expired env.fallbackNow ∧ item.value = value) := by
  simp only [getRaw, Option.map_some, hp] at h
  split at h
  · rename_i value' p' heq
    obtain rfl := Option.some.inj (Except.ok.inj h)
    exact .inl (Register.getRaw_eq_some (congrArg Prod.fst (Option.some.inj heq)))
  · rename_i hne
    refine .inr ⟨Register.expired_of_getRaw (ε := ε) fun value' heq => ?_,
      Register.getRaw_eq_some h⟩
    exact hne value' _ (congrArg some (Prod.ext heq rfl))

end FallbackStore

namespace Newest
variable {last : String → Option Value} {clock pt ft : ℤ} {p f : Register} {key : String}
  {value : Value}

/-- Reading, and the time that passes, hide values at most. -/
theorem sweep {p' f' : Register} (h : Newest last clock p f) (hpt : clock ≤ pt) (hft : pt ≤ ft)
    (hp : p.Swept pt p') (hf : f.Swept ft f') : Newest last ft p' f' where
  primary := fun key item hi hexp => h.primary key item (hp.of_mem key item hi) fun he =>
    hexp (Item.expired_mono he (hpt.trans hft))
  fallback := by
    intro key item hi t ht hexp hq
    refine h.fallback key item (hf.of_mem key item hi) t ((hpt.trans hft).trans ht) hexp ?_
    intro q hqm
    by_cases hqe : q.expired pt
    · exact Item.expired_mono hqe (hft.trans ht)
    · exact hq q (hp.kept key q hqm hqe)

/-- The primary takes a value that outlives the one in the fallback. -/
theorem set_primary {expiry : Option ℤ} (h : Newest last clock p f)
    (hends : ∀ item ∈ f.items key, item.endsBy expiry) :
    Newest (Function.update last key (some value)) clock (p.put key (some ⟨value, expiry⟩)) f where
  primary := by
    intro k item hi hexp
    rw [Register.items_put] at hi
    by_cases hk : k = key
    · rw [if_pos hk] at hi
      obtain rfl := Option.some.inj hi
      rw [hk, Function.update_self]
    · rw [if_neg hk] at hi
      rw [Function.update_of_ne hk]
      exact h.primary k item hi hexp
  fallback := by
    intro k item hi t ht hexp hq
    simp only [Register.items_put] at hq
    by_cases hk : k = key
    · -- when the new item has expired, so has the one in the fallback
      subst hk
      rw [if_pos rfl] at hq
      exact absurd (Item.expired_of_endsBy (hends item hi) (hq _ rfl)) hexp
    · rw [if_neg hk] at hq
      rw [Function.update_of_ne hk]
      exact h.fallback k item hi t ht hexp hq

/-- The fallback takes a value when the one in the primary has expired. -/
theorem set_fallback {expiry : Option ℤ} (h : Newest last clock p f)
    (hexpired : ∀ item ∈ p.items key, item.expired clock) :
    Newest (Function.update last key (some value)) clock p (f.put key (some ⟨value, expiry⟩)) where
  primary := by
    intro k item hi hexp
    by_cases hk : k = key
    · subst hk
      exact absurd (hexpired item hi) hexp
    · rw [Function.update_of_ne hk]
      exact h.primary k item hi hexp
  fallback := by
    intro k item hi t ht hexp hq
    rw [Register.items_put] at hi
    by_cases hk : k = key
    · rw [if_pos hk] at hi
      obtain rfl := Option.some.inj hi
      rw [hk, Function.update_self]
    · rw [if_neg hk] at hi
      rw [Function.update_of_ne hk]
      exact h.fallback k item hi t ht hexp hq

end Newest

namespace System
variable {ε : Type} {s t : System}

/-- Both stores are there, and have no value a read could find but the last one. -/
def Inv (s : System) : Prop :=
  ∃ p f, s.store = ⟨some p, some f⟩ ∧ Newest s.last s.clock p f

theorem inv_start (primaryLife fallbackLife : ℤ → ℤ) (clock : ℤ) :
    (start primaryLife fallbackLife clock).Inv := by
  refine ⟨_, _, rfl, ?_, ?_⟩
  · rintro key item ⟨⟩
  · rintro key item ⟨⟩

/-- **One call keeps the invariant**, if a write leaves no older value behind. -/
theorem Inv.step {c : Call ε} (h : s.Inv) (hc : s.LeavesNone c) (ht : s.step c = some t) :
    t.Inv := by
  obtain ⟨store, last, clock⟩ := s
  obtain ⟨p, f, hstore, hn⟩ := h
  dsimp only at hstore hn
  subst hstore
  simp only [System.step] at ht
  split at ht
  · rename_i horder
    obtain ⟨hpt, hft⟩ := horder
    cases c with
    | get env key =>
      obtain rfl := Option.some.inj ht
      obtain ⟨p', f', hstore, hp, hf⟩ := FallbackStore.getRaw_swept p f env key
      exact ⟨p', f', hstore, hn.sweep hpt hft hp hf⟩
    | set env key value ttl =>
      have hn := hn.sweep hpt hft (.refl p _) (.refl f _)
      simp only [LeavesNone] at hc
      rcases FallbackStore.setRaw_cases p f env key value ttl with
        ⟨hpe, hset⟩ | ⟨hpe, hfe, hset⟩ | ⟨err, hset⟩
      · simp only [hset, Option.some.injEq] at ht
        subst ht
        rw [hpe] at hc
        exact ⟨_, _, rfl, hn.set_primary (hc p rfl f rfl)⟩
      · simp only [hset, Option.some.injEq] at ht
        subst ht
        obtain ⟨e, he⟩ := Option.isSome_iff_exists.1 hpe
        rw [he, hfe] at hc
        exact ⟨_, _, rfl, hn.set_fallback (hc p rfl)⟩
      · simp only [hset, Option.some.injEq] at ht
        subst ht
        exact ⟨_, _, rfl, hn⟩
  · cases ht

/-- **A read that finds the primary returns the last value written**, if it returns
    one, after any calls whose writes leave no older value behind. -/
theorem getRaw_newest {primaryLife fallbackLife : ℤ → ℤ} {clock : ℤ} {cs : List (Call ε)}
    (h : Run (Restrict (fun s c t => s.step c = some t) LeavesNone)
      (start primaryLife fallbackLife clock) cs s)
    {env : Env ε} (horder : s.InOrder env) (hp : env.primaryErr = none) {key : String}
    {value : Value} (hv : (s.store.getRaw env key).1 = .ok (some value)) :
    s.last key = some value := by
  obtain ⟨p, f, hstore, hn⟩ : s.Inv :=
    h.inv (fun _ _ _ hi hs => hi.step hs.1 hs.2) (inv_start primaryLife fallbackLife clock)
  obtain ⟨hpt, hft⟩ := horder
  rw [hstore] at hv
  rcases FallbackStore.getRaw_eq_some hp hv with ⟨item, hi, hexp, rfl⟩ | ⟨hall, item, hi, hexp, rfl⟩
  · exact hn.primary key item hi fun he => hexp (Item.expired_mono he hpt)
  · exact hn.fallback key item hi env.fallbackNow (hpt.trans hft) hexp fun q hq =>
      Item.expired_mono (hall q hq) hft

instance (s : System) : (c : Call ε) → Decidable (s.LeavesNone c)
  | .set ⟨none, _, now, _⟩ key _ ttl =>
    inferInstanceAs (Decidable (∀ p ∈ s.store.primary, ∀ f ∈ s.store.fallback,
      ∀ item ∈ f.items key, item.endsBy (p.expiresAt ttl now)))
  | .set ⟨some _, none, _, now⟩ key _ _ =>
    inferInstanceAs (Decidable (∀ p ∈ s.store.primary, ∀ item ∈ p.items key, item.expired now))
  | .set ⟨some _, some _, _, _⟩ _ _ _ | .get _ _ => isTrue trivial

/-- A call at `now`, during which Redis is reachable or not. -/
def envAt (reachable : Bool) (now : ℤ) : Env Unit :=
  ⟨if reachable then none else some (), none, now, now⟩

/-- The store of the API service. -/
def apiStore : System := start RedisStore.new.life MemoryStore.new.life 0

/-- A value is written during an outage after the one in Redis has expired, and is
    read back when Redis answers again. -/
theorem getRaw_newest_outage :
    ∃ s : System, (s.store.getRaw (envAt true (5 * second)) "btc").1 = .ok (some [2]) ∧
      s.last "btc" = some [2] := by
  obtain ⟨s, hs, hv⟩ := Option.map_eq_some_iff.1 (show
    (List.foldlM (fun (s : System) (c : Call Unit) => if s.LeavesNone c then s.step c else none)
      apiStore [.set (envAt true 0) "btc" [1] (2 * second),
        .set (envAt false (3 * second)) "btc" [2] minute]).map
      (fun s => (s.clock, (s.store.getRaw (envAt true (5 * second)) "btc").1.toOption)) =
      some (3 * second, some (some [2])) by decide +kernel)
  obtain ⟨hclock, hv⟩ := Prod.mk.inj hv
  have hread := toOption_eq_some.1 hv
  have horder : s.InOrder (envAt true (5 * second)) := ⟨by rw [hclock]; decide, le_rfl⟩
  exact ⟨s, hread, getRaw_newest (Run.of_foldlM_restrict hs) horder rfl hread⟩

/-- A value is written during an outage while Redis has an older one: when Redis
    answers again, the older one is read. -/
theorem getRaw_stale :
    ∃ (cs : List (Call Unit)) (s : System),
      Run (fun s c t => s.step c = some t) apiStore cs s ∧ s.InOrder (envAt true (2 * second)) ∧
      (s.store.getRaw (envAt true (2 * second)) "btc").1.toOption = some (some [1]) ∧
      s.last "btc" = some [2] := by
  obtain ⟨s, hs, hv⟩ := Option.map_eq_some_iff.1 (show
    (List.foldlM (fun (s : System) (c : Call Unit) => s.step c)
      apiStore [.set (envAt true 0) "btc" [1] minute, .set (envAt false second) "btc" [2] minute]).map
      (fun s => (s.clock, (s.store.getRaw (envAt true (2 * second)) "btc").1.toOption,
        s.last "btc")) = some (second, some (some [1]), some [2]) by decide +kernel)
  simp only [Prod.mk.injEq] at hv
  obtain ⟨hclock, hread, hlast⟩ := hv
  exact ⟨_, s, Run.of_foldlM hs, ⟨by rw [hclock]; decide, le_rfl⟩, hread, hlast⟩

end System

end Aggregator.Realtime
