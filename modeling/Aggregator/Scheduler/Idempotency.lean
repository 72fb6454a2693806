/-
  What the idempotency key of a job says (`internal/scheduler/idempotency.go`).

  A key is the parts of a job between colons.  The source symbol may have colons too,
  and the time at the end has two, so a key is read from both ends: the exchange, the
  data type and the symbol number from the left, and from the right the time, which
  has a fixed width, and the period.

  `strings.ToLower` maps the characters of a text one by one; its table `lower` is a
  parameter here.  `idempotencyKey` has the one for ASCII.

  * `Slot.length_format`: the width of the time, for the years of four digits;
  * `Slot.key_eq_key_iff`: jobs have the same key exactly if their parts are the same, up to
    what the key normalises.
-/
import Aggregator.Scheduler.Models
import Aggregator.Go.Date

namespace Aggregator.Scheduler

open Aggregator.Go

/-- What a key is made of. -/
structure Slot where
  exchange : String
  dataType : String
  symbolID : ℤ
  sourceSymbol : String
  period : String
  bucket : ℤ
deriving DecidableEq

namespace Slot

/-- The parts as the key has them. -/
def normalized (lower : Char → Char) (slot : Slot) : Slot where
  exchange := String.ofList ((trimSpace slot.exchange).toList.map lower)
  dataType := trimSpace slot.dataType
  symbolID := slot.symbolID
  sourceSymbol := trimSpace slot.sourceSymbol
  period := trimSpace slot.period
  bucket := slot.bucket

/-- `IdempotencyKey`. -/
def key (lower : Char → Char) (slot : Slot) : String :=
  ":".intercalate [String.ofList ((trimSpace slot.exchange).toList.map lower),
    trimSpace slot.dataType, toString slot.symbolID, trimSpace slot.sourceSymbol,
    trimSpace slot.period, formatRFC3339 slot.bucket]

theorem key_toLower (slot : Slot) : slot.key lowerRune = idempotencyKey slot.exchange
    slot.dataType slot.symbolID slot.sourceSymbol slot.period slot.bucket := rfl

/-- The exchange, the data type and the period have no colon, and the bucket is a whole
    second of a year with four digits. -/
structure Plain (slot : Slot) : Prop where
  exchange : ':' ∉ slot.exchange.toList
  dataType : ':' ∉ slot.dataType.toList
  period : ':' ∉ slot.period.toList
  bucket : second ∣ slot.bucket
  year : 0 ≤ (dateOfDay (slot.bucket / day)).year ∧ (dateOfDay (slot.bucket / day)).year ≤ 9999

/-! ## The parts of a key -/

theorem notMem_trimSpace {c : Char} {s : String} (h : c ∉ s.toList) : c ∉ (trimSpace s).toList := by
  intro hc
  rw [trimSpace, String.toList_ofList] at hc
  exact h ((List.dropWhile_sublist _).mem ((List.rdropWhile_prefix _ _).mem hc))

theorem toString_eq_padLeft (n : ℤ) : toString n = padLeft 0 n := by
  cases n with
  | ofNat n =>
    simp only [padLeft, Int.ofNat_eq_natCast, Int.natAbs_natCast, Nat.zero_sub]
    rfl
  | negSucc n =>
    simp only [padLeft, if_pos (Int.negSucc_lt_zero n), Int.natAbs_negSucc, Nat.zero_sub]
    rfl

theorem colon_notMem_toString (n : ℤ) : ':' ∉ (toString n).toList := by
  obtain ⟨zeros, h⟩ := toList_padLeft 0 n
  rw [toString_eq_padLeft, h]
  intro hc
  rcases List.mem_append.1 hc with hc | hc
  · split at hc
    · exact absurd (List.mem_singleton.1 hc) (by decide)
    · cases hc
  · rcases List.mem_append.1 hc with hc | hc
    · exact absurd (List.eq_of_mem_replicate hc) (by decide)
    · exact absurd (Nat.isDigit_of_mem_toDigits (by decide) (by decide) hc) (by decide)

/-- The time of a key is twenty characters long. -/
theorem length_format {t : ℤ} (h₀ : 0 ≤ (dateOfDay (t / day)).year)
    (h₁ : (dateOfDay (t / day)).year ≤ 9999) : (formatRFC3339 t).toList.length = 20 := by
  have hmonth := dateOfDay_month (t / day)
  have hday := dateOfDay_day (t / day)
  have hsec : 0 ≤ t % day / second ∧ t % day / second < 86400 := by
    unfold day hour minute second
    omega
  have hyear : (padLeft 4 (dateOfDay (t / day)).year).toList.length = 4 :=
    length_padLeft (by decide) h₀ (by omega)
  have htwo : ∀ n : ℤ, 0 ≤ n → n < 100 → (padLeft 2 n).toList.length = 2 :=
    fun n h h' => length_padLeft (by decide) h h'
  simp only [formatRFC3339, String.toList_append, List.length_append,
    hyear,
    htwo _ (by omega : 0 ≤ (dateOfDay (t / day)).month) (by omega),
    htwo _ (by omega : 0 ≤ (dateOfDay (t / day)).day) (by omega),
    htwo _ (by omega : 0 ≤ t % day / second / 3600) (by omega),
    htwo _ (by omega : 0 ≤ t % day / second / 60 % 60) (by omega),
    htwo _ (by omega : 0 ≤ t % day / second % 60) (by omega)]
  rfl

/-- Texts are split at the last separator. -/
theorem append_sep_inj_right {a b c d : List Char} (hb : ':' ∉ b) (hd : ':' ∉ d)
    (h : a ++ ':' :: b = c ++ ':' :: d) : a = c ∧ b = d := by
  have hrev := congrArg List.reverse h
  simp only [List.reverse_append, List.reverse_cons, List.append_assoc, List.singleton_append]
    at hrev
  obtain ⟨hbd, hac⟩ := append_sep_inj (by rwa [List.mem_reverse]) (by rwa [List.mem_reverse]) hrev
  exact ⟨List.reverse_injective hac, List.reverse_injective hbd⟩

/-! ## Keys -/

section
variable {lower : Char → Char} (hlower : ∀ c, lower c = ':' → c = ':')
include hlower

theorem colon_notMem_exchange {slot : Slot} (h : slot.Plain) :
    ':' ∉ (trimSpace slot.exchange).toList.map lower := by
  intro hc
  obtain ⟨c, hc, hcolon⟩ := List.mem_map.1 hc
  exact notMem_trimSpace h.exchange (hlower c hcolon ▸ hc)

/-- **A key is that of one job**, up to the normalisation of its parts: `lower` makes no
    other character a colon. -/
theorem key_eq_key_iff {a b : Slot} (ha : a.Plain) (hb : b.Plain) :
    a.key lower = b.key lower ↔ a.normalized lower = b.normalized lower := by
  constructor
  · intro h
    have hsep : ":".toList = [':'] := rfl
    have hlist := congrArg String.toList h
    simp only [key, String.intercalate_cons_cons, String.intercalate_singleton, hsep,
      String.toList_append, String.toList_ofList, List.append_assoc, List.singleton_append] at hlist
    -- from the left
    obtain ⟨hexchange, hlist⟩ := append_sep_inj (colon_notMem_exchange hlower ha)
      (colon_notMem_exchange hlower hb) hlist
    obtain ⟨hdataType, hlist⟩ := append_sep_inj (notMem_trimSpace ha.dataType)
      (notMem_trimSpace hb.dataType) hlist
    obtain ⟨hsymbol, hlist⟩ := append_sep_inj (colon_notMem_toString a.symbolID)
      (colon_notMem_toString b.symbolID) hlist
    -- from the right: what is before the time, and the time
    have hlength := (length_format ha.year.1 ha.year.2).trans
      (length_format hb.year.1 hb.year.2).symm
    rw [← List.cons_append, ← List.cons_append, ← List.append_assoc, ← List.append_assoc] at hlist
    obtain ⟨hlist, hbucket⟩ := List.append_inj' hlist
      (by rw [List.length_cons, List.length_cons, hlength])
    obtain ⟨hsource, hperiod⟩ := append_sep_inj_right (notMem_trimSpace ha.period)
      (notMem_trimSpace hb.period) hlist
    have hsymbolID : a.symbolID = b.symbolID := by
      rw [toString_eq_padLeft, toString_eq_padLeft] at hsymbol
      exact padLeft_inj (String.toList_inj.1 hsymbol)
    have htime : a.bucket = b.bucket :=
      formatRFC3339_inj ha.bucket hb.bucket (String.toList_inj.1 (List.cons.inj hbucket).2)
    simp only [normalized, Slot.mk.injEq]
    exact ⟨congrArg String.ofList hexchange, String.toList_inj.1 hdataType, hsymbolID,
      String.toList_inj.1 hsource, String.toList_inj.1 hperiod, htime⟩
  · intro h
    simp only [normalized, Slot.mk.injEq] at h
    obtain ⟨hexchange, hdataType, hsymbol, hsource, hperiod, hbucket⟩ := h
    simp only [key, hexchange, hdataType, hsymbol, hsource, hperiod, hbucket]

end

theorem colon_of_lowerRune {c : Char} (h : lowerRune c = ':') : c = ':' := by
  have hletters : (upperLetters.all (lowerRune · != ':')) = true := by decide
  rcases lowerRune_cases c with hsame | hletter
  · rw [← hsame, h]
  · exact absurd h (bne_iff_ne.1 (List.all_eq_true.1 hletters c hletter))

/-- A colon of the source symbol is not taken for one between the parts. -/
theorem key_eq_key_iff_colon :
    (⟨" Binance", "klines", 1, "BTC:1m", "", 0⟩ : Slot).key lowerRune ≠
      (⟨"binance", "klines", 1, "BTC", "1m", 0⟩ : Slot).key lowerRune := by
  have hsymbol : (⟨" Binance", "klines", 1, "BTC:1m", "", 0⟩ : Slot).Plain :=
    ⟨by decide, by decide, by decide, by decide, by decide +kernel⟩
  have hperiod : (⟨"binance", "klines", 1, "BTC", "1m", 0⟩ : Slot).Plain :=
    ⟨by decide, by decide, by decide, by decide, by decide +kernel⟩
  intro h
  exact absurd ((key_eq_key_iff (fun _ => colon_of_lowerRune) hsymbol hperiod).1 h) (by decide +kernel)

end Slot

end Aggregator.Scheduler
