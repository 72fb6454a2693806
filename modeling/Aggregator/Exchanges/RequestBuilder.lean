/-
  Templates of requests (`replaceTemplate` of
  `internal/exchanges/common/request_builder.go`).

  The replacements are kept in a map, so the loop over them runs in any order;
  `replaceTemplate` takes the order as a list.

  * `replaceTemplate_resolved`: if no placeholder is left in the template with all
    placeholders substituted at once, every order gives that text or the error;
  * `replaceTemplate_ne_substituted`: otherwise no order gives it.
-/
import Aggregator.Go.Strings
import Aggregator.Lib.Checks
import Aggregator.Lib.Substitute

namespace Aggregator.Exchanges

open Aggregator.Go Aggregator.Substitute

structure RequestPlaceholders where
  sourceSymbol : String
  baseAsset : String
  quoteAsset : String
  period : String
  startTime : String
  endTime : String
  limit : String
deriving DecidableEq, Repr

/-- The map of the placeholders and what they are replaced by. -/
def replacements (p : RequestPlaceholders) : List (String × String) :=
  [("\x7b\x7bsource_symbol\x7d\x7d", p.sourceSymbol),
    ("\x7b\x7bbase_asset\x7d\x7d", p.baseAsset),
    ("\x7b\x7bquote_asset\x7d\x7d", p.quoteAsset),
    ("\x7b\x7bperiod\x7d\x7d", p.period),
    ("\x7b\x7bstart_time\x7d\x7d", p.startTime),
    ("\x7b\x7bend_time\x7d\x7d", p.endTime),
    ("\x7b\x7blimit\x7d\x7d", p.limit)]

/-- `strings.ReplaceAll(s, old, new)`, of a text `old` that is not empty. -/
def stringsReplaceAll (s old new : String) : String :=
  String.ofList (replaceAll old.toList new.toList s.toList)

/-- Braces that the replacements have left. -/
def unresolved (result : String) : Bool := contains result "\x7b\x7b" || contains result "\x7d\x7d"

/-- `replaceTemplate`, its loop over the map in the order `order`. -/
def replaceTemplate (order : List (String × String)) (value : String) : Except String String :=
  let result := order.foldl (fun result r => stringsReplaceAll result r.1 r.2) value
  if unresolved result then .error s!"unresolved request placeholder in {value.quote}"
  else .ok result

/-! ## All placeholders at once -/

/-- The replacements as texts of characters. -/
def charTable (order : List (String × String)) : List (List Char × List Char) :=
  order.map fun r => (r.1.toList, r.2.toList)

/-- The template with all placeholders that occur in it substituted at once. -/
def substituted (p : RequestPlaceholders) (value : String) : String :=
  String.ofList (substitute (charTable (replacements p)) value.toList)

/-- The placeholders. -/
def placeholderChars : List (List Char) :=
  ["\x7b\x7bsource_symbol\x7d\x7d".toList, "\x7b\x7bbase_asset\x7d\x7d".toList,
    "\x7b\x7bquote_asset\x7d\x7d".toList, "\x7b\x7bperiod\x7d\x7d".toList,
    "\x7b\x7bstart_time\x7d\x7d".toList, "\x7b\x7bend_time\x7d\x7d".toList,
    "\x7b\x7blimit\x7d\x7d".toList]

theorem apart_placeholders : Apart placeholderChars := by decide +kernel

theorem nodup_placeholders : placeholderChars.Nodup := by decide +kernel

theorem braces_placeholders : ∀ key ∈ placeholderChars, "\x7b\x7b".toList <+: key := by
  decide +kernel

theorem charTable_replacements (p : RequestPlaceholders) :
    (charTable (replacements p)).map Prod.fst = placeholderChars := by
  simp only [charTable, replacements, placeholderChars, List.map_cons, List.map_nil]

/-- A placeholder is left in a text. -/
def HasPlaceholder (p : RequestPlaceholders) (s : String) : Prop :=
  ∃ r ∈ replacements p, contains s r.1 = true

instance (p : RequestPlaceholders) (s : String) : Decidable (HasPlaceholder p s) :=
  inferInstanceAs (Decidable (∃ r ∈ replacements p, contains s r.1 = true))

/-- A text with a placeholder has braces. -/
theorem unresolved_of_hasPlaceholder {p : RequestPlaceholders} {s : String}
    (h : HasPlaceholder p s) : unresolved s = true := by
  obtain ⟨r, hr, hcontains⟩ := h
  have hkey : r.1.toList ∈ placeholderChars := by
    rw [← charTable_replacements p, charTable, List.map_map]
    exact List.mem_map.2 ⟨r, hr, rfl⟩
  have hbraces : "\x7b\x7b".toList <:+: s.toList :=
    (braces_placeholders _ hkey).isInfix.trans (of_decide_eq_true hcontains)
  rw [unresolved, Bool.or_eq_true]
  exact .inl (decide_eq_true hbraces)

/-! ## The loop -/

/-- The loop on texts is the loop on their characters. -/
theorem toList_foldl_replaceAll (order : List (String × String)) (value : String) :
    (order.foldl (fun result r => stringsReplaceAll result r.1 r.2) value).toList =
      (charTable order).foldl (fun s entry => replaceAll entry.1 entry.2 s) value.toList := by
  induction order generalizing value with
  | nil => rfl
  | cons r order ih =>
    rw [List.foldl_cons, ih, stringsReplaceAll, String.toList_ofList]
    rfl

section
variable {p : RequestPlaceholders} {value : String}

/-- **Every order substitutes all placeholders at once**, if none is left
    then. -/
theorem replaceTemplate_of_resolved (h : ¬HasPlaceholder p (substituted p value))
    {order : List (String × String)} (horder : order.Perm (replacements p)) :
    replaceTemplate order value =
      if unresolved (substituted p value) then
        .error s!"unresolved request placeholder in {value.quote}"
      else .ok (substituted p value) := by
  have hclean : ∀ entry ∈ charTable (replacements p),
      ¬entry.1 <:+: substitute (charTable (replacements p)) value.toList := by
    intro entry hentry hin
    obtain ⟨r, hr, rfl⟩ := List.mem_map.1 hentry
    refine h ⟨r, hr, decide_eq_true ?_⟩
    rwa [substituted, String.toList_ofList]
  have hresult : order.foldl (fun result r => stringsReplaceAll result r.1 r.2) value =
      substituted p value := by
    rw [← String.toList_inj, toList_foldl_replaceAll, substituted, String.toList_ofList]
    refine foldl_replaceAll ?_ ?_ hclean (horder.map _)
    · rw [charTable_replacements]
      exact apart_placeholders
    · rw [charTable_replacements]
      exact nodup_placeholders
  rw [replaceTemplate, hresult]

/-- **The order of the map does not matter** if no placeholder is left in the
    template with all placeholders substituted at once: all orders agree, and what
    they return is that text. -/
theorem replaceTemplate_resolved (h : ¬HasPlaceholder p (substituted p value)) :
    (∀ order order' : List (String × String), order.Perm (replacements p) →
      order'.Perm (replacements p) → replaceTemplate order value = replaceTemplate order' value) ∧
    ∀ order : List (String × String), order.Perm (replacements p) → ∀ result,
      replaceTemplate order value = .ok result → result = substituted p value := by
  have hall := fun {order : List (String × String)} (horder : order.Perm (replacements p)) =>
    replaceTemplate_of_resolved h horder
  refine ⟨fun order order' horder horder' => (hall horder).trans (hall horder').symm, ?_⟩
  intro order horder result hresult
  rw [hall horder] at hresult
  exact (Except.ok.inj (elseIf_eq_ok.1 hresult).2).symm

/-- **A placeholder that is left is not returned**: then an order fails, or returns
    another text. -/
theorem replaceTemplate_ne_substituted (h : HasPlaceholder p (substituted p value))
    (order : List (String × String)) : replaceTemplate order value ≠ .ok (substituted p value) := by
  intro hok
  unfold replaceTemplate at hok
  dsimp only at hok
  split_ifs at hok with hbraces
  rw [Except.ok.inj hok] at hbraces
  exact hbraces (unresolved_of_hasPlaceholder h)

end

/-- Values without braces. -/
def btcPlaceholders : RequestPlaceholders := ⟨"BTCUSDT", "BTC", "USDT", "5m", "", "", "100"⟩

theorem replaceTemplate_resolved_btc :
    ¬HasPlaceholder btcPlaceholders (substituted btcPlaceholders "s=\x7b\x7bsource_symbol\x7d\x7d") ∧
    ∀ order : List (String × String), order.Perm (replacements btcPlaceholders) → ∀ result,
      replaceTemplate order "s=\x7b\x7bsource_symbol\x7d\x7d" = .ok result →
      result = substituted btcPlaceholders "s=\x7b\x7bsource_symbol\x7d\x7d" := by
  have hresolved : ¬HasPlaceholder btcPlaceholders
      (substituted btcPlaceholders "s=\x7b\x7bsource_symbol\x7d\x7d") := by
    decide +kernel
  exact ⟨hresolved, (replaceTemplate_resolved hresolved).2⟩

/-- A symbol that is the text of another placeholder. -/
def nestedPlaceholders : RequestPlaceholders :=
  ⟨"\x7b\x7bperiod\x7d\x7d", "BTC", "USDT", "5m", "", "", "100"⟩

/-- Replaced first, the symbol is replaced again; replaced last, it is left and
    reported. -/
theorem replaceTemplate_order_dependent :
    replaceTemplate (replacements nestedPlaceholders) "s=\x7b\x7bsource_symbol\x7d\x7d" =
      .ok "s=5m" ∧
    (replacements nestedPlaceholders).reverse.Perm (replacements nestedPlaceholders) ∧
    (replaceTemplate (replacements nestedPlaceholders).reverse
      "s=\x7b\x7bsource_symbol\x7d\x7d").isOk = false ∧
    substituted nestedPlaceholders "s=\x7b\x7bsource_symbol\x7d\x7d" =
      "s=\x7b\x7bperiod\x7d\x7d" :=
  ⟨by decide +kernel, List.reverse_perm _, by decide +kernel, by decide +kernel⟩

end Aggregator.Exchanges
