/-
  The functions of Go's `strings` package that the services normalise names
  with.

  `TrimSpace` drops the characters `unicode.IsSpace` accepts at both ends.
  `ToLower`, `ToUpper` and `EqualFold` are exact where their result is compared
  with ASCII text, as it is here: they have every character whose lower case,
  upper case or folding is ASCII, also the four that are not ASCII themselves.
  The others, which stay outside ASCII, are kept.
-/
import Mathlib.Data.List.Basic
import Mathlib.Data.List.DropRight
import Mathlib.Data.List.Infix

namespace Aggregator.Go

/-- `unicode.IsSpace`. -/
def isSpace (c : Char) : Bool :=
  c ∈ ['\t', '\n', '\x0b', '\x0c', '\r', ' ', '\u0085', '\u00a0', '\u1680', '\u2028', '\u2029',
    '\u202f', '\u205f', '\u3000'] || ('\u2000' ≤ c && c ≤ '\u200a')

/-- `strings.TrimSpace`. -/
def trimSpace (s : String) : String :=
  String.ofList ((s.toList.dropWhile isSpace).rdropWhile isSpace)

/-- `unicode.ToLower`: also of `İ` and of the sign of the kelvin. -/
def lowerRune (c : Char) : Char :=
  if c = '\u0130' then 'i' else if c = '\u212a' then 'k' else c.toLower

/-- `unicode.ToUpper`: also of `ı` and of the long `s`. -/
def upperRune (c : Char) : Char :=
  if c = '\u0131' then 'I' else if c = '\u017f' then 'S' else c.toUpper

/-- What `unicode.SimpleFold` takes together: `İ` and `ı` are by themselves. -/
def foldRune (c : Char) : Char :=
  if c = '\u212a' then 'k' else if c = '\u017f' then 's' else c.toLower

/-- `strings.ToLower`. -/
def toLower (s : String) : String := String.ofList (s.toList.map lowerRune)

/-- `strings.ToUpper`. -/
def toUpper (s : String) : String := String.ofList (s.toList.map upperRune)

/-- `strings.EqualFold`. -/
def equalFold (s t : String) : Bool := s.toList.map foldRune = t.toList.map foldRune

/-- `strings.Contains`. -/
def contains (s sub : String) : Bool := sub.toList <:+: s.toList

/-- Only a text of spaces is trimmed to nothing. -/
theorem trimSpace_eq_empty {s : String} : trimSpace s = "" ↔ ∀ c ∈ s.toList, isSpace c := by
  have hofList : ∀ l : List Char, String.ofList l = "" ↔ l = [] := by
    intro l
    rw [← String.toList_inj, String.toList_ofList]
    rfl
  rw [trimSpace, hofList, List.rdropWhile_eq_nil_iff]
  constructor
  · intro h c hc
    rw [← List.takeWhile_append_dropWhile (p := isSpace) (l := s.toList)] at hc
    rcases List.mem_append.1 hc with hc | hc
    · exact List.mem_takeWhile_imp hc
    · exact h c hc
  · exact fun h c hc => h c ((List.dropWhile_sublist _).mem hc)

/-- The letters that have another lower case. -/
def upperLetters : List Char := "ABCDEFGHIJKLMNOPQRSTUVWXYZ\u0130\u212a".toList

/-- The letters that have another upper case. -/
def lowerLetters : List Char := "abcdefghijklmnopqrstuvwxyz\u0131\u017f".toList

theorem lowerRune_cases (c : Char) : lowerRune c = c ∨ c ∈ upperLetters := by
  unfold lowerRune
  split_ifs with hdot hkelvin
  · exact .inr (hdot ▸ by decide)
  · exact .inr (hkelvin ▸ by decide)
  · by_cases h : 65 ≤ c.toNat ∧ c.toNat ≤ 90
    · have hletters : ∀ n < 91, 65 ≤ n → Char.ofNat n ∈ upperLetters := by decide
      exact .inr (Char.ofNat_toNat c ▸ hletters c.toNat (by omega) h.1)
    · refine .inl (dif_neg ?_)
      simpa [UInt32.le_iff_toNat_le] using h

theorem upperRune_cases (c : Char) : upperRune c = c ∨ c ∈ lowerLetters := by
  unfold upperRune
  split_ifs with hdotless hlong
  · exact .inr (hdotless ▸ by decide)
  · exact .inr (hlong ▸ by decide)
  · by_cases h : 97 ≤ c.toNat ∧ c.toNat ≤ 122
    · have hletters : ∀ n < 123, 97 ≤ n → Char.ofNat n ∈ lowerLetters := by decide
      exact .inr (Char.ofNat_toNat c ▸ hletters c.toNat (by omega) h.1)
    · refine .inl (dif_neg ?_)
      simpa [UInt32.le_iff_toNat_le] using h

/-- A map of characters that changes only letters it does not make. -/
theorem map_map_of_cases {f : Char → Char} {letters : List Char}
    (hcases : ∀ c, f c = c ∨ c ∈ letters) (hletters : letters.all (fun c => f (f c) == f c) = true)
    (l : List Char) : (l.map f).map f = l.map f := by
  rw [List.map_map]
  refine List.map_congr_left fun c _ => ?_
  rcases hcases c with h | h
  · rw [Function.comp_apply, h, h]
  · exact eq_of_beq (List.all_eq_true.1 hletters c h)

theorem toUpper_toUpper (s : String) : toUpper (toUpper s) = toUpper s := by
  rw [toUpper, toUpper, String.toList_ofList, map_map_of_cases upperRune_cases (by decide)]

theorem toLower_toLower (s : String) : toLower (toLower s) = toLower s := by
  rw [toLower, toLower, String.toList_ofList, map_map_of_cases lowerRune_cases (by decide)]

theorem isSpace_lowerRune (c : Char) : isSpace (lowerRune c) = isSpace c := by
  have hletters : upperLetters.all (fun c => isSpace (lowerRune c) == isSpace c) = true := by
    decide
  rcases lowerRune_cases c with h | h
  · rw [h]
  · exact eq_of_beq (List.all_eq_true.1 hletters c h)

theorem trimSpace_toLower (s : String) : trimSpace (toLower s) = toLower (trimSpace s) := by
  have hcomp : isSpace ∘ lowerRune = isSpace := funext isSpace_lowerRune
  simp only [trimSpace, toLower, String.toList_ofList, List.rdropWhile, List.dropWhile_map, hcomp,
    ← List.map_reverse]

theorem trimSpace_trimSpace (s : String) : trimSpace (trimSpace s) = trimSpace s := by
  simp only [trimSpace, String.toList_ofList]
  generalize hl : s.toList.dropWhile isSpace = l
  have hdrop : (l.rdropWhile isSpace).dropWhile isSpace = l.rdropWhile isSpace := by
    rw [List.dropWhile_eq_self_iff]
    intro hpos
    -- the first character is that of a text without leading spaces
    have hfirst := List.dropWhile_eq_self_iff.1 (List.dropWhile_idempotent isSpace s.toList)
    rw [hl] at hfirst
    have hpre := List.rdropWhile_prefix isSpace l
    have hlen : 0 < l.length := lt_of_lt_of_le hpos hpre.length_le
    rw [hpre.getElem hpos]
    exact hfirst hlen
  rw [hdrop, List.rdropWhile_idempotent]

/-- Trimming keeps what is no space. -/
theorem mem_trimSpace {s : String} {c : Char} (hc : c ∈ s.toList) (hspace : isSpace c = false) :
    c ∈ (trimSpace s).toList := by
  have hne : ¬isSpace c = true := by simp [hspace]
  rw [← List.takeWhile_append_dropWhile (p := isSpace) (l := s.toList)] at hc
  rcases List.mem_append.1 hc with hc | hc
  · exact absurd (List.mem_takeWhile_imp hc) hne
  · rw [trimSpace, String.toList_ofList]
    rw [← List.rdropWhile_append_rtakeWhile (p := isSpace) (l := s.toList.dropWhile isSpace)] at hc
    rcases List.mem_append.1 hc with hc | hc
    · exact hc
    · exact absurd (List.mem_rtakeWhile_imp hc) hne

/-- Normalising a name twice is normalising it once. -/
theorem normalize_normalize (s : String) :
    toLower (trimSpace (toLower (trimSpace s))) = toLower (trimSpace s) := by
  rw [trimSpace_toLower, trimSpace_trimSpace, toLower_toLower]

/-- Texts are split at the first separator. -/
theorem append_sep_inj {a b c d : List Char} (ha : ':' ∉ a) (hc : ':' ∉ c)
    (h : a ++ ':' :: b = c ++ ':' :: d) : a = c ∧ b = d := by
  have htake : ∀ {l : List Char} (m : List Char), ':' ∉ l →
      (l ++ ':' :: m).takeWhile (· ≠ ':') = l := by
    intro l m hl
    rw [List.takeWhile_append_of_pos, List.takeWhile_cons_of_neg (by simp), List.append_nil]
    intro x hx
    simpa using fun hx' : x = ':' => hl (hx' ▸ hx)
  have hac : a = c := by rw [← htake b ha, h, htake d hc]
  subst hac
  exact ⟨rfl, (List.cons.inj (List.append_cancel_left h)).2⟩

end Aggregator.Go
