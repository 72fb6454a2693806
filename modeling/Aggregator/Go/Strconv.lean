/-
  Numbers as text (`strconv`, and the verb `%f` of `fmt`).

  `ParseFloat` rounds to the nearest `float64`; since a `float64` is modelled by
  a rational number, the model takes it as a parameter: a function to the value
  and, where the text is no number or out of range, the error.  The value is
  there in both cases, as in Go.

  `parseInt_toDigits`: a number is read back from its digits.
-/
import Aggregator.Go.Strings
import Aggregator.Go.Time
import Aggregator.Lib.Checks
import Mathlib.Data.Nat.Digits.Defs

namespace Aggregator.Go

/-- `strconv.ParseFloat(s, 64)`. -/
abbrev ParseFloat := String → ℚ × Option String

/-- The number that some decimal digits write. -/
def digitsValue (cs : List Char) : ℕ := cs.foldl (fun n c => 10 * n + (c.toNat - '0'.toNat)) 0

/-- One or more decimal digits. -/
def isDigits (cs : List Char) : Bool := cs ≠ [] && cs.all Char.isDigit

/-- A sign and what follows it. -/
def splitSign : List Char → ℤ × List Char
  | '-' :: cs => (-1, cs)
  | '+' :: cs => (1, cs)
  | cs => (1, cs)

/-- `strconv.ParseInt(s, 10, 64)`. -/
def parseInt (s : String) : Except String ℤ :=
  let (sign, digits) := splitSign s.toList
  let n := sign * digitsValue digits
  if !isDigits digits then .error s!"strconv.ParseInt: parsing {s.quote}: invalid syntax"
  else if n < int64Min ∨ int64Max < n then
    .error s!"strconv.ParseInt: parsing {s.quote}: value out of range"
  else .ok n

theorem parseInt_bounds {s : String} {n : ℤ} (h : parseInt s = .ok n) :
    int64Min ≤ n ∧ n ≤ int64Max := by
  unfold parseInt at h
  dsimp only at h
  rw [elseIf_eq_ok, elseIf_eq_ok] at h
  obtain ⟨-, hrange, hn⟩ := h
  obtain rfl := Except.ok.inj hn
  exact ⟨not_lt.1 fun hlt => hrange (.inl hlt), not_lt.1 fun hlt => hrange (.inr hlt)⟩

theorem isDigit_toDigits (n : ℕ) : ∀ c ∈ Nat.toDigits 10 n, c.isDigit = true :=
  fun _ hc => Nat.isDigit_of_mem_toDigits (by decide) (by decide) hc

theorem splitSign_digits {cs : List Char} (h : ∀ c ∈ cs, c.isDigit = true) :
    splitSign cs = (1, cs) := by
  unfold splitSign
  split
  · exact absurd (h '-' List.mem_cons_self) (by decide)
  · exact absurd (h '+' List.mem_cons_self) (by decide)
  · rfl

theorem parseInt_toDigits {n : ℕ} (hn : (n : ℤ) ≤ int64Max) :
    parseInt (String.ofList (Nat.toDigits 10 n)) = .ok (n : ℤ) := by
  have hne : Nat.toDigits 10 n ≠ [] := Nat.toDigits_ne_nil
  have hdigits : isDigits (Nat.toDigits 10 n) = true := by
    simpa [isDigits, hne] using isDigit_toDigits n
  have hvalue : digitsValue (Nat.toDigits 10 n) = n :=
    Nat.ofDigitChars_toDigits (by decide) le_rfl
  have hrange : ¬ ((n : ℤ) < int64Min ∨ int64Max < (n : ℤ)) := by
    unfold int64Min
    omega
  simp [parseInt, splitSign_digits (isDigit_toDigits n), hvalue, hdigits, hrange]

/-- `ParseFloat` on decimal numbers without an exponent. -/
def parseDecimal : ParseFloat := fun s =>
  let (sign, digits) := splitSign s.toList
  let whole := digits.takeWhile (· ≠ '.')
  let fraction := digits.drop (whole.length + 1)
  if (whole ++ fraction).isEmpty || !(whole ++ fraction).all Char.isDigit then
    (0, some s!"strconv.ParseFloat: parsing {s.quote}: invalid syntax")
  else (sign * (digitsValue (whole ++ fraction) / 10 ^ fraction.length : ℚ), none)

/-- `%f`: six digits after the point, half to even. -/
def formatF (q : ℚ) : String :=
  let scaled : ℚ := |q| * 10 ^ 6
  let down : ℕ := ⌊scaled⌋.toNat
  let n := if scaled - down < 1 / 2 ∨ (scaled - down = 1 / 2 ∧ down % 2 = 0) then down
    else down + 1
  let fraction := toString (n % 10 ^ 6)
  (if q < 0 then "-" else "") ++ toString (n / 10 ^ 6) ++ "." ++
    String.ofList (List.replicate (6 - fraction.length) '0') ++ fraction

example : formatF (-1) = "-1.000000" := by decide +kernel
example : parseDecimal "-12.50" = (-25 / 2, none) := by decide +kernel

end Aggregator.Go
