/-
  `float64` values: the rationals, the infinities and NaN.  The sign of a zero,
  which no comparison tells, is left out.

  A comparison with NaN is false, so a check that rejects `x < a` or `x > b` lets
  NaN through: `not_lt_fin`, `not_fin_lt` and `not_outside` say what else it does.

  An operation gives the `float64` nearest to its result (`roundFloat64`), and an
  infinity where the result is too large for one.  Code that computes with floats
  is modelled over a type with an `Arithmetic`: the operations of `float64`, or the
  exact ones of the rationals.
-/
import Aggregator.Go.Strconv

namespace Aggregator.Go

/-- The value rounds to a finite `float64`. -/
def fitsFloat64 (q : ℚ) : Bool := |q| < (2 ^ 54 - 1) * 2 ^ 970

/-- The exponent of a positive number. -/
def exponent (q : ℚ) : ℤ :=
  let e : ℤ := q.num.natAbs.log2 - q.den.log2
  if (2 : ℚ) ^ e ≤ q then e else e - 1

/-- The nearest `float64`, half to even. -/
def roundFloat64 (q : ℚ) : ℚ :=
  let ulp : ℚ := 2 ^ (max (exponent |q|) (-1022) - 52)
  let scaled := |q| / ulp
  let n := if scaled - ⌊scaled⌋ < 1 / 2 ∨ (scaled - ⌊scaled⌋ = 1 / 2 ∧ ⌊scaled⌋ % 2 = 0) then
    ⌊scaled⌋ else ⌊scaled⌋ + 1
  if q = 0 then 0 else if q < 0 then -(n * ulp) else n * ulp

example : roundFloat64 9007199254740993 = 9007199254740992 := by decide +kernel

inductive Float64 where
  | fin (q : ℚ)
  | nan
  | posInf
  | negInf
deriving DecidableEq, Repr

namespace Float64

/-- The operator `<`. -/
def less : Float64 → Float64 → Bool
  | fin p, fin q => p < q
  | fin _, posInf => true
  | negInf, fin _ => true
  | negInf, posInf => true
  | _, _ => false

instance : LT Float64 := ⟨fun x y => less x y = true⟩

instance (x y : Float64) : Decidable (x < y) := inferInstanceAs (Decidable (less x y = true))

/-- The verb `%f`. -/
def formatF : Float64 → String
  | fin q => Go.formatF q
  | nan => "NaN"
  | posInf => "+Inf"
  | negInf => "-Inf"

/-- A finite value between two bounds. -/
def Within (low high : ℚ) (x : Float64) : Prop := ∃ q, x = fin q ∧ low ≤ q ∧ q ≤ high

/-- A finite value that is not negative. -/
def NonNegative (x : Float64) : Prop := ∃ q, x = fin q ∧ 0 ≤ q

variable {x : Float64} {p q low high : ℚ}

@[simp] theorem fin_lt_fin : fin p < fin q ↔ p < q := decide_eq_true_iff

theorem not_lt_fin : ¬x < fin q ↔ x = nan ∨ x = posInf ∨ ∃ p, x = fin p ∧ q ≤ p := by
  cases x with
  | fin p => simp
  | nan => exact iff_of_true nofun (.inl rfl)
  | posInf => exact iff_of_true nofun (.inr (.inl rfl))
  | negInf => exact iff_of_false (fun h => h rfl) (by simp)

theorem not_fin_lt : ¬fin q < x ↔ x = nan ∨ x = negInf ∨ ∃ p, x = fin p ∧ p ≤ q := by
  cases x with
  | fin p => simp
  | nan => exact iff_of_true nofun (.inl rfl)
  | posInf => exact iff_of_false (fun h => h rfl) (by simp)
  | negInf => exact iff_of_true nofun (.inr (.inl rfl))

/-- What two bounds let through; the infinities are outside of them. -/
theorem not_outside : ¬(x < fin low ∨ fin high < x) ↔ x = nan ∨ x.Within low high := by
  rw [not_or, not_lt_fin, not_fin_lt]
  cases x with
  | fin p => simp [Within]
  | nan => simp
  | posInf => simp [Within]
  | negInf => simp [Within]

/-! ## Operations -/

/-- The `float64` nearest to a number. -/
def ofRat (q : ℚ) : Float64 :=
  if fitsFloat64 q then fin (roundFloat64 q) else if 0 < q then posInf else negInf

def add : Float64 → Float64 → Float64
  | fin p, fin q => ofRat (p + q)
  | nan, _ => nan
  | _, nan => nan
  | posInf, negInf => nan
  | negInf, posInf => nan
  | fin _, y => y
  | x, _ => x

def neg : Float64 → Float64
  | fin q => fin (-q)
  | nan => nan
  | posInf => negInf
  | negInf => posInf

/-- An infinity with the sign of a number. -/
def infinity (q : ℚ) : Float64 := if q = 0 then nan else if 0 < q then posInf else negInf

def mul : Float64 → Float64 → Float64
  | fin p, fin q => ofRat (p * q)
  | nan, _ => nan
  | _, nan => nan
  | fin q, posInf => infinity q
  | fin q, negInf => infinity (-q)
  | posInf, fin q => infinity q
  | negInf, fin q => infinity (-q)
  | posInf, posInf => posInf
  | negInf, negInf => posInf
  | posInf, negInf => negInf
  | negInf, posInf => negInf

/-- Every divisor of the services is positive, so the sign of a zero does not
    matter. -/
def div : Float64 → Float64 → Float64
  | fin p, fin q => if q = 0 then infinity p else ofRat (p / q)
  | nan, _ => nan
  | _, nan => nan
  | fin _, _ => fin 0
  | posInf, fin q => if q < 0 then negInf else posInf
  | negInf, fin q => if q < 0 then posInf else negInf
  | _, _ => nan

/-- `int64(f)`. -/
def toInt64 : Float64 → ℤ
  | fin q => float64ToInt64 q
  | _ => int64Min

end Float64

theorem float64ToInt64_mem (q : ℚ) :
    int64Min ≤ float64ToInt64 q ∧ float64ToInt64 q ≤ int64Max := by
  unfold float64ToInt64
  generalize (if 0 ≤ q then ⌊q⌋ else ⌈q⌉) = n
  dsimp only
  split
  · assumption
  · exact ⟨le_rfl, by decide⟩

/-- The operations on the floats of a program. -/
class Arithmetic (F : Type) where
  ofInt : ℤ → F
  add : F → F → F
  sub : F → F → F
  mul : F → F → F
  div : F → F → F
  /-- `x + y*z`, which a compiler may round once or twice -/
  addMul : F → F → F → F
  lt : F → F → Bool
  le : F → F → Bool
  toInt64 : F → ℤ
  toInt64_mem : ∀ x, int64Min ≤ toInt64 x ∧ toInt64 x ≤ int64Max

/-- The operations of amd64, which rounds twice. -/
instance : Arithmetic Float64 where
  ofInt n := .ofRat n
  add := .add
  sub x y := .add x (.neg y)
  mul := .mul
  div := .div
  addMul x y z := .add x (.mul y z)
  lt := Float64.less
  le x y := Float64.less x y || (x = y && x ≠ .nan)
  toInt64 := Float64.toInt64
  toInt64_mem x := by
    cases x with
    | fin q => exact float64ToInt64_mem q
    | nan | posInf | negInf => exact ⟨le_rfl, by decide⟩

/-- The exact operations. -/
instance : Arithmetic ℚ where
  ofInt n := n
  add x y := x + y
  sub x y := x - y
  mul x y := x * y
  div x y := x / y
  addMul x y z := x + y * z
  lt x y := x < y
  le x y := x ≤ y
  toInt64 := float64ToInt64
  toInt64_mem := float64ToInt64_mem

end Aggregator.Go
