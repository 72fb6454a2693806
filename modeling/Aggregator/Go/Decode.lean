/-
  `json.Unmarshal` into the types that responses are declared with, and
  `json.Marshal` of structs.

  A struct is described by its fields (`StructField`): the name in the tag, and
  how a member of that name is encoded and decoded.  A member is decoded into
  the field with its name or, if there is none, into the first one whose name is
  equal up to case; a member that names no field is ignored.  `null` is the nil
  slice, the nil pointer and the nil `any`, and leaves every other field as it
  is.  The elements of a slice are decoded into new values.  In an `any`, a
  number is a `float64`: of the values of type `Json`, `dec` stands for a
  `float64` and `int` for an `int64`.

  A `json.RawMessage` is `none` where the member is absent, and decoding an
  absent message fails.  A decoder that returns `none` stands for the error.
-/
import Aggregator.Go.Json

namespace Aggregator.Go

/-- Equality of names up to case, as `encoding/json` folds them. -/
def foldName (name : String) : List Char :=
  name.toList.map fun c => if c = '\u017f' then 's' else if c = '\u212a' then 'k' else c.toLower

structure StructField (σ : Type) where
  name : String
  encode : σ → Json
  decode : σ → Json → Option σ

namespace Json

variable {α σ : Type}

mutual

/-- The numbers of the value as `float64`. -/
def roundFloats : Json → Json
  | int n => dec (roundFloat64 n)
  | dec q => dec (roundFloat64 q)
  | arr items => arr (roundItems items)
  | obj fields => obj (roundFields fields)
  | j => j

def roundItems : List Json → List Json
  | [] => []
  | item :: items => item.roundFloats :: roundItems items

def roundFields : List (String × Json) → List (String × Json)
  | [] => []
  | (name, item) :: fields => (name, item.roundFloats) :: roundFields fields

end

/-- Decoding into an `*int`. -/
def decodeIntPtr : Json → Option (Option ℤ)
  | null => some none
  | v => (v.decodeInt 0).map some

/-- Decoding into an `any`. -/
def decodeAny (v : Json) : Option Json := if v.floatsFit then some v.roundFloats else none

/-- Decoding into a slice. -/
def decodeSlice (decode : Json → Option α) : Json → Option (List α)
  | null => some []
  | arr items => items.mapM decode
  | _ => none

/-- Decoding into a `[n]any`: missing elements are nil, further ones dropped. -/
def decodeArray (n : ℕ) : Json → Option (List Json)
  | null => some (List.replicate n null)
  | arr items => ((items.take n).mapM decodeAny).map fun vs =>
      vs ++ List.replicate (n - vs.length) null
  | _ => none

/-- The field a member is decoded into. -/
def fieldNamed (fields : List (StructField σ)) (name : String) : Option (StructField σ) :=
  (fields.find? fun f => f.name = name).or (fields.find? fun f => foldName f.name = foldName name)

/-- Decoding into a struct whose fields are zero. -/
def decodeStruct (fields : List (StructField σ)) (zero : σ) : Json → Option σ :=
  unmarshal (fun s name v => match fieldNamed fields name with
    | some field => field.decode s v
    | none => some s) zero

def encodeStruct (fields : List (StructField σ)) (s : σ) : Json :=
  obj (fields.map fun field => (field.name, field.encode s))

end Json

namespace StructField

variable {σ τ : Type}

/-! The fields of the types that are used. -/

def string (name : String) (get : σ → String) (set : σ → String → σ) : StructField σ :=
  ⟨name, fun s => .str (get s), fun s v => (v.decodeString (get s)).map (set s)⟩

def int (name : String) (get : σ → ℤ) (set : σ → ℤ → σ) : StructField σ :=
  ⟨name, fun s => .int (get s), fun s v => (v.decodeInt (get s)).map (set s)⟩

def float (name : String) (get : σ → ℚ) (set : σ → ℚ → σ) : StructField σ :=
  ⟨name, fun s => .dec (get s), fun s v => (v.decodeFloat (get s)).map (set s)⟩

def bool (name : String) (get : σ → Bool) (set : σ → Bool → σ) : StructField σ :=
  ⟨name, fun s => .bool (get s), fun s v => (v.decodeBool (get s)).map (set s)⟩

def intPtr (name : String) (get : σ → Option ℤ) (set : σ → Option ℤ → σ) : StructField σ :=
  ⟨name, fun s => (get s).elim .null .int, fun s v => v.decodeIntPtr.map (set s)⟩

def raw (name : String) (get : σ → Option Json) (set : σ → Option Json → σ) : StructField σ :=
  ⟨name, fun s => (get s).getD .null, fun s v => some (set s (some v))⟩

/-- A slice of values that are encoded and decoded by the two functions. -/
def slice (name : String) (encode : τ → Json) (decode : Json → Option τ) (get : σ → List τ)
    (set : σ → List τ → σ) : StructField σ :=
  ⟨name, fun s => .arr ((get s).map encode), fun s v => (v.decodeSlice decode).map (set s)⟩

/-- A `[][]string`. -/
def strings (name : String) : (σ → List (List String)) → (σ → List (List String) → σ) →
    StructField σ :=
  slice name (fun level => .arr (level.map .str)) (Json.decodeSlice (Json.decodeString ""))

/-- A `[][]float64`. -/
def floats (name : String) : (σ → List (List ℚ)) → (σ → List (List ℚ) → σ) → StructField σ :=
  slice name (fun level => .arr (level.map .dec)) (Json.decodeSlice (Json.decodeFloat 0))

end StructField

end Aggregator.Go
