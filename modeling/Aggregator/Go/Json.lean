/-
  JSON values, as `encoding/json` decodes them and as a JSONB column holds them.

  A number that is written as an integer is kept apart from one that is not,
  since `encoding/json` decodes only the former into an integer field.  The
  decoders return `none` on a value of the wrong type; `null` leaves the field
  as it is.  A number decoded into a `float64` or an `any` has to fit into a
  `float64`.  An object may name a member twice: `encoding/json` decodes both,
  in order, and a JSONB column keeps the last.
-/
import Aggregator.Go.Float64

namespace Aggregator.Go

inductive Json where
  | null
  | bool (b : Bool)
  | int (n : ℤ)
  | dec (q : ℚ)
  | str (s : String)
  | arr (items : List Json)
  | obj (fields : List (String × Json))

namespace Json

/-- The elements of a value that `||` concatenates as an array. -/
def items : Json → List Json
  | arr js => js
  | j => [j]

/-- The JSONB operator `||`. -/
def concat : Json → Json → Json
  | obj fs, obj gs => obj (fs.filter (fun f => !gs.any (·.1 = f.1)) ++ gs)
  | j, k => arr (j.items ++ k.items)

mutual

/-- Every number of the value fits into a `float64`. -/
def floatsFit : Json → Bool
  | int n => fitsFloat64 n
  | dec q => fitsFloat64 q
  | arr items => itemsFit items
  | obj fields => fieldsFit fields
  | _ => true

def itemsFit : List Json → Bool
  | [] => true
  | item :: items => item.floatsFit && itemsFit items

def fieldsFit : List (String × Json) → Bool
  | [] => true
  | (_, item) :: fields => item.floatsFit && fieldsFit fields

end

mutual

/-- How deep arrays and objects are nested. -/
def depth : Json → ℕ
  | arr items => itemsDepth items + 1
  | obj fields => fieldsDepth fields + 1
  | _ => 0

def itemsDepth : List Json → ℕ
  | [] => 0
  | item :: items => max item.depth (itemsDepth items)

def fieldsDepth : List (String × Json) → ℕ
  | [] => 0
  | (_, item) :: fields => max item.depth (fieldsDepth fields)

end

/-- `json.Unmarshal` decodes the value into an `any`: its numbers fit, and it is
    nested no deeper than the decoder goes. -/
def decodes (value : Json) : Bool := value.floatsFit && value.depth ≤ 10000

mutual

/-- The value as a JSONB column holds it. -/
def jsonb : Json → Json
  | arr items => arr (jsonbItems items)
  | obj fields => obj (jsonbFields fields)
  | j => j

def jsonbItems : List Json → List Json
  | [] => []
  | item :: items => item.jsonb :: jsonbItems items

def jsonbFields : List (String × Json) → List (String × Json)
  | [] => []
  | (name, item) :: fields =>
    if fields.any (·.1 = name) then jsonbFields fields
    else (name, item.jsonb) :: jsonbFields fields

end

/-- Decoding into an `int64` (or, on the architecture used, `int`) field. -/
def decodeInt (old : ℤ) : Json → Option ℤ
  | null => some old
  | int n => if int64Min ≤ n ∧ n ≤ int64Max then some n else none
  | _ => none

/-- Decoding into a `float64` field, which has to hold the number. -/
def decodeFloat (old : ℚ) : Json → Option ℚ
  | null => some old
  | int n => if fitsFloat64 n then some (roundFloat64 n) else none
  | dec q => if fitsFloat64 q then some (roundFloat64 q) else none
  | _ => none

/-- Decoding into a `string` field. -/
def decodeString (old : String) : Json → Option String
  | null => some old
  | str s => some s
  | _ => none

/-- Decoding into a `bool` field. -/
def decodeBool (old : Bool) : Json → Option Bool
  | null => some old
  | bool b => some b
  | _ => none

/-- `json.Unmarshal` into a struct: each member of an object is decoded, in
    order, into the field it names.  `setField` gives the struct after that, and
    `none` if the value has the wrong type. -/
def unmarshal {σ : Type} (setField : σ → String → Json → Option σ) (s : σ) : Json → Option σ
  | null => some s
  | obj fields => fields.foldlM (fun s f => setField s f.1 f.2) s
  | _ => none

end Json

end Aggregator.Go
