/-
  The types that Postgres gives to the parameters of a statement whose text says
  none, and the statements it refuses because of them.

  A parameter takes its type at the first place that asks for one: the type it is
  cast to, that of the other operand, or that of the column it is stored in.  From
  then on it is an expression of this type like any other.  The columns of an
  `INSERT … SELECT` come last, after all expressions of the query.
-/
import Mathlib.Data.List.Basic

namespace Aggregator.Postgres

inductive SqlType
  | boolean
  | integer
  | bigint
  | numeric
  | text
  | timestamptz
  | interval
  | jsonb
deriving DecidableEq, Repr

namespace SqlType

/-- The name in messages. -/
def name : SqlType → String
  | boolean => "boolean"
  | integer => "integer"
  | bigint => "bigint"
  | numeric => "numeric"
  | text => "text"
  | timestamptz => "timestamp with time zone"
  | interval => "interval"
  | jsonb => "jsonb"

/-- The types of numbers. -/
def isNumber (t : SqlType) : Bool := t ∈ [integer, bigint, numeric]

/-- A value of the first type may be stored in a column of the second: as text
    whatever it is, but text only as text. -/
def assignable (source target : SqlType) : Bool :=
  source = target || target = text || source.isNumber && target.isNumber

end SqlType

inductive Operator
  | eq
  | lt
  | le
  | gt
  | ge
  | minus
  | times
  | div
  | concat
deriving DecidableEq, Repr

namespace Operator

def symbol : Operator → String
  | eq => "="
  | lt => "<"
  | le => "<="
  | gt => ">"
  | ge => ">="
  | minus => "-"
  | times => "*"
  | div => "/"
  | concat => "||"

/-- The type of the result, if there is the operator. -/
def result : Operator → SqlType → SqlType → Option SqlType
  | minus, .timestamptz, .interval => some .timestamptz
  | minus, .timestamptz, .timestamptz => some .interval
  | minus, .interval, .interval => some .interval
  | times, .integer, .interval => some .interval
  | times, .interval, .integer => some .interval
  | concat, .text, .text => some .text
  | concat, _, _ => none
  | minus, l, r | times, l, r | div, l, r => if l = r ∧ l.isNumber then some l else none
  | _, l, r => if l = r then some .boolean else none

end Operator

/-- An expression, as far as its type goes; `typed` has no parameters. -/
inductive Expr
  | typed (t : SqlType)
  | param (n : ℕ)
  | cast (e : Expr) (t : SqlType)
  | binary (op : Operator) (left right : Expr)

/-- The types of the parameters that have one. -/
abbrev ParamTypes := List (ℕ × SqlType)

namespace Expr

/-- A parameter without a type takes the one that is asked for. -/
def take (t : SqlType) (types : ParamTypes) : Expr → ParamTypes
  | param n => (n, t) :: types
  | _ => types

/-- The type of an expression, and what its parameters have got; there is none for
    a parameter that has no type yet. -/
def typeOf : Expr → ParamTypes → Except String (Option SqlType × ParamTypes)
  | typed t, types => .ok (some t, types)
  | param n, types => .ok (types.lookup n, types)
  | cast e t, types => do
    match ← e.typeOf types with
    | (none, types) => return (some t, e.take t types)
    | (some _, types) => return (some t, types)
  | binary op left right, types => do
    let (l, types) ← left.typeOf types
    let (r, types) ← right.typeOf types
    match l, r with
    | none, none => .error s!"pq: operator is not unique: unknown {op.symbol} unknown"
    | some l, none => apply op l l (right.take l types)
    | none, some r => apply op r r (left.take r types)
    | some l, some r => apply op l r types
where
  apply (op : Operator) (l r : SqlType) (types : ParamTypes) :
      Except String (Option SqlType × ParamTypes) :=
    match op.result l r with
    | some t => .ok (some t, types)
    | none => .error s!"pq: operator does not exist: {l.name} {op.symbol} {r.name}"

/-- An argument of a function that takes values of any type. -/
def argument (types : ParamTypes) (e : Expr) : Except String ParamTypes := do
  match e, ← e.typeOf types with
  | param n, (none, _) => .error s!"pq: could not determine data type of parameter ${n}"
  | _, (_, types) => return types

/-- The expression is stored in a column. -/
def store (column : String) (t : SqlType) (types : ParamTypes) (e : Expr) :
    Except String ParamTypes := do
  match ← e.typeOf types with
  | (none, types) => return e.take t types
  | (some s, types) =>
    if s.assignable t then
      return types
    else
      .error s!"pq: column \"{column}\" is of type {t.name} but expression is of type {s.name}"

end Expr

/-- The places of a statement at which there are parameters, in the order in which
    they are read: its expressions, the arguments of functions that take values of
    any type, and the columns that are stored. -/
structure StatementText where
  expressions : List Expr
  arguments : List Expr
  columns : List (String × SqlType × Expr)

/-- The types of the parameters, or why the statement is refused. -/
def StatementText.prepare (s : StatementText) : Except String ParamTypes := do
  let types ← s.expressions.foldlM (fun types e => return (← e.typeOf types).2) []
  let types ← s.arguments.foldlM Expr.argument types
  s.columns.foldlM (fun types c => c.2.2.store c.1 c.2.1 types) types

end Aggregator.Postgres
