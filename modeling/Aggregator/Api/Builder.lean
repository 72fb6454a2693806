/-
  The builders of the list queries (`seriesBuilder` of
  `internal/api/derivatives/series.go`, `adminBuilder` of `admin.go`).

  Both collect the clauses of a `WHERE` and the arguments their placeholders
  stand for; `limited` puts the clauses into the text of a query and adds the
  limit and the offset.  A `Clause` is what a clause means: it is used to say
  which rows a query selects.

  * `Builder.Stands b clauses`: the text and the arguments of `b` are those of
    `clauses`, in order;
  * `Builder.Stands.limited`: what the whole query means;
  * `Builder.Alike`: builders whose clauses have the same text.
-/
import Aggregator.Api.Query
import Aggregator.Lib.Placeholders

namespace Aggregator.Api

open Aggregator.Placeholders

/-- An argument of a query. -/
inductive Arg where
  | int (n : ℤ)
  | text (s : String)
  | time (t : ℤ)
  | float (q : ℚ)
deriving DecidableEq

/-- The comparisons of the clauses. -/
inductive Cmp where
  | eq
  | ge
  | le
deriving DecidableEq

def Cmp.text : Cmp → String
  | .eq => " = "
  | .ge => " >= "
  | .le => " <= "

theorem Cmp.plain_text (cmp : Cmp) : plain cmp.text = true := by
  cases cmp <;> exact plain_ofList (by decide)

/-- A clause of a `WHERE`: a column compared with an argument. -/
structure Clause where
  column : String
  cmp : Cmp
  value : Arg
deriving DecidableEq

/-- A clause with its argument in place. -/
def Clause.pieces (c : Clause) : List (Piece Arg) := literal (c.column ++ c.cmp.text) ++ [.value c.value]

/-- A `WHERE` with its arguments in place. -/
def wherePieces : List Clause → List (Piece Arg)
  | [] => []
  | c :: cs => literal "WHERE " ++ c.pieces ++ cs.flatMap fun c => literal " AND " ++ c.pieces

/-! ## The builders -/

/-- `seriesBuilder` and `adminBuilder`. -/
structure Builder where
  args : List Arg
  clauses : List String
deriving DecidableEq

namespace Builder

/-- `newAdminBuilder`. -/
def empty : Builder := ⟨[], []⟩

/-- `b.arg(value)`: the placeholder, and the builder with the argument. -/
def arg (b : Builder) (value : Arg) : String × Builder :=
  let args := b.args ++ [value]
  (placeholder args.length, { b with args })

/-- `b.clauses = append(b.clauses, column + " = " + b.arg(value))`. -/
def clause (b : Builder) (column : String) (cmp : Cmp) (value : Arg) : Builder :=
  let (placeholder, b) := b.arg value
  { b with clauses := b.clauses ++ [column ++ cmp.text ++ placeholder] }

/-- A clause for a time that may be missing. -/
def timeBound (b : Builder) (column : String) (cmp : Cmp) : Option ℤ → Builder
  | some t => b.clause column cmp (.time t)
  | none => b

/-- The clauses for the start and the end time. -/
def timeRange (b : Builder) (opts : ListOptions) (column : String) : Builder :=
  (b.timeBound column .ge opts.startTime).timeBound column .le opts.endTime

/-- `newSeriesBuilder`. -/
def newSeries (symbolID : ℤ) (opts : ListOptions) (timeColumn : String) : Builder :=
  (empty.clause "symbol_id" .eq (.int symbolID)).timeRange opts timeColumn

/-- A clause for a text that is given: `exchange()`, `interval(column, value)`
    and the conditions of the admin queries. -/
def filter (b : Builder) (column value : String) : Builder :=
  if value ≠ "" then b.clause column .eq (.text value) else b

def whereSQL (b : Builder) : String :=
  if b.clauses = [] then "" else "WHERE " ++ " AND ".intercalate b.clauses

/-- The text of a query around the clauses: `… WHERE … LIMIT … OFFSET …`. -/
def limited (b : Builder) (select order : String) (opts : ListOptions) : Writer Arg :=
  let whereText := b.whereSQL
  let (limit, b) := b.arg (.int opts.limit)
  let (offset, b) := b.arg (.int opts.offset)
  ⟨select ++ whereText ++ order ++ "\n\t\tLIMIT " ++ limit ++ " OFFSET " ++ offset ++ "\n\t", b.args⟩

/-! ## What a builder stands for -/

/-- The `WHERE` of a builder, as a text with its arguments. -/
def writer (b : Builder) : Writer Arg := ⟨b.whereSQL, b.args⟩

/-- The clauses of a builder are `clauses`, each with its argument. -/
structure Stands (b : Builder) (clauses : List Clause) : Prop where
  means : b.writer.Means (wherePieces clauses)
  length : b.clauses.length = clauses.length

/-- A new clause is written behind those there are. -/
theorem writer_clause (b : Builder) (column : String) (cmp : Cmp) (value : Arg) :
    (b.clause column cmp value).writer =
      (b.writer.writeText (if b.clauses = [] then "WHERE " else " AND ")).writeArg
        (column ++ cmp.text) value "" := by
  have hne : (b.clause column cmp value).clauses ≠ [] := by simp [clause]
  have htext : (b.clause column cmp value).whereSQL =
      b.whereSQL ++ (if b.clauses = [] then "WHERE " else " AND ") ++ (column ++ cmp.text) ++
        placeholder (b.args.length + 1) := by
    rw [whereSQL, if_neg hne, whereSQL]
    split_ifs with hempty
    · simp [clause, arg, hempty, String.append_assoc]
    · rw [clause, arg, String.intercalate_append_of_ne_nil hempty (List.cons_ne_nil _ _)]
      simp [String.append_assoc]
  simp only [writer, Writer.writeText, Writer.writeArg, htext, String.append_empty]
  rfl

theorem wherePieces_append (cs : List Clause) (c : Clause) :
    wherePieces (cs ++ [c]) =
      wherePieces cs ++ literal (if cs = [] then "WHERE " else " AND ") ++ c.pieces := by
  cases cs with
  | nil => simp [wherePieces]
  | cons d cs => simp [wherePieces, List.append_assoc]

theorem stands_empty : empty.Stands [] := ⟨Writer.means_nil Arg, rfl⟩

variable {b : Builder} {cs : List Clause}

theorem Stands.clause (h : b.Stands cs) {column : String} {cmp : Cmp}
    (hcolumn : plain column = true) (value : Arg) :
    (b.clause column cmp value).Stands (cs ++ [⟨column, cmp, value⟩]) := by
  have hempty : b.clauses = [] ↔ cs = [] := by
    rw [← List.length_eq_zero_iff, h.length, List.length_eq_zero_iff]
  refine ⟨?_, by simp [Builder.clause, arg, h.length]⟩
  rw [writer_clause, wherePieces_append]
  have hword : plain (if b.clauses = [] then "WHERE " else " AND ") = true := by
    split_ifs <;> exact plain_ofList (by decide)
  have hmeans := (h.means.writeText hword).writeArg (column ++ cmp.text)
    (plain_append hcolumn cmp.plain_text) value "" rfl
  simpa [hempty, Clause.pieces, literal] using hmeans

/-- The clause of a time that may be missing. -/
def boundClause (column : String) (cmp : Cmp) : Option ℤ → List Clause
  | some t => [⟨column, cmp, .time t⟩]
  | none => []

theorem Stands.timeBound (h : b.Stands cs) {column : String} {cmp : Cmp}
    (hcolumn : plain column = true) (t : Option ℤ) :
    (b.timeBound column cmp t).Stands (cs ++ boundClause column cmp t) := by
  cases t with
  | none => simpa [boundClause, Builder.timeBound] using h
  | some t => exact h.clause hcolumn (.time t)

/-- The clause of a text that may be missing. -/
def textClause (column value : String) : List Clause :=
  if value ≠ "" then [⟨column, .eq, .text value⟩] else []

theorem Stands.filter (h : b.Stands cs) {column : String}
    (hcolumn : plain column = true) (value : String) :
    (b.filter column value).Stands (cs ++ textClause column value) := by
  unfold Builder.filter textClause
  split_ifs
  · exact h.clause hcolumn (.text value)
  · simpa using h

/-- A query with its arguments in place. -/
def limitedPieces (cs : List Clause) (select order : String) (opts : ListOptions) :
    List (Piece Arg) :=
  literal select ++ wherePieces cs ++ literal order ++ literal "\n\t\tLIMIT " ++
    [.value (.int opts.limit)] ++ literal " OFFSET " ++ [.value (.int opts.offset)] ++ literal "\n\t"

theorem limited_eq (b : Builder) (select order : String) (opts : ListOptions) :
    b.limited select order opts =
      (((b.writer.prependText select).writeText order).writeArg "\n\t\tLIMIT "
        (.int opts.limit) "").writeArg " OFFSET " (.int opts.offset) "\n\t" := by
  simp [limited, arg, writer, Writer.prependText, Writer.writeText, Writer.writeArg,
    String.append_assoc]

/-- **What a query means**: the text around the clauses, the clauses and the
    page, each value in its place. -/
theorem Stands.limited (h : b.Stands cs) {select order : String} (hselect : plain select = true)
    (horder : plain order = true) (opts : ListOptions) :
    (b.limited select order opts).Means (limitedPieces cs select order opts) := by
  rw [limited_eq]
  have hmeans := (((h.means.prependText hselect).writeText horder).writeArg
    "\n\t\tLIMIT " (plain_ofList (by decide)) (.int opts.limit) "" rfl).writeArg
    " OFFSET " (plain_ofList (by decide)) (.int opts.offset) "\n\t" (plain_ofList (by decide))
  simpa [limitedPieces, literal, List.append_assoc] using hmeans

/-! ## Builders with the same text -/

/-- Builders with the same clauses, whatever their arguments are. -/
def Alike (b b' : Builder) : Prop := b.clauses = b'.clauses ∧ b.args.length = b'.args.length

variable {b' : Builder}

theorem Alike.clause (h : b.Alike b') (column : String) (cmp : Cmp) (value value' : Arg) :
    (b.clause column cmp value).Alike (b'.clause column cmp value') := by
  simp only [Builder.Alike, Builder.clause, arg, List.length_append, List.length_singleton, h.1, h.2,
    and_self]

theorem Alike.timeBound (h : b.Alike b') (column : String) (cmp : Cmp) {t t' : Option ℤ}
    (ht : t.isSome = t'.isSome) : (b.timeBound column cmp t).Alike (b'.timeBound column cmp t') := by
  cases t with
  | none =>
    cases t' with
    | none => exact h
    | some t' => cases ht
  | some t =>
    cases t' with
    | none => cases ht
    | some t' => exact h.clause ..

theorem Alike.filter (h : b.Alike b') (column : String) {value value' : String}
    (hvalue : value = "" ↔ value' = "") : (b.filter column value).Alike (b'.filter column value') := by
  unfold Builder.filter
  by_cases hempty : value = ""
  · rw [if_neg (not_not.2 hempty), if_neg (not_not.2 (hvalue.1 hempty))]
    exact h
  · rw [if_pos hempty, if_pos (mt hvalue.2 hempty)]
    exact h.clause ..

theorem Alike.limited (h : b.Alike b') (select order : String) (opts opts' : ListOptions) :
    (b.limited select order opts).Alike (b'.limited select order opts') := by
  have hwriter : b.writer.Alike b'.writer := by
    refine ⟨?_, h.2⟩
    simp only [writer, whereSQL, h.1]
  rw [limited_eq, limited_eq]
  exact (((hwriter.prependText select).writeText order).writeArg ..).writeArg ..

end Builder

end Aggregator.Api
