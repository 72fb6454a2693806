/-
  The time range of a partition, read off its name
  (`internal/retention/partitions.go`).

  A name that ends in `_YYYY_MM` is a month, one that ends in `_YYYY_wWW` an ISO
  week.  The two patterns are matched at the end of the name, so they are read
  off its characters in reverse.
-/
import Aggregator.Go.Date
import Aggregator.Go.Strings

namespace Aggregator.Retention

open Aggregator.Go

/-- The value of a string of digits; `none` if some character is no digit. -/
def decimal (cs : List Char) : Option ℤ :=
  cs.foldlM (fun n c => if c.isDigit then some (10 * n + (c.toNat - '0'.toNat : ℤ)) else none) 0

/-- The year and month of a name matching `_(\d{4})_(\d{2})$`. -/
def monthlyPartitionPattern (name : String) : Option (ℤ × ℤ) :=
  match name.toList.reverse with
  | m₂ :: m₁ :: '_' :: y₄ :: y₃ :: y₂ :: y₁ :: '_' :: _ => do
    return (← decimal [y₁, y₂, y₃, y₄], ← decimal [m₁, m₂])
  | _ => none

/-- The year and week of a name matching `(?i)_(\d{4})_w(\d{2})$`. -/
def weeklyPartitionPattern (name : String) : Option (ℤ × ℤ) :=
  match name.toList.reverse with
  | w₂ :: w₁ :: w :: '_' :: y₄ :: y₃ :: y₂ :: y₁ :: '_' :: _ =>
    if w.toLower = 'w' then do
      return (← decimal [y₁, y₂, y₃, y₄], ← decimal [w₁, w₂])
    else none
  | _ => none

/-- The instant at which a month starts. -/
def monthStart (year month : ℤ) : ℤ := dayOfDate ⟨year, month, 1⟩ * day

/-- `Weekday`: the zero time is a Monday, and Sunday is 0. -/
def weekday (days : ℤ) : ℤ := (days + 1) % 7

def isoWeekStart (year week : ℤ) : ℤ :=
  let jan4 := dayOfDate ⟨year, 1, 4⟩
  let weekday := if weekday jan4 = 0 then 7 else weekday jan4
  let weekOneMonday := jan4 - (weekday - 1)
  (weekOneMonday + (week - 1) * 7) * day

/-- The start and the end of the range, or `none` if the name has none. -/
def parsePartitionRange (parentTable partitionName : String) : Option (ℤ × ℤ) :=
  let name := trimSpace partitionName
  if parentTable ≠ "" ∧
      !(toLower parentTable ++ "_").toList.isPrefixOf (toLower name).toList then none
  else
    match monthlyPartitionPattern name with
    | some (year, month) =>
      if month < 1 ∨ month > 12 then none
      else
        let next := if month = 12 then monthStart (year + 1) 1 else monthStart year (month + 1)
        some (monthStart year month, next)
    | none =>
      match weeklyPartitionPattern name with
      | some (year, week) =>
        if week < 1 ∨ week > 53 then none
        else
          let start := isoWeekStart year week
          some (start, start + 7 * day)
      | none => none

end Aggregator.Retention
