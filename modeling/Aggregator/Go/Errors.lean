/-
  Go errors.

  An error is its text together with the chain of causes that `errors.As` and
  `errors.Is` walk through `Unwrap`.  `ε` is the type of the one kind of error
  that callers look for with `errors.As`.
-/
import Mathlib.Logic.Basic

namespace Aggregator.Go

/-- One link of the chain of causes. -/
inductive Cause (ε : Type) where
  | custom (e : ε)
  | canceled
  | deadlineExceeded
  | other
deriving DecidableEq, Repr

structure Err (ε : Type) where
  message : String
  chain : List (Cause ε)
deriving DecidableEq, Repr

namespace Err
variable {ε : Type}

/-- `errors.New(message)`. -/
def new (message : String) : Err ε := ⟨message, [.other]⟩

/-- `context.Canceled`. -/
def canceled : Err ε := ⟨"context canceled", [.canceled]⟩

/-- `context.DeadlineExceeded`. -/
def deadlineExceeded : Err ε := ⟨"context deadline exceeded", [.deadlineExceeded]⟩

/-- `fmt.Errorf(text + ": %w", err)`. -/
def wrap (text : String) (err : Err ε) : Err ε :=
  ⟨text ++ ": " ++ err.message, .other :: err.chain⟩

/-- `errors.As(err, &target)`. -/
def as (err : Err ε) : Option ε :=
  err.chain.findSome? fun c => match c with | .custom e => some e | _ => none

/-- `errors.Is(err, context.DeadlineExceeded)`. -/
def isDeadlineExceeded (err : Err ε) : Bool :=
  err.chain.any fun c => match c with | .deadlineExceeded => true | _ => false

/-- `errors.Is(err, context.Canceled)`. -/
def isCanceled (err : Err ε) : Bool :=
  err.chain.any fun c => match c with | .canceled => true | _ => false

/-- `errors.Is(err, target)` for an error that is a value of its own. -/
def is [DecidableEq ε] (err : Err ε) (target : ε) : Bool := .custom target ∈ err.chain

end Err

end Aggregator.Go
