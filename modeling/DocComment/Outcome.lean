import DocComment.Error
import DocComment.Log

/-!
Outcomes of fallible steps. A step never decides whether its failure is fatal: it says what
happened, and settling applies strictness once. A rejection is dropped without an error in
either mode.
-/

namespace DocComment

inductive Rejection
  | unknownTitle
  | missingType
  deriving DecidableEq, Repr

namespace Rejection

def name : Rejection → String
  | .unknownTitle => "unknown_title"
  | .missingType => "missing_type"

def ofName? (s : String) : Option Rejection :=
  [unknownTitle, missingType].find? (fun r => r.name == s)

end Rejection

inductive Outcome (α : Type)
  | ok (value : α)
  | fail (error : Error)
  | reject (reason : Rejection)
  deriving DecidableEq, Repr

namespace Outcome

variable {α : Type}

def isOk : Outcome α → Bool
  | .ok _ => true
  | _ => false

def map {β : Type} (f : α → β) : Outcome α → Outcome β
  | .ok a => .ok (f a)
  | .fail e => .fail e
  | .reject r => .reject r

/-- A value, nothing for what is dropped, or the error of a failure that is fatal. -/
def settle (strict : Bool) : Outcome α → Except Error (Option α) × Log
  | .ok a => (.ok (some a), [])
  | .fail e =>
    if strict then (.error e, [])
    else (.ok none, [.debug ("Dropping malformed input: " ++ e.message)])
  | .reject r => (.ok none, [.debug ("Dropping rejected tag (" ++ r.name ++ ")")])

end Outcome

end DocComment
