import DocComment.Data

/-!
How deep a type expression may nest. A limit is given as a number or as a truth value, which
counts as one or zero; only the whole levels below it matter for parsing, but messages show
it as it was given.
-/

namespace DocComment.TypeExpr

inductive Limit
  | flag (value : Bool)
  | number (value : Number)
  deriving DecidableEq, Repr

namespace Limit

def ofNat (n : Nat) : Limit := .number (.whole n)

def floor : Limit → Int
  | .flag b => if b then 1 else 0
  | .number n => n.floor

/-- The number of levels that may be open at once. -/
def levels (limit : Limit) : Nat := limit.floor.toNat

def toData : Limit → Data
  | .flag b => .bool b
  | .number n => .number n

def ofData? : Data → Option Limit
  | .bool b => some (.flag b)
  | .number n => some (.number n)
  | _ => none

def shown (limit : Limit) : String := limit.toData.shown

/-- The limit of a parser whose options say nothing else. -/
def standard : Limit := .ofNat 64

end Limit

end DocComment.TypeExpr
