/-!
Matching brackets by counting depth. Nothing is skipped on the way, so brackets inside quotes
count as well.
-/

namespace DocComment.Text

/-- How far away the depth returns to zero, counted from a depth already reached. -/
def closingFrom (opener closer : Char) : Int → List Char → Option Nat
  | _, [] => none
  | depth, c :: rest =>
    if c = opener then (closingFrom opener closer (depth + 1) rest).map (· + 1)
    else if c = closer then
      if depth = 1 then some 0 else (closingFrom opener closer (depth - 1) rest).map (· + 1)
    else (closingFrom opener closer depth rest).map (· + 1)

/-- The index of the character that closes the bracket at the front. -/
def closing (opener closer : Char) (cs : List Char) : Option Nat := closingFrom opener closer 0 cs

/-- The index in a text of the character that closes the bracket at `start`. -/
def closingAt (opener closer : Char) (text : List Char) (start : Nat) : Option Nat :=
  (closing opener closer (text.drop start)).map (start + ·)

def braceClosing (cs : List Char) : Option Nat := closing '\x7b' '\x7d' cs
def bracketClosing (cs : List Char) : Option Nat := closing '[' ']' cs

end DocComment.Text
