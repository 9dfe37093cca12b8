import DocComment.Decimal
import DocComment.Text.Quoted

/-!
Plain data as callers hand it in: option values, settings files, and whatever a handler may
return. Messages show such data in one fixed way, name its kind, and options test it for
being empty or zero.
-/

namespace DocComment

/-- Whole numbers are kept apart from decimals, also from those of the same value. -/
inductive Number
  | whole (value : Int)
  | decimal (value : Decimal)
  deriving DecidableEq, Repr

namespace Number

def isZero : Number → Bool
  | .whole n => n == 0
  | .decimal d => d.digits == 0

def floor : Number → Int
  | .whole n => n
  | .decimal d => d.floor

def toText : Number → String
  | .whole n => toString n
  | .decimal d => d.toText

end Number

inductive Data
  | null
  | bool (value : Bool)
  | number (value : Number)
  | text (value : String)
  | list (items : List Data)
  | object (fields : List (String × Data))
  deriving Repr, BEq, Inhabited

namespace Data

def ofInt (n : Int) : Data := .number (.whole n)
def ofNat (n : Nat) : Data := .ofInt n
def ofText? (s : Option String) : Data := s.elim .null .text

/-- Everything counts as true but null, false, zero and what is empty. -/
def isTrue : Data → Bool
  | .null => false
  | .bool b => b
  | .number n => !n.isZero
  | .text s => !s.isEmpty
  | .list items => !items.isEmpty
  | .object fields => !fields.isEmpty

def isNull : Data → Bool
  | .null => true
  | _ => false

def kindName : Data → String
  | .null => "NoneType"
  | .bool _ => "bool"
  | .number (.whole _) => "int"
  | .number (.decimal _) => "float"
  | .text _ => "str"
  | .list _ => "list"
  | .object _ => "dict"

def boolText (b : Bool) : String := if b then "True" else "False"

mutual

/-- The form data takes inside messages. -/
def shown : Data → String
  | .null => "None"
  | .bool b => boolText b
  | .number n => n.toText
  | .text s => Text.quoted s
  | .list items => "[" ++ ", ".intercalate (shownItems items) ++ "]"
  | .object fields => "\x7b" ++ ", ".intercalate (shownFields fields) ++ "\x7d"

def shownItems : List Data → List String
  | [] => []
  | d :: ds => d.shown :: shownItems ds

def shownFields : List (String × Data) → List String
  | [] => []
  | (key, d) :: rest => (Text.quoted key ++ ": " ++ d.shown) :: shownFields rest

end

/-- The form data takes as part of a running text. A text stands there as it is. -/
def written : Data → String
  | .text s => s
  | d => d.shown

def field? (fields : List (String × Data)) (key : String) : Option Data := fields.lookup key

end Data

end DocComment
