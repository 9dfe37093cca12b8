import DocComment.TypeExpr.Basic
import DocComment.TypeExpr.Token

/-!
The canonical text of a type expression, without outer braces. Arrays and all other generics
take the dotted form, and a record key is quoted unless it reads back as one bare key.
-/

namespace DocComment.TypeExpr

open Text

/-- An identifier or a run of digits. -/
def isBareKey (key : List Char) : Bool :=
  (startsWith isNameStart key && key.all isNameChar) || (!key.isEmpty && key.all isDigit)

def keyText (key : String) : String :=
  if isBareKey key.toList then key else "\"" ++ key ++ "\""

mutual

def print : TypeExpr → String
  | .name text => text
  | .all => "*"
  | .unknown => "?"
  | .literal text => text
  | .union elements => "|".intercalate (printList elements)
  | .group inner => "(" ++ print inner ++ ")"
  | .optional inner => print inner ++ "="
  | .nullable inner .before => "?" ++ print inner
  | .nullable inner .after => print inner ++ "?"
  | .nonNullable inner .before => "!" ++ print inner
  | .nonNullable inner .after => print inner ++ "!"
  | .variadic inner => "..." ++ print inner
  | .generic head params => head ++ ".<" ++ ", ".intercalate (printList params) ++ ">"
  | .field key value => keyText key ++ printAfter ": " value
  | .record fields => "\x7b" ++ ", ".intercalate (printList fields) ++ "\x7d"
  | .parameter label inner => label ++ ":" ++ print inner
  | .function params result receiver built =>
    "function(" ++
      ", ".intercalate (printBinding "this:" receiver ++ printBinding "new:" built ++
        printList params) ++
      ")" ++ printAfter ": " result

def printList : List TypeExpr → List String
  | [] => []
  | t :: ts => print t :: printList ts

def printAfter (mark : String) : Option TypeExpr → String
  | none => ""
  | some t => mark ++ print t

def printBinding (label : String) : Option TypeExpr → List String
  | none => []
  | some t => [label ++ print t]

end

end DocComment.TypeExpr
