import DocComment.Data
import DocComment.Text.Quoted

/-!
Data as indented JSON. Each level is set in by two blanks, empty lists and objects stay on
one line, and only what must be escaped is.
-/

namespace DocComment.Report

open Text

def jsonChar (c : Char) : List Char :=
  if c = '"' || c = '\\' then ['\\', c]
  else if c = '\n' then ['\\', 'n']
  else if c = '\r' then ['\\', 'r']
  else if c = '\t' then ['\\', 't']
  else if c = '\x08' then ['\\', 'b']
  else if c = '\x0c' then ['\\', 'f']
  else if c.toNat < 0x20 then '\\' :: 'u' :: hexDigits 4 c.toNat
  else [c]

def jsonText (s : String) : String :=
  String.ofList ('"' :: s.toList.flatMap jsonChar ++ ['"'])

def indentation (depth : Nat) : String := String.ofList (List.replicate (2 * depth) ' ')

/-- Parts on lines of their own between two brackets. -/
def bracketed (depth : Nat) (opener closer : String) (parts : List String) : String :=
  if parts.isEmpty then opener ++ closer
  else opener ++ "\n" ++ ",\n".intercalate parts ++ "\n" ++ indentation depth ++ closer

mutual

def json (depth : Nat) : Data → String
  | .null => "null"
  | .bool b => if b then "true" else "false"
  | .number n => n.toText
  | .text s => jsonText s
  | .list items => bracketed depth "[" "]" (jsonItems (depth + 1) items)
  | .object fields => bracketed depth "\x7b" "\x7d" (jsonFields (depth + 1) fields)

def jsonItems (depth : Nat) : List Data → List String
  | [] => []
  | d :: ds => (indentation depth ++ json depth d) :: jsonItems depth ds

def jsonFields (depth : Nat) : List (String × Data) → List String
  | [] => []
  | (key, d) :: rest =>
    (indentation depth ++ jsonText key ++ ": " ++ json depth d) :: jsonFields depth rest

end

end DocComment.Report
