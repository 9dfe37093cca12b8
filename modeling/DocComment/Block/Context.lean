import DocComment.Block.Basic
import DocComment.Block.Declaration
import DocComment.Text.Lines

/-!
What the code after a comment declares. Only the first line that is not blank is looked at,
and another comment on that line means that there is no such code.
-/

namespace DocComment.CodeContext

open Text

/-- The first line that is not blank, and its number if the first of all lines has `line`. -/
def firstCode (line : Int) : List (List Char) → Option (Int × List Char)
  | [] => none
  | text :: rest => if text.all isBlank then firstCode (line + 1) rest else some (line, text)

def opensComment : List Char → Bool
  | '/' :: c :: _ => c == '*' || c == '/'
  | _ => false

/-- The context given by the text that follows a comment ending on line `line`. -/
def ofText? (line : Int) (after : List Char) : Option CodeContext :=
  match firstCode line (splitLines after) with
  | none => none
  | some (line, text) =>
    if opensComment (trim text) then none
    else
      let value := String.ofList (trim text)
      match Declaration.find? text with
      | none => some { value, line := some line }
      | some (kind, declared) =>
        some {
          kind := some kind
          name := some (String.ofList declared.name)
          parent := declared.parent.map String.ofList
          value
          line := some line }

end DocComment.CodeContext
