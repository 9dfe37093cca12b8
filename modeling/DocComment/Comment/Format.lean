import DocComment.Comment.Basic
import DocComment.Text.Lines

/-!
Tidying a comment. Description and footer lose indentation, white space at line ends and
surplus blank lines. A tag's description becomes one line, without the dash that some
writers put between name and text.
-/

namespace DocComment

open Text

/-- Never more than two newlines in a row. -/
def collapseNewlines : List Char → List Char
  | '\n' :: '\n' :: '\n' :: rest => collapseNewlines ('\n' :: '\n' :: rest)
  | c :: rest => c :: collapseNewlines rest
  | [] => []

def tidyBlock (cs : List Char) : List Char :=
  trimBy isNewline (collapseNewlines (joinLines ((dedent (splitLines cs)).map trimEnd)))

/-- A dash only separates if white space follows it. -/
def dropSeparator (cs : List Char) : List Char :=
  match trimStart cs with
  | '-' :: c :: rest => if isBlank c then trimStart rest else cs
  | _ => cs

def tidyLine (cs : List Char) : List Char := [' '].intercalate (words (dropSeparator cs))

def Tag.format (tag : Tag) : Tag :=
  { tag with description := String.ofList (tidyLine tag.description.toList) }

def Comment.format (c : Comment) : Comment :=
  { c with
    description := String.ofList (tidyBlock c.description.toList)
    footer := String.ofList (tidyBlock c.footer.toList)
    tags := c.tags.map Tag.format }

end DocComment
