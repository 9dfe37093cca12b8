import DocComment.Text.Blank

/-!
Texts as lists of lines. A line ends at a line feed and nowhere else, so a carriage return
belongs to its line. Dedenting counts a tab and a space as different characters.
-/

namespace DocComment.Text

def isNewline (c : Char) : Bool := c == '\n'

def splitLines (cs : List Char) : List (List Char) := splitBy isNewline cs

def joinLines (lines : List (List Char)) : List Char := ['\n'].intercalate lines

def isIndent (c : Char) : Bool := c == ' ' || c == '\t'

def commonPrefix : List Char → List Char → List Char
  | a :: as, b :: bs => if a = b then a :: commonPrefix as bs else []
  | _, _ => []

/-- The longest indentation shared by all lines that are not empty. -/
def margin (lines : List (List Char)) : List Char :=
  match (lines.filter (fun l => !l.isEmpty)).map (·.takeWhile isIndent) with
  | [] => []
  | first :: others => others.foldl commonPrefix first

/-- Empties the lines of indentation only, then takes the shared margin off the others. -/
def dedent (lines : List (List Char)) : List (List Char) :=
  let cleared := lines.map fun l => if l.all isIndent then [] else l
  cleared.map (·.drop (margin cleared).length)

/-- Dedented text without the line feeds around it. -/
def codeBlock (lines : List (List Char)) : List Char :=
  trimBy isNewline (joinLines (dedent lines))

/-- Dedented text without the white space around it. -/
def textBlock (lines : List (List Char)) : List Char :=
  trim (joinLines (dedent lines))

end DocComment.Text
