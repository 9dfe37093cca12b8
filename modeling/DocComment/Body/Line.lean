import DocComment.Text.Lines
import DocComment.Text.Word

/-!
Single lines of a comment body: gutters, and the lines that open a tag, an example or fenced
code. A gutter is a star in front, with one space after it at most.
-/

namespace DocComment.Body

open Text

abbrev Line := List Char

def isBlankLine (line : Line) : Bool := line.all isBlank

def stripGutter (line : Line) : Line :=
  match trimStart line with
  | '*' :: ' ' :: rest => rest
  | '*' :: rest => rest
  | _ => line

def startsWithStar (line : Line) : Bool :=
  match trimStart line with
  | '*' :: _ => true
  | _ => false

/-- Whether every line after the first has a gutter, blank lines aside, and there is one. -/
def hasGutters (lines : List Line) : Bool :=
  let candidates := (lines.drop 1).filter (fun line => !isBlankLine line)
  !candidates.isEmpty && candidates.all startsWithStar

def isTagLine (line : Line) : Bool :=
  match trimStart line with
  | '@' :: c :: _ => c.isAlpha
  | _ => false

def isSpaceOrTab (c : Char) : Bool := c == ' ' || c == '\t'

/-- What follows an example tag on its line. -/
def exampleTitle? (line : Line) : Option (List Char) :=
  match "@example".toList.isPrefixOf? (trimStart line) with
  | none => none
  | some rest =>
    match rest with
    | [] => some []
    | c :: _ => if isWord c then none else some (rest.dropWhile isSpaceOrTab)

/-- An opening of fenced code: its marks, all of them, and the language after them. -/
structure Fence where
  marker : List Char
  language : List Char
  deriving DecidableEq, Repr

def isLanguageChar (c : Char) : Bool := isWord c || c == '+' || c == '-'

def fenceOf? (mark : Char) (cs : List Char) : Option Fence :=
  let marker := cs.takeWhile (· == mark)
  if 3 ≤ marker.length then
    some ⟨marker, (trimStart (cs.dropWhile (· == mark))).takeWhile isLanguageChar⟩
  else none

def fence? (line : Line) : Option Fence :=
  fenceOf? '\x60' (trimStart line) <|> fenceOf? '~' (trimStart line)

def closesFence (marker : List Char) (line : Line) : Bool := marker.isPrefixOf (trimStart line)

end DocComment.Body
