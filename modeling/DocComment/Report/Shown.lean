import DocComment.Text.Lines
import DocComment.Text.Width

/-!
Text as a terminal shows it. A few control characters are dropped and tabs become spaces. A
word in brackets could be taken for a style, so texts are set with all such brackets guarded;
a guard stands for a backslash, which is why a backslash before a bracket that opens no style
is not shown, and why one at the very end is shown twice.
-/

namespace DocComment.Report

open Text

/-- Bell, backspace, vertical tab, form feed and carriage return. -/
def isDropped (c : Char) : Bool :=
  c == '\x07' || c == '\x08' || c == '\x0b' || c == '\x0c' || c == '\r'

def startsStyle (c : Char) : Bool := c.isLower || c == '#' || c == '/' || c == '@'

def endsName (c : Char) : Bool := c == '[' || c == ']'

/-- Whether the text after an opening bracket makes it the bracket of a style. -/
def opensStyle : List Char → Bool
  | [] => false
  | c :: rest => startsStyle c && (rest.dropWhile (fun d => !endsName d)).head? == some ']'

def unguarded : List Char → List Char
  | '\\' :: '[' :: rest =>
    if opensStyle rest then '\\' :: '[' :: unguarded rest else '[' :: unguarded rest
  | c :: rest => c :: unguarded rest
  | [] => []

def endsWithOneBackslash (cs : List Char) : Bool :=
  match cs.reverse with
  | '\\' :: '\\' :: _ => false
  | '\\' :: _ => true
  | _ => false

/-- Text without its dropped characters, cut into lines without tabs. -/
def plainLines (cs : List Char) : List (List Char) :=
  (splitLines (cs.filter (fun c => !isDropped c))).map expandTabs

/-- The lines a terminal shows for a text that is set as it stands. -/
def shownLines (cs : List Char) : List (List Char) :=
  plainLines (unguarded cs ++ if endsWithOneBackslash cs then ['\\'] else [])

/-- Text without the bracketed words that set a style. -/
def withoutStyles (cs : List Char) : List Char :=
  match cs with
  | [] => []
  | '[' :: rest =>
    if opensStyle rest then withoutStyles ((rest.dropWhile (fun c => !endsName c)).drop 1)
    else '[' :: withoutStyles rest
  | c :: rest => c :: withoutStyles rest
termination_by cs.length
decreasing_by
  · have := (List.dropWhile_sublist (l := rest) (fun c => !endsName c)).length_le
    simp only [List.length_drop, List.length_cons]
    omega
  · simp
  · simp

end DocComment.Report
