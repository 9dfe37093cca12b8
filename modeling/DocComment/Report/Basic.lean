import DocComment.Comment.Data
import DocComment.Report.Json
import DocComment.Report.Shown
import DocComment.Report.Table
import DocComment.TypeExpr.Printer

/-!
What the command line prints. A comment is shown by its place, what it documents, its
description, and a table of its tags; other lines open with a sign that says how things went.
-/

namespace DocComment.Report

open Text

abbrev Page := List String

def texts (lines : List (List Char)) : Page := lines.map String.ofList

def shown (s : String) : Page := texts (shownLines s.toList)

/-- One message with a sign before it. -/
def message (sign text : String) : Page := shown (sign ++ " " ++ text)

def success (text : String) : Page := message "✓" text
def failure (text : String) : Page := message "✗" text
def warning (text : String) : Page := message "⚠" text
def note (text : String) : Page := message "ℹ" text

def place (c : Comment) : String :=
  c.location.elim "" fun l => " (line " ++ toString l.startLine ++ ")"

def documented (c : Comment) : String :=
  match c.code with
  | none => ""
  | some code =>
    match code.name with
    | none | some "" => ""
    | some name => " " ++ code.kind.getD "" ++ " " ++ name

def cell (s : String) : Cell := shownLines s.toList

def tagRow (t : Tag) : List Cell :=
  [plainLines ('@' :: t.title.toList), cell ((t.type.map TypeExpr.print).getD ""),
   cell t.displayName, cell t.description]

def tagTable (tags : List Tag) : Table where
  header := ["Tag", "Type", "Name", "Description"].map cell
  rows := tags.map tagRow

def ofComment (index : Nat) (c : Comment) : Page :=
  let heading := "" :: shown ("Comment " ++ toString index ++ place c ++ documented c)
  let description := if c.description.isEmpty then [] else shown c.description
  let tags := if c.tags.isEmpty then [] else texts (tagTable c.tags).lines
  heading ++ description ++ tags

def commentsFrom (index : Nat) : List Comment → Page
  | [] => []
  | c :: rest => ofComment index c ++ commentsFrom (index + 1) rest

/-- File names are not guarded against being taken for styles. -/
def fileName (path : String) : String := String.ofList (withoutStyles path.toList)

def ofComments (path : String) (comments : List Comment) : Page :=
  if comments.isEmpty then note ("No documentation comments found in " ++ fileName path)
  else commentsFrom 1 comments ++
    success ("Parsed " ++ toString comments.length ++ " comment(s) from " ++ fileName path)

def ofData (d : Data) : Page := [json 0 d]

/-- The canonical text of a type and its tree. -/
def ofType (t : TypeExpr) : Page := shown t.print ++ ["AST"] ++ ofData t.toData

/-- A page as text. Every line ends with a line feed. -/
def Page.text (page : Page) : String := String.join (page.map (· ++ "\n"))

end DocComment.Report
