import DocComment.Text.Pattern
import DocComment.Text.Word

/-!
Forms of declaration that code after a comment may have. They are tried in order, and the
first that fits the front of the line decides, unless it would name a keyword.
-/

namespace DocComment.Declaration

open Text

/-- A declared name, with the object it belongs to. -/
structure Declared where
  name : List Char
  parent : Option (List Char) := none
  deriving DecidableEq, Repr

open Pattern

def name : Pattern (List Char) := many1 isNameChar
def path : Pattern (List Char) := many1 (fun c => isNameChar c || c == '.')
def word (text : String) : Pattern Unit := do keyword text; blanks1
def exported : Pattern Unit := maybe (word "export")
def exportedDefault : Pattern Unit := maybe (do word "export"; maybe (word "default"))
def async : Pattern Unit := maybe (word "async")
def assigned : Pattern Unit := do blanks; keyword "="
def parameters : Pattern Unit := do
  keyword "("
  let _ ← many (· != ')')
  keyword ")"
def arrow : Pattern Unit := do parameters; blanks; keyword "=>"
def shortArrow : Pattern Unit := do
  let _ ← name
  blanks
  keyword "=>"
def binding : Pattern Unit := do
  oneOf [keyword "const", keyword "let", keyword "var"]
  blanks1

def member : Pattern Declared := do
  blanks
  let parent ← path
  keyword "."
  let name ← name
  assigned
  return ⟨name, some parent⟩

def prototypeMember : Pattern Declared := do
  blanks
  let parent ← path
  keyword ".prototype."
  let name ← name
  assigned
  return ⟨name, some parent⟩

def variableForm : Pattern Declared := do
  blanks
  exported
  binding
  return ⟨← name, none⟩

def classForm : Pattern Declared := do
  blanks
  exportedDefault
  word "class"
  return ⟨← name, none⟩

def functionForm : Pattern Declared := do
  blanks
  exportedDefault
  async
  keyword "function"
  blanks
  maybe (keyword "*")
  blanks
  let name ← name
  blanks
  keyword "("
  return ⟨name, none⟩

def prototypeMethod : Pattern Declared := do
  let declared ← prototypeMember
  blanks
  async
  keyword "function"
  return declared

def memberMethod : Pattern Declared := do
  let declared ← member
  blanks
  async
  oneOf [keyword "function", arrow]
  return declared

def functionVariable : Pattern Declared := do
  let declared ← variableForm
  assigned
  blanks
  async
  oneOf [keyword "function", arrow, shortArrow]
  return declared

def classMethod : Pattern Declared := do
  blanks
  maybe (word "static")
  async
  maybe (oneOf [word "get", word "set"])
  let name ← name
  blanks
  parameters
  blanks
  keyword "\x7b"
  return ⟨name, none⟩

def objectProperty : Pattern Declared := do
  blanks
  let name ← name
  blanks
  keyword ":"
  return ⟨name, none⟩

/-- The forms of declaration, each with the kind it declares, in the order they are tried. -/
def forms : List (String × Pattern Declared) :=
  [("class", classForm), ("function", functionForm), ("method", prototypeMethod),
   ("property", prototypeMember), ("method", memberMethod), ("function", functionVariable),
   ("property", member), ("declaration", variableForm), ("method", classMethod),
   ("property", objectProperty)]

def keywords : List String := ["if", "for", "while", "switch", "catch", "return", "function"]

def find? (line : List Char) : Option (String × Declared) :=
  forms.findSome? fun (kind, form) =>
    match form.first? line with
    | none => none
    | some declared =>
      if keywords.contains (String.ofList declared.name) then none else some (kind, declared)

end DocComment.Declaration
