import DocComment.Outcome
import DocComment.Tag.Basic
import DocComment.Tag.Title

/-!
Splitting a tag line into title, type clause, name and description. The type is not read yet.
A clause in braces is a type unless it opens an inline reference, and a name is only looked
for after titles that take one.
-/

namespace DocComment.Tag

open Text

def isTitleChar (c : Char) : Bool :=
  !isBlank c && c != '\x7b' && c != '\x7d' && c != '[' && c != ']'

/-- The title's spelling and what follows it. An at sign before it is not part of it, unless
nothing else is there. -/
def titleOf (raw : List Char) : Option (List Char × List Char) :=
  let body := trimStart raw
  match body.takeWhile isTitleChar with
  | [] => none
  | ['@'] => some (['@'], body.drop 1)
  | '@' :: title => some (title, body.dropWhile isTitleChar)
  | title => some (title, body.dropWhile isTitleChar)

def opensType : List Char → Bool
  | '\x7b' :: '@' :: _ => false
  | '\x7b' :: _ => true
  | _ => false

/-- The type clause, braces included, and what follows it. -/
def typeClause (body : List Char) : Except Unit (Option (List Char) × List Char) :=
  if opensType body then
    match braceClosing body with
    | none => .error ()
    | some last => .ok (some (body.take (last + 1)), trimStart (body.drop (last + 1)))
  else .ok (none, body)

/-- The text inside the brackets of an optional name, cut at its first equals sign. -/
def nameAndDefault (inner : List Char) : List Char × Option (List Char) :=
  (trim (inner.takeWhile (· != '=')),
    if inner.contains '=' then some (trim ((inner.dropWhile (· != '=')).drop 1)) else none)

structure NameClause where
  name : Option (List Char)
  optional : Bool
  default : Option (List Char)
  rest : List Char
  deriving DecidableEq, Repr

def nameClause (title : String) (body : List Char) : Except Problem NameClause :=
  match body with
  | [] => .ok ⟨none, false, none, []⟩
  | '[' :: inner =>
    match bracketClosing ('[' :: inner) with
    | none => .error (.unbalancedBrackets title)
    | some last =>
      let (name, default) := nameAndDefault (inner.take (last - 1))
      if name.isEmpty then .error (.emptyName title)
      else .ok ⟨some name, true, default, inner.drop last⟩
  | body =>
    .ok ⟨some (body.takeWhile (fun c => !isBlank c)), false, none,
      body.dropWhile (fun c => !isBlank c)⟩

def named (title : String) (body : List Char) : Except Problem NameClause :=
  if Title.expectsName title then nameClause title body else .ok ⟨none, false, none, body⟩

def splitParts (raw : List Char) : Except Problem Tag := do
  let some (spelling, rest) := titleOf raw | .error .missingTitle
  let title := Title.resolve (String.ofList spelling)
  let (rawType, rest) ← match typeClause (trimStart rest) with
    | .ok parts => .ok parts
    | .error () => .error (.unbalancedBraces title)
  let clause ← named title rest
  return {
    title
    rawType := rawType.map String.ofList
    name := clause.name.map String.ofList
    optional := clause.optional
    default := clause.default.map String.ofList
    description := String.ofList (trim clause.rest)
    raw := String.ofList raw }

def split (raw : String) : Outcome Tag :=
  match splitParts raw.toList with
  | .ok tag => .ok tag
  | .error problem => .fail (.tagSyntax ⟨problem, raw⟩)

end DocComment.Tag
