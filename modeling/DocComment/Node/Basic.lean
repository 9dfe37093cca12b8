import DocComment.Comment.Data
import DocComment.Error

/-!
What handlers are given and what they return: comments and their parts, plain data, lists, and
pairs. Null stands for no answer. Nothing checks what a handler puts into a field, so a model
may come with other contents for some of its fields, which then count instead of its own.
-/

namespace DocComment

inductive Model
  | comment (comment : Comment)
  | tag (tag : Tag)
  | inline (ref : InlineReference)
  | block (block : Block)
  | type (type : TypeExpr)
  | location (location : Location)
  | context (context : CodeContext)
  | sample (sample : Example)
  | body (body : Body)
  deriving Repr, Inhabited

inductive Node
  | model (model : Model) (others : List (String × Node))
  | data (data : Data)
  | list (items : List Node)
  | pair (first second : Node)
  deriving Repr, Inhabited

namespace Model

def className : Model → String
  | .comment _ => "Comment"
  | .tag _ => "Tag"
  | .inline _ => "InlineReference"
  | .block _ => "RawComment"
  | .type t => t.className
  | .location _ => "Location"
  | .context _ => "CodeContext"
  | .sample _ => "Example"
  | .body _ => "CommentTokens"

def inForm {α : Type} (f : Form α) : Model → α
  | .comment c => c.inForm f
  | .tag t => t.inForm f
  | .inline r => r.inForm f
  | .block b => b.inForm f
  | .type t => t.inForm f
  | .location l => l.inForm f
  | .context c => c.inForm f
  | .sample e => e.inForm f
  | .body b => b.inForm f

def fields {α : Type} (f : Form α) (model : Model) : List (String × α) :=
  (model.inForm f.withFields).2

/-- Whether the fields are fixed once and for all. -/
def isFrozen : Model → Bool
  | .type _ | .inline _ => true
  | _ => false

end Model

namespace Node

@[match_pattern] abbrev comment (c : Comment) : Node := .model (.comment c) []
@[match_pattern] abbrev tag (t : Tag) : Node := .model (.tag t) []
@[match_pattern] abbrev inline (r : InlineReference) : Node := .model (.inline r) []
@[match_pattern] abbrev block (b : Block) : Node := .model (.block b) []
@[match_pattern] abbrev type (t : TypeExpr) : Node := .model (.type t) []
@[match_pattern] abbrev location (l : Location) : Node := .model (.location l) []
@[match_pattern] abbrev context (c : CodeContext) : Node := .model (.context c) []
@[match_pattern] abbrev body (b : Body) : Node := .model (.body b) []
@[match_pattern] abbrev none : Node := .data .null
@[match_pattern] abbrev ofText (s : String) : Node := .data (.text s)

def ofOption {α : Type} (wrap : α → Node) (a : Option α) : Node := a.elim none wrap

def isNone : Node → Bool
  | .none => true
  | _ => false

def className : Node → String
  | .model m _ => m.className
  | .data d => d.kindName
  | .list _ => "list"
  | .pair _ _ => "tuple"

/-- Fields with other contents for some of them, where those have any. -/
def withOthers {α : Type} (others fields : List (String × α)) : List (String × α) :=
  fields.map fun (key, a) => (key, (others.lookup key).getD a)

section

variable {α : Type} (f : Form α)

mutual

def inForm : Node → α
  | .model m others =>
    if others.isEmpty then m.inForm f
    else f.record m.className (withOthers (othersInForm others) (m.fields f))
  | .data d => f.data d
  | .list items => f.list (eachInForm items)
  | .pair first second => f.pair (inForm first) (inForm second)

def eachInForm : List Node → List α
  | [] => []
  | n :: ns => inForm n :: eachInForm ns

def othersInForm : List (String × Node) → List (String × α)
  | [] => []
  | (key, n) :: rest => (key, inForm n) :: othersInForm rest

end

end

def toData (node : Node) : Data := node.inForm .plain

/-- The form a node takes inside messages. -/
def shown (node : Node) : String := node.inForm .shown

/-- The form a node takes as part of a running text. -/
def written : Node → String
  | .data d => d.written
  | node => node.shown

/-- Everything counts as true but data that does not, and the empty list. -/
def isTrue : Node → Bool
  | .data d => d.isTrue
  | .list items => !items.isEmpty
  | _ => true

end Node

end DocComment
