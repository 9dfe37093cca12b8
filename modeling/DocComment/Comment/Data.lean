import DocComment.Comment.Basic
import DocComment.TypeExpr.Data

/-!
Comments and their parts in every form that values take, plain data above all. Every field is
written, absent ones as null. Reading data ignores unknown fields and fills in what may be left
out, but a field of the wrong kind, or a missing one without a default, makes the whole
unreadable.
-/

namespace DocComment

namespace Data

abbrev Fields := List (String × Data)

namespace Fields

variable {α : Type}

/-- A field that may be left out. -/
def orDefault (read : Data → Option α) (fs : Fields) (key : String) (fallback : α) : Option α :=
  match field? fs key with
  | none => some fallback
  | some d => read d

/-- A field that may be left out or null. -/
def maybe (read : Data → Option α) (fs : Fields) (key : String) : Option (Option α) :=
  match field? fs key with
  | none => some none
  | some .null => some none
  | some d => (read d).map some

def required (read : Data → Option α) (fs : Fields) (key : String) : Option α :=
  (field? fs key).bind read

/-- Whether the kind is the given one or left out. -/
def hasKind (fs : Fields) (kind : String) : Bool :=
  match field? fs "kind" with
  | none => true
  | some (.text k) => k == kind
  | some _ => false

end Fields

def toText? : Data → Option String
  | .text s => some s
  | _ => none

def toBool? : Data → Option Bool
  | .bool b => some b
  | _ => none

def toInt? : Data → Option Int
  | .number (.whole n) => some n
  | _ => none

def toList? {α : Type} (read : Data → Option α) : Data → Option (List α)
  | .list items => items.mapM read
  | _ => none

def toFields? : Data → Option Fields
  | .object fs => some fs
  | _ => none

end Data

open Data (Fields)
open Data.Fields

namespace InlineReference

def inForm {α : Type} (f : Form α) (ref : InlineReference) : α := f.record "InlineReference"
  [("kind", f.text "inline"), ("raw", f.text ref.raw), ("tag", f.text ref.tag),
   ("value", f.text ref.value)]

def toData (ref : InlineReference) : Data := ref.inForm .plain

def ofData? (d : Data) : Option InlineReference := do
  let fs ← d.toFields?
  guard (hasKind fs "inline")
  return {
    raw := ← required Data.toText? fs "raw"
    tag := ← required Data.toText? fs "tag"
    value := ← orDefault Data.toText? fs "value" "" }

end InlineReference

namespace Tag

def inForm {α : Type} (f : Form α) (t : Tag) : α := f.record "Tag"
  [("kind", f.text "tag"), ("title", f.text t.title), ("raw_type", f.text? t.rawType),
   ("type", f.option (TypeExpr.inForm f) t.type), ("name", f.text? t.name),
   ("description", f.text t.description),
   ("inline_tags", f.list (t.inlineTags.map (InlineReference.inForm f))),
   ("optional", f.data (.bool t.optional)), ("default", f.text? t.default), ("raw", f.text t.raw)]

def toData (t : Tag) : Data := t.inForm .plain

def ofData? (d : Data) : Option Tag := do
  let fs ← d.toFields?
  guard (hasKind fs "tag")
  return {
    title := ← required Data.toText? fs "title"
    rawType := ← maybe Data.toText? fs "raw_type"
    type := ← maybe TypeExpr.ofData? fs "type"
    name := ← maybe Data.toText? fs "name"
    description := ← orDefault Data.toText? fs "description" ""
    inlineTags := ← orDefault (Data.toList? InlineReference.ofData?) fs "inline_tags" []
    optional := ← orDefault Data.toBool? fs "optional" false
    default := ← maybe Data.toText? fs "default"
    raw := ← orDefault Data.toText? fs "raw" "" }

end Tag

namespace Location

def inForm {α : Type} (f : Form α) (l : Location) : α := f.record "Location"
  [("start_line", f.int l.startLine), ("end_line", f.int l.endLine), ("start", f.int l.start),
   ("end", f.int l.finish)]

def toData (l : Location) : Data := l.inForm .plain

def ofData? (d : Data) : Option Location := do
  let fs ← d.toFields?
  return {
    startLine := ← required Data.toInt? fs "start_line"
    endLine := ← required Data.toInt? fs "end_line"
    start := ← orDefault Data.toInt? fs "start" 0
    finish := ← orDefault Data.toInt? fs "end" 0 }

end Location

namespace CodeContext

def inForm {α : Type} (f : Form α) (c : CodeContext) : α := f.record "CodeContext"
  [("kind", f.text? c.kind), ("name", f.text? c.name), ("parent", f.text? c.parent),
   ("value", f.text c.value), ("line", f.option f.int c.line)]

def toData (c : CodeContext) : Data := c.inForm .plain

def ofData? (d : Data) : Option CodeContext := do
  let fs ← d.toFields?
  return {
    kind := ← maybe Data.toText? fs "kind"
    name := ← maybe Data.toText? fs "name"
    parent := ← maybe Data.toText? fs "parent"
    value := ← orDefault Data.toText? fs "value" ""
    line := ← maybe Data.toInt? fs "line" }

end CodeContext

namespace Block

def inForm {α : Type} (f : Form α) (b : Block) : α := f.record "RawComment"
  [("raw", f.text b.raw), ("value", f.text b.value),
   ("loc", f.option (Location.inForm f) b.location),
   ("code", f.option (CodeContext.inForm f) b.code)]

def toData (b : Block) : Data := b.inForm .plain

def ofData? (d : Data) : Option Block := do
  let fs ← d.toFields?
  return {
    raw := ← required Data.toText? fs "raw"
    value := ← required Data.toText? fs "value"
    location := ← maybe Location.ofData? fs "loc"
    code := ← maybe CodeContext.ofData? fs "code" }

end Block

namespace ExampleStyle

def name : ExampleStyle → String
  | .fenced => "gfm"
  | .tagged => "javadoc"

def ofData? : Data → Option ExampleStyle
  | .text s => [fenced, tagged].find? (fun style => style.name == s)
  | _ => none

end ExampleStyle

namespace Example

def inForm {α : Type} (f : Form α) (e : Example) : α := f.record "Example"
  [("style", f.text e.style.name), ("language", f.text e.language),
   ("description", f.text e.description), ("value", f.text e.value), ("raw", f.text e.raw)]

def toData (e : Example) : Data := e.inForm .plain

def ofData? (d : Data) : Option Example := do
  let fs ← d.toFields?
  return {
    style := ← orDefault ExampleStyle.ofData? fs "style" .fenced
    language := ← orDefault Data.toText? fs "language" ""
    description := ← orDefault Data.toText? fs "description" ""
    value := ← orDefault Data.toText? fs "value" ""
    raw := ← orDefault Data.toText? fs "raw" "" }

end Example

namespace Body

def inForm {α : Type} (f : Form α) (b : Body) : α := f.record "CommentTokens"
  [("description", f.text b.description), ("footer", f.text b.footer),
   ("tags", f.list (b.tags.map f.text)), ("examples", f.list (b.examples.map (Example.inForm f)))]

def toData (b : Body) : Data := b.inForm .plain

def ofData? (d : Data) : Option Body := do
  let fs ← d.toFields?
  return {
    description := ← orDefault Data.toText? fs "description" ""
    footer := ← orDefault Data.toText? fs "footer" ""
    tags := ← orDefault (Data.toList? Data.toText?) fs "tags" []
    examples := ← orDefault (Data.toList? Example.ofData?) fs "examples" [] }

end Body

namespace Comment

def inForm {α : Type} (f : Form α) (c : Comment) : α := f.record "Comment"
  [("kind", f.text "comment"), ("raw", f.text c.raw), ("description", f.text c.description),
   ("footer", f.text c.footer), ("tags", f.list (c.tags.map (Tag.inForm f))),
   ("inline_tags", f.list (c.inlineTags.map (InlineReference.inForm f))),
   ("examples", f.list (c.examples.map (Example.inForm f))),
   ("code", f.option (CodeContext.inForm f) c.code),
   ("loc", f.option (Location.inForm f) c.location)]

def toData (c : Comment) : Data := c.inForm .plain

def ofData? (d : Data) : Option Comment := do
  let fs ← d.toFields?
  guard (hasKind fs "comment")
  return {
    raw := ← orDefault Data.toText? fs "raw" ""
    description := ← orDefault Data.toText? fs "description" ""
    footer := ← orDefault Data.toText? fs "footer" ""
    tags := ← orDefault (Data.toList? Tag.ofData?) fs "tags" []
    inlineTags := ← orDefault (Data.toList? InlineReference.ofData?) fs "inline_tags" []
    examples := ← orDefault (Data.toList? Example.ofData?) fs "examples" []
    code := ← maybe CodeContext.ofData? fs "code"
    location := ← maybe Location.ofData? fs "loc" }

end Comment

end DocComment
