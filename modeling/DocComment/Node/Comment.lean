import DocComment.Comment.Format
import DocComment.Node.Field

/-!
Comments as handlers leave them, and comments put together from what handlers return. A tag
is taken as it is, and data that reads as one is read; everything else among the tags makes
the comment impossible.
-/

namespace DocComment.Node

def asTag (node : Node) : Except Error Node :=
  match node with
  | .model (.tag _) _ => .ok node
  | .data d => (Tag.ofData? d).elim (.error .mismatch) fun t => .ok (.tag t)
  | _ => .error .mismatch

def asComment (node : Node) : Except Error Node :=
  match node with
  | .model (.comment _) _ => .ok node
  | .data d => (Comment.ofData? d).elim (.error .mismatch) fun c => .ok (.comment c)
  | _ => .error .mismatch

def asLocation : Node → Except Error (Option Location)
  | .none => .ok .none
  | .model (.location l) _ => .ok (some l)
  | .data d => (Location.ofData? d).elim (.error .mismatch) fun l => .ok (some l)
  | _ => .error .mismatch

/-- A copy of the code that a block belongs to. Only models can be copied. -/
def asContext : Node → Except Error (Option CodeContext)
  | .none => .ok .none
  | .model (.context c) _ => .ok (some c)
  | .model _ _ => .error .mismatch
  | node => .error (.wrongNode node.className)

/-- The comment of a block, with the parts of its body. -/
def ofParts (raw : Node) (parts : Body) (tags : List Node) (code : Option CodeContext)
    (location : Node) : Except Error Node := do
  let some raw := raw.text? | throw .mismatch
  let tags ← tags.mapM asTag
  let location ← location.asLocation
  let untagged : Comment := {
    raw
    description := parts.description
    footer := parts.footer
    examples := parts.examples
    code
    location }
  return (comment untagged).fill "tags" (.list tags)

theorem mapM_asTag (ts : List Tag) : (ts.map tag).mapM asTag = .ok (ts.map tag) := by
  induction ts with
  | nil => rfl
  | cons t ts ih =>
    simp only [List.map_cons, List.mapM_cons, ih]
    rfl

theorem ofParts_tags (raw : String) (parts : Body) (tags : List Tag) (code : Option CodeContext)
    (location : Option Location) :
    ofParts (.ofText raw) parts (tags.map tag) code (ofOption .location location) =
      .ok (comment {
        raw
        description := parts.description
        footer := parts.footer
        tags
        examples := parts.examples
        code
        location }) := by
  cases location <;> simp only [ofParts, mapM_asTag] <;> exact congrArg Except.ok (fill_tags _ _)

def searchable (node : Node) (key : String) : Except Error (List Char) := do
  match ← node.field key with
  | .ofText s => return s.toList
  | other => throw (.notSearchable other.className)

def formatTag (node : Node) : Except Error Node := do
  let description ← node.searchable "description"
  return node.fill "description" (.ofText (String.ofList (tidyLine description)))

def formatTags (node : Node) : Except Error Node := do
  let tags ← (← (← node.field "tags").items).mapM formatTag
  return if tags.isEmpty then node else node.fill "tags" (.list tags)

/-- Tidies a comment, or whatever has the fields of one that count here. -/
def format (node : Node) : Except Error Node := do
  let description ← node.searchable "description"
  let footer ← node.searchable "footer"
  let node := node.fill "description" (.ofText (String.ofList (tidyBlock description)))
  (node.fill "footer" (.ofText (String.ofList (tidyBlock footer)))).formatTags

theorem mapM_formatTag (ts : List Tag) :
    (ts.map tag).mapM formatTag = .ok ((ts.map Tag.format).map tag) := by
  induction ts with
  | nil => rfl
  | cons t ts ih =>
    simp only [List.map_cons, List.mapM_cons, ih]
    rfl

theorem formatTags_comment (c : Comment) :
    (comment c).formatTags = .ok (comment { c with tags := c.tags.map Tag.format }) := by
  have unfolded : (comment c).formatTags =
      ((c.tags.map tag).mapM formatTag).map fun tags =>
        if tags.isEmpty then comment c else (comment c).fill "tags" (.list tags) := by rfl
  rw [unfolded, mapM_formatTag]
  simp only [Except.map, fill_tags]
  obtain ⟨_, _, _, tags, _⟩ := c
  cases tags <;> rfl

theorem format_comment (c : Comment) : (comment c).format = .ok (comment c.format) :=
  formatTags_comment _

/-- A bare text among the tags has no title that could be the one looked for. -/
def isTitled (title : String) (node : Node) : Except Error Bool := do
  match node with
  | .ofText _ => return false
  | node => return (← node.field "title").toData == .text title

/-- The tags of a comment with a title. -/
def tagsTitled (title : String) (node : Node) : Except Error (List Node) := do
  match node with
  | .model (.comment _) _ => (← (← node.field "tags").items).filterM (isTitled title)
  | node => throw (.wrongNode node.className)

/-- The line on which a block starts, as it is told of. -/
def lineText (node : Node) : Except Error String := do
  let location ← node.field "loc"
  if location.isTrue then return (← location.field "start_line").written else return "?"

end DocComment.Node
