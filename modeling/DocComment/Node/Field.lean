import DocComment.Node.Basic

/-!
The fields of nodes. Only models have fields. Filling a field changes the model itself if the
field can hold what it is given, and otherwise leaves the model and notes the contents beside
it; what is read back is the same either way.
-/

namespace DocComment

open Node (none ofText ofOption)

namespace Node

def text? : Node → Option String
  | .ofText s => some s
  | _ => .none

def bool? : Node → Option Bool
  | .data (.bool b) => some b
  | _ => .none

def type? : Node → Option TypeExpr
  | .type t => some t
  | _ => .none

def tag? : Node → Option Tag
  | .tag t => some t
  | _ => .none

def reference? : Node → Option InlineReference
  | .inline r => some r
  | _ => .none

def orNull? {α : Type} (read : Node → Option α) : Node → Option (Option α)
  | .none => some .none
  | node => (read node).map some

def each? {α : Type} (read : Node → Option α) : Node → Option (List α)
  | .list items => items.mapM read
  | .data (.list []) => some []
  | _ => .none

theorem each?_map {α : Type} (wrap : α → Node) (read : Node → Option α)
    (h : ∀ a, read (wrap a) = some a) (as : List α) :
    (Node.list (as.map wrap)).each? read = some as := by
  induction as with
  | nil => rfl
  | cons a as ih =>
    simp only [each?, List.map_cons, List.mapM_cons] at ih ⊢
    simp [h, ih]

end Node

namespace Tag

/-- The tag with one field filled, if the field can hold it. -/
def with? (t : Tag) (key : String) (node : Node) : Option Tag :=
  match key with
  | "title" => node.text?.map fun title => { t with title }
  | "raw_type" => (node.orNull? Node.text?).map fun rawType => { t with rawType }
  | "type" => (node.orNull? Node.type?).map fun type => { t with type }
  | "name" => (node.orNull? Node.text?).map fun name => { t with name }
  | "description" => node.text?.map fun description => { t with description }
  | "inline_tags" => (node.each? Node.reference?).map fun inlineTags => { t with inlineTags }
  | "optional" => node.bool?.map fun optional => { t with optional }
  | "default" => (node.orNull? Node.text?).map fun default => { t with default }
  | "raw" => node.text?.map fun raw => { t with raw }
  | _ => .none

end Tag

namespace Comment

/-- The comment with one field filled, if the field can hold it. -/
def with? (c : Comment) (key : String) (node : Node) : Option Comment :=
  match key with
  | "raw" => node.text?.map fun raw => { c with raw }
  | "description" => node.text?.map fun description => { c with description }
  | "footer" => node.text?.map fun footer => { c with footer }
  | "tags" => (node.each? Node.tag?).map fun tags => { c with tags }
  | "inline_tags" => (node.each? Node.reference?).map fun inlineTags => { c with inlineTags }
  | _ => .none

end Comment

namespace Block

/-- The block with one field filled, if the field can hold it. -/
def with? (b : Block) (key : String) (node : Node) : Option Block :=
  match key with
  | "raw" => node.text?.map fun raw => { b with raw }
  | "value" => node.text?.map fun value => { b with value }
  | _ => .none

end Block

namespace Model

def with? (model : Model) (key : String) (node : Node) : Option Model :=
  match model with
  | .tag t => (t.with? key node).map .tag
  | .comment c => (c.with? key node).map .comment
  | .block b => (b.with? key node).map .block
  | _ => .none

/-- What a field of the model holds, with the parts that are models themselves. -/
def field? (model : Model) (key : String) : Option Node :=
  match model, key with
  | .tag t, "type" => some (ofOption .type t.type)
  | .comment c, "tags" => some (.list (c.tags.map .tag))
  | .comment c, "code" => some (ofOption .context c.code)
  | .comment c, "loc" => some (ofOption .location c.location)
  | .block b, "code" => some (ofOption .context b.code)
  | .block b, "loc" => some (ofOption .location b.location)
  | model, key => ((model.fields .plain).lookup key).map .data

def hasField (model : Model) (key : String) : Bool := (model.field? key).isSome

end Model

namespace Node

def field? (node : Node) (key : String) : Option Node :=
  match node with
  | .model m others => (others.lookup key).or (m.field? key)
  | _ => .none

def field (node : Node) (key : String) : Except Error Node :=
  match node.field? key with
  | some contents => .ok contents
  | .none => .error (.wrongNode node.className)

/-- A field that has to hold a text for what is done with it. -/
def textField (node : Node) (key : String) : Except Error String := do
  match ← node.field key with
  | .ofText s => return s
  | other => throw (.wrongNode other.className)

/-- The node with one field filled. What has no fields stays as it is. -/
def fill (node : Node) (key : String) (contents : Node) : Node :=
  match node with
  | .model m others =>
    let others := others.filter (·.1 != key)
    match m.with? key contents with
    | some m => .model m others
    | .none => .model m ((key, contents) :: others)
  | node => node

theorem fill_type (t : Tag) (type : Option TypeExpr) :
    (tag t).fill "type" (ofOption .type type) = tag { t with type } := by
  cases type <;> rfl

theorem fill_name (t : Tag) (name : Option String) :
    (tag t).fill "name" (ofOption .ofText name) = tag { t with name } := by
  cases name <;> rfl

theorem fill_inline_tags (t : Tag) (refs : List InlineReference) :
    (tag t).fill "inline_tags" (.list (refs.map inline)) = tag { t with inlineTags := refs } := by
  have h : Model.with? (.tag t) "inline_tags" (.list (refs.map inline)) =
      some (.tag { t with inlineTags := refs }) :=
    congrArg (fun r => (r.map fun inlineTags => ({ t with inlineTags } : Tag)).map Model.tag)
      (each?_map inline reference? (fun _ => rfl) refs)
  simp only [fill, h]
  rfl

theorem fill_tags (c : Comment) (ts : List Tag) :
    (comment c).fill "tags" (.list (ts.map tag)) = comment { c with tags := ts } := by
  have h : Model.with? (.comment c) "tags" (.list (ts.map tag)) =
      some (.comment { c with tags := ts }) :=
    congrArg (fun r => (r.map fun tags => ({ c with tags } : Comment)).map Model.comment)
      (each?_map tag tag? (fun _ => rfl) ts)
  simp only [fill, h]
  rfl

/-- What iteration over a node visits. A model is visited field by field. -/
def items (node : Node) : Except Error (List Node) :=
  match node with
  | .list items => .ok items
  | .pair first second => .ok [first, second]
  | .data (.list items) => .ok (items.map .data)
  | .data (.text s) => .ok (s.toList.map fun c => ofText (String.singleton c))
  | .data (.object fields) => .ok (fields.map fun (key, _) => ofText key)
  | .data _ => .error .notIterable
  | .model m others =>
    let own := (m.fields .plain).map fun (key, d) => (key, Node.data d)
    let added := others.filter fun other => !m.hasField other.1
    .ok ((withOthers others own ++ added).map fun (key, n) => .pair (ofText key) n)

/-- Handlers are registered for comments, for tags by title, for inline references, and for
everything else by kind. -/
def key (node : Node) : Data :=
  match node with
  | .model (.comment _) _ => .text "comment"
  | .model (.inline _) _ => .text "inline"
  | .model (.tag t) others => ((others.lookup "title").map toData).getD (.text t.title)
  | node => ((node.field? "kind").map toData).getD (.text node.className)

end Node

namespace Data

/-- Lists and objects cannot be looked up in a table. -/
def asKey : Data → Except Error Data
  | .list _ | .object _ => .error .noKey
  | d => .ok d

end Data

end DocComment
