import DocComment.Node.Field
import DocComment.Tag.Policy
import DocComment.TypeExpr.Printer

/-!
Tags as handlers leave them. The rules for tags look at a few fields only, and fail on the
first that does not hold what they need; all other fields are carried along unseen. Where
nothing but a tag is left behind, these rules are those of tags.
-/

namespace DocComment.Node

/-- A title that is no text allows a type, as every unknown title does. -/
def allowsType (node : Node) : Except Error Bool := do
  match ← (← node.field "title").toData.asKey with
  | .text title => return Title.allowsType title
  | _ => return true

/-- The literal inside the braces of a type clause. -/
def innerText (clause : String) : String := String.ofList (clause.toList.drop 1).dropLast

/-- What stands between the first and the last item of a type clause. -/
def innerLiteral (clause : Node) : Except Error Node :=
  match clause with
  | .ofText s => .ok (.ofText (innerText s))
  | .data (.list items) => .ok (.data (.list (items.drop 1).dropLast))
  | _ => .error .notText

def titleText (node : Node) : Except Error String := do
  match ← (← node.field "title").toData.asKey with
  | .text title => return title
  | other => throw (.wrongNode other.kindName)

def trimmedName (node : Node) : Except Error Node := do
  match ← node.field "name" with
  | .none => return .none
  | .ofText s => return .ofOption .ofText (Tag.trimmedName s)
  | other => throw (.wrongNode other.className)

/-- Canonical title, trimmed name and description. -/
def normalize (node : Node) : Except Error Node := do
  let title ← node.titleText
  let name ← node.trimmedName
  let description ← node.textField "description"
  return ((node.fill "title" (.ofText (Title.resolve title))).fill "name" name).fill
    "description" (.ofText (Tag.trimmed description))

def validate (policy : Policy) (node : Node) : Except Error (Outcome Node × Log) := do
  let title ← node.titleText
  let type ← node.field "type"
  let clause ← node.field "raw_type"
  let raw ← node.field "raw"
  let verdict := policy.judge title (!type.isNone) clause.written raw.shown
  return (verdict.outcome (if verdict.dropsType then node.fill "type" .none else node),
    verdict.log)

/-- The text of a tag's type, if it has one. -/
def typeText (node : Node) : Except Error (Option String) := do
  match ← node.field "type" with
  | .none => return .none
  | .model (.type t) _ => return some t.print
  | other => throw (.notType other.shown)

theorem normalize_tag (t : Tag) : (tag t).normalize = .ok (tag t.normalize) := by
  obtain ⟨_, _, _, name, _⟩ := t
  cases name with
  | none => rfl
  | some s =>
    change Except.ok (((tag _).fill "name" (ofOption ofText (Tag.trimmedName s))).fill _ _) = _
    rw [fill_name]
    rfl

theorem validate_tag (policy : Policy) (t : Tag) :
    (tag t).validate policy =
      .ok ((t.validate policy).1.map tag, (t.validate policy).2) := by
  have step (v : Verdict) :
      v.outcome (if v.dropsType then (tag t).fill "type" .none else tag t) =
        (v.outcome (if v.dropsType then { t with type := .none } else t)).map tag := by
    obtain ⟨drops, rejection, log⟩ := v
    cases drops <;> cases rejection <;> rfl
  have unfolded : (tag t).validate policy =
      let v := policy.judge t.title t.type.isSome (t.rawType.getD "None") (Text.quoted t.raw)
      .ok (v.outcome (if v.dropsType then (tag t).fill "type" .none else tag t), v.log) := by
    obtain ⟨_, clause, type, _⟩ := t
    cases clause <;> cases type <;> rfl
  rw [unfolded]
  simp only [step]
  rfl

end DocComment.Node
