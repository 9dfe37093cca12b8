import DocComment.Outcome
import DocComment.Tag.Basic
import DocComment.Tag.Title

/-!
The type policy of tag titles. A type on a title that refuses one is discarded. A missing
type on a title that needs one is noted, or rejects the tag in strict mode. A closed
vocabulary rejects every title that is not known.
-/

namespace DocComment

structure Policy where
  strict : Bool := false
  closedVocabulary : Bool := false
  deriving DecidableEq, Repr

/-- What a policy says of a tag: whether it loses its type, and whether it is rejected. -/
structure Verdict where
  dropsType : Bool := false
  rejection : Option Rejection := none
  log : Log := []
  deriving DecidableEq, Repr

namespace Verdict

def outcome {α : Type} (v : Verdict) (a : α) : Outcome α :=
  match v.rejection with
  | none => .ok a
  | some reason => .reject reason

end Verdict

namespace Policy

/-- The verdict on a tag with a title, which has a type or not. The type clause and the whole
line are only told of. -/
def judge (policy : Policy) (title : String) (hasType : Bool) (rawType raw : String) : Verdict :=
  if policy.closedVocabulary && !Title.isKnown title then { rejection := some .unknownTitle }
  else
    let dropsType := hasType && !Title.allowsType title
    let dropped : Log :=
      if dropsType then [.debug ("Discarding type on @" ++ title ++ ": " ++ rawType)] else []
    if Title.expectsType title && (dropsType || !hasType) then
      if policy.strict then { dropsType, rejection := some .missingType, log := dropped }
      else { dropsType, log := dropped ++ [.debug ("@" ++ title ++ " has no type: " ++ raw)] }
    else { dropsType, log := dropped }

end Policy

namespace Tag

open Text

def trimmed (s : String) : String := String.ofList (trim s.toList)

/-- A blank name is no name. -/
def trimmedName (name : String) : Option String :=
  if (trim name.toList).isEmpty then none else some (trimmed name)

/-- Canonical title, trimmed name and description. -/
def normalize (tag : Tag) : Tag :=
  { tag with
    title := Title.resolve tag.title
    name := tag.name.bind trimmedName
    description := trimmed tag.description }

def validate (policy : Policy) (tag : Tag) : Outcome Tag × Log :=
  let verdict := policy.judge tag.title tag.type.isSome (tag.rawType.getD "None") (quoted tag.raw)
  (verdict.outcome (if verdict.dropsType then { tag with type := none } else tag), verdict.log)

end Tag

end DocComment
