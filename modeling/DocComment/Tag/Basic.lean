import DocComment.Inline
import DocComment.TypeExpr.Basic

/-!
One tag of a comment. The type clause is kept as written, with its braces, beside the type
it reads as. A name in square brackets is optional and may carry a default.
-/

namespace DocComment

structure Tag where
  title : String
  rawType : Option String := none
  type : Option TypeExpr := none
  name : Option String := none
  description : String := ""
  inlineTags : List InlineReference := []
  optional : Bool := false
  default : Option String := none
  raw : String := ""
  deriving DecidableEq, Repr, Inhabited

namespace Tag

/-- The name as it was written, back in its brackets if it is optional. -/
def displayName (tag : Tag) : String :=
  match tag.name with
  | none => ""
  | some name =>
    if !tag.optional then name
    else match tag.default with
      | some value => "[" ++ name ++ "=" ++ value ++ "]"
      | none => "[" ++ name ++ "]"

end Tag

end DocComment
