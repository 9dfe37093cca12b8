import DocComment.Block.Basic
import DocComment.Body.Basic
import DocComment.Tag.Basic

/-!
A parsed documentation comment. Its raw text is the whole block, while description, footer,
tags and examples are the parts of its body.
-/

namespace DocComment

structure Comment where
  raw : String := ""
  description : String := ""
  footer : String := ""
  tags : List Tag := []
  inlineTags : List InlineReference := []
  examples : List Example := []
  code : Option CodeContext := none
  location : Option Location := none
  deriving DecidableEq, Repr, Inhabited

namespace Comment

def tagsTitled (c : Comment) (title : String) : List Tag := c.tags.filter (·.title == title)

end Comment

end DocComment
