/-!
The body of a comment, cut into its parts. Tags are raw lines, with the lines that continue
them after a newline. Examples come from fenced code or from example tags.
-/

namespace DocComment

inductive ExampleStyle
  | fenced
  | tagged
  deriving DecidableEq, Repr, Inhabited

structure Example where
  style : ExampleStyle := .fenced
  language : String := ""
  description : String := ""
  value : String := ""
  raw : String := ""
  deriving DecidableEq, Repr, Inhabited

structure Body where
  description : String := ""
  footer : String := ""
  tags : List String := []
  examples : List Example := []
  deriving DecidableEq, Repr, Inhabited

end DocComment
