import DocComment.Block.Basic
import DocComment.Text.Blank
import DocComment.Text.Search
import DocComment.Text.Word

/-!
Which blocks document anything. Two stars open a documentation block, unless a third follows;
directives to linters and similar tools document nothing. Licence blocks and banners are
protected and may be left out.
-/

namespace DocComment.Block

open Text

/-- First words of directives. An `s` may follow, and then the word has to end. -/
def directives : List String :=
  ["eslint", "eshint", "global", "istanbul", "jscs", "jshint", "jslint"]

def protectedMarkers : List String := ["@license", "@preserve"]

def endsWord : List Char → Bool
  | [] => true
  | c :: _ => !isWord c

def opensDirective (cs : List Char) (directive : String) : Bool :=
  match directive.toList.isPrefixOf? cs with
  | none => false
  | some ('s' :: rest) => endsWord rest
  | some rest => endsWord rest

def isOrnament (c : Char) : Bool :=
  c == '*' || c == '!' || c == ' ' || c == '\t' || c == '\n'

/-- Whether a block's text is a directive, ornaments before it left aside. -/
def isDirective (value : String) : Bool :=
  directives.any (opensDirective (trimStart (value.toList.dropWhile isOrnament)))

def isProtected (raw : String) : Bool :=
  let opening := trimStart raw.toList
  "/*!".toList.isPrefixOf opening || "/**!".toList.isPrefixOf opening ||
    protectedMarkers.any (fun marker => occursIn marker.toList raw.toList)

def isDocumentation (raw : String) : Bool :=
  let opening := trimStart raw.toList
  "/**".toList.isPrefixOf opening && !"/***".toList.isPrefixOf opening &&
    opening != "/**/".toList

/-- Whether a block is parsed when no other rule is configured. -/
def isValid (keepProtected : Bool) (block : Block) : Bool :=
  isDocumentation block.raw && (keepProtected || !isProtected block.raw) &&
    !isDirective block.value

end DocComment.Block
