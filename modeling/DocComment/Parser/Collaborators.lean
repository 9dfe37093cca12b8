import DocComment.Block.Extract
import DocComment.Block.Validity
import DocComment.Body.Draft
import DocComment.Parser.Basic

/-!
The steps around parsing proper, each of which options or stages may replace: finding the
blocks of a source, reading types, names and inline references. What is found is filtered
and copied block by block.
-/

namespace DocComment.Parser

variable {H U : Type}

/-- Whether a block should be parsed. -/
def isValid (host : Host H U) (node : Node) : Run H U Bool := do
  match node with
  | .model (.block _) _ =>
    let options ← Run.options
    match options.isValid with
    | some h => return (← host.call h [node]).isTrue
    | none =>
      let raw ← Run.ofExcept (node.textField "raw")
      let value ← Run.ofExcept (node.textField "value")
      return Block.isValid options.keepProtected.isTrue { raw, value }
  | node => throw (.expectedBlock node.className)

/-- A block as it goes into parsing. Only models can be copied. -/
def preprocess (host : Host H U) (node : Node) : Run H U Node := do
  match (← Run.options).preprocess with
  | some h => host.call h [node]
  | none =>
    match node with
    | .model _ _ => return node
    | node => throw (.wrongNode node.className)

def keepValid (host : Host H U) : List Node → Run H U (List Node)
  | [] => pure []
  | node :: rest => do
    if ← isValid host node then
      let node ← preprocess host node
      return node :: (← keepValid host rest)
    else keepValid host rest

/-- The blocks of a source, before any is filtered out. -/
def found (host : Host H U) (source : Node) : Run H U (List Node) := do
  match (← Run.options).extract with
  | none =>
    match source with
    | .ofText s => return (Block.extract s).map .block
    | node => throw (.notSearchable node.className)
  | some h =>
    let result ← host.call h [source]
    if result.isTrue then Run.ofExcept result.items else return []

def extract (host : Host H U) (source : Node) : Run H U (List Node) := do
  keepValid host (← found host source)

def tokenize (text : Node) : Run H U Body := do
  let options ← Run.options
  match text with
  | .ofText s => return Body.ofText options.gutters s
  | node => throw (.wrongNode node.className)

def wantText (node : Node) : Run H U String := do
  match node with
  | .ofText s => return s
  | node => throw (.expectedText node.className)

/-- Reads a type literal, given without its braces, for the tag it stands in. -/
def parseType (host : Host H U) (literal : Node) (owner : Node) : Run H U Node := do
  let text ← wantText literal
  match ← override .type with
  | some h => host.call h [literal, owner]
  | none =>
    match TypeExpr.parse (← Run.options).limit text with
    | .ok t => return .type t
    | .error e => throw (.typeSyntax e)

/-- A name as it should stand in its tag. -/
def parseParamType (host : Host H U) (name : Node) : Run H U Node := do
  let _ ← wantText name
  match ← override .paramType with
  | some h => host.call h [name]
  | none => return name

/-- A text and its inline references, as a pair. -/
def parseInline (host : Host H U) (text : Node) : Run H U Node := do
  let chars ← wantText text
  match ← override .inlineTag with
  | some h => host.call h [text]
  | none =>
    let (shown, refs) := Inline.parse (← Run.options).stripInline.isTrue chars
    return .pair (.ofText shown) (.list (refs.map .inline))

end DocComment.Parser
