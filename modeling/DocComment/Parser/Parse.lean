import DocComment.Node.Comment
import DocComment.Node.Tag
import DocComment.Parser.Collaborators
import DocComment.Tag.Split

/-!
Parsing tags, comments and whole sources. Every call works with the pipeline it finds when it
starts. A malformed tag is dropped, or in strict mode fails its comment; a batch records the
error of a comment that fails and goes on with the next.
-/

namespace DocComment.Parser

variable {H U : Type}

/-- Reads the references of a description that is not empty. Whatever reading gives has to be
two things, and they go into the node as they are. -/
def withInline (host : Host H U) (node : Node) : Run H U Node := do
  let description ← Run.ofExcept (node.field "description")
  if !description.isTrue then return node
  else
    match ← Run.ofExcept (← parseInline host description).items with
    | [text, refs] => return (node.fill "description" text).fill "inline_tags" refs
    | _ => throw (.raised .value "two values are needed")

/-- Reads the type clause, if the title allows one. A malformed type is a failure. -/
def withType (host : Host H U) (node : Node) : Run H U (Outcome Node) := do
  let clause ← Run.ofExcept (node.field "raw_type")
  if clause.isNone then return .ok node
  else if ← Run.ofExcept node.allowsType then
    tryCatch
      (do
        let literal ← Run.ofExcept (Node.innerLiteral clause)
        return .ok (node.fill "type" (← parseType host literal node)))
      (fun e => if e.isTypeSyntax then return .fail e else throw e)
  else return .ok node

def withName (host : Host H U) (node : Node) : Run H U Node := do
  let name ← Run.ofExcept (node.field "name")
  if name.isNone then return node
  else return node.fill "name" (← parseParamType host name)

/-- The core handling of a split tag: type, name, normal form, policy, references. -/
def processTag (host : Host H U) (node : Node) : Run H U (Outcome Node) := do
  match ← withType host node with
  | .ok node =>
    let node ← withName host node
    let node ← Run.ofExcept node.normalize
    let (outcome, log) ← Run.ofExcept (node.validate (← Run.options).policy)
    Run.write log
    match outcome with
    | .ok node => return .ok (← withInline host node)
    | other => return other
  | other => return other

def settle {α : Type} (outcome : Outcome α) : Run H U (Option α) := do
  let (result, log) := outcome.settle (← Run.options).isStrict
  Run.write log
  Run.ofExcept result

def coreTag (host : Host H U) (node : Node) : Run H U (Option Node) := do
  settle (← processTag host node)

def splitTag (raw : Node) : Run H U (Outcome Tag) := do
  match raw with
  | .ofText s => return Tag.split s
  | node => throw (.notSearchable node.className)

def parseTagWith (host : Host H U) (pipeline : Pipeline H) (raw : Node) :
    Run H U (Option Node) := do
  match ← override .tag with
  | some h =>
    let node ← host.call h [raw]
    return if node.isNone then none else some node
  | none =>
    match ← settle (← splitTag raw) with
    | none => return none
    | some tag => pipeline.handle host.call (coreTag host) (.tag tag)

/-- One tag line. Nothing comes of a line that is malformed or rejected. -/
def parseTag (host : Host H U) (raw : Node) : Run H U (Option Node) := do
  parseTagWith host (← get).pipeline raw

def parseEach (host : Host H U) (pipeline : Pipeline H) : List String → Run H U (List Node)
  | [] => pure []
  | raw :: rest => do
    let tag ← parseTagWith host pipeline (.ofText raw)
    let tags ← parseEach host pipeline rest
    return tag.toList ++ tags

def parseTagsWith (host : Host H U) (pipeline : Pipeline H) (body : Body) :
    Run H U (List Node) := do
  match ← override .tags with
  | some h => Run.ofExcept (← host.call h [.body body]).items
  | none => parseEach host pipeline body.tags

/-- Every tag line of a body, less those that come to nothing. -/
def parseTags (host : Host H U) (body : Body) : Run H U (List Node) := do
  parseTagsWith host (← get).pipeline body

def addBody (body : Body) : Run H U Unit := modify fun p => { p with bodies := p.bodies ++ [body] }

/-- The core handling of a block, or of what has the fields of one. -/
def coreComment (host : Host H U) (pipeline : Pipeline H) (node : Node) : Run H U Node := do
  let body ← tokenize (← Run.ofExcept (node.field "value"))
  addBody body
  let raw ← Run.ofExcept (node.field "raw")
  let tags ← parseTagsWith host pipeline body
  let code ← Run.ofExcept (← Run.ofExcept (node.field "code")).asContext
  let location ← Run.ofExcept (node.field "loc")
  Run.ofExcept (Node.ofParts raw body tags code location)

/-- A block stays as it is; a text stands for the first block in it, or for a bare one. -/
def blockOf (host : Host H U) (node : Node) : Run H U Node := do
  match node with
  | .ofText s =>
    match ← extract host node with
    | first :: _ => return first
    | [] => return .block { raw := s, value := s }
  | node => return node

def buildComment (host : Host H U) (pipeline : Pipeline H) (node : Node) : Run H U Node := do
  match ← override .comment with
  | some h => Run.ofExcept (← host.call h [node]).asComment
  | none =>
    match pipeline.middleware.lookup "comment" with
    | some handler =>
      Run.ofExcept (← Pipeline.invoke host.call .middleware node handler).asComment
    | none => coreComment host pipeline node

def formatNode (node : Node) : Run H U Node := do
  if (← Run.options).format.isTrue then Run.ofExcept node.format else return node

/-- One comment, given as a block or as text. Both chains of handlers run once it is built,
and listeners learn of it last. -/
def parseComment (host : Host H U) (node : Node) : Run H U Node := do
  let pipeline := (← get).pipeline
  let node ← blockOf host node
  let node ← buildComment host pipeline node
  let node ← withInline host node
  let node ← pipeline.runBefore host.call node
  let node ← pipeline.runAfter host.call node
  let node ← formatNode node
  let _ ← emit host "comment" [node]
  return node

/-- Notes the error of a comment and leaves the comment out, unless the error is none of the
parsed text's. -/
def skip (node : Node) (e : Error) : Run H U (Option Node) := do
  if e.isParseError then
    let line ← Run.ofExcept node.lineText
    Run.write [.warning ("Skipping comment at line " ++ line ++ ": " ++ e.message)]
    modify fun p => { p with errors := p.errors ++ [e] }
    return none
  else throw e

def parseBlocks (host : Host H U) : List Node → Run H U (List Node)
  | [] => pure []
  | node :: rest => do
    let parsed ← tryCatch (some <$> parseComment host node) (skip node)
    let others ← parseBlocks host rest
    return parsed.toList ++ others

/-- Every documentation comment of a source. -/
def parse (host : Host H U) (source : String) : Run H U (List Node) := do
  modify fun p => { p with errors := [], bodies := [] }
  let parsed ← parseBlocks host (← extract host (.ofText source))
  modify fun p => { p with comments := parsed }
  return parsed

/-- For each comment of the last batch, its tags with the title. -/
def getTags (title : String) : Run H U (List (List Node)) := do
  Run.ofExcept ((← get).comments.mapM (Node.tagsTitled title))

end DocComment.Parser
