import DocComment.Data
import DocComment.TypeExpr.Literal

/-!
Everything that can go wrong, as causes. Errors of the parsed text are malformed types and
malformed tags; they alone are subject to strictness. The others are mistakes of whoever
configures the parser or registers handlers, and errors that handlers raise themselves.
-/

namespace DocComment

open Text

inductive Phase
  | before
  | middleware
  | after
  deriving DecidableEq, Repr

def Phase.name : Phase → String
  | .before => "before"
  | .middleware => "middleware"
  | .after => "after"

namespace Tag

inductive Problem
  | missingTitle
  | unbalancedBraces (title : String)
  | unbalancedBrackets (title : String)
  | emptyName (title : String)
  deriving DecidableEq, Repr

structure SyntaxError where
  problem : Problem
  raw : String
  deriving DecidableEq, Repr

def SyntaxError.message (e : SyntaxError) : String :=
  match e.problem with
  | .missingTitle => "Missing tag title"
  | .unbalancedBraces title => "Unbalanced braces in type of @" ++ title
  | .unbalancedBrackets title => "Unbalanced brackets in name of @" ++ title
  | .emptyName title => "Empty optional name in @" ++ title

end Tag

/-- A value registered where something callable is needed, as messages show it. -/
inductive Uncallable
  | handler (phase : Phase) (nodeType : String) (shown : String)
  | plugin (shown : String)
  | stage (name : String) (shown : String)
  deriving DecidableEq, Repr

namespace Uncallable

def phase : Uncallable → String
  | .handler phase _ _ => phase.name
  | .plugin _ => "use"
  | .stage _ _ => "parser"

def message : Uncallable → String
  | .handler phase nodeType shown =>
    "expected " ++ phase.name ++ " handler for '" ++ nodeType ++ "' to be a function, got " ++ shown
  | .plugin shown => "expected plugin to be a function, got " ++ shown
  | .stage name shown => "expected parser for '" ++ name ++ "' to be a function, got " ++ shown

end Uncallable

inductive OptionsError
  | unknownKeys (keys : List String)
  | unknownStage (key : String)
  | uncallableStage (stage : String) (kindName : String)
  | limitNotPositive (limit : TypeExpr.Limit)
  | uncallable (field : String)
  | malformedFile (path : String)
  | notMapping (path : String)
  deriving DecidableEq, Repr

def OptionsError.message : OptionsError → String
  | .unknownKeys keys => "Unknown configuration keys: " ++ ", ".intercalate keys
  | .unknownStage key => "unknown parse override '" ++ key ++ "'"
  | .uncallableStage stage kindName =>
    "parse override '" ++ stage ++ "' must be callable, got " ++ kindName
  | .limitNotPositive limit => "max_type_depth must be positive, got " ++ limit.shown
  | .uncallable field => "'" ++ field ++ "' must be callable"
  | .malformedFile path => "Invalid YAML in " ++ path
  | .notMapping path => "Expected a mapping in " ++ path

/-- The kinds of error a handler can raise. A parse error is an error of the parsed text that
is neither a type's nor a tag's. -/
inductive ErrorKind
  | general
  | parse
  | typeSyntax
  | tagSyntax
  | handler
  | options
  | model
  | argument
  | value
  | node
  | other (name : String)
  deriving DecidableEq, Repr

inductive Error
  | typeSyntax (error : TypeExpr.SyntaxError)
  | tagSyntax (error : Tag.SyntaxError)
  | uncallable (error : Uncallable)
  | options (error : OptionsError)
  | expectedText (kindName : String)
  | expectedBlock (kindName : String)
  | uncallableListener (event : String)
  | middlewareRun
  | unknownPhase (name : String)
  | notIterable
  | notComparable
  | notText
  | notSearchable (kindName : String)
  | noKey
  | notType (shown : String)
  | reservedKey (key : String)
  | mismatch
  | wrongNode (kindName : String)
  | raised (kind : ErrorKind) (message : String)
  deriving DecidableEq, Repr

namespace Error

def kind : Error → ErrorKind
  | .typeSyntax _ => .typeSyntax
  | .tagSyntax _ => .tagSyntax
  | .uncallable _ => .handler
  | .options _ => .options
  | .expectedText _ | .expectedBlock _ | .uncallableListener _ => .argument
  | .notIterable | .notComparable | .notText | .notSearchable _ => .argument
  | .noKey | .notType _ | .reservedKey _ => .argument
  | .middlewareRun | .unknownPhase _ => .value
  | .mismatch => .model
  | .wrongNode _ => .node
  | .raised kind _ => kind

def message : Error → String
  | .typeSyntax e => e.message
  | .tagSyntax e => e.message
  | .uncallable e => e.message
  | .options e => e.message
  | .expectedText kindName => "expected a string, got " ++ kindName
  | .expectedBlock kindName => "expected comment to be a RawComment, got " ++ kindName
  | .uncallableListener event => "listener for '" ++ event ++ "' must be callable"
  | .middlewareRun => "run() takes 'before' or 'after'"
  | .unknownPhase name => quoted name ++ " is not a phase"
  | .notIterable => "not a list"
  | .notComparable => "not a number"
  | .notText => "not a text"
  | .notSearchable kindName => "expected string or bytes-like object, got '" ++ kindName ++ "'"
  | .noKey => "not a key"
  | .notType shown => "not a type node: " ++ shown
  | .reservedKey key => quoted key ++ " is taken"
  | .mismatch => "data does not fit"
  | .wrongNode kindName => kindName ++ " is no node for this step"
  | .raised _ message => message

/-- Errors of the parsed text, which a batch of comments survives. -/
def isParseError (e : Error) : Bool :=
  match e.kind with
  | .parse | .typeSyntax | .tagSyntax => true
  | _ => false

def isTypeSyntax (e : Error) : Bool := e.kind == .typeSyntax

end Error

end DocComment
