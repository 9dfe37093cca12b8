import DocComment.TypeExpr.Parser

/-!
Type literals as texts. A literal is cut into tokens before any of it is read, so a stray
character wins over every other error. Errors name the token found and where it stands.
-/

namespace DocComment.TypeExpr

open Text

inductive Problem
  | stray (char : Char)
  | grammar (cause : Cause) (found : Option Token) (limit : Limit)
  deriving DecidableEq, Repr

structure SyntaxError where
  literal : String
  position : Nat
  problem : Problem
  deriving DecidableEq, Repr

def Token.closerName : Token → Option String
  | .closeParen => some "parenthesis"
  | .closeBrace => some "brace"
  | .closeBracket => some "bracket"
  | .greater => some "angle bracket"
  | _ => none

def foundText (found : Option Token) : String :=
  quoted ((found.map Token.text).getD "end of input")

def Cause.message (found : Option Token) (limit : Limit) : Cause → String
  | .expectedType =>
    match found with
    | none => "Expected a type"
    | some t => "Expected a type, got " ++ quoted t.text
  | .missingBracket => "Expected ']' after '['"
  | .unclosedParen => "Unclosed parenthesis"
  | .unclosedGeneric head => "Unclosed type application on " ++ quoted head
  | .unclosedRecord => "Unclosed record type"
  | .malformedKey => "Malformed record key"
  | .duplicateKey key => "Duplicate record key " ++ quoted key
  | .unclosedSignature => "Unclosed function signature"
  | .tooDeep => "Type literal nested deeper than " ++ limit.shown ++ " levels"
  | .leftover =>
    match found.bind Token.closerName with
    | some closer => "Unbalanced closing " ++ closer
    | none => "Unexpected token " ++ quoted ((found.map Token.text).getD "")

def SyntaxError.message (e : SyntaxError) : String :=
  match e.problem with
  | .stray c => "Unexpected character " ++ quoted (String.singleton c) ++ s!" at {e.position}"
  | .grammar cause found limit =>
    cause.message found limit ++ " (found " ++ foundText found ++ s!" at {e.position} in " ++
      quoted e.literal ++ ")"

/-- The place of the first token of `rest`, which is the end of the literal if none is left. -/
def positionOf (lexemes : List Lexeme) (size : Nat) (rest : List Token) : Nat :=
  match lexemes[lexemes.length - rest.length]? with
  | some lexeme => lexeme.position
  | none => size

def parse (limit : Limit) (literal : String) : Except SyntaxError TypeExpr :=
  match lex literal.toList with
  | .error stray => .error ⟨literal, stray.position, .stray stray.char⟩
  | .ok lexemes =>
    match ofTokens limit.levels (lexemes.map (·.token)) with
    | .ok t => .ok t
    | .error failure =>
      .error ⟨literal, positionOf lexemes literal.toList.length failure.rest,
        .grammar failure.cause failure.rest.head? limit⟩

end DocComment.TypeExpr
