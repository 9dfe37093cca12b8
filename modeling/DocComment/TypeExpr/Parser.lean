import DocComment.TypeExpr.Basic
import DocComment.TypeExpr.Limit
import DocComment.TypeExpr.Token

/-!
Reading a type expression from its tokens. From loosest to tightest, a union holds
alternatives, an alternative may end in an equals sign, markers stand before an operand, and
brackets and markers follow it. A question mark before anything that cannot start an operand
is the unknown type. Unions and functions are the levels that the nesting limit counts, and
the readers below them take the readers of the next level as arguments.
-/

namespace DocComment.TypeExpr

inductive Cause
  | expectedType
  | missingBracket
  | unclosedParen
  | unclosedGeneric (name : String)
  | unclosedRecord
  | malformedKey
  | duplicateKey (key : String)
  | unclosedSignature
  | tooDeep
  | leftover
  deriving DecidableEq, Repr

/-- What went wrong, and the tokens from the offending one on. -/
structure Failure where
  cause : Cause
  rest : List Token
  deriving DecidableEq, Repr

/-- Takes something off the front of the tokens. -/
abbrev Reader (α : Type) := List Token → Except Failure (α × List Token)

def expect (token : Token) (cause : Cause) : List Token → Except Failure (List Token)
  | [] => .error ⟨cause, []⟩
  | t :: rest => if t = token then .ok rest else .error ⟨cause, t :: rest⟩

/-- One item, and further ones while the separator follows. An item reader is told the items
already read, latest first. The bound is the number of separators that may still come. -/
def separatedFrom {α : Type} (separator : Token) (item : List α → Reader α) :
    Nat → List α → Reader (List α)
  | 0, seen, ts => do
    let (x, ts) ← item seen ts
    return ([x], ts)
  | bound + 1, seen, ts => do
    let (x, ts) ← item seen ts
    match ts with
    | [] => return ([x], [])
    | t :: rest =>
      if t = separator then
        let (xs, ts) ← separatedFrom separator item bound (x :: seen) rest
        return (x :: xs, ts)
      else return ([x], t :: rest)

def separated {α : Type} (separator : Token) (item : List α → Reader α) : Reader (List α) :=
  fun ts => separatedFrom separator item ts.length [] ts

inductive Modifier
  | nullable
  | nonNullable
  | variadic
  deriving DecidableEq, Repr

def Modifier.apply : Modifier → TypeExpr → TypeExpr
  | .nullable, t => .nullable t .before
  | .nonNullable, t => .nonNullable t .before
  | .variadic, t => .variadic t

/-- A question mark before one of these, or at the end, has no operand. -/
def endsOperand : List Token → Bool
  | [] => true
  | t :: _ =>
    [.pipe, .comma, .closeParen, .closeBrace, .closeBracket, .greater, .equals].contains t

def modifiers : List Token → List Modifier × List Token
  | [] => ([], [])
  | t :: rest =>
    let more (m : Modifier) := (m :: (modifiers rest).1, (modifiers rest).2)
    match t with
    | .question => if endsOperand rest then ([], t :: rest) else more .nullable
    | .bang => more .nonNullable
    | .ellipsis => more .variadic
    | _ => ([], t :: rest)

/-- Each pair of brackets makes an array of what stands before it. -/
def brackets (t : TypeExpr) : Reader TypeExpr
  | .openBracket :: .closeBracket :: rest => brackets (.generic "Array" [t]) rest
  | .openBracket :: rest => .error ⟨.missingBracket, rest⟩
  | rest => .ok (t, rest)

def marks (t : TypeExpr) : List Token → TypeExpr × List Token
  | .question :: rest => marks (.nullable t .after) rest
  | .bang :: rest => marks (.nonNullable t .after) rest
  | rest => (t, rest)

/-- A key is a plain name without separators, a string without its quotes, or a number. -/
def recordKey : Reader String
  | .name s :: rest =>
    if s.toList.any (fun c => isSeparator c || c == ':') then
      .error ⟨.malformedKey, .name s :: rest⟩
    else .ok (s, rest)
  | .string s :: rest => .ok (String.ofList (s.toList.drop 1).dropLast, rest)
  | .number s :: rest => .ok (s, rest)
  | ts => .error ⟨.malformedKey, ts⟩

def entryKey : TypeExpr → Option String
  | .field key _ => some key
  | _ => none

/-- A field of a record. A repeated key is reported at the token after it. -/
def recordEntry (union : Reader TypeExpr) (seen : List TypeExpr) : Reader TypeExpr := fun ts => do
  let (key, ts) ← recordKey ts
  if seen.any (fun entry => entryKey entry == some key) then .error ⟨.duplicateKey key, ts⟩
  match ts with
  | .colon :: rest =>
    let (value, ts) ← union rest
    return (.field key (some value), ts)
  | ts => return (.field key none, ts)

/-- The reader after an opening brace. -/
def recordBody (union : Reader TypeExpr) : Reader TypeExpr
  | .closeBrace :: rest => .ok (.record [], rest)
  | ts => do
    let (fields, ts) ← separated .comma (recordEntry union) ts
    let ts ← expect .closeBrace .unclosedRecord ts
    return (.record fields, ts)

def genericBody (union : Reader TypeExpr) (name : String) : Reader TypeExpr := fun ts => do
  let (params, ts) ← separated .comma (fun _ => union) ts
  let ts ← expect .greater (.unclosedGeneric name) ts
  return (.generic name params, ts)

def groupBody (union : Reader TypeExpr) : Reader TypeExpr := fun ts => do
  let (inner, ts) ← union ts
  let ts ← expect .closeParen .unclosedParen ts
  return (.group inner, ts)

def primary (union function : Reader TypeExpr) : Reader TypeExpr
  | .name s :: rest =>
    match rest with
    | .openParen :: _ => if s = "function" then function (.name s :: rest) else .ok (.name s, rest)
    | .less :: rest => genericBody union s rest
    | .dotLess :: rest => genericBody union s rest
    | rest => .ok (.name s, rest)
  | .star :: rest => .ok (.all, rest)
  | .question :: rest => .ok (.unknown, rest)
  | .string s :: rest => .ok (.literal s, rest)
  | .number s :: rest => .ok (.literal s, rest)
  | .openBrace :: rest => recordBody union rest
  | .openParen :: rest => groupBody union rest
  | ts => .error ⟨.expectedType, ts⟩

def suffixed (union function : Reader TypeExpr) : Reader TypeExpr := fun ts => do
  let (t, ts) ← primary union function ts
  let (t, ts) ← brackets t ts
  return marks t ts

def modified (union function : Reader TypeExpr) : Reader TypeExpr := fun ts => do
  let (t, rest) ← suffixed union function (modifiers ts).2
  return ((modifiers ts).1.foldr Modifier.apply t, rest)

def alternative (union function : Reader TypeExpr) : Reader TypeExpr := fun ts => do
  let (t, ts) ← modified union function ts
  match ts with
  | .equals :: rest => return (.optional t, rest)
  | ts => return (t, ts)

/-- An entry of a parameter list: a binding of `this` or `new`, or a parameter. -/
inductive Argument
  | receiver (type : TypeExpr)
  | built (type : TypeExpr)
  | param (type : TypeExpr)
  deriving DecidableEq, Repr

def paramBody (union function : Reader TypeExpr) : Reader TypeExpr
  | .name s :: .colon :: rest => do
    let (t, ts) ← alternative union function rest
    return (.parameter s t, ts)
  | ts => alternative union function ts

def argument (union function : Reader TypeExpr) : Reader Argument
  | .ellipsis :: rest => do
    let (t, ts) ← paramBody union function rest
    return (.param (.variadic t), ts)
  | .name s :: .colon :: rest =>
    if s = "this" then do
      let (t, ts) ← union rest
      return (.receiver t, ts)
    else if s = "new" then do
      let (t, ts) ← union rest
      return (.built t, ts)
    else do
      let (t, ts) ← paramBody union function (.name s :: .colon :: rest)
      return (.param t, ts)
  | ts => do
    let (t, ts) ← paramBody union function ts
    return (.param t, ts)

def Argument.param? : Argument → Option TypeExpr
  | .param t => some t
  | _ => none

def Argument.receiver? : Argument → Option TypeExpr
  | .receiver t => some t
  | _ => none

def Argument.built? : Argument → Option TypeExpr
  | .built t => some t
  | _ => none

/-- The parameters in order, and the last binding of each kind. -/
def ofArguments (args : List Argument) (result : Option TypeExpr) : TypeExpr :=
  .function (args.filterMap Argument.param?) result
    (args.filterMap Argument.receiver?).getLast? (args.filterMap Argument.built?).getLast?

def arguments (union function : Reader TypeExpr) : Reader (List Argument)
  | .closeParen :: rest => .ok ([], .closeParen :: rest)
  | ts => separated .comma (fun _ => argument union function) ts

/-- The reader of a whole function type, whose first two tokens are known. -/
def signature (union function : Reader TypeExpr) : Reader TypeExpr := fun ts => do
  let (args, ts) ← arguments union function (ts.drop 2)
  let ts ← expect .closeParen .unclosedSignature ts
  match ts with
  | .colon :: rest =>
    let (result, ts) ← modified union function rest
    return (ofArguments args (some result), ts)
  | ts => return (ofArguments args none, ts)

def unionOf : List TypeExpr → TypeExpr
  | [t] => t
  | ts => .union ts

/-- The two readers that open a level. -/
inductive Opening
  | union
  | function
  deriving DecidableEq, Repr

/-- Reads with so many levels left. -/
def nested : Nat → Opening → Reader TypeExpr
  | 0, _, ts => .error ⟨.tooDeep, ts⟩
  | level + 1, .union, ts => do
    let below := alternative (nested level .union) (nested level .function)
    let (elements, ts) ← separated .pipe (fun _ => below) ts
    return (unionOf elements, ts)
  | level + 1, .function, ts =>
    signature (nested level .union) (nested level .function) ts

/-- The type that all the tokens make up. No tokens at all are the empty record. -/
def ofTokens (levels : Nat) (tokens : List Token) : Except Failure TypeExpr :=
  if tokens.isEmpty then .ok (.record [])
  else do
    let (t, rest) ← nested levels .union tokens
    if rest.isEmpty then return t else .error ⟨.leftover, rest⟩

end DocComment.TypeExpr
