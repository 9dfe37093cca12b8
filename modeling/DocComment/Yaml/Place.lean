/-!
Characters of a document with the line and column they stand in, and what may be skipped
between tokens. Only spaces indent; a tab starts no token.
-/

namespace DocComment.Yaml

structure Placed where
  char : Char
  line : Nat
  column : Nat
  deriving DecidableEq, Repr

def placeFrom (line column : Nat) : List Char → List Placed
  | [] => []
  | c :: rest =>
    ⟨c, line, column⟩ ::
      (if c = '\n' then placeFrom (line + 1) 0 rest else placeFrom line (column + 1) rest)

def place (cs : List Char) : List Placed := placeFrom 0 0 cs

def chars (ps : List Placed) : List Char := ps.map (·.char)

/-- One line feed for every way of ending a line. -/
def unifyNewlines : List Char → List Char
  | '\r' :: '\n' :: rest => '\n' :: unifyNewlines rest
  | '\r' :: rest => '\n' :: unifyNewlines rest
  | c :: rest => c :: unifyNewlines rest
  | [] => []

/-- Characters that may stand in a document at all. -/
def isAllowed (c : Char) : Bool :=
  let n := c.toNat
  n == 0x09 || n == 0x0A || n == 0x0D || (0x20 ≤ n && n ≤ 0x7E) || n == 0x85 ||
    (0xA0 ≤ n && n ≤ 0xFFFD) || 0x10000 ≤ n

def isSpace (c : Char) : Bool := c == ' ' || c == '\t' || c == '\n'

/-- Whether white space or the end is next. -/
def atSpace : List Placed → Bool
  | [] => true
  | p :: _ => isSpace p.char

def atBreak : List Placed → Bool
  | [] => true
  | p :: _ => p.char == '\n'

/-- Three marks at the start of a line, and nothing glued to them. -/
def atMarker (mark : Char) : List Placed → Bool
  | a :: b :: c :: rest =>
    a.column == 0 && a.char == mark && b.char == mark && c.char == mark && atSpace rest
  | _ => false

def atAnyMarker (ps : List Placed) : Bool := atMarker '-' ps || atMarker '.' ps

def skipFrom (inComment : Bool) : List Placed → List Placed
  | [] => []
  | p :: rest =>
    if p.char = '\n' then skipFrom false rest
    else if inComment then skipFrom true rest
    else if p.char = ' ' then skipFrom false rest
    else if p.char = '#' then skipFrom true rest
    else p :: rest

/-- Past spaces, newlines and comments. -/
def skip (ps : List Placed) : List Placed := skipFrom false ps

def skipSpaces (ps : List Placed) : List Placed := ps.dropWhile (·.char == ' ')

/-- Past the rest of a line on which nothing but a comment may follow. -/
def finishLine (ps : List Placed) : Option (List Placed) :=
  match skipSpaces ps with
  | [] => some []
  | p :: rest =>
    if p.char = '\n' || p.char = '#' then some (skip (p :: rest)) else none

end DocComment.Yaml
