import DocComment.Text.Quoted
import DocComment.Yaml.Scalar

/-!
Writing data so that it reads back as itself. A text is written plain if it stays a text that
way and no mark in it means anything else; otherwise it stands in quotes, and in double quotes
if a character in it has to be escaped.
-/

namespace DocComment.Yaml

def marksNothing : List Char → Bool
  | [] => true
  | c :: rest =>
    let next := rest.head?
    let glued := next.any (fun d => !isSpace d)
    !((c == ':' && !glued) || (isSpace c && next == some '#') || c == '\n') && marksNothing rest

/-- Whether the first character lets a plain scalar start. A dash, a question mark and a colon
need something glued to them. -/
def opensPlain : List Char → Bool
  | [] => true
  | c :: rest =>
    if isSpace c then false
    else if c == '-' || c == '?' || c == ':' then rest.head?.any (fun d => !isSpace d)
    else !indicators.contains c

def isText : Data → Bool
  | .text _ => true
  | _ => false

def startsLikeMarker (cs : List Char) : Bool :=
  "---".toList.isPrefixOf cs || "...".toList.isPrefixOf cs

def staysPlain (s : String) : Bool :=
  let cs := s.toList
  isText (resolve s) && opensPlain cs && !cs.getLast?.any isSpace && !startsLikeMarker cs &&
    marksNothing cs

def quote (s : String) : String :=
  "'" ++ String.ofList (s.toList.flatMap fun c => if c = '\'' then ['\'', '\''] else [c]) ++ "'"

/-- Characters that are written as themselves outside of double quotes. -/
def isPlainChar (c : Char) : Bool := c == '\n' || (0x20 ≤ c.toNat && c.toNat ≤ 0x7E)

def hexUpper (width n : Nat) : List Char := (Text.hexDigits width n).map Char.toUpper

def escapeNames : List (Nat × Char) :=
  [(0x00, '0'), (0x07, 'a'), (0x08, 'b'), (0x09, 't'), (0x0A, 'n'), (0x0B, 'v'), (0x0C, 'f'),
   (0x0D, 'r'), (0x1B, 'e'), (0x22, '"'), (0x5C, '\\'), (0x85, 'N'), (0xA0, '_'), (0x2028, 'L'),
   (0x2029, 'P')]

def escapeChar (c : Char) : List Char :=
  match escapeNames.lookup c.toNat with
  | some name => ['\\', name]
  | none =>
    if isPlainChar c then [c]
    else if c.toNat ≤ 0xFF then '\\' :: 'x' :: hexUpper 2 c.toNat
    else if c.toNat ≤ 0xFFFF then '\\' :: 'u' :: hexUpper 4 c.toNat
    else '\\' :: 'U' :: hexUpper 8 c.toNat

def escapedQuote (s : String) : String :=
  "\"" ++ String.ofList (s.toList.flatMap escapeChar) ++ "\""

def writeText (s : String) : String :=
  if !s.toList.all isPlainChar then escapedQuote s else if staysPlain s then s else quote s

/-- A decimal keeps its point, so that it reads back as one also before a power of ten. -/
def writeNumber (n : Number) : String :=
  let cs := n.toText.toList
  if cs.contains 'e' && !cs.contains '.' then
    String.ofList (cs.takeWhile (· != 'e') ++ '.' :: '0' :: cs.dropWhile (· != 'e'))
  else n.toText

/-- What fits on the line of its key: scalars, and what is empty. -/
def inline? : Data → Option String
  | .null => some "null"
  | .bool b => some (if b then "true" else "false")
  | .number n => some (writeNumber n)
  | .text s => some (writeText s)
  | .list [] => some "[]"
  | .object [] => some "\x7b\x7d"
  | _ => none

/-- The first line after a lead, and the others below it. -/
def hang (lead : String) : List String → List String
  | [] => [lead]
  | line :: rest => (lead ++ line) :: rest.map ("  " ++ ·)

mutual

/-- The lines of data. A list stands in the column of its key, an object further right. -/
def lines : Data → List String
  | .list items => itemLines items
  | .object fields => fieldLines fields
  | d => (inline? d).toList

def itemLines : List Data → List String
  | [] => []
  | d :: ds => hang "- " ((inline? d).elim (lines d) ([·])) ++ itemLines ds

def fieldLines : List (String × Data) → List String
  | [] => []
  | (key, d) :: rest =>
    let shown := match d, inline? d with
      | _, some text => [writeText key ++ ": " ++ text]
      | .object fields, none => (writeText key ++ ":") :: (fieldLines fields).map ("  " ++ ·)
      | d, none => (writeText key ++ ":") :: lines d
    shown ++ fieldLines rest

end

/-- Fields as a document, one or more lines for each. -/
def write (fields : List (String × Data)) : String :=
  String.join ((fieldLines fields).map (· ++ "\n"))

end DocComment.Yaml
