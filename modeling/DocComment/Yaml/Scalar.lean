import DocComment.Yaml.Basic
import DocComment.Yaml.Place

/-!
Scalars of a document. Lines of one scalar are folded: a single line break reads as a space,
and of several breaks the first is dropped. A plain scalar ends before a colon or a comment
sign that white space sets apart, and in a flow before its brackets and commas as well.
-/

namespace DocComment.Yaml

/-- Characters that no plain scalar starts with, unless more than white space follows and
they are a dash, or outside of flows a question mark or colon. -/
def indicators : List Char :=
  ['-', '?', ':', ',', '[', ']', '\x7b', '\x7d', '#', '&', '*', '!', '|', '>', '\'', '"', '%',
   '@', '\x60']

def startsPlain (inFlow : Bool) : List Placed → Bool
  | [] => false
  | p :: rest =>
    if isSpace p.char then false
    else if !indicators.contains p.char then true
    else !atSpace rest &&
      (p.char == '-' || (!inFlow && (p.char == '?' || p.char == ':')))

def isFlowMark (c : Char) : Bool :=
  c == ',' || c == '?' || c == '[' || c == ']' || c == '\x7b' || c == '\x7d'

def endsFlowKey (ps : List Placed) : Bool :=
  match ps with
  | [] => true
  | p :: _ => isSpace p.char || (isFlowMark p.char && p.char != '?')

/-- The part of a plain scalar up to white space. -/
def plainChunk (inFlow : Bool) : List Placed → List Placed × List Placed
  | [] => ([], [])
  | p :: rest =>
    if isSpace p.char ||
        (p.char == ':' && (if inFlow then endsFlowKey rest else atSpace rest)) ||
        (inFlow && isFlowMark p.char) then
      ([], p :: rest)
    else (p :: (plainChunk inFlow rest).1, (plainChunk inFlow rest).2)

/-- How a gap with so many line breaks reads. -/
def folded (breaks : Nat) : List Char :=
  if breaks = 1 then [' '] else List.replicate (breaks - 1) '\n'

structure Gap where
  spaces : Nat
  breaks : Nat
  rest : List Placed

/-- Spaces and line breaks, which a document marker ends. -/
def gap : List Placed → Gap
  | [] => ⟨0, 0, []⟩
  | p :: rest =>
    if p.column == 0 && atAnyMarker (p :: rest) then ⟨0, 0, p :: rest⟩
    else if p.char = ' ' then let g := gap rest; { g with spaces := g.spaces + 1 }
    else if p.char = '\n' then let g := gap rest; { g with breaks := g.breaks + 1 }
    else ⟨0, 0, p :: rest⟩

/-- Whether a plain scalar goes on after a gap. -/
def goesOn (inFlow : Bool) (indent : Nat) (g : Gap) : Bool :=
  match g.rest with
  | [] => false
  | p :: rest =>
    (0 < g.spaces || 0 < g.breaks) && p.char != '#' &&
      (inFlow || g.breaks == 0 || indent ≤ p.column) && !(p.column == 0 && atAnyMarker (p :: rest))

/-- A plain scalar whose later lines stand at `indent` or further right. -/
def plain (inFlow : Bool) (indent : Nat) : Nat → List Placed → List Char × List Placed
  | 0, ps => ([], ps)
  | bound + 1, ps =>
    match plainChunk inFlow ps with
    | ([], _) => ([], ps)
    | (chunk, rest) =>
      let g := gap rest
      if goesOn inFlow indent g then
        match plain inFlow indent bound g.rest with
        | ([], _) => (chars chunk, rest)
        | (more, after) =>
          let between := if g.breaks = 0 then List.replicate g.spaces ' ' else folded g.breaks
          (chars chunk ++ between ++ more, after)
      else (chars chunk, rest)

/-- White space inside quotes, which may hold tabs. Blanks around line breaks are dropped. -/
def quotedGap (ps : List Placed) : List Char × List Placed :=
  let white := ps.takeWhile (fun p => isSpace p.char)
  let rest := ps.drop white.length
  let breaks := (white.filter (·.char == '\n')).length
  (if breaks = 0 then chars white else folded breaks, rest)

def singleQuoted : Nat → List Placed → Option (List Char × List Placed)
  | 0, _ => none
  | bound + 1, ps =>
    match ps with
    | [] => none
    | p :: rest =>
      if p.column == 0 && atAnyMarker (p :: rest) then none
      else if p.char = '\'' then
        match rest with
        | q :: rest' =>
          if q.char = '\'' then
            (singleQuoted bound rest').map fun (cs, after) => ('\'' :: cs, after)
          else some ([], rest)
        | [] => some ([], [])
      else if isSpace p.char then
        let (white, rest) := quotedGap (p :: rest)
        (singleQuoted bound rest).map fun (cs, after) => (white ++ cs, after)
      else (singleQuoted bound rest).map fun (cs, after) => (p.char :: cs, after)

def escapes : List (Char × Nat) :=
  [('0', 0x00), ('a', 0x07), ('b', 0x08), ('t', 0x09), ('\t', 0x09), ('n', 0x0A), ('v', 0x0B),
   ('f', 0x0C), ('r', 0x0D), ('e', 0x1B), (' ', 0x20), ('"', 0x22), ('\\', 0x5C), ('/', 0x2F),
   ('N', 0x85), ('_', 0xA0), ('L', 0x2028), ('P', 0x2029)]

def escapeWidth : Char → Option Nat
  | 'x' => some 2
  | 'u' => some 4
  | 'U' => some 8
  | _ => none

/-- The character that stands after a backslash. -/
def escape (ps : List Placed) : Option (List Char × List Placed) :=
  match ps with
  | [] => none
  | p :: rest =>
    match escapes.lookup p.char with
    | some n => some ([Char.ofNat n], rest)
    | none =>
      match escapeWidth p.char with
      | none => none
      | some width =>
        if (rest.take width).length = width && !(rest.take width).any (·.char == '_') then
          (digits? 16 (chars (rest.take width))).map fun n => ([Char.ofNat n], rest.drop width)
        else none

def doubleQuoted : Nat → List Placed → Option (List Char × List Placed)
  | 0, _ => none
  | bound + 1, ps =>
    match ps with
    | [] => none
    | p :: rest =>
      if p.column == 0 && atAnyMarker (p :: rest) then none
      else if p.char = '"' then some ([], rest)
      else if p.char = '\\' then
        if atBreak rest then
          doubleQuoted bound (rest.dropWhile (fun q => isSpace q.char))
        else do
          let (c, rest) ← escape rest
          (doubleQuoted bound rest).map fun (cs, after) => (c ++ cs, after)
      else if isSpace p.char then
        let (white, rest) := quotedGap (p :: rest)
        (doubleQuoted bound rest).map fun (cs, after) => (white ++ cs, after)
      else (doubleQuoted bound rest).map fun (cs, after) => (p.char :: cs, after)

/-- A scalar that starts here, plain or quoted. -/
def scalarAt (inFlow : Bool) (indent : Nat) (ps : List Placed) : Option (Yaml × List Placed) :=
  match ps with
  | [] => none
  | p :: rest =>
    if p.char = '\'' then
      (singleQuoted (rest.length + 1) rest).map fun (cs, after) =>
        (.scalar (.text (String.ofList cs)), after)
    else if p.char = '"' then
      (doubleQuoted (rest.length + 1) rest).map fun (cs, after) =>
        (.scalar (.text (String.ofList cs)), after)
    else if startsPlain inFlow (p :: rest) then
      let (cs, after) := plain inFlow indent ps.length ps
      some (.scalar (resolve (String.ofList cs)), after)
    else none

end DocComment.Yaml
