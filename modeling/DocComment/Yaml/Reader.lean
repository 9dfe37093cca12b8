import DocComment.Yaml.Scalar

/-!
Reading a document. Blocks nest by column: the entries of a mapping or list all start in its
own column, and what belongs to an entry stands further right, except that a list may stand
in the column of the key it belongs to. Flows in brackets may span lines freely. A file
holds one document at most.
-/

namespace DocComment.Yaml

abbrev Step := Option (Yaml × List Placed)

def isPlainKey : Yaml → Bool
  | .scalar _ => true
  | _ => false

def headChar (ps : List Placed) : Option Char := ps.head?.map (·.char)

mutual

def flow : Nat → List Placed → Step
  | 0, _ => none
  | bound + 1, ps =>
    match ps with
    | [] => none
    | p :: rest =>
      if atAnyMarker (p :: rest) then none
      else if p.char = '[' then flowItems bound (skip rest)
      else if p.char = '\x7b' then flowEntries bound (skip rest)
      else scalarAt true 0 (p :: rest)

def flowItems : Nat → List Placed → Step
  | 0, _ => none
  | bound + 1, ps =>
    if headChar ps = some ']' then some (.list [], ps.drop 1)
    else do
      let (item, rest) ← flowEntry bound ps
      let item := match item with
        | (key, none) => key
        | (key, some value) => .mapping [(key, value)]
      let rest := skip rest
      if headChar rest = some ',' then
        match ← flowItems bound (skip (rest.drop 1)) with
        | (.list items, rest) => return (.list (item :: items), rest)
        | _ => none
      else if headChar rest = some ']' then return (.list [item], rest.drop 1)
      else none

def flowEntries : Nat → List Placed → Step
  | 0, _ => none
  | bound + 1, ps =>
    if headChar ps = some '\x7d' then some (.mapping [], ps.drop 1)
    else do
      let ((key, value), rest) ← flowEntry bound ps
      if !isPlainKey key then none
      let entry := (key, value.getD null)
      let rest := skip rest
      if headChar rest = some ',' then
        match ← flowEntries bound (skip (rest.drop 1)) with
        | (.mapping entries, rest) => return (.mapping (entry :: entries), rest)
        | _ => none
      else if headChar rest = some '\x7d' then return (.mapping [entry], rest.drop 1)
      else none

/-- A node, with the value after its colon if there is one. -/
def flowEntry : Nat → List Placed → Option ((Yaml × Option Yaml) × List Placed)
  | 0, _ => none
  | bound + 1, ps => do
    let (key, rest) ← if headChar ps = some ':' then some (null, ps) else flow bound ps
    let rest := skip rest
    if headChar rest = some ':' then
      let after := skip (rest.drop 1)
      match headChar after with
      | some ',' | some ']' | some '\x7d' => return ((key, some null), after)
      | _ =>
        let (value, rest) ← flow bound after
        return ((key, some value), rest)
    else return ((key, none), rest)

end

/-- A key on one line, and what follows its colon. -/
def key? (indent : Nat) (ps : List Placed) : Option (Yaml × List Placed) :=
  match ps with
  | [] => none
  | p :: rest =>
    if p.char = ':' && atSpace rest then some (null, rest)
    else
      match scalarAt false indent (ps.takeWhile (fun q => q.line == p.line)) with
      | none => none
      | some (key, left) =>
        match skipSpaces left with
        | [] => none
        | q :: left =>
          let after := ps.dropWhile (fun r => r.line == p.line)
          if q.char = ':' && atSpace left then some (key, left ++ after) else none

def atItem : List Placed → Bool
  | [] => false
  | p :: rest => p.char == '-' && atSpace rest

def sameLine (a b : List Placed) : Bool :=
  match a.head?, b.head? with
  | some p, some q => p.line == q.line
  | _, _ => false

/-- Whether nothing of this document is left. -/
def atEnd (ps : List Placed) : Bool := ps.isEmpty || atAnyMarker ps

mutual

/-- A node whose later lines stand at `indent` or further right. Only where `mayNest` holds may
a mapping or list start. -/
def block : Nat → Nat → Bool → List Placed → Step
  | 0, _, _, _ => none
  | bound + 1, indent, mayNest, ps =>
    match ps with
    | [] => none
    | p :: rest =>
      if atItem (p :: rest) then
        if mayNest then blockItems bound p.column false (p :: rest) else none
      else if mayNest && (key? indent (p :: rest)).isSome then
        blockEntries bound p.column (p :: rest)
      else do
        let (node, rest) ←
          if p.char = '[' || p.char = '\x7b' then flow bound (p :: rest)
          else scalarAt false indent (p :: rest)
        return (node, ← finishLine rest)

/-- The items of a list. One in the column of its key ends where the next key starts. -/
def blockItems : Nat → Nat → Bool → List Placed → Step
  | 0, _, _, _ => none
  | bound + 1, column, underKey, ps => do
    let after := skip (ps.drop 1)
    let (item, rest) ←
      match after.head? with
      | none => some (null, after)
      | some p =>
        if atEnd after then some (null, after)
        else if sameLine ps after || column < p.column then block bound (column + 1) true after
        else some (null, after)
    match rest.head? with
    | none => return (.list [item], rest)
    | some p =>
      if atEnd rest || p.column < column then return (.list [item], rest)
      else if p.column == column && atItem rest then
        match ← blockItems bound column underKey rest with
        | (.list items, rest) => return (.list (item :: items), rest)
        | _ => none
      else if p.column == column && underKey then return (.list [item], rest)
      else none

def blockEntries : Nat → Nat → List Placed → Step
  | 0, _, _ => none
  | bound + 1, column, ps => do
    let (key, rest) ← key? (column + 1) ps
    let after := skip rest
    let (value, rest) ←
      match after.head? with
      | none => some (null, after)
      | some p =>
        if sameLine ps after then block bound (column + 1) false after
        else if atEnd after then some (null, after)
        else if column < p.column then block bound (column + 1) true after
        else if p.column == column && atItem after then blockItems bound column true after
        else some (null, after)
    match rest.head? with
    | none => return (.mapping [(key, value)], rest)
    | some p =>
      if atEnd rest || p.column < column then return (.mapping [(key, value)], rest)
      else if p.column == column then
        match ← blockEntries bound column rest with
        | (.mapping entries, rest) => return (.mapping ((key, value) :: entries), rest)
        | _ => none
      else none

end

/-- Nothing but end markers and comments. -/
def onlyEnds : Nat → List Placed → Bool
  | 0, _ => false
  | bound + 1, ps =>
    match ps with
    | [] => true
    | ps => atMarker '.' ps && onlyEnds bound (skip (ps.drop 3))

def content (bound : Nat) (mayNest : Bool) (ps : List Placed) : Option Yaml := do
  let (node, rest) ← if atEnd ps then some (null, ps) else block bound 0 mayNest ps
  if onlyEnds bound rest then return node else none

/-- The document of a file. An empty file holds null. -/
def read (text : String) : Option Yaml :=
  let cs := unifyNewlines text.toList
  if !cs.all isAllowed then none
  else
    let ps := skip (place (if cs.head? = some '\uFEFF' then cs.drop 1 else cs))
    let bound := 2 * ps.length + 2
    if ps.isEmpty then some null
    else if atMarker '.' ps then none
    else if atMarker '-' ps then
      let after := skip (ps.drop 3)
      content bound (!sameLine ps after) after
    else content bound true ps

end DocComment.Yaml
