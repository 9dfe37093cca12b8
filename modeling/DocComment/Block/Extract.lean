import DocComment.Block.Context

/-!
Finding the block comments of a source. A comment opens with a slash and a star, unless a
slash follows at once, and closes at the first star and slash after its opening. An opening
that is never closed opens nothing.
-/

namespace DocComment.Block

open Text

/-- A comment found in a source, with the number of characters and of newlines before it. -/
structure Span where
  start : Nat
  newlines : Nat
  raw : List Char
  after : List Char
  deriving DecidableEq, Repr

/-- Cuts after the first star and slash. -/
def closeComment : List Char → Option (List Char × List Char)
  | [] => none
  | '*' :: '/' :: rest => some (['*', '/'], rest)
  | c :: rest => (closeComment rest).map fun (front, back) => (c :: front, back)

/-- A comment at the front of a text, and what follows it. -/
def atFront : List Char → Option (List Char × List Char)
  | '/' :: '*' :: '/' :: _ => none
  | '/' :: '*' :: rest =>
    (closeComment rest).map fun (front, back) => ('/' :: '*' :: front, back)
  | _ => none

theorem closeComment_append {cs front back : List Char}
    (h : closeComment cs = some (front, back)) : front ++ back = cs := by
  fun_induction closeComment cs generalizing front with
  | case1 => simp at h
  | case2 rest => simp at h; simp [← h.1, ← h.2]
  | case3 c rest _ ih =>
    obtain ⟨⟨f, b⟩, hfb, he⟩ := Option.map_eq_some_iff.1 h
    simp only [Prod.mk.injEq] at he
    obtain ⟨rfl, rfl⟩ := he
    simp [ih hfb]

theorem atFront_append {cs raw after : List Char} (h : atFront cs = some (raw, after)) :
    raw ++ after = cs ∧ raw ≠ [] := by
  unfold atFront at h
  split at h
  · simp at h
  · obtain ⟨⟨f, b⟩, hfb, he⟩ := Option.map_eq_some_iff.1 h
    simp only [Prod.mk.injEq] at he
    obtain ⟨rfl, rfl⟩ := he
    simp [closeComment_append hfb]
  · simp at h

theorem atFront_length {cs raw after : List Char} (h : atFront cs = some (raw, after)) :
    after.length < cs.length := by
  obtain ⟨rfl, hne⟩ := atFront_append h
  have := List.length_pos_iff.2 hne
  simp only [List.length_append]
  omega

def newlinesIn (cs : List Char) : Nat := cs.countP isNewline

/-- The comments of a text that starts after so many characters and newlines. -/
def spansFrom (start newlines : Nat) (cs : List Char) : List Span :=
  match _h : atFront cs with
  | some (raw, after) =>
    ⟨start, newlines, raw, after⟩ ::
      spansFrom (start + raw.length) (newlines + newlinesIn raw) after
  | none =>
    match cs with
    | [] => []
    | c :: rest => spansFrom (start + 1) (newlines + newlinesIn [c]) rest
termination_by cs.length
decreasing_by
  · exact atFront_length (by assumption)
  · simp

def spans (source : List Char) : List Span := spansFrom 0 0 source

/-- The text between the delimiters, less one more star and then one exclamation mark. -/
def bodyOf (raw : List Char) : List Char :=
  let inner := (raw.drop 2).dropLast.dropLast
  let inner := match inner with
    | '*' :: rest => rest
    | other => other
  match inner with
  | '!' :: rest => rest
  | other => other

def Span.toBlock (span : Span) : Block :=
  let startLine := span.newlines + 1
  let endLine := startLine + newlinesIn span.raw
  { raw := String.ofList span.raw
    value := String.ofList (bodyOf span.raw)
    location := some {
      startLine
      endLine
      start := span.start
      finish := (span.start + span.raw.length : Nat) }
    code := CodeContext.ofText? endLine span.after }

/-- Every block comment of a source, in order. -/
def extract (source : String) : List Block := (spans source.toList).map Span.toBlock

end DocComment.Block
