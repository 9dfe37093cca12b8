import DocComment.Text.Blank
import DocComment.Text.Closing
import DocComment.Text.Word

/-!
Inline references, a tag and a value in braces inside running text. A reference reaches to the
brace that closes it by depth; an opening that is never closed is plain text, and what
follows it is scanned again. Rendering replaces a reference by what a reader should see.
-/

namespace DocComment

open Text

structure InlineReference where
  raw : String
  tag : String
  value : String
  deriving DecidableEq, Repr, Inhabited

namespace InlineReference

/-- Tags whose value is a target, with a label after it. -/
def linkTags : List String := ["link", "linkcode", "linkplain"]

def orElse (preferred fallback : List Char) : List Char :=
  if preferred.isEmpty then fallback else preferred

/-- The label of a link, after a bar or else after the first space, or its target if there
is no label. Other references show their whole value. -/
def render (r : InlineReference) : String :=
  if !linkTags.contains r.tag then r.value
  else
    let value := r.value.toList
    let upTo (mark : Char) := value.takeWhile (· != mark)
    let beyond (mark : Char) := trim ((value.dropWhile (· != mark)).drop 1)
    if value.contains '|' then String.ofList (orElse (beyond '|') (trim (upTo '|')))
    else String.ofList (orElse (beyond ' ') (upTo ' '))

end InlineReference

namespace Inline

inductive Piece
  | text (chars : List Char)
  | reference (ref : InlineReference)
  deriving DecidableEq, Repr

def isTagChar (c : Char) : Bool := isWord c || c == '-'

/-- The reference of a closed opening: its extent, its tag, and the text between them. -/
def referenceOf (extent tag : List Char) : InlineReference where
  raw := String.ofList extent
  tag := String.ofList tag
  value := String.ofList (trim (extent.drop (2 + tag.length)).dropLast)

/-- Cuts a text into references and what stands between them. -/
def pieces (cs : List Char) : List Piece :=
  match cs with
  | [] => []
  | '\x7b' :: '@' :: c :: rest =>
    if c.isAlpha then
      let tag := c :: rest.takeWhile isTagChar
      match braceClosing ('\x7b' :: '@' :: c :: rest) with
      | none => .text ('\x7b' :: '@' :: tag) :: pieces (rest.dropWhile isTagChar)
      | some last =>
        .reference (referenceOf (('\x7b' :: '@' :: c :: rest).take (last + 1)) tag) ::
          pieces (('\x7b' :: '@' :: c :: rest).drop (last + 1))
    else .text ['\x7b'] :: pieces ('@' :: c :: rest)
  | c :: rest => .text [c] :: pieces rest
termination_by cs.length
decreasing_by
  · have := (List.dropWhile_sublist (l := rest) isTagChar).length_le
    simp only [List.length_cons]
    omega
  · simp only [List.length_drop, List.length_cons]
    omega
  · simp
  · simp

def Piece.reference? : Piece → Option InlineReference
  | .text _ => none
  | .reference r => some r

/-- A piece as text, with references rendered if `strip` is set. -/
def Piece.shown (strip : Bool) : Piece → List Char
  | .text chars => chars
  | .reference r => if strip then r.render.toList else r.raw.toList

def references (text : String) : List InlineReference :=
  (pieces text.toList).filterMap Piece.reference?

def shown (strip : Bool) (text : String) : String :=
  String.ofList ((pieces text.toList).flatMap (Piece.shown strip))

/-- The text, stripped of its references if asked, and the references in order. -/
def parse (strip : Bool) (text : String) : String × List InlineReference :=
  (shown strip text, references text)

end Inline

end DocComment
