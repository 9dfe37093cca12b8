import DocComment.Body.Basic
import DocComment.Body.Line

/-!
Cutting a comment body line by line. Text before the first tag describes, and text after a
tag continues it until a blank line; what then stands before the next tag is the footer.
Fenced code is an example wherever it stands and does not end a tag, while an example tag
takes every line up to the next tag outside its fences.
-/

namespace DocComment.Body

open Text

structure Draft where
  description : List Line := []
  footer : List Line := []
  tags : List String := []
  examples : List Example := []
  current : Option (List Line) := none
  seenTags : Bool := false
  blankInTag : Bool := false
  deriving DecidableEq, Repr

namespace Draft

def closeTag (d : Draft) : Draft :=
  match d.current with
  | none => { d with blankInTag := false }
  | some lines =>
    { d with
      tags := d.tags ++ [String.ofList (trim (joinLines lines))]
      current := none
      blankInTag := false }

def openTag (d : Draft) (line : Line) : Draft :=
  { d.closeTag with current := some [trim line], seenTags := true }

def addFooter (d : Draft) (line : Line) : Draft := { d with footer := d.footer ++ [line] }

def addExample (d : Draft) (e : Example) : Draft := { d with examples := d.examples ++ [e] }

/-- A line that opens neither an example nor fenced code. -/
def addLine (d : Draft) (line : Line) : Draft :=
  if isTagLine line then d.openTag line
  else match d.current with
    | some lines =>
      if isBlankLine line then { d with blankInTag := true }
      else if d.blankInTag then d.closeTag.addFooter line
      else { d with current := some (lines ++ [trim line]) }
    | none =>
      if d.seenTags then d.addFooter line
      else { d with description := d.description ++ [line] }

end Draft

def fencedExample (fence : Fence) (opening : Line) (code rest : List Line) : Example where
  style := .fenced
  language := String.ofList fence.language
  value := String.ofList (codeBlock code)
  raw := String.ofList (joinLines (opening :: code ++ rest.take 1))

/-- The lines that belong to an example tag. Fence lines are taken but are not code. -/
structure Tagged where
  language : List Char
  code : List Line
  taken : List Line
  rest : List Line
  deriving DecidableEq, Repr

def takeExample (inFence : Bool) (language : List Char) : List Line → Tagged
  | [] => ⟨language, [], [], []⟩
  | line :: rest =>
    match fence? line with
    | some fence =>
      let more := takeExample (!inFence)
        (if !inFence && language.isEmpty then fence.language else language) rest
      { more with taken := line :: more.taken }
    | none =>
      if !inFence && isTagLine line then ⟨language, [], [], line :: rest⟩
      else
        let more := takeExample inFence language rest
        { more with code := line :: more.code, taken := line :: more.taken }

def taggedExample (title : List Char) (opening : Line) (tagged : Tagged) : Example where
  style := .tagged
  language := String.ofList tagged.language
  description := String.ofList (trim title)
  value := String.ofList (codeBlock tagged.code)
  raw := String.ofList (trimEnd (joinLines (opening :: tagged.taken)))

theorem takeExample_append (inFence : Bool) (language : List Char) (lines : List Line) :
    (takeExample inFence language lines).taken ++ (takeExample inFence language lines).rest =
      lines := by
  induction lines generalizing inFence language with
  | nil => rfl
  | cons line rest ih =>
    unfold takeExample
    split
    · simp [ih]
    · split
      · rfl
      · simp [ih]

theorem takeExample_rest_length (inFence : Bool) (language : List Char) (lines : List Line) :
    (takeExample inFence language lines).rest.length ≤ lines.length := by
  have h := congrArg List.length (takeExample_append inFence language lines)
  simp only [List.length_append] at h
  omega

def draftFrom (d : Draft) (lines : List Line) : Draft :=
  match lines with
  | [] => d.closeTag
  | line :: rest =>
    match exampleTitle? line with
    | some title =>
      let tagged := takeExample false [] rest
      let d := { d.closeTag with seenTags := true }
      draftFrom (d.addExample (taggedExample title line tagged)) tagged.rest
    | none =>
      match fence? line with
      | some fence =>
        let code := rest.takeWhile (fun l => !closesFence fence.marker l)
        let after := rest.dropWhile (fun l => !closesFence fence.marker l)
        draftFrom (d.addExample (fencedExample fence line code after)) (after.drop 1)
      | none => draftFrom (d.addLine line) rest
termination_by lines.length
decreasing_by
  · have := takeExample_rest_length false [] rest
    simp only [List.length_cons]
    omega
  · have := (List.dropWhile_sublist (l := rest) (fun l => !closesFence fence.marker l)).length_le
    simp only [List.length_cons, List.length_drop]
    omega
  · simp

def Draft.toBody (d : Draft) : Body where
  description := String.ofList (textBlock d.description)
  footer := String.ofList (textBlock d.footer)
  tags := d.tags
  examples := d.examples

/-- The parts of a body whose lines have no gutters left. -/
def ofLines (lines : List Line) : Body := (draftFrom {} lines).toBody

/-- Gutters come off if asked for, and if nothing is asked, when the body has them. -/
def withoutGutters (strip : Option Bool) (lines : List Line) : List Line :=
  if strip.getD (hasGutters lines) then lines.map stripGutter else lines

def ofText (strip : Option Bool) (text : String) : Body :=
  ofLines (withoutGutters strip (splitLines text.toList))

end DocComment.Body
