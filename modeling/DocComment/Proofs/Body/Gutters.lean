import DocComment.Body.Draft
import DocComment.Proofs.Body.Line
import Mathlib.Data.List.Forall2

/-!
Lines in a block, each behind a gutter, and the same lines by themselves. The gutters come off
again, so what the block has more is one empty line before the others and one of a space after
them. Neither says anything, and only the raw text of the last example may have a trace of it.
-/

namespace DocComment

open Text

namespace Example

/-- The same example, with raw texts that end in different white space at most. -/
structure Alike (e e' : Example) : Prop where
  style : e'.style = e.style
  language : e'.language = e.language
  description : e'.description = e.description
  value : e'.value = e.value
  raw : trimEnd e'.raw.toList = trimEnd e.raw.toList

theorem Alike.refl (e : Example) : e.Alike e := ⟨rfl, rfl, rfl, rfl, rfl⟩

end Example

namespace Body

/-- The same body, up to the ends of the raw texts of examples. -/
structure Alike (b b' : Body) : Prop where
  description : b'.description = b.description
  footer : b'.footer = b.footer
  tags : b'.tags = b.tags
  examples : List.Forall₂ Example.Alike b.examples b'.examples

theorem alike_examples_refl (examples : List Example) :
    List.Forall₂ Example.Alike examples examples :=
  List.forall₂_same.mpr fun e _ => Example.Alike.refl e

theorem Alike.refl (b : Body) : b.Alike b := ⟨rfl, rfl, rfl, alike_examples_refl b.examples⟩

section

variable {pad : Line}

theorem isBlankLine_of_indent (h : pad.all isIndent = true) : isBlankLine pad = true :=
  List.all_eq_true.mpr fun c hc => isBlank_of_isIndent (List.all_eq_true.mp h c hc)

theorem trimStart_of_blank (h : isBlankLine pad = true) : trimStart pad = [] :=
  List.dropWhile_eq_nil_iff.mpr (List.all_eq_true.mp h)

theorem isPlain_of_blank (h : isBlankLine pad = true) : IsPlain pad := by
  constructor
  · rw [isTagLine, trimStart_of_blank h]
  · rw [exampleTitle?, trimStart_of_blank h]
    rfl
  · rw [fence?, trimStart_of_blank h]
    rfl

theorem closesFence_of_blank {fence : Fence} {line : Line} (hf : fence? line = some fence)
    (h : isBlankLine pad = true) : closesFence fence.marker pad = false := by
  obtain ⟨_, _, -, hlong⟩ := marker_of_fence? hf
  have hmarker : fence.marker ≠ [] :=
    List.ne_nil_of_length_pos (Nat.lt_of_lt_of_le (by decide) hlong)
  obtain ⟨c, marker, hc⟩ := List.exists_cons_of_ne_nil hmarker
  rw [closesFence, trimStart_of_blank h, hc]
  rfl

end

section

variable {d : Draft} {line : Line} {rest : List Line}

theorem draftFrom_cons_title {title : List Char} (hx : exampleTitle? line = some title) :
    draftFrom d (line :: rest) =
      draftFrom (Draft.addExample { d.closeTag with seenTags := true }
        (taggedExample title line (takeExample false [] rest))) (takeExample false [] rest).rest := by
  rw [draftFrom]
  simp only [hx]

theorem draftFrom_cons_fence {fence : Fence} (hx : exampleTitle? line = none)
    (hf : fence? line = some fence) :
    draftFrom d (line :: rest) =
      draftFrom (d.addExample (fencedExample fence line
        (rest.takeWhile fun l => !closesFence fence.marker l)
        (rest.dropWhile fun l => !closesFence fence.marker l)))
        ((rest.dropWhile fun l => !closesFence fence.marker l).drop 1) := by
  rw [draftFrom]
  simp only [hx, hf]

theorem draftFrom_cons_line (hx : exampleTitle? line = none) (hf : fence? line = none) :
    draftFrom d (line :: rest) = draftFrom (d.addLine line) rest := by
  rw [draftFrom]
  simp only [hx, hf]

end

namespace Draft

/-- The draft when its description has these lines before its own. -/
def describedBy (front : List Line) (d : Draft) : Draft :=
  { d with description := front ++ d.description }

variable (front : List Line) (d : Draft)

theorem closeTag_describedBy : (d.describedBy front).closeTag = d.closeTag.describedBy front := by
  rcases d with ⟨description, footer, tags, examples, current, seenTags, blankInTag⟩
  cases current with
  | none => rfl
  | some lines => rfl

theorem current_describedBy : (d.describedBy front).current = d.current := rfl

theorem blankInTag_describedBy : (d.describedBy front).blankInTag = d.blankInTag := rfl

theorem seenTags_describedBy : (d.describedBy front).seenTags = d.seenTags := rfl

theorem addLine_describedBy (line : Line) :
    (d.describedBy front).addLine line = (d.addLine line).describedBy front := by
  by_cases ht : isTagLine line = true
  · rw [addLine, addLine, if_pos ht, if_pos ht, openTag, closeTag_describedBy]
    rfl
  · rw [addLine, addLine, if_neg ht, if_neg ht, current_describedBy]
    cases d.current with
    | some lines =>
      dsimp only
      by_cases hb : isBlankLine line = true
      · rw [if_pos hb, if_pos hb]
        rfl
      · rw [if_neg hb, if_neg hb, blankInTag_describedBy, closeTag_describedBy]
        split
        · rfl
        · rfl
    | none =>
      dsimp only
      rw [seenTags_describedBy]
      split
      · rfl
      · simp [describedBy]

theorem closeTag_addExample (e : Example) : (d.addExample e).closeTag = d.closeTag.addExample e := by
  rcases d with ⟨description, footer, tags, examples, current, seenTags, blankInTag⟩
  cases current with
  | none => rfl
  | some lines => rfl

/-- Padding ends no tag, and in a block of text it is trimmed. -/
theorem toBody_closeTag_addLine {pad : Line} (h : pad.all isIndent = true) :
    (d.addLine pad).closeTag.toBody = d.closeTag.toBody := by
  have hblank := isBlankLine_of_indent h
  rcases d with ⟨description, footer, tags, examples, current, seenTags, blankInTag⟩
  unfold addLine
  rw [(isPlain_of_blank hblank).tag, if_neg (by decide)]
  cases current with
  | some lines =>
    dsimp only
    rw [if_pos hblank]
    rfl
  | none =>
    cases seenTags with
    | true => simp [closeTag, addFooter, toBody, textBlock_concat h]
    | false => simp [closeTag, toBody, textBlock_concat h]

variable {d} in
theorem alike_addExample {e e' : Example} (h : e.Alike e') :
    (d.addExample e).closeTag.toBody.Alike (d.addExample e').closeTag.toBody := by
  rw [closeTag_addExample, closeTag_addExample]
  refine ⟨rfl, rfl, rfl, ?_⟩
  exact List.rel_append (alike_examples_refl d.closeTag.examples)
    (List.Forall₂.cons h List.Forall₂.nil)

end Draft

/-- What the description begins with has no part in how the reader goes on. -/
theorem draftFrom_describedBy (front : List Line) (d : Draft) (lines : List Line) :
    draftFrom (d.describedBy front) lines = (draftFrom d lines).describedBy front := by
  fun_induction draftFrom d lines with
  | case1 d => rw [draftFrom, Draft.closeTag_describedBy]
  | case2 d line rest title hx tagged next ih =>
    rw [draftFrom_cons_title hx, Draft.closeTag_describedBy]
    exact ih
  | case3 d line rest hx fence hf code after ih =>
    rw [draftFrom_cons_fence hx hf]
    exact ih
  | case4 d line rest hx hf ih =>
    rw [draftFrom_cons_line hx hf, Draft.addLine_describedBy]
    exact ih

theorem ofLines_nil_cons (lines : List Line) : ofLines ([] :: lines) = ofLines lines := by
  have hfirst : draftFrom {} ([] :: lines) = draftFrom (Draft.describedBy [[]] {}) lines :=
    draftFrom_cons_line rfl rfl
  rw [ofLines, hfirst, draftFrom_describedBy, ofLines]
  simp [Draft.toBody, Draft.describedBy, textBlock_nil_cons]

theorem takeWhile_append_of_dropWhile {p : Line → Bool} {lines : List Line} (later : List Line)
    (h : lines.dropWhile p ≠ []) : (lines ++ later).takeWhile p = lines.takeWhile p := by
  rw [List.takeWhile_append, if_neg]
  intro hlength
  have hcut := congrArg List.length (List.takeWhile_append_dropWhile (p := p) (l := lines))
  rw [List.length_append, hlength] at hcut
  exact h (List.eq_nil_of_length_eq_zero (by omega))

/-- An example tag that takes every line takes one more line that is plain. -/
theorem takeExample_concat_of_taken {pad : Line} (hp : IsPlain pad) {inFence : Bool}
    {language : List Char} {lines : List Line} (h : (takeExample inFence language lines).rest = []) :
    takeExample inFence language (lines ++ [pad]) =
      { takeExample inFence language lines with
        code := (takeExample inFence language lines).code ++ [pad]
        taken := (takeExample inFence language lines).taken ++ [pad] } := by
  fun_induction takeExample inFence language lines with
  | case1 => simp [takeExample, hp.fence, hp.tag]
  | case2 inFence language line rest fence hf more ih =>
    rw [List.cons_append, takeExample, hf]
    dsimp only
    rw [ih h]
    rfl
  | case3 => cases h
  | case4 inFence language line rest hf ht more ih =>
    rw [List.cons_append, takeExample, hf]
    dsimp only
    rw [if_neg ht, ih h]
    rfl

/-- An example tag that stops at a tag stops there whatever comes after. -/
theorem takeExample_append_of_rest (later : List Line) {inFence : Bool} {language : List Char}
    {lines : List Line} (h : (takeExample inFence language lines).rest ≠ []) :
    takeExample inFence language (lines ++ later) =
      { takeExample inFence language lines with
        rest := (takeExample inFence language lines).rest ++ later } := by
  fun_induction takeExample inFence language lines with
  | case1 => exact absurd rfl h
  | case2 inFence language line rest fence hf more ih =>
    rw [List.cons_append, takeExample, hf]
    dsimp only
    rw [ih h]
  | case3 inFence language line rest hf ht =>
    rw [List.cons_append, takeExample, hf]
    dsimp only
    rw [if_pos ht]
  | case4 inFence language line rest hf ht more ih =>
    rw [List.cons_append, takeExample, hf]
    dsimp only
    rw [if_neg ht, ih h]

section

variable {pad : Line} (h : pad.all isIndent = true)

include h in
theorem trimEnd_joinLines_concat {lines : List Line} (hne : lines ≠ []) :
    trimEnd (joinLines (lines ++ [pad])) = trimEnd (joinLines lines) := by
  have hblank : ∀ c ∈ '\n' :: pad, isBlank c = true :=
    List.forall_mem_cons.mpr ⟨isBlank_newline, List.all_eq_true.mp (isBlankLine_of_indent h)⟩
  rw [joinLines_concat hne]
  exact trimEndBy_append_of_forall hblank _

include h in
theorem taggedExample_concat (title : List Char) (line : Line) (tagged : Tagged) :
    (taggedExample title line tagged).Alike (taggedExample title line
      { tagged with code := tagged.code ++ [pad], taken := tagged.taken ++ [pad] }) := by
  constructor
  case value => simp only [taggedExample, codeBlock_concat h]
  case raw =>
    simp only [taggedExample, ← List.cons_append]
    rw [trimEnd_joinLines_concat h (List.cons_ne_nil line tagged.taken)]
  all_goals rfl

include h in
theorem fencedExample_concat (fence : Fence) (line : Line) (code : List Line) :
    (fencedExample fence line code []).Alike (fencedExample fence line (code ++ [pad]) []) := by
  constructor
  case value => simp only [fencedExample, codeBlock_concat h]
  case raw =>
    simp only [fencedExample, String.toList_ofList, List.take_nil, List.append_nil,
      ← List.cons_append]
    exact trimEnd_joinLines_concat h (List.cons_ne_nil line code)
  all_goals rfl

include h in
/-- One line of padding more at the end. It goes to what is open there, and only fenced code
that is not closed keeps it. -/
theorem draftFrom_concat (d : Draft) (lines : List Line) :
    (draftFrom d lines).toBody.Alike (draftFrom d (lines ++ [pad])).toBody := by
  have hblank := isBlankLine_of_indent h
  have hplain := isPlain_of_blank hblank
  fun_induction draftFrom d lines with
  | case1 d =>
    rw [List.nil_append, draftFrom_cons_line hplain.title hplain.fence, draftFrom,
      Draft.toBody_closeTag_addLine d h]
    exact Alike.refl _
  | case2 d line rest title hx tagged next ih =>
    rw [List.cons_append, draftFrom_cons_title hx]
    by_cases hrest : tagged.rest = []
    · rw [takeExample_concat_of_taken hplain hrest]
      dsimp only
      rw [hrest, draftFrom, draftFrom]
      exact Draft.alike_addExample (taggedExample_concat h title line tagged)
    · rw [takeExample_append_of_rest [pad] hrest]
      exact ih
  | case3 d line rest hx fence hf code after ih =>
    rw [List.cons_append, draftFrom_cons_fence hx hf]
    have hcode : code ++ after = rest := List.takeWhile_append_dropWhile
    by_cases hafter : after = []
    · have hall := List.dropWhile_eq_nil_iff.mp hafter
      have hopen := closesFence_of_blank hf hblank
      rw [hafter, List.append_nil] at hcode
      rw [List.takeWhile_append_of_pos hall, List.dropWhile_append_of_pos hall]
      simp only [List.takeWhile_cons, List.dropWhile_cons, hopen, Bool.not_false, if_true,
        List.takeWhile_nil, List.dropWhile_nil, List.drop_nil, hafter, hcode]
      rw [draftFrom, draftFrom]
      exact Draft.alike_addExample (fencedExample_concat h fence line rest)
    · obtain ⟨last, more, hlast⟩ := List.exists_cons_of_ne_nil hafter
      rw [takeWhile_append_of_dropWhile [pad] hafter, List.dropWhile_append,
        if_neg (mt List.isEmpty_iff.mp hafter)]
      change (draftFrom (d.addExample (fencedExample fence line code after)) _).toBody.Alike
        (draftFrom (d.addExample (fencedExample fence line code (after ++ [pad])))
          ((after ++ [pad]).drop 1)).toBody
      rw [hlast] at ih ⊢
      exact ih
  | case4 d line rest hx hf ih =>
    rw [List.cons_append, draftFrom_cons_line hx hf]
    exact ih

end

theorem ofLines_concat {pad : Line} (h : pad.all isIndent = true) (lines : List Line) :
    (ofLines lines).Alike (ofLines (lines ++ [pad])) := by
  rw [ofLines, ofLines]
  exact draftFrom_concat h {} lines

/-- One gutter, as it is written in front of a line. -/
def gutter : Line := " * ".toList

theorem stripGutter_gutter (line : Line) : stripGutter (gutter ++ line) = line := rfl

/-- The lines of a block, from the end of its first line to the blank before its end. -/
def blockLines (lines : List Line) : List Line := [] :: (lines.map (gutter ++ ·) ++ [[' ']])

theorem hasGutters_blockLines {lines : List Line} (hne : lines ≠ []) :
    hasGutters (blockLines lines) = true := by
  obtain ⟨first, rest, rfl⟩ := List.exists_cons_of_ne_nil hne
  have hstar (line : Line) : startsWithStar (gutter ++ line) = true := rfl
  have hsaid (line : Line) : isBlankLine (gutter ++ line) = false := rfl
  have hpad : isBlankLine [' '] = true := by decide
  simp [hasGutters, blockLines, hstar, hsaid, hpad, List.filter_append, List.filter_map,
    Function.comp_def]

theorem withoutGutters_blockLines {lines : List Line} (hne : lines ≠ []) :
    withoutGutters none (blockLines lines) = [] :: (lines ++ [[' ']]) := by
  have hnil : stripGutter [] = [] := rfl
  have hpad : stripGutter [' '] = [' '] := rfl
  rw [withoutGutters, Option.getD_none, hasGutters_blockLines hne, if_pos rfl]
  simp [blockLines, hnil, hpad, stripGutter_gutter, Function.comp_def]

/-- The lines as a block has them between its delimiters. -/
def block (lines : List String) : String :=
  "\n" ++ "\n".intercalate (lines.map (" * " ++ ·)) ++ "\n "

theorem toList_block {lines : List String} (hne : lines ≠ []) :
    (block lines).toList = joinLines (blockLines (lines.map (·.toList))) := by
  have hlines : (lines.map (·.toList)).map (gutter ++ ·) ≠ [] := by simpa using hne
  obtain ⟨first, rest, hfirst⟩ := List.exists_cons_of_ne_nil hlines
  have hmap : (lines.map (" * " ++ ·)).map String.toList =
      (lines.map (·.toList)).map (gutter ++ ·) := by
    simp [Function.comp_def, gutter]
  rw [blockLines, ← List.cons_append, joinLines_concat (List.cons_ne_nil _ _), hfirst,
    joinLines_cons_cons, ← hfirst, ← hmap]
  simp [block, joinLines]

theorem newline_notMem_of_mem_blockLines {lines : List Line} (hn : ∀ line ∈ lines, '\n' ∉ line) :
    ∀ line ∈ blockLines lines, '\n' ∉ line := by
  rw [blockLines, List.forall_mem_cons, List.forall_mem_append, List.forall_mem_map,
    List.forall_mem_singleton]
  refine ⟨List.not_mem_nil, fun line hl hm => ?_, by decide⟩
  rcases List.mem_append.mp hm with hm | hm
  · exact absurd hm (by decide)
  · exact hn line hl hm

theorem splitLines_block {lines : List String} (hne : lines ≠ [])
    (hn : ∀ line ∈ lines, '\n' ∉ line.toList) :
    splitLines (block lines).toList = blockLines (lines.map (·.toList)) := by
  rw [toList_block hne]
  exact splitLines_joinLines (List.cons_ne_nil _ _)
    (newline_notMem_of_mem_blockLines (List.forall_mem_map.mpr hn))

/-- Lines with gutters in front of them, which a body is seen to have, say what the lines say
when none are looked for. -/
theorem ofText_block {lines : List String} (hne : lines ≠ [])
    (hn : ∀ line ∈ lines, '\n' ∉ line.toList) :
    (ofText (some false) ("\n".intercalate lines)).Alike (ofText none (block lines)) := by
  have hlines : lines.map (·.toList) ≠ [] := by simpa using hne
  have hsplit : splitLines ("\n".intercalate lines).toList = lines.map (·.toList) := by
    rw [String.toList_intercalate]
    exact splitLines_joinLines hlines (List.forall_mem_map.mpr hn)
  have hplain : ofText (some false) ("\n".intercalate lines) =
      ofLines (lines.map (·.toList)) := by
    rw [ofText, hsplit, withoutGutters, Option.getD_some, if_neg (by decide)]
  rw [hplain, ofText, splitLines_block hne hn, withoutGutters_blockLines hlines, ofLines_nil_cons]
  exact ofLines_concat (by decide) _

/-- Lines that look like gutters themselves, and fenced code that is never closed. -/
theorem ofText_block_unclosed :
    let lines := ["* one", "", "@param two", " \x60\x60\x60js", "  * three"]
    (ofText (some false) ("\n".intercalate lines)).Alike (ofText none (block lines)) :=
  ofText_block (by decide) (by decide)

end Body

end DocComment
