import DocComment.Proofs.Body.Conservation
import DocComment.Proofs.Body.Gutters
import DocComment.Proofs.Text.Margin

/-!
Bodies of lines that end with carriage returns. A line opens with one what it opens without it,
so both bodies are cut in the same places. Tags are trimmed line by line and come out the same,
while text and code are dedented first, with the carriage returns in place.
-/

namespace DocComment

open Text

namespace Example

/-- The same example read from lines with carriage returns. Its code says the same, and may be
indented in another way. -/
structure Counterpart (e e' : Example) : Prop where
  style : e'.style = e.style
  language : e'.language = e.language
  description : e'.description = e.description
  value : textLines e'.value.toList = textLines e.value.toList
  raw : withoutReturns e'.raw.toList = e.raw.toList

end Example

namespace Body

/-! ### Lines by what they begin with -/

theorem isPrefixOf?_mark_of_ne {mark : Char} {cs : List Char} (h : ∀ rest, cs ≠ mark :: rest) :
    [mark].isPrefixOf? cs = none := by
  cases cs with
  | nil => rfl
  | cons c rest =>
    have hc : (mark == c) = false := beq_eq_false_iff_ne.mpr fun hc => h rest (by rw [hc])
    rw [List.isPrefixOf?, hc]
    rfl

section

variable (line : Line)

theorem startsWithStar_eq :
    startsWithStar line = (['*'].isPrefixOf? (trimStart line)).isSome := by
  unfold startsWithStar
  split
  · next heq =>
    rw [heq]
    rfl
  · next hne =>
    rw [isPrefixOf?_mark_of_ne hne]
    rfl

theorem stripGutter_eq :
    stripGutter line = ((['*'].isPrefixOf? (trimStart line)).map (withoutMark ' ')).getD line := by
  unfold stripGutter
  split
  · next heq =>
    rw [heq]
    rfl
  · next hne heq =>
    rw [heq]
    exact (withoutMark_of_ne hne).symm
  · next hne =>
    rw [isPrefixOf?_mark_of_ne hne]
    rfl

theorem isTagLine_eq :
    isTagLine line =
      (['@'].isPrefixOf? (trimStart line)).any fun rest => rest.head?.any Char.isAlpha := by
  unfold isTagLine
  split
  · next heq =>
    rw [heq]
    rfl
  · next hne =>
    refine (Bool.eq_false_iff.mpr ?_).symm
    rw [ne_eq, Option.any_eq_true]
    rintro ⟨rest, hrest, hletter⟩
    cases rest with
    | nil => cases hletter
    | cons c rest => exact hne c rest (isPrefixOf?_append hrest).symm

theorem exampleTitle?_eq :
    exampleTitle? line = ("@example".toList.isPrefixOf? (trimStart line)).bind fun rest =>
      if rest.head?.any isWord then none else some (rest.dropWhile isSpaceOrTab) := by
  unfold exampleTitle?
  split
  · next heq =>
    rw [heq]
    rfl
  · next heq =>
    rw [heq]
    split
    · rfl
    · rfl

end

section

variable {line line' : Line} (h : Returned line line')

include h

theorem isBlankLine_returned : isBlankLine line' = isBlankLine line := h.all_eq isBlank_return

theorem startsWithStar_returned : startsWithStar line' = startsWithStar line := by
  rw [startsWithStar_eq, startsWithStar_eq]
  exact rel_isSome (h.trimStart.isPrefixOf? (by decide))

theorem stripGutter_returned : Returned (stripGutter line) (stripGutter line') := by
  rw [stripGutter_eq, stripGutter_eq]
  rcases rel_cases (h.trimStart.isPrefixOf? (by decide : '\r' ∉ ['*'])) with
    ⟨hn, hn'⟩ | ⟨rest, rest', hs, hs', hrest⟩
  · rw [hn, hn']
    exact h
  · rw [hs, hs']
    exact hrest.withoutMark (by decide)

theorem isTagLine_returned : isTagLine line' = isTagLine line := by
  rw [isTagLine_eq, isTagLine_eq]
  rcases rel_cases (h.trimStart.isPrefixOf? (by decide : '\r' ∉ ['@'])) with
    ⟨hn, hn'⟩ | ⟨rest, rest', hs, hs', hrest⟩
  · rw [hn, hn']
  · rw [hs, hs']
    exact hrest.head?_any (by decide)

theorem exampleTitle?_returned :
    Option.Rel Returned (exampleTitle? line) (exampleTitle? line') := by
  rw [exampleTitle?_eq, exampleTitle?_eq]
  rcases rel_cases (h.trimStart.isPrefixOf? (by decide : '\r' ∉ "@example".toList)) with
    ⟨hn, hn'⟩ | ⟨rest, rest', hs, hs', hrest⟩
  · rw [hn, hn']
    exact .none
  · rw [hs, hs', Option.bind_some, Option.bind_some,
      hrest.head?_any (isWord_of_isBlank isBlank_return)]
    split
    · exact .none
    · exact .some (hrest.dropWhile isSpaceOrTab)

theorem fence?_returned : fence? line' = fence? line := by
  have hfence {mark : Char} (hm : mark ≠ '\r') :
      fenceOf? mark (trimStart line') = fenceOf? mark (trimStart line) := by
    have hmarker := h.trimStart.takeWhile_eq (p := (· == mark)) (beq_eq_false_iff_ne.mpr hm.symm)
    have hlanguage := (h.trimStart.dropWhile (· == mark)).trimStart.takeWhile_eq
      (by rw [isLanguageChar, isWord_of_isBlank isBlank_return]; rfl : isLanguageChar '\r' = false)
    unfold fenceOf?
    dsimp only
    rw [hmarker, hlanguage]
  rw [fence?, fence?, hfence (by decide), hfence (by decide)]

theorem closesFence_returned {fence : Fence} {opening : Line} (hf : fence? opening = some fence) :
    closesFence fence.marker line' = closesFence fence.marker line := by
  obtain ⟨mark, hm, -, hmarks⟩ := mem_marker hf
  have hother : '\r' ∉ fence.marker := by
    intro hr
    rw [← hmarks _ hr] at hm
    exact absurd hm (by decide)
  rw [closesFence, closesFence, h.trimStart.isPrefixOf_eq hother]

end

/-! ### Bodies cut in the same places -/

section

variable {lines lines' : List Line} (h : List.Forall₂ Returned lines lines')

include h

theorem hasGutters_returned : hasGutters lines' = hasGutters lines := by
  have hrest : List.Forall₂ Returned (lines.drop 1) (lines'.drop 1) := List.forall₂_drop 1 h
  have hblank (line line' : Line) (hline : Returned line line') :
      (!isBlankLine line) = true ↔ (!isBlankLine line') = true := by
    rw [isBlankLine_returned hline]
  have hsaid := List.rel_filter (R := Returned) hblank hrest
  unfold hasGutters
  dsimp only
  generalize (lines.drop 1).filter (fun line => !isBlankLine line) = said at hsaid
  generalize (lines'.drop 1).filter (fun line => !isBlankLine line) = said' at hsaid
  have hstars : said'.all startsWithStar = said.all startsWithStar := by
    induction hsaid with
    | nil => rfl
    | cons hline _ ih => rw [List.all_cons, List.all_cons, startsWithStar_returned hline, ih]
  rw [hstars]
  cases hsaid with
  | nil => rfl
  | cons => rfl

theorem withoutGutters_returned (strip : Option Bool) :
    List.Forall₂ Returned (withoutGutters strip lines) (withoutGutters strip lines') := by
  unfold withoutGutters
  rw [hasGutters_returned h]
  split
  · rw [List.forall₂_map_left_iff, List.forall₂_map_right_iff]
    exact h.imp fun _ _ => stripGutter_returned
  · exact h

/-- Fenced code ends with the same line. -/
theorem spanCode_returned {fence : Fence} {opening : Line} (hf : fence? opening = some fence) :
    List.Forall₂ Returned (lines.takeWhile fun l => !closesFence fence.marker l)
        (lines'.takeWhile fun l => !closesFence fence.marker l) ∧
      List.Forall₂ Returned (lines.dropWhile fun l => !closesFence fence.marker l)
        (lines'.dropWhile fun l => !closesFence fence.marker l) := by
  induction h with
  | nil => exact ⟨.nil, .nil⟩
  | @cons line line' lines lines' hline hlines ih =>
    simp only [List.takeWhile_cons, List.dropWhile_cons, closesFence_returned hline hf]
    split
    · exact ⟨.cons hline ih.1, ih.2⟩
    · exact ⟨.nil, .cons hline hlines⟩

end

/-- The same lines taken for an example tag. -/
structure Tagged.Counterpart (t t' : Tagged) : Prop where
  language : t'.language = t.language
  code : List.Forall₂ Returned t.code t'.code
  taken : List.Forall₂ Returned t.taken t'.taken
  rest : List.Forall₂ Returned t.rest t'.rest

theorem takeExample_counterpart {lines lines' : List Line} (h : List.Forall₂ Returned lines lines')
    (inFence : Bool) (language : List Char) :
    (takeExample inFence language lines).Counterpart (takeExample inFence language lines') := by
  induction h generalizing inFence language with
  | nil => exact ⟨rfl, .nil, .nil, .nil⟩
  | @cons line line' lines lines' hline hlines ih =>
    unfold takeExample
    rw [fence?_returned hline, isTagLine_returned hline]
    split
    · next fence _ =>
      have hmore := ih (!inFence)
        (if !inFence && language.isEmpty then fence.language else language)
      exact ⟨hmore.language, hmore.code, .cons hline hmore.taken, hmore.rest⟩
    · split
      · exact ⟨rfl, .nil, .nil, .cons hline hlines⟩
      · have hmore := ih inFence language
        exact ⟨hmore.language, .cons hline hmore.code, .cons hline hmore.taken, hmore.rest⟩

theorem takeExample_code_subset (inFence : Bool) (language : List Char) (lines : List Line) :
    (takeExample inFence language lines).code ⊆ lines := by
  fun_induction takeExample inFence language lines with
  | case1 => exact List.Subset.refl _
  | case2 =>
    rename_i ih
    exact List.Subset.trans ih (List.subset_cons_self _ _)
  | case3 => exact List.nil_subset _
  | case4 =>
    rename_i ih
    exact List.cons_subset_cons _ ih

section

variable {code code' : List Line} (hc : List.Forall₂ Returned code code')
  (hn : ∀ line ∈ code, '\n' ∉ line)

include hc hn in
theorem textLines_codeBlock_returned :
    textLines (codeBlock code') = textLines (codeBlock code) := by
  rw [textLines_codeBlock hn, textLines_codeBlock (newline_notMem_returned hc hn),
    kept_returned hc]

include hc hn in
theorem fencedExample_counterpart {line line' : Line} (hl : Returned line line') (fence : Fence)
    {rest rest' : List Line} (hr : List.Forall₂ Returned rest rest') :
    (fencedExample fence line code rest).Counterpart (fencedExample fence line' code' rest') := by
  refine ⟨rfl, rfl, rfl, ?_, ?_⟩
  · simp only [fencedExample, String.toList_ofList]
    exact textLines_codeBlock_returned hc hn
  · simp only [fencedExample, String.toList_ofList]
    exact withoutReturns_joinLines (List.rel_append (.cons hl hc) (List.forall₂_take 1 hr))

end

theorem taggedExample_counterpart {line line' : Line} (hl : Returned line line')
    {title title' : List Char} (ht : Returned title title') {tagged tagged' : Tagged}
    (h : tagged.Counterpart tagged') (hn : ∀ line ∈ tagged.code, '\n' ∉ line) :
    (taggedExample title line tagged).Counterpart (taggedExample title' line' tagged') := by
  refine ⟨rfl, ?_, ?_, ?_, ?_⟩
  · rw [taggedExample, taggedExample, h.language]
  · rw [taggedExample, taggedExample, ht.trim_eq]
  · simp only [taggedExample, String.toList_ofList]
    exact textLines_codeBlock_returned h.code hn
  · simp only [taggedExample, String.toList_ofList]
    rw [withoutReturns_trimEnd, withoutReturns_joinLines (.cons hl h.taken)]

namespace Draft

/-- The same draft, made of lines with carriage returns. -/
inductive Counterpart : Draft → Draft → Prop
  | intro {description description' footer footer' : List Line} {examples examples' : List Example}
    {tags : List String} {current : Option (List Line)} {seenTags blankInTag : Bool}
    (hdescription : List.Forall₂ Returned description description')
    (hfooter : List.Forall₂ Returned footer footer')
    (hexamples : List.Forall₂ Example.Counterpart examples examples') :
    Counterpart ⟨description, footer, tags, examples, current, seenTags, blankInTag⟩
      ⟨description', footer', tags, examples', current, seenTags, blankInTag⟩

namespace Counterpart

variable {d d' : Draft} (h : d.Counterpart d')

include h

theorem description : List.Forall₂ Returned d.description d'.description := by
  obtain ⟨hd, -, -⟩ := h
  exact hd

theorem footer : List.Forall₂ Returned d.footer d'.footer := by
  obtain ⟨-, hf, -⟩ := h
  exact hf

theorem examples : List.Forall₂ Example.Counterpart d.examples d'.examples := by
  obtain ⟨-, -, he⟩ := h
  exact he

theorem tags : d'.tags = d.tags := by
  obtain ⟨-, -, -⟩ := h
  rfl

theorem closeTag : d.closeTag.Counterpart d'.closeTag := by
  obtain @⟨_, _, _, _, _, _, _, current, _, _, hd, hf, he⟩ := h
  cases current with
  | none => exact ⟨hd, hf, he⟩
  | some lines => exact ⟨hd, hf, he⟩

theorem seeTags : Counterpart { d with seenTags := true } { d' with seenTags := true } := by
  obtain ⟨hd, hf, he⟩ := h
  exact ⟨hd, hf, he⟩

theorem addExample {e e' : Example} (hx : e.Counterpart e') :
    (d.addExample e).Counterpart (d'.addExample e') := by
  obtain ⟨hd, hf, he⟩ := h
  exact ⟨hd, hf, List.rel_append he (.cons hx .nil)⟩

theorem openTag {line line' : Line} (hl : Returned line line') :
    (d.openTag line).Counterpart (d'.openTag line') := by
  have hclosed := h.closeTag
  rw [Draft.openTag, Draft.openTag, hl.trim_eq]
  generalize d.closeTag = closed at hclosed ⊢
  generalize d'.closeTag = closed' at hclosed ⊢
  obtain ⟨hd, hf, he⟩ := hclosed
  exact ⟨hd, hf, he⟩

theorem addFooter {line line' : Line} (hl : Returned line line') :
    (d.addFooter line).Counterpart (d'.addFooter line') := by
  obtain ⟨hd, hf, he⟩ := h
  exact ⟨hd, List.rel_append hf (.cons hl .nil), he⟩

theorem addLine {line line' : Line} (hl : Returned line line') :
    (d.addLine line).Counterpart (d'.addLine line') := by
  have htag := h.openTag hl
  have hfooter := h.addFooter hl
  have hclosed := h.closeTag.addFooter hl
  obtain @⟨_, _, _, _, _, _, _, current, _, _, hd, hf, he⟩ := h
  unfold Draft.addLine
  rw [isTagLine_returned hl, isBlankLine_returned hl, hl.trim_eq]
  split
  · exact htag
  · cases current with
    | some lines =>
      dsimp only
      split
      · exact ⟨hd, hf, he⟩
      · split
        · exact hclosed
        · exact ⟨hd, hf, he⟩
    | none =>
      dsimp only
      split
      · exact hfooter
      · exact ⟨List.rel_append hd (.cons hl .nil), hf, he⟩

end Counterpart

end Draft

/-- The reader takes the same steps over both texts. -/
theorem draftFrom_counterpart (d : Draft) (lines : List Line) :
    ∀ (d' : Draft) (lines' : List Line), d.Counterpart d' → List.Forall₂ Returned lines lines' →
      (∀ line ∈ lines, '\n' ∉ line) → (draftFrom d lines).Counterpart (draftFrom d' lines') := by
  fun_induction draftFrom d lines with
  | case1 d =>
    rintro d' _ hd ⟨⟩ -
    rw [draftFrom]
    exact hd.closeTag
  | case2 d line rest title hx tagged next =>
    rename_i ih
    rintro d' _ hd (_ | ⟨hline, hrest⟩) hn
    obtain ⟨-, hn⟩ := List.forall_mem_cons.mp hn
    have hcut := takeExample_append false [] rest
    rcases rel_cases (exampleTitle?_returned hline) with ⟨hn, -⟩ | ⟨_, title', hs, hs', htitle⟩
    · rw [hx] at hn
      cases hn
    · obtain rfl := Option.some.inj (hx.symm.trans hs)
      rw [draftFrom_cons_title hs']
      have htagged := takeExample_counterpart hrest false []
      refine ih _ _ ?_ htagged.rest fun line hm => hn line ?_
      · exact hd.closeTag.seeTags.addExample (taggedExample_counterpart hline htitle htagged
          fun line hm => hn line (takeExample_code_subset false [] rest hm))
      · rw [← hcut]
        exact List.mem_append_right _ hm
  | case3 d line rest hx fence hf code after =>
    rename_i ih
    rintro d' _ hd (_ | ⟨hline, hrest⟩) hn
    obtain ⟨-, hn⟩ := List.forall_mem_cons.mp hn
    obtain ⟨hcode, hafter⟩ := spanCode_returned hrest hf
    have hx' := eq_none_of_rel (hx ▸ exampleTitle?_returned hline)
    rw [draftFrom_cons_fence hx' ((fence?_returned hline).trans hf)]
    refine ih _ _ ?_ (List.forall₂_drop 1 hafter) fun line hm => hn line ?_
    · exact hd.addExample (fencedExample_counterpart hcode
        (fun line hm => hn line ((List.takeWhile_sublist _).subset hm)) hline fence hafter)
    · exact (List.dropWhile_sublist _).subset (List.mem_of_mem_drop hm)
  | case4 d line rest hx hf ih =>
    rintro d' _ hd (_ | ⟨hline, hrest⟩) hn
    obtain ⟨-, hn⟩ := List.forall_mem_cons.mp hn
    have hx' := eq_none_of_rel (hx ▸ exampleTitle?_returned hline)
    rw [draftFrom_cons_line hx' ((fence?_returned hline).trans hf)]
    exact ih _ _ (hd.addLine hline) hrest hn

/-! ### Code of the examples -/

/-- The lines of code of every example, in the order of the examples. -/
def codes (lines : List Line) : List (List Line) :=
  match lines with
  | [] => []
  | line :: rest =>
    match exampleTitle? line with
    | some _ =>
      let tagged := takeExample false [] rest
      tagged.code :: codes tagged.rest
    | none =>
      match fence? line with
      | some fence =>
        let code := rest.takeWhile fun l => !closesFence fence.marker l
        let after := rest.dropWhile fun l => !closesFence fence.marker l
        code :: codes (after.drop 1)
      | none => codes rest
termination_by lines.length
decreasing_by
  · have := takeExample_rest_length false [] rest
    simp only [List.length_cons]
    omega
  · have := (List.dropWhile_sublist (l := rest) (fun l => !closesFence fence.marker l)).length_le
    simp only [List.length_cons, List.length_drop]
    omega
  · simp

section

variable {line : Line} {rest : List Line}

theorem codes_cons_title {title : List Char} (hx : exampleTitle? line = some title) :
    codes (line :: rest) =
      (takeExample false [] rest).code :: codes (takeExample false [] rest).rest := by
  rw [codes]
  simp only [hx]

theorem codes_cons_fence {fence : Fence} (hx : exampleTitle? line = none)
    (hf : fence? line = some fence) :
    codes (line :: rest) = (rest.takeWhile fun l => !closesFence fence.marker l) ::
      codes ((rest.dropWhile fun l => !closesFence fence.marker l).drop 1) := by
  rw [codes]
  simp only [hx, hf]

theorem codes_cons_line (hx : exampleTitle? line = none) (hf : fence? line = none) :
    codes (line :: rest) = codes rest := by
  rw [codes]
  simp only [hx, hf]

end

theorem Draft.examples_closeTag (d : Draft) : d.closeTag.examples = d.examples := by
  unfold closeTag
  split
  · rfl
  · rfl

theorem Draft.examples_addLine (d : Draft) (line : Line) :
    (d.addLine line).examples = d.examples := by
  unfold addLine
  split
  · exact d.examples_closeTag
  · split
    · split
      · rfl
      · split
        · exact d.examples_closeTag
        · rfl
    · split
      · rfl
      · rfl

/-- The values of the examples are blocks of this code. -/
theorem values_draftFrom (d : Draft) (lines : List Line) :
    (draftFrom d lines).examples.map Example.value =
      d.examples.map Example.value ++
        (codes lines).map fun code => String.ofList (codeBlock code) := by
  fun_induction draftFrom d lines with
  | case1 d => rw [d.examples_closeTag, codes, List.map_nil, List.append_nil]
  | case2 d line rest title hx tagged next =>
    rename_i ih
    have hadd : (next.addExample (taggedExample title line tagged)).examples =
        d.examples ++ [taggedExample title line tagged] :=
      congrArg (· ++ _) d.examples_closeTag
    rw [codes_cons_title hx, ih, hadd, List.map_append, List.append_assoc]
    rfl
  | case3 d line rest hx fence hf code after =>
    rename_i ih
    rw [codes_cons_fence hx hf, ih, Draft.addExample, List.map_append, List.append_assoc]
    rfl
  | case4 d line rest hx hf ih => rw [codes_cons_line hx hf, ih, d.examples_addLine]

theorem codes_returned (lines : List Line) : ∀ lines', List.Forall₂ Returned lines lines' →
    List.Forall₂ (List.Forall₂ Returned) (codes lines) (codes lines') := by
  fun_induction codes lines with
  | case1 =>
    rintro _ ⟨⟩
    rw [codes]
    exact .nil
  | case2 line rest title hx tagged =>
    rename_i ih
    rintro _ (_ | ⟨hline, hrest⟩)
    rcases rel_cases (exampleTitle?_returned hline) with ⟨hn, -⟩ | ⟨_, title', hs, hs', htitle⟩
    · rw [hx] at hn
      cases hn
    · have htagged := takeExample_counterpart hrest false []
      rw [codes_cons_title hs']
      exact .cons htagged.code (ih _ htagged.rest)
  | case3 line rest hx fence hf code after =>
    rename_i ih
    rintro _ (_ | ⟨hline, hrest⟩)
    obtain ⟨hcode, hafter⟩ := spanCode_returned hrest hf
    have hx' := eq_none_of_rel (hx ▸ exampleTitle?_returned hline)
    rw [codes_cons_fence hx' ((fence?_returned hline).trans hf)]
    exact .cons hcode (ih _ (List.forall₂_drop 1 hafter))
  | case4 line rest hx hf ih =>
    rintro _ (_ | ⟨hline, hrest⟩)
    have hx' := eq_none_of_rel (hx ▸ exampleTitle?_returned hline)
    rw [codes_cons_line hx' ((fence?_returned hline).trans hf)]
    exact ih _ hrest

/-! ### Bodies -/

/-- The lines of a body, less their gutters. -/
def linesOf (strip : Option Bool) (text : String) : List Line :=
  withoutGutters strip (splitLines text.toList)

theorem ofText_eq (strip : Option Bool) (text : String) :
    ofText strip text = (draftFrom {} (linesOf strip text)).toBody := rfl

theorem linesOf_accounts (strip : Option Bool) (text : String) :
    (draftFrom {} (linesOf strip text)).Accounts (linesOf strip text) :=
  draftFrom_accounts {} _ Draft.accounts_start
    (newline_notMem_withoutGutters strip fun _ => newline_notMem_of_mem_splitLines)

/-- Lines whose carriage returns do no harm, neither in the text of a body nor in its code. -/
structure SteadyLines (lines : List Line) : Prop where
  description : SteadyText (draftFrom {} lines).description
  footer : SteadyText (draftFrom {} lines).footer
  codes : ∀ code ∈ codes lines, SteadyCode code

theorem steadyLines_iff {lines : List Line} :
    SteadyLines lines ↔ SteadyText (draftFrom {} lines).description ∧
      SteadyText (draftFrom {} lines).footer ∧ ∀ code ∈ codes lines, SteadyCode code :=
  ⟨fun h => ⟨h.description, h.footer, h.codes⟩, fun h => ⟨h.1, h.2.1, h.2.2⟩⟩

instance (lines : List Line) : Decidable (SteadyLines lines) :=
  decidable_of_iff' _ steadyLines_iff

/-- The same body read from lines with carriage returns. Its text and code say the same, and may
be indented in another way. -/
structure Counterpart (b b' : Body) : Prop where
  description : textLines b'.description.toList = textLines b.description.toList
  footer : textLines b'.footer.toList = textLines b.footer.toList
  tags : b'.tags = b.tags
  examples : List.Forall₂ Example.Counterpart b.examples b'.examples

section

variable {text text' : String} (h : Returns text.toList text'.toList) (strip : Option Bool)

include h

theorem linesOf_returned : List.Forall₂ Returned (linesOf strip text) (linesOf strip text') :=
  withoutGutters_returned h.splitLines strip

theorem draft_counterpart :
    (draftFrom {} (linesOf strip text)).Counterpart (draftFrom {} (linesOf strip text')) :=
  draftFrom_counterpart {} _ {} _ ⟨.nil, .nil, .nil⟩ (linesOf_returned h strip)
    (newline_notMem_withoutGutters strip fun _ => newline_notMem_of_mem_splitLines)

theorem ofText_counterpart : (ofText strip text).Counterpart (ofText strip text') := by
  have hdraft := draft_counterpart h strip
  have hplain := linesOf_accounts strip text
  have hreturns := linesOf_accounts strip text'
  rw [ofText_eq, ofText_eq]
  refine ⟨?_, ?_, hdraft.tags, hdraft.examples⟩
  · simp only [Draft.toBody, String.toList_ofList]
    rw [textLines_textBlock hreturns.description, textLines_textBlock hplain.description]
    exact kept_returned hdraft.description
  · simp only [Draft.toBody, String.toList_ofList]
    rw [textLines_textBlock hreturns.footer, textLines_textBlock hplain.footer]
    exact kept_returned hdraft.footer

variable (hs : SteadyLines (linesOf strip text'))

include hs

theorem description_steady :
    Returns (ofText strip text).description.toList (ofText strip text').description.toList := by
  rw [ofText_eq, ofText_eq]
  simp only [Draft.toBody, String.toList_ofList]
  exact textBlock_returned (draft_counterpart h strip).description
    (linesOf_accounts strip text).description hs.description

theorem footer_steady :
    Returns (ofText strip text).footer.toList (ofText strip text').footer.toList := by
  rw [ofText_eq, ofText_eq]
  simp only [Draft.toBody, String.toList_ofList]
  exact textBlock_returned (draft_counterpart h strip).footer
    (linesOf_accounts strip text).footer hs.footer

theorem values_steady :
    (ofText strip text').examples.map (fun e => withoutReturns e.value.toList) =
      (ofText strip text).examples.map (fun e => e.value.toList) := by
  have hvalues (text : String) (f : String → List Char) :
      (ofText strip text).examples.map (fun e => f e.value) =
        (codes (linesOf strip text)).map fun code => f (String.ofList (codeBlock code)) := by
    have hmap := congrArg (List.map f) (values_draftFrom {} (linesOf strip text))
    rw [ofText_eq]
    simpa [Function.comp_def, Draft.toBody] using hmap
  have hcodes := codes_returned _ _ (linesOf_returned h strip)
  rw [hvalues text' fun value => withoutReturns value.toList,
    hvalues text fun value => value.toList]
  simp only [String.toList_ofList]
  have hsteady := hs.codes
  generalize codes (linesOf strip text) = plain at hcodes ⊢
  generalize codes (linesOf strip text') = returned at hcodes hsteady ⊢
  induction hcodes with
  | nil => rfl
  | cons hcode _ ih =>
    obtain ⟨hfirst, hrest⟩ := List.forall_mem_cons.mp hsteady
    rw [List.map_cons, List.map_cons, withoutReturns_codeBlock hcode hfirst, ih hrest]

end

end Body

end DocComment
