import DocComment.Body.Draft
import DocComment.Proofs.Body.Line
import DocComment.Proofs.Tag.Split

/-!
Nothing of a body is lost and nothing of it is kept twice. Every line that says something goes
to exactly one part, and each part has its lines in the order of the text. The draft accounts
for the lines read so far, those of the tag still open included, and every step of the reader
keeps it so.
-/

namespace DocComment.Body

open Text

section

variable {ι α : Type} [DecidableEq ι]

/-- The parts make up the whole, each in its own order: every element of the whole has been
placed in one part, and what was placed in a part is that part. -/
def Interleaving (parts : ι → List α) (whole : List α) : Prop :=
  ∃ placed : List (ι × α), placed.map Prod.snd = whole ∧
    ∀ i, (placed.filter fun x => x.1 = i).map Prod.snd = parts i

theorem Interleaving.nil : Interleaving (fun _ : ι => ([] : List α)) [] :=
  ⟨[], rfl, fun _ => rfl⟩

/-- What is read next goes to one part and leaves the others as they are. -/
theorem Interleaving.append {parts parts' : ι → List α} {whole : List α}
    (h : Interleaving parts whole) (i : ι) (next : List α) (hi : parts' i = parts i ++ next)
    (hother : ∀ j, j ≠ i → parts' j = parts j) : Interleaving parts' (whole ++ next) := by
  obtain ⟨placed, rfl, hparts⟩ := h
  refine ⟨placed ++ next.map (i, ·), ?_, ?_⟩
  · simp [Function.comp_def]
  · intro j
    rw [List.filter_append, List.map_append, hparts]
    by_cases hj : j = i
    · subst hj
      simp [hi, List.filter_map, Function.comp_def]
    · have hij : ¬ i = j := fun h => hj h.symm
      simp [hother j hj, List.filter_map, Function.comp_def, hij]

end

/-- The parts a line can go to. -/
inductive Place
  | description
  | footer
  | tag
  | sample
  deriving DecidableEq

/-- What the parts of a body say. Tags come one after the other, and so do examples. -/
def part (b : Body) : Place → List Line
  | .description => textLines b.description.toList
  | .footer => textLines b.footer.toList
  | .tag => b.tags.flatMap fun t => textLines t.toList
  | .sample => b.examples.flatMap fun e => textLines e.raw.toList

namespace Draft

/-- What the parts of a draft say. The tag still open comes last among the tags. -/
def part (d : Draft) : Place → List Line
  | .description => kept d.description
  | .footer => kept d.footer
  | .tag => (d.tags.flatMap fun t => textLines t.toList) ++ kept (d.current.getD [])
  | .sample => d.examples.flatMap fun e => textLines e.raw.toList

/-- The draft holds what was read, and its parts are fit to become those of a body. -/
structure Accounts (d : Draft) (read : List Line) : Prop where
  description : ∀ line ∈ d.description, '\n' ∉ line
  footer : ∀ line ∈ d.footer, '\n' ∉ line
  tags : ∀ t ∈ d.tags, TagText t.toList
  current : ∀ lines, d.current = some lines → TagLines lines
  interleaved : Interleaving d.part (kept read)

theorem accounts_start : Accounts {} [] where
  description := by simp
  footer := by simp
  tags := by simp
  current := by simp
  interleaved := by
    have hpart : ({} : Draft).part = fun _ => [] := by
      funext place
      cases place <;> rfl
    rw [hpart]
    exact Interleaving.nil

@[simp]
theorem current_closeTag (d : Draft) : d.closeTag.current = none := by
  unfold closeTag
  split
  · next h => exact h
  · rfl

namespace Accounts

variable {d : Draft} {read : List Line} {line : Line}

theorem interleaved_congr {d' : Draft} (h : d.Accounts read)
    (hp : ∀ place, d'.part place = d.part place) : Interleaving d'.part (kept read) := by
  rw [funext hp]
  exact h.interleaved

/-- The draft a line or an example is added to differs in one part. -/
theorem interleaved_append {d' : Draft} {lines : List Line} (h : d.Accounts read) (place : Place)
    (hp : d'.part place = d.part place ++ kept lines)
    (hother : ∀ p, p ≠ place → d'.part p = d.part p) :
    Interleaving d'.part (kept (read ++ lines)) := by
  rw [kept_append]
  exact h.interleaved.append place _ hp hother

/-- Closing a tag moves its lines among the tags, where they say the same. -/
theorem closeTag (h : d.Accounts read) : d.closeTag.Accounts read := by
  unfold Draft.closeTag
  split
  · refine ⟨h.description, h.footer, h.tags, h.current, h.interleaved_congr ?_⟩
    intro place
    cases place <;> rfl
  · next lines hc =>
    have hlines := h.current lines hc
    have hsaid : textLines (trim (joinLines lines)) = kept lines := by
      rw [textLines_trim, textLines_joinLines hlines.single]
    refine ⟨h.description, h.footer, ?_, by simp, h.interleaved_congr ?_⟩
    · rw [List.forall_mem_append, List.forall_mem_singleton, String.toList_ofList]
      exact ⟨h.tags, hlines.tagText⟩
    · intro place
      cases place with
      | tag => simp [part, hc, hsaid]
      | description | footer | sample => rfl

theorem openTag (h : d.Accounts read) (ht : isTagLine line = true) (hn : '\n' ∉ line) :
    (d.openTag line).Accounts (read ++ [line]) := by
  have hclosed := h.closeTag
  refine ⟨hclosed.description, hclosed.footer, hclosed.tags, ?_, ?_⟩
  · intro lines hl
    cases hl
    exact TagLines.opening ht hn
  · refine hclosed.interleaved_append .tag ?_ ?_
    · simp [part, Draft.openTag, kept_trim]
    · intro place hp
      cases place with
      | tag => exact absurd rfl hp
      | description | footer | sample => rfl

theorem addFooter (h : d.Accounts read) (hn : '\n' ∉ line) :
    (d.addFooter line).Accounts (read ++ [line]) := by
  refine ⟨h.description, ?_, h.tags, h.current, ?_⟩
  · exact List.forall_mem_append.mpr ⟨h.footer, List.forall_mem_singleton.mpr hn⟩
  · refine h.interleaved_append .footer (kept_append _ _) ?_
    intro place hp
    cases place with
    | footer => exact absurd rfl hp
    | description | tag | sample => rfl

theorem addDescription (h : d.Accounts read) (hn : '\n' ∉ line) :
    Accounts { d with description := d.description ++ [line] } (read ++ [line]) := by
  refine ⟨?_, h.footer, h.tags, h.current, ?_⟩
  · exact List.forall_mem_append.mpr ⟨h.description, List.forall_mem_singleton.mpr hn⟩
  · refine h.interleaved_append .description (kept_append _ _) ?_
    intro place hp
    cases place with
    | description => exact absurd rfl hp
    | footer | tag | sample => rfl

/-- A blank line says nothing, so it may go unnoticed. -/
theorem addBlank (h : d.Accounts read) (hb : isBlankLine line = true) :
    Accounts { d with blankInTag := true } (read ++ [line]) := by
  have hsaid : kept [line] = [] := kept_of_forall_blank (List.all_eq_true.mp hb)
  refine ⟨h.description, h.footer, h.tags, h.current, ?_⟩
  refine h.interleaved_append .description ?_ ?_
  · rw [hsaid, List.append_nil]
    rfl
  · intro place _
    cases place <;> rfl

theorem continueTag {lines : List Line} (h : d.Accounts read) (hc : d.current = some lines)
    (hp : IsPlain line) (hb : isBlankLine line = false) (hn : '\n' ∉ line) :
    Accounts { d with current := some (lines ++ [trim line]) } (read ++ [line]) := by
  have hlines := h.current lines hc
  refine ⟨h.description, h.footer, h.tags, ?_, ?_⟩
  · intro lines' hl
    cases hl
    exact hlines.concat hp hb hn
  · refine h.interleaved_append .tag ?_ ?_
    · simp [part, hc, kept_trim]
    · intro place hp
      cases place with
      | tag => exact absurd rfl hp
      | description | footer | sample => rfl

theorem addLine (h : d.Accounts read) (hn : '\n' ∉ line) (hx : exampleTitle? line = none)
    (hf : fence? line = none) : (d.addLine line).Accounts (read ++ [line]) := by
  unfold Draft.addLine
  split
  · next ht => exact h.openTag ht hn
  · next ht =>
    have hplain : IsPlain line := ⟨Bool.eq_false_iff.mpr ht, hx, hf⟩
    split
    · next lines hc =>
      split
      · next hb => exact h.addBlank hb
      · next hb =>
        split
        · exact h.closeTag.addFooter hn
        · exact h.continueTag hc hplain (Bool.eq_false_iff.mpr hb) hn
    · split
      · exact h.addFooter hn
      · exact h.addDescription hn

theorem seeTags (h : d.Accounts read) : Accounts { d with seenTags := true } read := by
  refine ⟨h.description, h.footer, h.tags, h.current, h.interleaved_congr ?_⟩
  intro place
  cases place <;> rfl

theorem addExample (h : d.Accounts read) (e : Example) {lines : List Line}
    (he : textLines e.raw.toList = kept lines) :
    (d.addExample e).Accounts (read ++ lines) := by
  refine ⟨h.description, h.footer, h.tags, h.current, ?_⟩
  refine h.interleaved_append .sample ?_ ?_
  · simp [part, Draft.addExample, he]
  · intro place hp
    cases place with
    | sample => exact absurd rfl hp
    | description | footer | tag => rfl

end Accounts

end Draft

theorem textLines_fencedExample (fence : Fence) {opening : Line} {code rest : List Line}
    (hn : ∀ line ∈ opening :: code ++ rest.take 1, '\n' ∉ line) :
    textLines (fencedExample fence opening code rest).raw.toList =
      kept (opening :: code ++ rest.take 1) := by
  rw [fencedExample, String.toList_ofList, textLines_joinLines hn]

theorem textLines_taggedExample (title : List Char) {opening : Line} {tagged : Tagged}
    (hn : ∀ line ∈ opening :: tagged.taken, '\n' ∉ line) :
    textLines (taggedExample title opening tagged).raw.toList =
      kept (opening :: tagged.taken) := by
  rw [taggedExample, String.toList_ofList, textLines_trimEnd, textLines_joinLines hn]

/-- The reader goes on from any draft that accounts for what was read, and the draft it ends
with accounts for the rest as well. -/
theorem draftFrom_accounts (d : Draft) (lines : List Line) {read : List Line}
    (h : d.Accounts read) (hn : ∀ line ∈ lines, '\n' ∉ line) :
    (draftFrom d lines).Accounts (read ++ lines) := by
  fun_induction draftFrom d lines generalizing read with
  | case1 d =>
    rw [List.append_nil]
    exact h.closeTag
  | case2 d line rest title hx tagged next =>
    rename_i ih
    have hcut : line :: rest = (line :: tagged.taken) ++ tagged.rest := by
      rw [List.cons_append, takeExample_append]
    rw [hcut, List.forall_mem_append] at hn
    obtain ⟨htaken, hrest⟩ := hn
    -- The tag before the example is closed first; only then the example is added.
    have hnext : next.Accounts read := h.closeTag.seeTags
    have hstep := hnext.addExample _ (textLines_taggedExample title htaken)
    rw [hcut, ← List.append_assoc]
    exact ih hstep hrest
  | case3 d line rest hx fence hf code after =>
    rename_i ih
    have hcut : line :: rest = (line :: code ++ after.take 1) ++ after.drop 1 := by
      rw [List.append_assoc, List.take_append_drop, List.cons_append,
        List.takeWhile_append_dropWhile]
    rw [hcut, List.forall_mem_append] at hn
    obtain ⟨htaken, hrest⟩ := hn
    -- A tag that is open stays open across fenced code.
    have hstep := h.addExample _ (textLines_fencedExample fence htaken)
    rw [hcut, ← List.append_assoc]
    exact ih hstep hrest
  | case4 d line rest hx hf ih =>
    obtain ⟨hline, hrest⟩ := List.forall_mem_cons.mp hn
    have hstep := h.addLine hline hx hf
    rw [List.append_cons]
    exact ih hstep hrest

/-- Every tag is closed once all lines are read, so the body says what the draft says. -/
theorem part_toBody {d : Draft} {read : List Line} (h : d.Accounts read)
    (hc : d.current = none) : d.toBody.part = d.part := by
  funext place
  cases place with
  | description => simp [part, Draft.part, Draft.toBody, textLines_textBlock h.description]
  | footer => simp [part, Draft.part, Draft.toBody, textLines_textBlock h.footer]
  | tag => simp [part, Draft.part, Draft.toBody, hc]
  | sample => rfl

theorem current_draftFrom (d : Draft) (lines : List Line) :
    (draftFrom d lines).current = none := by
  fun_induction draftFrom d lines with
  | case1 d => exact d.current_closeTag
  | case2 => assumption
  | case3 => assumption
  | case4 => assumption

theorem newline_notMem_withoutGutters (strip : Option Bool) {lines : List Line}
    (h : ∀ line ∈ lines, '\n' ∉ line) : ∀ line ∈ withoutGutters strip lines, '\n' ∉ line := by
  unfold withoutGutters
  split
  · rw [List.forall_mem_map]
    intro line hm hn
    exact h line hm ((stripGutter_suffix line).subset hn)
  · exact h

/-- What a body says is what its text says, line by line. Every tag is fit to be split, and
splitting one never misses the title. -/
theorem ofText_conserves (strip : Option Bool) (text : String) :
    Interleaving (ofText strip text).part
        (kept (withoutGutters strip (splitLines text.toList))) ∧
      ∀ t ∈ (ofText strip text).tags,
        TagText t.toList ∧ ∀ raw, Tag.split t ≠ .fail (.tagSyntax ⟨.missingTitle, raw⟩) := by
  have hn : ∀ line ∈ withoutGutters strip (splitLines text.toList), '\n' ∉ line :=
    newline_notMem_withoutGutters strip fun _ => newline_notMem_of_mem_splitLines
  have haccounts := draftFrom_accounts {} _ Draft.accounts_start hn
  rw [List.nil_append] at haccounts
  constructor
  · rw [ofText, ofLines, part_toBody haccounts (current_draftFrom _ _)]
    exact haccounts.interleaved
  · intro t ht
    have htext := haccounts.tags t ht
    obtain ⟨c, rest, hc, hletter⟩ := htext.opens
    exact ⟨htext, Tag.split_ne_missingTitle hc hletter⟩

/-- Fenced code does not end a tag, and a blank line does. -/
example :
    let body := ofText none "@param a\n~~~\ncode\n~~~\n  b\n\nend"
    body.tags = ["@param a\nb"] ∧ body.footer = "end" := by
  decide +kernel

end DocComment.Body
