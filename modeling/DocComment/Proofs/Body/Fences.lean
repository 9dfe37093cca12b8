import DocComment.Proofs.Body.Returns

/-!
Fenced code by itself and in an example tag. By itself it ends at a line that starts with its
marker, while an example tag takes any line that opens a fence for the end of the one before. So
both read the same code exactly if no line of the code opens a fence of its own.
-/

namespace DocComment.Body

open Text

section

variable {line : Line} {fence : Fence}

theorem of_mem_marks {mark : Char} (h : mark ∈ ['\x60', '~']) :
    mark ≠ '@' ∧ mark ≠ '\n' ∧ isBlank mark = false := by
  rcases List.mem_pair.mp h with rfl | rfl
  · exact ⟨by decide, by decide, by decide⟩
  · exact ⟨by decide, by decide, by decide⟩

theorem exampleTitle?_of_fence? (h : fence? line = some fence) : exampleTitle? line = none := by
  obtain ⟨mark, hmark, hmarker, hlong⟩ := marker_of_fence? h
  refine Option.not_isSome_iff_eq_none.mp fun htitle => ?_
  obtain ⟨rest, hrest, -⟩ := exampleTitle?_isSome_iff.mp htitle
  rw [hmarker, hrest] at hlong
  have hnone : ("@example".toList ++ rest).takeWhile (· == mark) = [] := by
    change List.takeWhile (· == mark) ('@' :: ("example".toList ++ rest)) = []
    exact List.takeWhile_cons_of_neg fun hat => (of_mem_marks hmark).1 (eq_of_beq hat).symm
  rw [hnone] at hlong
  cases hlong

theorem not_blank_of_fence? (h : fence? line = some fence) : isBlankLine line = false := by
  refine Bool.eq_false_iff.mpr fun hblank => ?_
  rw [(isPlain_of_blank hblank).fence] at h
  cases h

theorem newline_notMem_marker (h : fence? line = some fence) : '\n' ∉ fence.marker := by
  obtain ⟨mark, hmark, -, hmarks⟩ := mem_marker h
  exact fun hm => (of_mem_marks hmark).2.1 (hmarks _ hm).symm

theorem trimStart_marker (h : fence? line = some fence) :
    trimStart fence.marker = fence.marker := by
  obtain ⟨mark, hmark, -, hmarks⟩ := mem_marker h
  refine dropWhile_eq_self_of_head fun c hc => ?_
  rw [hmarks c (List.mem_of_mem_head? hc)]
  exact (of_mem_marks hmark).2.2

theorem closesFence_marker (h : fence? line = some fence) :
    closesFence fence.marker fence.marker = true := by
  rw [closesFence, trimStart_marker h]
  exact List.isPrefixOf_iff_prefix.mpr List.prefix_rfl

/-- A line of the marker alone opens fenced code just as well. -/
theorem fence?_marker (h : fence? line = some fence) : (fence? fence.marker).isSome = true := by
  obtain ⟨mark, hmark, hlong, hmarks⟩ := mem_marker h
  refine fence?_isSome_iff.mpr ⟨mark, hmark, ?_⟩
  rw [trimStart_marker h, List.takeWhile_eq_self_iff.mpr fun c hc => by simp [hmarks c hc]]
  exact hlong

end

/-! ### Lines of an example tag -/

theorem exampleTitle?_example : exampleTitle? "@example".toList = some [] := by decide

/-- Inside a fence an example tag takes everything for code, up to the next line that opens one. -/
theorem takeExample_inside {content : List Line} (hplain : ∀ line ∈ content, fence? line = none)
    {closing : Line} (hclosing : (fence? closing).isSome = true) (language : List Char)
    (rest : List Line) :
    takeExample true language (content ++ closing :: rest) =
      { takeExample false language rest with
        code := content ++ (takeExample false language rest).code
        taken := content ++ closing :: (takeExample false language rest).taken } := by
  induction content with
  | nil =>
    obtain ⟨fence, hf⟩ := Option.isSome_iff_exists.mp hclosing
    rw [List.nil_append, takeExample, hf]
    rfl
  | cons line content ih =>
    obtain ⟨hline, hcontent⟩ := List.forall_mem_cons.mp hplain
    rw [List.cons_append, takeExample, hline]
    dsimp only
    rw [Bool.not_true, Bool.false_and, if_neg (by decide), ih hcontent]
    rfl

/-- No line that opens a fence is code of an example tag. -/
theorem takeExample_code_sublist (inFence : Bool) (language : List Char) (lines : List Line) :
    (takeExample inFence language lines).code.Sublist
      (lines.filter fun line => !(fence? line).isSome) := by
  fun_induction takeExample inFence language lines with
  | case1 => exact List.Sublist.refl _
  | case2 inFence language line rest fence hf more ih =>
    rw [List.filter_cons_of_neg (by simp [hf])]
    exact ih
  | case3 => exact List.nil_sublist _
  | case4 inFence language line rest hf ht more ih =>
    rw [List.filter_cons_of_pos (by simp [hf])]
    exact ih.cons_cons line

theorem length_kept (lines : List Line) :
    (kept lines).length = (lines.filter fun line => !isBlankLine line).length := by
  have hsaid (line : Line) : (!(trim line).isEmpty) = !isBlankLine line := by
    rw [Bool.eq_iff_iff]
    simp [trim_eq_nil_iff, isBlankLine]
  rw [kept, List.filter_map, List.length_map]
  exact congrArg List.length (List.filter_congr fun line _ => hsaid line)

/-- Lines with some of them left out say the same only if those say nothing. -/
theorem pass_of_kept_eq {p : Line → Bool} {lines less : List Line}
    (hsub : less.Sublist (lines.filter p)) (hkept : kept less = kept lines) :
    ∀ line ∈ lines, isBlankLine line = false → p line = true := by
  intro line hl hsaid
  have hlength := congrArg List.length hkept
  rw [length_kept, length_kept] at hlength
  have hless := (hsub.filter fun line => !isBlankLine line).length_le
  have hmore : ((lines.filter p).filter fun line => !isBlankLine line).Sublist
      (lines.filter fun line => !isBlankLine line) := List.filter_sublist.filter _
  have hm : line ∈ lines.filter fun line => !isBlankLine line :=
    List.mem_filter.mpr ⟨hl, by rw [hsaid]; rfl⟩
  rw [← hmore.eq_of_length_le (hlength ▸ hless), List.mem_filter, List.mem_filter] at hm
  exact hm.1.2

section

variable {opening : Line} {fence : Fence} {content : List Line}
  (hf : fence? opening = some fence)

include hf in
/-- If an example tag finds the same code, then it has no line that opens a fence. -/
theorem plain_of_codeBlock_eq (hn : ∀ line ∈ opening :: content, '\n' ∉ line)
    (hcode : codeBlock (takeExample false [] (opening :: content ++ [fence.marker])).code =
      codeBlock content) : ∀ line ∈ content, fence? line = none := by
  have hlines : ∀ line ∈ opening :: content ++ [fence.marker], '\n' ∉ line :=
    List.forall_mem_append.mpr ⟨hn, List.forall_mem_singleton.mpr (newline_notMem_marker hf)⟩
  have hcontent : ∀ line ∈ content, '\n' ∉ line := (List.forall_mem_cons.mp hn).2
  -- The first line and the last open fences, so the code is made of lines of the content.
  have hsub := takeExample_code_sublist false [] (opening :: content ++ [fence.marker])
  have hends : (opening :: content ++ [fence.marker]).filter (fun line => !(fence? line).isSome) =
      content.filter fun line => !(fence? line).isSome := by
    rw [List.cons_append, List.filter_cons_of_neg (by simp [hf]), List.filter_append,
      List.filter_cons_of_neg (by rw [fence?_marker hf]; decide), List.filter_nil, List.append_nil]
  rw [hends] at hsub
  have hsaid : kept (takeExample false [] (opening :: content ++ [fence.marker])).code =
      kept content := by
    rw [← textLines_codeBlock hcontent, ← hcode, textLines_codeBlock]
    exact fun line hl => hlines line (takeExample_code_subset false [] _ hl)
  intro line hl
  refine Option.not_isSome_iff_eq_none.mp fun hfence => ?_
  obtain ⟨_, hline⟩ := Option.isSome_iff_exists.mp hfence
  have hpass := pass_of_kept_eq hsub hsaid line hl (not_blank_of_fence? hline)
  rw [hfence] at hpass
  cases hpass

variable (hopen : ∀ line ∈ content, closesFence fence.marker line = false)

include hf hopen in
theorem ofLines_fence : ofLines (opening :: content ++ [fence.marker]) =
    { examples := [fencedExample fence opening content [fence.marker]] } := by
  have hall : ∀ line ∈ content, (!closesFence fence.marker line) = true := fun line hl => by
    rw [hopen line hl]
    rfl
  rw [ofLines, List.cons_append, draftFrom_cons_fence (exampleTitle?_of_fence? hf) hf,
    List.takeWhile_append_of_pos hall, List.dropWhile_append_of_pos hall]
  simp only [List.takeWhile_cons, List.dropWhile_cons, closesFence_marker hf, Bool.not_true]
  rw [if_neg (by decide), if_neg (by decide), List.append_nil, List.drop_one, List.tail_cons,
    draftFrom]
  rfl

include hf in
theorem ofLines_tagged_fence (hplain : ∀ line ∈ content, fence? line = none) :
    ofLines ("@example".toList :: opening :: content ++ [fence.marker]) =
      { examples := [taggedExample [] "@example".toList
        ⟨fence.language, content, opening :: content ++ [fence.marker], []⟩] } := by
  have htaken : takeExample false [] (opening :: content ++ [fence.marker]) =
      ⟨fence.language, content, opening :: content ++ [fence.marker], []⟩ := by
    rw [List.cons_append, takeExample, hf]
    dsimp only
    rw [if_pos (by decide), Bool.not_false,
      takeExample_inside hplain (fence?_marker hf) fence.language []]
    simp [takeExample]
  rw [ofLines, List.cons_append, draftFrom_cons_title exampleTitle?_example, htaken, draftFrom]
  rfl

end

/-! ### Texts of fenced code -/

/-- The lines of fenced code, from the one that opens it to one of the marker alone. -/
def fencedLines (opening : String) (fence : Fence) (content : List String) : List String :=
  opening :: content ++ [String.ofList fence.marker]

theorem toList_fencedLines (opening : String) (fence : Fence) (content : List String) :
    (fencedLines opening fence content).map (·.toList) =
      opening.toList :: content.map (·.toList) ++ [fence.marker] := by
  simp [fencedLines]

theorem linesOf_intercalate {lines : List String} (hne : lines ≠ [])
    (hn : ∀ line ∈ lines, '\n' ∉ line.toList) :
    linesOf (some false) ("\n".intercalate lines) = lines.map (·.toList) := by
  rw [linesOf, withoutGutters, Option.getD_some, if_neg (by decide), String.toList_intercalate]
  exact splitLines_joinLines (by simpa using hne) (List.forall_mem_map.mpr hn)

section

variable {opening : String} {fence : Fence} {content : List String}
  (hf : fence? opening.toList = some fence)
  (hn : ∀ line ∈ opening :: content, '\n' ∉ line.toList)

include hf hn in
theorem newline_notMem_fencedLines :
    ∀ line ∈ fencedLines opening fence content, '\n' ∉ line.toList := by
  refine List.forall_mem_append.mpr ⟨hn, List.forall_mem_singleton.mpr ?_⟩
  rw [String.toList_ofList]
  exact newline_notMem_marker hf

include hf hn in
theorem ofText_fencedLines
    (hopen : ∀ line ∈ content, closesFence fence.marker line.toList = false) :
    ofText (some false) ("\n".intercalate (fencedLines opening fence content)) =
      { examples :=
        [fencedExample fence opening.toList (content.map (·.toList)) [fence.marker]] } := by
  have hne : fencedLines opening fence content ≠ [] := List.cons_ne_nil _ _
  have hlines := linesOf_intercalate hne (newline_notMem_fencedLines hf hn)
  rw [toList_fencedLines] at hlines
  rw [← ofLines_fence hf (List.forall_mem_map.mpr hopen), ← hlines]
  rfl

include hf hn in
/-- The lines of an example tag with nothing but fenced code in it. -/
theorem linesOf_tagged : linesOf (some false)
    ("\n".intercalate ("@example" :: fencedLines opening fence content)) =
      "@example".toList :: (opening.toList :: content.map (·.toList) ++ [fence.marker]) := by
  rw [linesOf_intercalate (List.cons_ne_nil _ _), List.map_cons, toList_fencedLines]
  exact List.forall_mem_cons.mpr ⟨by decide, newline_notMem_fencedLines hf hn⟩

/-- Fenced code is one example and nothing else, and in an example tag it is the same code in the
same language exactly if no line of it opens fenced code, which also ends it there. -/
theorem ofText_fenced (hf : fence? opening.toList = some fence)
    (hn : ∀ line ∈ opening :: content, '\n' ∉ line.toList)
    (hopen : ∀ line ∈ content, closesFence fence.marker line.toList = false) :
    let lines := fencedLines opening fence content
    let alone := ofText (some false) ("\n".intercalate lines)
    let tagged := ofText (some false) ("\n".intercalate ("@example" :: lines))
    ∃ e, alone = { examples := [e] } ∧ e.style = .fenced ∧
      e.language = String.ofList fence.language ∧
      e.value = String.ofList (codeBlock (content.map (·.toList))) ∧
      ((∃ e', tagged.examples = [e'] ∧ tagged.tags = [] ∧ e'.style = .tagged ∧
        e'.language = e.language ∧ e'.value = e.value) ↔
        ∀ line ∈ content, fence? line.toList = none) := by
  refine ⟨_, ofText_fencedLines hf hn hopen, rfl, rfl, rfl, ?_⟩
  rw [ofText_eq (some false) ("\n".intercalate ("@example" :: _)), linesOf_tagged hf hn]
  constructor
  · rintro ⟨e', he', -, -, -, hvalue⟩
    have hcodes := values_draftFrom {}
      ("@example".toList :: (opening.toList :: content.map (·.toList) ++ [fence.marker]))
    rw [codes_cons_title exampleTitle?_example] at hcodes
    change (draftFrom {} _).examples = [e'] at he'
    rw [he', List.map_singleton, List.map_nil, List.nil_append, List.map_cons,
      List.cons.injEq] at hcodes
    have hcode := String.ofList_injective (hcodes.1.symm.trans hvalue)
    have hlines : ∀ line ∈ (opening :: content).map (·.toList), '\n' ∉ line :=
      List.forall_mem_map.mpr hn
    exact List.forall_mem_map.mp (plain_of_codeBlock_eq hf hlines hcode)
  · intro hplain
    have htagged := ofLines_tagged_fence hf (List.forall_mem_map.mpr hplain)
    rw [ofLines, List.cons_append] at htagged
    rw [htagged]
    exact ⟨_, rfl, rfl, rfl, rfl, rfl⟩

end

/-- Code with a line that would open a tag elsewhere, and one that is indented. -/
theorem ofText_fenced_decorator :
    let opening := " \x60\x60\x60\x60js"
    let fence : Fence := ⟨"\x60\x60\x60\x60".toList, "js".toList⟩
    let content := ["@decorator()", "", "  f();"]
    let tagged := ofText (some false)
      ("\n".intercalate ("@example" :: fencedLines opening fence content))
    fence? opening.toList = some fence ∧ (∀ line ∈ opening :: content, '\n' ∉ line.toList) ∧
      (∀ line ∈ content, closesFence fence.marker line.toList = false) ∧
      ∃ e, tagged.examples = [e] ∧ tagged.tags = [] ∧ e.language = "js" ∧
        e.value = "@decorator()\n\n  f();" := by
  intro opening fence content tagged
  have hf : fence? opening.toList = some fence := by decide
  have hn : ∀ line ∈ opening :: content, '\n' ∉ line.toList := by decide
  have hopen : ∀ line ∈ content, closesFence fence.marker line.toList = false := by decide
  obtain ⟨e, -, -, hlanguage, hvalue, hiff⟩ := ofText_fenced hf hn hopen
  obtain ⟨e', hexamples, htags, -, hlanguage', hvalue'⟩ := hiff.mpr (by decide)
  exact ⟨hf, hn, hopen, e', hexamples, htags, hlanguage'.trans hlanguage, hvalue'.trans hvalue⟩

/-- A line of other marks ends the code of an example tag, so what follows it is read as if it
stood in the open: here a tag, and then code that is never closed. -/
theorem ofText_fenced_differs :
    let opening := "\x60\x60\x60md"
    let fence : Fence := ⟨"\x60\x60\x60".toList, "md".toList⟩
    let content := ["~~~", "@param x"]
    let lines := fencedLines opening fence content
    let alone := ofText (some false) ("\n".intercalate lines)
    let tagged := ofText (some false) ("\n".intercalate ("@example" :: lines))
    fence? opening.toList = some fence ∧ (∀ line ∈ opening :: content, '\n' ∉ line.toList) ∧
      (∀ line ∈ content, closesFence fence.marker line.toList = false) ∧
      alone.examples.map (·.value) = ["~~~\n@param x"] ∧ alone.tags = [] ∧
      tagged.examples.map (·.value) = ["", ""] ∧ tagged.tags = ["@param x"] := by
  intro opening fence content lines alone tagged
  have hf : fence? opening.toList = some fence := by decide
  have hn : ∀ line ∈ opening :: content, '\n' ∉ line.toList := by decide
  have hopen : ∀ line ∈ content, closesFence fence.marker line.toList = false := by decide
  have halone : alone = _ := ofText_fencedLines hf hn hopen
  have htaken : takeExample false [] (opening.toList :: content.map (·.toList) ++ [fence.marker]) =
      ⟨"md".toList, [], [opening.toList, "~~~".toList], ["@param x".toList, fence.marker]⟩ := by
    decide
  have htagged : tagged = (draftFrom {} (linesOf (some false) _)).toBody := rfl
  have hlast : fence? fence.marker = some ⟨fence.marker, []⟩ := by decide
  rw [linesOf_tagged hf hn, draftFrom_cons_title exampleTitle?_example, htaken,
    draftFrom_cons_line (by decide) (by decide), draftFrom_cons_fence (by decide) hlast,
    List.takeWhile_nil, List.dropWhile_nil, List.drop_nil, draftFrom] at htagged
  refine ⟨hf, hn, hopen, ?_, ?_, ?_, ?_⟩
  · rw [halone]
    decide
  · rw [halone]
  · rw [htagged]
    decide
  · rw [htagged]
    decide

end DocComment.Body
