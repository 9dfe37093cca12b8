import DocComment.Proofs.Text.Margin

/-!
Lines that are dedented and trimmed at their ends. Only lines with text are left of them, less
the margin of all lines that are not cleared. That is all these lines share, unless a line of
other white space than spaces and tabs is not as far in as they are.
-/

namespace DocComment.Text

/-- The lines that say something. -/
def texts (lines : List (List Char)) : List (List Char) :=
  lines.filter fun line => !line.all isBlank

/-- Every line of white space is as far in as the lines that say something have in common, or
is of spaces and tabs alone, and then it has no part in the margin. -/
def BlanksIndented (lines : List (List Char)) : Prop :=
  ∀ line ∈ lines, line.all isBlank = true → line.all isIndent = false →
    margin (texts lines) <+: line.takeWhile isIndent

instance (lines : List (List Char)) : Decidable (BlanksIndented lines) :=
  inferInstanceAs (Decidable (∀ line ∈ lines, _ → _ → _))

theorem trimEnd_eq_nil_iff {cs : List Char} : trimEnd cs = [] ↔ cs.all isBlank = true :=
  List.rdropWhile_eq_nil_iff.trans List.all_eq_true.symm

theorem trimEnd_trimEnd (cs : List Char) : trimEnd (trimEnd cs) = trimEnd cs :=
  List.rdropWhile_idempotent isBlank cs

theorem all_isBlank_of_indent {line : List Char} (h : line.all isIndent = true) :
    line.all isBlank = true :=
  List.all_eq_true.mpr fun c hc => isBlank_of_isIndent (List.all_eq_true.mp h c hc)

theorem margin_filter (lines : List (List Char)) :
    margin (lines.filter fun line => !line.isEmpty) = margin lines := by
  simp only [margin, List.filter_filter, Bool.and_self]

section

variable {lines : List (List Char)} {line : List Char}

theorem mem_texts : line ∈ texts lines ↔ line ∈ lines ∧ line.all isBlank = false := by
  rw [texts, List.mem_filter, Bool.not_eq_true']

theorem ne_nil_of_mem_texts (h : line ∈ texts lines) : line ≠ [] := by
  rintro rfl
  cases (mem_texts.mp h).2

theorem not_indent_of_mem_texts (h : line ∈ texts lines) : line.all isIndent = false := by
  refine Bool.eq_false_iff.mpr fun hindent => ?_
  have := all_isBlank_of_indent hindent
  rw [(mem_texts.mp h).2] at this
  cases this

theorem margin_cleared_prefix_indent (h : line ∈ texts lines) :
    margin (cleared lines) <+: line.takeWhile isIndent := by
  obtain ⟨hm, hne⟩ := mem_cleared.mpr ⟨(mem_texts.mp h).1, not_indent_of_mem_texts h⟩
  exact margin_prefix hm hne

theorem margin_texts_prefix_indent (h : line ∈ texts lines) :
    margin (texts lines) <+: line.takeWhile isIndent :=
  margin_prefix h (ne_nil_of_mem_texts h)

/-- The dedent takes off no more than the lines with text have in common. -/
theorem margin_cleared_prefix_margin (h : line ∈ texts lines) :
    margin (cleared lines) <+: margin (texts lines) :=
  prefix_margin h (ne_nil_of_mem_texts h) fun _ hm _ => margin_cleared_prefix_indent hm

/-- Blanks at the end of a line with text have no part in its indentation. -/
theorem takeWhile_trimEnd (h : line.all isBlank = false) :
    (trimEnd line).takeWhile isIndent = line.takeWhile isIndent := by
  have hline : line = trimEnd line ++ line.rtakeWhile isBlank :=
    List.rdropWhile_append_rtakeWhile.symm
  conv_rhs => rw [hline]
  rw [List.takeWhile_append, if_neg]
  intro hlength
  have hall : (trimEnd line).takeWhile isIndent = trimEnd line :=
    (List.takeWhile_prefix isIndent).eq_of_length hlength
  have hnil : trimEnd line = [] := by
    rw [← trimEnd_trimEnd, trimEnd_eq_nil_iff]
    exact all_isBlank_of_indent (List.all_eq_true.mpr (List.takeWhile_eq_self_iff.mp hall))
  rw [trimEnd_eq_nil_iff, h] at hnil
  cases hnil

theorem takeWhile_drop_of_prefix {front : List Char} (h : front <+: line.takeWhile isIndent) :
    (line.drop front.length).takeWhile isIndent = (line.takeWhile isIndent).drop front.length := by
  obtain ⟨rest, hrest⟩ := h
  have hline : line = front ++ (rest ++ line.dropWhile isIndent) := by
    rw [← List.append_assoc, hrest, List.takeWhile_append_dropWhile]
  have hindent : ∀ c ∈ rest, isIndent c = true := fun c hc =>
    List.mem_takeWhile_imp (hrest ▸ List.mem_append_right front hc)
  rw [← hrest, List.drop_left]
  conv_lhs => rw [hline, List.drop_left]
  exact takeWhile_append_of_head hindent (head?_dropWhile_neg isIndent line)

theorem all_isBlank_drop_margin (h : line ∈ lines) :
    (line.drop (margin lines).length).all isBlank = line.all isBlank := by
  rw [Bool.eq_iff_iff, List.all_eq_true, List.all_eq_true, ← trim_eq_nil_iff, ← trim_eq_nil_iff,
    trim_drop_margin h]

end

/-- A line without the margin of its text, and without the blanks at its end. -/
def tidied (lines : List (List Char)) (line : List Char) : List Char :=
  trimEnd (line.drop (margin (cleared lines)).length)

section

variable {lines : List (List Char)} {line : List Char}

theorem tidied_eq_nil_iff (h : line ∈ cleared lines) :
    tidied lines line = [] ↔ line.all isBlank = true := by
  rw [tidied, trimEnd_eq_nil_iff, all_isBlank_drop_margin h]

theorem mem_cleared_of_mem_texts (h : line ∈ texts lines) : line ∈ cleared lines :=
  (mem_cleared.mpr ⟨(mem_texts.mp h).1, not_indent_of_mem_texts h⟩).1

theorem tidied_ne_nil (h : line ∈ texts lines) : tidied lines line ≠ [] := by
  rw [ne_eq, tidied_eq_nil_iff (mem_cleared_of_mem_texts h), (mem_texts.mp h).2]
  decide

/-- What a line with text is indented by once the margin is off. -/
theorem takeWhile_tidied (h : line ∈ texts lines) :
    (tidied lines line).takeWhile isIndent =
      (line.takeWhile isIndent).drop (margin (cleared lines)).length := by
  have htext := all_isBlank_drop_margin (mem_cleared_of_mem_texts h)
  rw [(mem_texts.mp h).2] at htext
  rw [tidied, takeWhile_trimEnd htext, takeWhile_drop_of_prefix (margin_cleared_prefix_indent h)]

/-- Lines of spaces and tabs alone say nothing, so clearing them changes no line with text. -/
theorem texts_cleared (lines : List (List Char)) : texts (cleared lines) = texts lines := by
  have hcons (line : List Char) (rest : List (List Char)) :
      texts (line :: rest) = texts [line] ++ texts rest := List.filter_append [line] rest
  induction lines with
  | nil => rfl
  | cons line lines ih =>
    change texts ((if line.all isIndent then [] else line) :: cleared lines) = _
    rw [hcons, ih, hcons line]
    split
    · next hindent =>
      have hnone : texts [line] = [] := by simp [texts, all_isBlank_of_indent hindent]
      rw [hnone]
      rfl
    · rfl

/-- Only lines with text are left of those that are dedented and trimmed. -/
theorem filter_tidied (lines : List (List Char)) :
    ((dedent lines).map trimEnd).filter (fun line => !line.isEmpty) =
      (texts lines).map (tidied lines) := by
  have hdedent : (dedent lines).map trimEnd = (cleared lines).map (tidied lines) :=
    List.map_map
  rw [hdedent, List.filter_map, ← texts_cleared]
  refine congrArg (List.map (tidied lines)) (List.filter_congr fun line hm => ?_)
  rw [Function.comp_apply, Bool.eq_iff_iff]
  simp [tidied_eq_nil_iff hm]

/-- What indentation the lines with text still share once they are dedented. -/
theorem margin_tidied (lines : List (List Char)) :
    margin ((texts lines).map (tidied lines)) =
      (margin (texts lines)).drop (margin (cleared lines)).length := by
  by_cases hnone : texts lines = []
  · rw [hnone]
    exact List.drop_nil.symm
  obtain ⟨line, hline⟩ := List.exists_mem_of_ne_nil _ hnone
  obtain ⟨rest, hrest⟩ := margin_cleared_prefix_margin hline
  have hindent {line : List Char} (h : line ∈ texts lines) :
      margin (cleared lines) ++ (tidied lines line).takeWhile isIndent =
        line.takeWhile isIndent := by
    obtain ⟨own, hown⟩ := margin_cleared_prefix_indent h
    rw [takeWhile_tidied h, ← hown, List.drop_left]
  have hmem := List.mem_map_of_mem (f := tidied lines) hline
  rw [← hrest, List.drop_left]
  have hleft : margin ((texts lines).map (tidied lines)) <+: rest := by
    rw [← List.prefix_append_right_inj (margin (cleared lines)), hrest]
    refine prefix_margin hline (ne_nil_of_mem_texts hline) fun line hm _ => ?_
    rw [← hindent hm, List.prefix_append_right_inj]
    exact margin_prefix (List.mem_map_of_mem hm) (tidied_ne_nil hm)
  have hright : rest <+: margin ((texts lines).map (tidied lines)) := by
    refine prefix_margin hmem (tidied_ne_nil hline) fun _ hm _ => ?_
    obtain ⟨text, ht, rfl⟩ := List.mem_map.mp hm
    rw [← List.prefix_append_right_inj (margin (cleared lines)), hrest, hindent ht]
    exact margin_texts_prefix_indent ht
  exact hleft.eq_of_length_le hright.length_le

/-- The dedent leaves no shared indentation exactly if no blank line is further out. -/
theorem blanksIndented_iff (lines : List (List Char)) :
    BlanksIndented lines ↔ (margin (texts lines)).drop (margin (cleared lines)).length = [] := by
  by_cases hnone : texts lines = []
  · simp [BlanksIndented, hnone, margin]
  obtain ⟨line, hline⟩ := List.exists_mem_of_ne_nil _ hnone
  have hsome : ∃ line ∈ lines, line.all isIndent = false :=
    ⟨line, (mem_texts.mp hline).1, not_indent_of_mem_texts hline⟩
  have hprefix : margin (texts lines) <+: margin (cleared lines) ↔
      (margin (texts lines)).drop (margin (cleared lines)).length = [] := by
    rw [List.drop_eq_nil_iff]
    refine ⟨fun h => h.length_le, fun h => ?_⟩
    exact (margin_cleared_prefix_margin hline).eq_of_length_le h ▸ List.prefix_rfl
  rw [← hprefix, prefix_margin_iff hsome]
  refine ⟨fun h line hm htext => ?_, fun h line hm _ htext => h line hm htext⟩
  cases hblank : line.all isBlank with
  | true => exact h line hm hblank htext
  | false => exact margin_texts_prefix_indent (mem_texts.mpr ⟨hm, hblank⟩)

end

end DocComment.Text
