import DocComment.Proofs.Text.Returns

/-!
Dedenting of lines that end with carriage returns. In a line of indentation only the carriage
return counts as text when the margin is taken, so lines are dedented alike only if each such
line is as long as the margin of the others.
-/

namespace DocComment.Text

/-- Lines without what stands in those of indentation only. -/
def cleared (lines : List (List Char)) : List (List Char) :=
  lines.map fun line => if line.all isIndent then [] else line

/-- Every line of indentation before a carriage return is as long as the margin of the lines
that have text, which would else be a different one with the carriage returns. -/
def Steady (lines : List (List Char)) : Prop :=
  ∀ line ∈ lines, line.getLast? = some '\r' → line.dropLast.all isIndent = true →
    line.dropLast = margin (cleared (lines.map withoutReturns))

instance (lines : List (List Char)) : Decidable (Steady lines) :=
  inferInstanceAs (Decidable (∀ line ∈ lines, _ → _ → _))

theorem Steady.eq_margin {lines : List (List Char)} (h : Steady lines) {pad : List Char}
    (hp : pad.all isIndent = true) (hm : pad ++ ['\r'] ∈ lines) :
    pad = margin (cleared (lines.map withoutReturns)) := by
  have hline := h _ hm List.getLast?_concat
  rw [List.dropLast_concat] at hline
  exact hline hp

theorem prefix_commonPrefix {front as bs : List Char} (ha : front <+: as) (hb : front <+: bs) :
    front <+: commonPrefix as bs := by
  induction front generalizing as bs with
  | nil => exact List.nil_prefix
  | cons c front ih =>
    obtain ⟨as, rfl⟩ := ha
    obtain ⟨bs, rfl⟩ := hb
    rw [List.cons_append, List.cons_append, commonPrefix, if_pos rfl]
    exact List.cons_prefix_cons.mpr ⟨rfl, ih (List.prefix_append _ _) (List.prefix_append _ _)⟩

theorem prefix_foldl_commonPrefix {front first : List Char} {others : List (List Char)}
    (h : ∀ line ∈ first :: others, front <+: line) : front <+: others.foldl commonPrefix first := by
  induction others generalizing first with
  | nil => exact h first List.mem_cons_self
  | cons next others ih =>
    obtain ⟨hfirst, hrest⟩ := List.forall_mem_cons.mp h
    obtain ⟨hnext, hothers⟩ := List.forall_mem_cons.mp hrest
    exact ih (List.forall_mem_cons.mpr ⟨prefix_commonPrefix hfirst hnext, hothers⟩)

/-- No other indentation that stands in front of every line is longer than the margin. -/
theorem prefix_margin {lines : List (List Char)} {front line : List Char} (hm : line ∈ lines)
    (hne : line ≠ []) (h : ∀ line ∈ lines, line ≠ [] → front <+: line.takeWhile isIndent) :
    front <+: margin lines := by
  have hindents : ∀ indent ∈ (lines.filter fun l => !l.isEmpty).map (·.takeWhile isIndent),
      front <+: indent := by
    intro indent hi
    obtain ⟨line, hl, rfl⟩ := List.mem_map.mp hi
    obtain ⟨hline, hfull⟩ := List.mem_filter.mp hl
    exact h line hline (by simpa using hfull)
  have hmem : line.takeWhile isIndent ∈
      (lines.filter fun l => !l.isEmpty).map (·.takeWhile isIndent) :=
    List.mem_map_of_mem (List.mem_filter.mpr ⟨hm, by simpa using hne⟩)
  unfold margin
  split
  · next heq =>
    rw [heq] at hmem
    cases hmem
  · next first others heq =>
    rw [heq] at hindents
    exact prefix_foldl_commonPrefix hindents

section

variable {lines : List (List Char)}

theorem mem_cleared {line : List Char} :
    line ∈ cleared lines ∧ line ≠ [] ↔ line ∈ lines ∧ line.all isIndent = false := by
  constructor
  · rintro ⟨hm, hne⟩
    obtain ⟨before, hb, rfl⟩ := List.mem_map.mp hm
    split at hne
    · exact absurd rfl hne
    · next htext =>
      rw [if_neg htext]
      exact ⟨hb, Bool.eq_false_iff.mpr htext⟩
  · rintro ⟨hm, htext⟩
    refine ⟨List.mem_map.mpr ⟨line, hm, by rw [if_neg (by simp [htext])]⟩, ?_⟩
    rintro rfl
    cases htext

/-- The margin of lines with text among them is the longest indentation that all of these share. -/
theorem prefix_margin_iff {front : List Char}
    (hsome : ∃ line ∈ lines, line.all isIndent = false) :
    front <+: margin (cleared lines) ↔
      ∀ line ∈ lines, line.all isIndent = false → front <+: line.takeWhile isIndent := by
  constructor
  · intro hfront line hm htext
    obtain ⟨hline, hne⟩ := mem_cleared.mpr ⟨hm, htext⟩
    have hmargin := margin_prefix hline hne
    exact hfront.trans hmargin
  · intro h
    obtain ⟨line, hm, htext⟩ := hsome
    obtain ⟨hline, hne⟩ := mem_cleared.mpr ⟨hm, htext⟩
    refine prefix_margin hline hne fun line hline hne => ?_
    obtain ⟨hm, htext⟩ := mem_cleared.mp ⟨hline, hne⟩
    exact h line hm htext

theorem margin_of_no_text (h : ∀ line ∈ lines, line.all isIndent = true) :
    margin (cleared lines) = [] := by
  have hnone : (cleared lines).filter (fun l => !l.isEmpty) = [] := by
    rw [List.filter_eq_nil_iff]
    intro line hm
    simp only [Bool.not_eq_true', Bool.not_eq_false, List.isEmpty_iff]
    by_contra hne
    obtain ⟨hm, htext⟩ := mem_cleared.mp ⟨hm, hne⟩
    rw [h line hm] at htext
    cases htext
  rw [margin, hnone]
  rfl

/-- The margin is the one without the carriage returns. -/
theorem margin_steady (h : ∀ line ∈ lines, Returned (withoutReturns line) line)
    (hs : Steady lines) :
    margin (cleared lines) = margin (cleared (lines.map withoutReturns)) := by
  -- A line with text has the same indentation in both, and any other that is not cleared is as
  -- long as the margin.
  have htexts : ∀ line ∈ lines, (withoutReturns line).all isIndent = false →
      line.all isIndent = false ∧
        line.takeWhile isIndent = (withoutReturns line).takeWhile isIndent := by
    intro line hm
    have hline := h line hm
    generalize withoutReturns line = plain at hline ⊢
    intro htext
    rcases hline.ends with rfl | rfl
    · exact ⟨htext, rfl⟩
    · exact ⟨by simp [isIndent], hline.takeWhile_eq (by decide)⟩
  have hpads : ∀ line ∈ lines, line.all isIndent = false →
      (withoutReturns line).all isIndent = true →
      line.takeWhile isIndent = margin (cleared (lines.map withoutReturns)) := by
    intro line hm
    have hline := h line hm
    generalize withoutReturns line = plain at hline ⊢
    intro htext hpad
    rcases hline.ends with rfl | rfl
    · rw [hpad] at htext
      cases htext
    · rw [← hs.eq_margin hpad hm,
        List.takeWhile_append_of_pos fun c hc => List.all_eq_true.mp hpad c hc]
      exact List.append_nil _
  by_cases hplain : ∃ line ∈ lines, (withoutReturns line).all isIndent = false
  · obtain ⟨line, hm, htext⟩ := hplain
    have hsome : ∃ line ∈ lines, line.all isIndent = false := ⟨line, hm, (htexts line hm htext).1⟩
    have hsome' : ∃ plain ∈ lines.map withoutReturns, plain.all isIndent = false :=
      ⟨_, List.mem_map_of_mem hm, htext⟩
    have hleft : margin (cleared lines) <+: margin (cleared (lines.map withoutReturns)) := by
      refine (prefix_margin_iff hsome').mpr fun plain hp htext => ?_
      obtain ⟨line, hm, rfl⟩ := List.mem_map.mp hp
      obtain ⟨htext', hsame⟩ := htexts line hm htext
      rw [← hsame]
      exact (prefix_margin_iff hsome).mp List.prefix_rfl line hm htext'
    have hright : margin (cleared (lines.map withoutReturns)) <+: margin (cleared lines) := by
      refine (prefix_margin_iff hsome).mpr fun line hm htext => ?_
      by_cases hpad : (withoutReturns line).all isIndent = true
      · exact hpads line hm htext hpad ▸ List.prefix_rfl
      · rw [Bool.not_eq_true] at hpad
        rw [(htexts line hm hpad).2]
        exact (prefix_margin_iff hsome').mp List.prefix_rfl _ (List.mem_map_of_mem hm) hpad
    exact hleft.eq_of_length_le hright.length_le
  · have hnone : ∀ line ∈ lines, (withoutReturns line).all isIndent = true := fun line hm =>
      Bool.not_eq_false _ ▸ fun htext => hplain ⟨line, hm, htext⟩
    have hempty : margin (cleared (lines.map withoutReturns)) = [] := by
      refine margin_of_no_text fun plain hp => ?_
      obtain ⟨line, hm, rfl⟩ := List.mem_map.mp hp
      exact hnone line hm
    rw [hempty]
    by_cases hsome : ∃ line ∈ lines, line.all isIndent = false
    · obtain ⟨line, hm, htext⟩ := hsome
      have hprefix := (prefix_margin_iff ⟨line, hm, htext⟩).mp List.prefix_rfl line hm htext
      rw [hpads line hm htext (hnone line hm), hempty] at hprefix
      exact List.prefix_nil.mp hprefix
    · exact margin_of_no_text fun line hm =>
        Bool.not_eq_false _ ▸ fun htext => hsome ⟨line, hm, htext⟩

/-- Steady lines are dedented line by line as they are without the carriage returns. -/
theorem dedent_steady (h : ∀ line ∈ lines, Returned (withoutReturns line) line)
    (hs : Steady lines) :
    List.Forall₂ Returned (dedent (lines.map withoutReturns)) (dedent lines) := by
  obtain ⟨width, hwidth⟩ :
      ∃ width, (margin (cleared (lines.map withoutReturns))).length = width := ⟨_, rfl⟩
  have hlong : ∀ line ∈ lines, (withoutReturns line).all isIndent = false →
      width ≤ (withoutReturns line).length := by
    intro line hm htext
    have hm := List.mem_map_of_mem (f := withoutReturns) hm
    have hmargin := (prefix_margin_iff ⟨_, hm, htext⟩).mp List.prefix_rfl _ hm htext
    rw [← hwidth]
    exact (hmargin.trans (List.takeWhile_prefix isIndent)).length_le
  have hpads (pad : List Char) (hp : pad.all isIndent = true) (hm : pad ++ ['\r'] ∈ lines) :
      pad.length = width := by
    rw [hs.eq_margin hp hm, hwidth]
  change List.Forall₂ Returned
    ((cleared (lines.map withoutReturns)).map
      (·.drop (margin (cleared (lines.map withoutReturns))).length))
    ((cleared lines).map (·.drop (margin (cleared lines)).length))
  rw [margin_steady h hs, hwidth]
  simp only [cleared, List.map_map, List.forall₂_map_left_iff, List.forall₂_map_right_iff,
    List.forall₂_same, Function.comp_apply]
  intro line hm
  have hline := h line hm
  have htext := hlong line hm
  generalize withoutReturns line = plain at hline htext ⊢
  have hnotMem (n : Nat) : '\r' ∉ plain.drop n := fun hr => hline.notMem (List.mem_of_mem_drop hr)
  rcases hline.ends with rfl | rfl
  · split
    · exact returned_self (by simp)
    · exact returned_self (hnotMem _)
  · rw [if_neg (show ¬ (plain ++ ['\r']).all isIndent = true by simp [isIndent])]
    split
    · next hindent =>
      rw [← hpads plain hindent hm, List.drop_nil, List.drop_left]
      exact returned_concat List.not_mem_nil
    · next hindent =>
      rw [List.drop_append_of_le_length (htext (Bool.eq_false_iff.mpr hindent))]
      exact returned_concat (hnotMem _)

end

/-- Lines of text whose carriage returns do no harm. One line alone is trimmed in any case. -/
def SteadyText (lines : List (List Char)) : Prop := Steady lines ∨ (kept lines).length ≤ 1

instance (lines : List (List Char)) : Decidable (SteadyText lines) :=
  inferInstanceAs (Decidable (_ ∨ _))

/-- Lines of code whose carriage returns do no harm. Line feeds around the code have to come off
with the carriage returns in place. -/
def SteadyCode (lines : List (List Char)) : Prop :=
  Steady lines ∧
    trimBy isNewline (withoutReturns (codeBlock lines)) = withoutReturns (codeBlock lines)

instance (lines : List (List Char)) : Decidable (SteadyCode lines) :=
  inferInstanceAs (Decidable (_ ∧ _))

section

variable {lines lines' : List (List Char)}

theorem dedent_returned (h : List.Forall₂ Returned lines lines') (hs : Steady lines') :
    List.Forall₂ Returned (dedent lines) (dedent lines') := by
  have hplain : lines'.map withoutReturns = lines ∧
      ∀ line ∈ lines', Returned (withoutReturns line) line := by
    clear hs
    induction h with
    | nil => exact ⟨rfl, by simp⟩
    | cons hline _ ih =>
      rw [List.map_cons, hline.withoutReturns_eq, ih.1]
      exact ⟨rfl, List.forall_mem_cons.mpr ⟨hline.withoutReturns_eq.symm ▸ hline, ih.2⟩⟩
  rw [← hplain.1]
  exact dedent_steady hplain.2 hs

theorem newline_notMem_returned (h : List.Forall₂ Returned lines lines')
    (hn : ∀ line ∈ lines, '\n' ∉ line) : ∀ line ∈ lines', '\n' ∉ line := by
  induction h with
  | nil => simp
  | @cons line line' _ _ hline _ ih =>
    obtain ⟨hfirst, hrest⟩ := List.forall_mem_cons.mp hn
    refine List.forall_mem_cons.mpr ⟨?_, ih hrest⟩
    rcases hline.ends with rfl | rfl
    · exact hfirst
    · simpa using hfirst

theorem return_notMem (h : List.Forall₂ Returned lines lines') : ∀ line ∈ lines, '\r' ∉ line := by
  induction h with
  | nil => simp
  | cons hline _ ih => exact List.forall_mem_cons.mpr ⟨hline.notMem, ih⟩

/-- A block of one line is that line, trimmed. -/
theorem textBlock_eq_headD (hn : ∀ line ∈ lines, '\n' ∉ line) (hone : (kept lines).length ≤ 1) :
    textBlock lines = (kept lines).headD [] := by
  rw [← textLines_textBlock hn] at hone ⊢
  exact eq_headD_textLines (trim_trim _) hone

theorem textBlock_returned (h : List.Forall₂ Returned lines lines')
    (hn : ∀ line ∈ lines, '\n' ∉ line) (hs : SteadyText lines') :
    Returns (textBlock lines) (textBlock lines') := by
  rcases hs with hs | hone
  · exact trim_joinLines_returned (dedent_returned h hs)
  · have hsame : textBlock lines' = textBlock lines := by
      rw [textBlock_eq_headD (newline_notMem_returned h hn) hone, kept_returned h]
      exact (textBlock_eq_headD hn (kept_returned h ▸ hone)).symm
    rw [hsame]
    refine Returns.refl fun hm => ?_
    rw [textBlock_eq_headD hn (kept_returned h ▸ hone)] at hm
    cases hk : kept lines with
    | nil =>
      rw [hk] at hm
      cases hm
    | cons text texts =>
      rw [hk] at hm
      have htext : text ∈ lines.map trim :=
        List.mem_of_mem_filter (hk ▸ List.mem_cons_self : text ∈ kept lines)
      obtain ⟨line, hline, rfl⟩ := List.mem_map.mp htext
      exact return_notMem h line hline (trim_subset line hm)

theorem withoutReturns_codeBlock (h : List.Forall₂ Returned lines lines') (hs : SteadyCode lines') :
    withoutReturns (codeBlock lines') = codeBlock lines := by
  obtain ⟨hsteady, htrim⟩ := hs
  have hfeed {feeds : List Char} (hf : ∀ c ∈ feeds, isNewline c = true) :
      withoutReturns feeds = feeds := by
    refine withoutReturns_of_notMem fun hm => ?_
    cases hf _ hm
  obtain ⟨front, back, htext, hfront, hback⟩ :=
    exists_trimBy_eq isNewline (joinLines (dedent lines'))
  have hjoin := withoutReturns_joinLines (dedent_returned h hsteady)
  rw [← htrim, codeBlock, codeBlock, ← hjoin]
  conv_rhs => rw [htext]
  rw [withoutReturns_append, withoutReturns_append, hfeed hfront, hfeed hback,
    trimBy_append_of_forall hback, trimBy_append_front hfront]

end

end DocComment.Text
