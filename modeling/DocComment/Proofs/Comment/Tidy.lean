import DocComment.Comment.Format
import DocComment.Proofs.Text.Indentation
import DocComment.Proofs.Text.Words

/-!
Blocks of text that were tidied. Tidying moves white space only: the words stay, no line ends
with white space, and blank lines stand one by one between others. A tidy block is left as it
is if its lines share no indentation, which they do only if a blank line kept the dedent from
seeing it. So every block settles when it is tidied a second time.
-/

namespace DocComment

open Text

/-! ### Newlines in a row -/

theorem take_collapseNewlines (cs : List Char) : (collapseNewlines cs).take 2 = cs.take 2 := by
  fun_induction collapseNewlines cs with
  | case1 rest ih => exact ih
  | case2 c rest _ ih =>
    have hone := congrArg (List.take 1) ih
    rw [List.take_take, List.take_take] at hone
    exact congrArg (c :: ·) hone
  | case3 => rfl

theorem collapseNewlines_spaced (cs : List Char) :
    ¬ ['\n', '\n', '\n'] <:+: collapseNewlines cs := by
  fun_induction collapseNewlines cs with
  | case1 rest ih => exact ih
  | case2 c rest hmore ih =>
    intro h
    rcases List.infix_cons_iff.mp h with h | h
    · -- A third newline would have been there before.
      obtain ⟨rfl, htail⟩ := List.cons_prefix_cons.mp h
      have htwo : rest.take 2 = ['\n', '\n'] := by
        rw [← take_collapseNewlines]
        exact (List.prefix_iff_eq_take.mp htail).symm
      have hrest := List.take_append_drop 2 rest
      rw [htwo] at hrest
      exact hmore _ rfl hrest.symm
    · exact ih h
  | case3 => simp

theorem collapseNewlines_of_spaced {cs : List Char} (h : ¬ ['\n', '\n', '\n'] <:+: cs) :
    collapseNewlines cs = cs := by
  fun_induction collapseNewlines cs with
  | case1 rest => exact absurd ⟨[], rest, rfl⟩ h
  | case2 c rest _ ih => rw [ih fun hrest => h (hrest.trans (List.suffix_cons c rest).isInfix)]
  | case3 => rfl

theorem segments_collapseNewlines {p : Char → Bool} (hp : p '\n' = true) (cs : List Char) :
    segments p (collapseNewlines cs) = segments p cs := by
  have hbehind (front : List Char) :
      segments p (front ++ collapseNewlines cs) = segments p (front ++ cs) := by
    fun_induction collapseNewlines cs generalizing front with
    | case1 rest ih =>
      rw [ih, segments_append_cons hp, segments_append_cons hp, segments_cons_of_pos hp,
        segments_cons_of_pos hp, segments_cons_of_pos hp]
    | case2 c rest _ ih => simpa using ih (front ++ [c])
    | case3 => rfl
  exact hbehind []

/-! ### Blocks -/

/-- What tidying comes to. Lines end with text, at most one blank line stands between two of
them, and none before or after them all. -/
structure IsTidy (cs : List Char) : Prop where
  ends : ∀ line ∈ splitLines cs, ∀ c ∈ line.getLast?, isBlank c = false
  spaced : ¬ ['\n', '\n', '\n'] <:+: cs
  head : cs.head? ≠ some '\n'
  last : cs.getLast? ≠ some '\n'

theorem segments_tidyBlock {p : Char → Bool} (hp : p '\n' = true) (cs : List Char) :
    segments p (tidyBlock cs) =
      ((dedent (splitLines cs)).map trimEnd).flatMap (segments p) := by
  have hnewline (c : Char) (hc : isNewline c = true) : p c = true := eq_of_beq hc ▸ hp
  rw [tidyBlock, segments_trimBy hnewline, segments_collapseNewlines hp, segments_joinLines hp]

theorem words_tidyBlock (cs : List Char) : words (tidyBlock cs) = words cs := by
  calc
    words (tidyBlock cs) = ((dedent (splitLines cs)).map trimEnd).flatMap words :=
      segments_tidyBlock isBlank_newline cs
    _ = (dedent (splitLines cs)).flatMap words := by simp only [List.flatMap_map, words_trimEnd]
    _ = words (joinLines (splitLines cs)) := by rw [words_dedent, words_joinLines]
    _ = words cs := by rw [joinLines_splitLines]

/-- The lines of a tidied block that are not empty. -/
theorem full_lines_tidyBlock (cs : List Char) :
    (splitLines (tidyBlock cs)).filter (fun line => !line.isEmpty) =
      (texts (splitLines cs)).map (tidied (splitLines cs)) := by
  have hlines : ∀ line ∈ (dedent (splitLines cs)).map trimEnd,
      ∀ c ∈ line, isNewline c = false := by
    rw [List.forall_mem_map]
    intro line hm c hc
    have hdedent := newline_notMem_of_mem_dedent (fun _ => newline_notMem_of_mem_splitLines) line hm
    refine beq_eq_false_iff_ne.mpr ?_
    rintro rfl
    exact hdedent ((List.rdropWhile_prefix isBlank line).subset hc)
  change segments isNewline (tidyBlock cs) = _
  rw [segments_tidyBlock rfl, flatMap_segments hlines, filter_tidied]

theorem margin_tidyBlock (cs : List Char) :
    margin (splitLines (tidyBlock cs)) =
      (margin (texts (splitLines cs))).drop (margin (cleared (splitLines cs))).length := by
  rw [← margin_filter, full_lines_tidyBlock, margin_tidied]

theorem isTidy_tidyBlock (cs : List Char) : IsTidy (tidyBlock cs) := by
  obtain ⟨hhead, hlast⟩ := trimBy_eq_self_iff.mp (trimBy_trimBy isNewline
    (collapseNewlines (joinLines ((dedent (splitLines cs)).map trimEnd))))
  constructor
  case ends =>
    intro line hm
    rw [← trimEndBy_eq_self_iff]
    by_cases hne : line = []
    · rw [hne]
      rfl
    · have hfull : line ∈ (splitLines (tidyBlock cs)).filter fun line => !line.isEmpty :=
        List.mem_filter.mpr ⟨hm, by simpa using hne⟩
      rw [full_lines_tidyBlock] at hfull
      obtain ⟨text, -, rfl⟩ := List.mem_map.mp hfull
      exact trimEnd_trimEnd _
  case spaced =>
    intro h
    obtain ⟨front, back, hcs, -, -⟩ := exists_trimBy_eq isNewline
      (collapseNewlines (joinLines ((dedent (splitLines cs)).map trimEnd)))
    exact collapseNewlines_spaced _ (h.trans ⟨front, back, hcs.symm⟩)
  case head => exact fun h => absurd (hhead _ h) (by decide)
  case last => exact fun h => absurd (hlast _ h) (by decide)

namespace IsTidy

variable {cs : List Char} (h : IsTidy cs)

include h

/-- No line of a tidy block is blank but not empty. -/
theorem trimEnd_eq {line : List Char} (hm : line ∈ splitLines cs) : trimEnd line = line :=
  trimEndBy_eq_self_iff.mpr (h.ends line hm)

theorem eq_nil_of_blank {line : List Char} (hm : line ∈ splitLines cs)
    (hblank : line.all isBlank = true) : line = [] := by
  rw [← h.trimEnd_eq hm, trimEnd_eq_nil_iff, hblank]

theorem blanksIndented : BlanksIndented (splitLines cs) := by
  intro line hm hblank hindent
  rw [h.eq_nil_of_blank hm hblank] at hindent
  cases hindent

/-- A tidy block is left as it is if its lines share no indentation. -/
theorem tidyBlock_eq (hmargin : margin (splitLines cs) = []) : tidyBlock cs = cs := by
  have hcleared : cleared (splitLines cs) = splitLines cs := by
    refine (List.map_congr_left fun line hm => ?_).trans (List.map_id _)
    split
    · next hindent => exact (h.eq_nil_of_blank hm (all_isBlank_of_indent hindent)).symm
    · rfl
  have hdedent : dedent (splitLines cs) = splitLines cs := by
    change (cleared (splitLines cs)).map (·.drop (margin (cleared (splitLines cs))).length) = _
    rw [hcleared, hmargin]
    exact List.map_id _
  have hends : (splitLines cs).map trimEnd = splitLines cs :=
    (List.map_congr_left fun _ => h.trimEnd_eq).trans (List.map_id _)
  have htrim : trimBy isNewline cs = cs := by
    refine trimBy_eq_self_iff.mpr ⟨fun c hc => ?_, fun c hc => ?_⟩
    · exact beq_eq_false_iff_ne.mpr fun hn => h.head (hn ▸ hc)
    · exact beq_eq_false_iff_ne.mpr fun hn => h.last (hn ▸ hc)
  rw [tidyBlock, hdedent, hends, joinLines_splitLines, collapseNewlines_of_spaced h.spaced, htrim]

end IsTidy

/-- Tidied once more, a block stays as it is exactly if no blank line hid an indentation that
the lines with text share. -/
theorem tidyBlock_tidyBlock_iff (cs : List Char) :
    tidyBlock (tidyBlock cs) = tidyBlock cs ↔ BlanksIndented (splitLines cs) := by
  have hmargin (cs : List Char) :
      margin (splitLines (tidyBlock cs)) = [] ↔ BlanksIndented (splitLines cs) := by
    rw [margin_tidyBlock, blanksIndented_iff]
  rw [← hmargin]
  refine ⟨fun h => ?_, (isTidy_tidyBlock cs).tidyBlock_eq⟩
  rw [← h, hmargin]
  exact (isTidy_tidyBlock cs).blanksIndented

/-- A tidy block hides nothing, so the second time is the last. -/
theorem tidyBlock_settles (cs : List Char) :
    tidyBlock (tidyBlock (tidyBlock cs)) = tidyBlock (tidyBlock cs) :=
  (tidyBlock_tidyBlock_iff _).mpr (isTidy_tidyBlock cs).blanksIndented

end DocComment
