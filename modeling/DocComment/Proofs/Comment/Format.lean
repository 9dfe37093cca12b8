import DocComment.Proofs.Comment.Tidy

/-!
Formatted comments. Formatting moves white space in description, footer and the descriptions of
tags, and takes a dash off the front of these that separated them from a name. Nothing else of a
comment changes. Formatting twice does more than formatting once only where a blank line hid
indentation, or where a second dash stood behind the first.
-/

namespace DocComment

open Text

/-- A dash in front of everything else, with white space behind it. -/
def Separated (cs : List Char) : Prop :=
  ∃ front c rest, cs = front ++ '-' :: c :: rest ∧ (∀ a ∈ front, isBlank a = true) ∧
    isBlank c = true

section

variable {cs : List Char}

/-- A dash that is the first of several words has white space behind it. -/
theorem separated_of_words {w : List Char} {ws : List (List Char)}
    (h : words cs = ['-'] :: w :: ws) : Separated cs := by
  obtain ⟨front, back, hcs, hfront, hback, hwords⟩ := segments_eq_cons h
  cases back with
  | nil => cases hwords
  | cons c rest => exact ⟨front, c, rest, by simpa using hcs, hfront, hback c rfl⟩

theorem words_dropSeparator (h : Separated cs) :
    words cs = ['-'] :: words (dropSeparator cs) := by
  obtain ⟨front, c, rest, rfl, hfront, hc⟩ := h
  have hdash : isBlank '-' = false := by decide
  have hstart : trimStart (front ++ '-' :: c :: rest) = '-' :: c :: rest :=
    dropWhile_append_of_head hfront (by simpa using hdash)
  have hdrop : dropSeparator (front ++ '-' :: c :: rest) = trimStart rest := by
    rw [dropSeparator, hstart]
    exact if_pos hc
  have hrun : words (['-'] ++ c :: rest) = ['-'] :: words (c :: rest) :=
    segments_run_append (by simp) (by simpa using hdash) (by simpa using hc)
  have hwords : words (front ++ '-' :: c :: rest) = ['-'] :: words rest := by
    rw [words_eq_segments rest, ← segments_cons_of_pos hc]
    exact (segments_append_front hfront _).trans hrun
  rw [hwords, hdrop]
  exact congrArg (['-'] :: ·) (segments_dropWhile rest).symm

theorem dropSeparator_of_not_separated (h : ¬ Separated cs) : dropSeparator cs = cs := by
  unfold dropSeparator
  split
  · next c rest hstart =>
    refine if_neg fun hc => h ⟨cs.takeWhile isBlank, c, rest, ?_, ?_, hc⟩
    · rw [← hstart]
      exact List.takeWhile_append_dropWhile.symm
    · exact fun _ => List.mem_takeWhile_imp
  · rfl

end

theorem words_tidyLine (cs : List Char) : words (tidyLine cs) = words (dropSeparator cs) :=
  words_intercalate fun _ => of_mem_segments

theorem tidyLine_spaced (cs : List Char) :
    tidyLine cs = [' '].intercalate (words (tidyLine cs)) := by
  rw [words_tidyLine]
  rfl

/-- A tidy line stays as it is unless there is a separator to take off it. -/
theorem tidyLine_eq_self_iff {cs : List Char} (h : cs = [' '].intercalate (words cs)) :
    tidyLine cs = cs ↔ ¬ Separated cs := by
  constructor
  · intro hsame hseparated
    have hwords := words_dropSeparator hseparated
    rw [← words_tidyLine, hsame] at hwords
    exact List.cons_ne_self _ _ hwords.symm
  · intro hnone
    rw [tidyLine, dropSeparator_of_not_separated hnone, ← h]

/-- Words with single spaces between them are separated if a dash is the first of several. -/
theorem separated_spaced_iff {cs : List Char} (h : cs = [' '].intercalate (words cs)) :
    Separated cs ↔ ∃ w ws, words cs = ['-'] :: w :: ws := by
  refine ⟨fun hseparated => ?_, fun ⟨_, _, hwords⟩ => separated_of_words hwords⟩
  have hwords := words_dropSeparator hseparated
  cases hmore : words (dropSeparator cs) with
  | cons w ws => exact ⟨w, ws, by rw [hwords, hmore]⟩
  | nil =>
    rw [hwords, hmore, List.intercalate_singleton] at h
    obtain ⟨front, c, rest, hcs, -, -⟩ := hseparated
    have hlength := congrArg List.length (h.symm.trans hcs)
    simp only [List.length_append, List.length_cons, List.length_nil] at hlength
    omega

/-- One separator goes at a time. -/
theorem tidyLine_tidyLine_iff (cs : List Char) :
    tidyLine (tidyLine cs) = tidyLine cs ↔ ∀ w ws, words cs ≠ ['-'] :: ['-'] :: w :: ws := by
  have hspaced := tidyLine_spaced cs
  rw [tidyLine_eq_self_iff hspaced, separated_spaced_iff hspaced, words_tidyLine]
  simp only [not_exists]
  refine forall_congr' fun w => forall_congr' fun ws => not_congr ?_
  by_cases hseparated : Separated cs
  · rw [words_dropSeparator hseparated, List.cons.injEq]
    simp
  · rw [dropSeparator_of_not_separated hseparated]
    exact iff_of_false (fun h => hseparated (separated_of_words h))
      fun h => hseparated (separated_of_words h)

/-! ### Tags and comments -/

/-- What formatting leaves of a tag. -/
structure Tag.Formatted (t f : Tag) : Prop where
  others : f = { t with description := f.description }
  separated : Separated t.description.toList →
    words t.description.toList = ['-'] :: words f.description.toList
  unseparated : ¬ Separated t.description.toList →
    words f.description.toList = words t.description.toList
  spaced : f.description.toList = [' '].intercalate (words f.description.toList)

theorem Tag.formatted_format (t : Tag) : t.Formatted t.format := by
  have hdescription : t.format.description.toList = tidyLine t.description.toList :=
    String.toList_ofList
  constructor
  case others => rfl
  case separated =>
    intro h
    rw [hdescription, words_tidyLine, words_dropSeparator h]
  case unseparated =>
    intro h
    rw [hdescription, words_tidyLine, dropSeparator_of_not_separated h]
  case spaced =>
    rw [hdescription]
    exact tidyLine_spaced _

theorem Tag.format_format_iff (t : Tag) :
    t.format.format = t.format ↔
      ∀ w ws, words t.description.toList ≠ ['-'] :: ['-'] :: w :: ws := by
  rw [← tidyLine_tidyLine_iff]
  simp [Tag.format, String.ofList_inj]

namespace Comment

/-- Formatting changes nothing of a comment but white space, and the dash in front of the
description of a tag. -/
theorem format_keeps_words (c : Comment) :
    c.format = { c with
      description := c.format.description
      footer := c.format.footer
      tags := c.format.tags } ∧
    words c.format.description.toList = words c.description.toList ∧
    words c.format.footer.toList = words c.footer.toList ∧
    List.Forall₂ Tag.Formatted c.tags c.format.tags ∧
    IsTidy c.format.description.toList ∧ IsTidy c.format.footer.toList := by
  have hdescription : c.format.description.toList = tidyBlock c.description.toList :=
    String.toList_ofList
  have hfooter : c.format.footer.toList = tidyBlock c.footer.toList := String.toList_ofList
  have htags : List.Forall₂ Tag.Formatted c.tags c.format.tags :=
    List.forall₂_map_right_iff.mpr (List.forall₂_same.mpr fun t _ => t.formatted_format)
  rw [hdescription, hfooter]
  exact ⟨rfl, words_tidyBlock _, words_tidyBlock _, htags, isTidy_tidyBlock _, isTidy_tidyBlock _⟩

/-- Formatting a comment twice is the same as formatting it once exactly if no blank line of the
description or the footer hides indentation, and no tag is described behind two dashes. A third
time makes no difference to description and footer. -/
theorem format_twice_iff (c : Comment) :
    (c.format.format = c.format ↔
      BlanksIndented (splitLines c.description.toList) ∧
      BlanksIndented (splitLines c.footer.toList) ∧
      ∀ t ∈ c.tags, ∀ w ws, words t.description.toList ≠ ['-'] :: ['-'] :: w :: ws) ∧
    c.format.format.format.description = c.format.format.description ∧
    c.format.format.format.footer = c.format.format.footer := by
  have htags : (c.tags.map Tag.format).map Tag.format = c.tags.map Tag.format ↔
      ∀ t ∈ c.tags, t.format.format = t.format := by
    rw [List.map_map, List.map_inj_left]
    rfl
  have hfields : c.format.format = c.format ↔
      tidyBlock (tidyBlock c.description.toList) = tidyBlock c.description.toList ∧
      tidyBlock (tidyBlock c.footer.toList) = tidyBlock c.footer.toList ∧
      (c.tags.map Tag.format).map Tag.format = c.tags.map Tag.format := by
    simp [format, String.ofList_inj]
  refine ⟨?_, ?_, ?_⟩
  · rw [hfields, tidyBlock_tidyBlock_iff, tidyBlock_tidyBlock_iff, htags]
    simp only [Tag.format_format_iff]
  · simp [format, tidyBlock_settles]
  · simp [format, tidyBlock_settles]

/-- A blank line that is not indented, of a space that a dedent does not count as indentation,
and a tag that is described behind two dashes. -/
theorem format_twice_differs :
    let hidden : Comment := { description := "  a\n\u00a0\n  b" }
    let dashes : Comment := { tags := [{ title := "param", description := "- - x" }] }
    hidden.format.description = "  a\n\n  b" ∧ hidden.format.format.description = "a\n\nb" ∧
    dashes.format.tags.map (·.description) = ["- x"] ∧
    dashes.format.format.tags.map (·.description) = ["x"] ∧
    hidden.format.format ≠ hidden.format ∧ dashes.format.format ≠ dashes.format := by
  decide +kernel

end Comment

end DocComment
