import DocComment.Text.Blank
import DocComment.Text.Digit
import DocComment.Text.Word

/-!
Classes of characters and how they exclude each other. Ranges of code points that lie apart
share no character, which is decided range by range.
-/

namespace DocComment.Text

theorem exists_of_inRanges {ranges : List (Nat × Nat)} {n : Nat} (h : inRanges ranges n = true) :
    ∃ r ∈ ranges, r.1 ≤ n ∧ n ≤ r.2 := by
  fun_induction inRanges ranges n with
  | case1 => cases h
  | case2 => cases h
  | case3 low high rest n hlow ih =>
    rcases Bool.or_eq_true_iff.mp h with h | h
    · exact ⟨(low, high), List.mem_cons_self, Nat.not_lt.mp hlow, of_decide_eq_true h⟩
    · obtain ⟨r, hr, hn⟩ := ih h
      exact ⟨r, List.mem_cons_of_mem _ hr, hn⟩

theorem inRanges_disjoint {ranges others : List (Nat × Nat)} {n : Nat}
    (hd : ∀ r ∈ ranges, ∀ s ∈ others, r.2 < s.1 ∨ s.2 < r.1) (h : inRanges ranges n = true) :
    inRanges others n = false := by
  refine Bool.eq_false_iff.mpr fun h' => ?_
  obtain ⟨r, hr, hrn⟩ := exists_of_inRanges h
  obtain ⟨s, hs, hsn⟩ := exists_of_inRanges h'
  have := hd r hr s hs
  omega

/-- The letters of ASCII, the underscore and the dollar sign. -/
def nameStartRanges : List (Nat × Nat) := [(36, 36), (65, 90), (95, 95), (97, 122)]

theorem nameStart_ranges {c : Char} (h : isNameStart c = true) :
    inRanges nameStartRanges c.toNat = true := by
  simp only [isNameStart, Bool.or_eq_true, beq_iff_eq] at h
  rcases h with (h | rfl) | rfl
  · have letters : ∀ n < 128, (65 ≤ n ∧ n ≤ 90) ∨ (97 ≤ n ∧ n ≤ 122) →
        inRanges nameStartRanges n = true := by decide
    change (decide (c.val ≥ 65 ∧ c.val ≤ 90) || (decide (c.val ≥ 97) && decide (c.val ≤ 122)))
      = true at h
    simp only [Bool.or_eq_true, Bool.and_eq_true, decide_eq_true_eq, ge_iff_le,
      UInt32.le_iff_toNat_le] at h
    have : (65 ≤ c.val.toNat ∧ c.val.toNat ≤ 90) ∨ (97 ≤ c.val.toNat ∧ c.val.toNat ≤ 122) := h
    exact letters _ (by simp only [Char.toNat]; omega) this
  · decide
  · decide

theorem isDigit_of_isNameStart {c : Char} (h : isNameStart c = true) : isDigit c = false :=
  inRanges_disjoint (by decide) (nameStart_ranges h)

theorem isBlank_of_isNameStart {c : Char} (h : isNameStart c = true) : isBlank c = false :=
  inRanges_disjoint (by decide) (nameStart_ranges h)

theorem isBlank_of_isAlpha {c : Char} (h : c.isAlpha = true) : isBlank c = false :=
  isBlank_of_isNameStart (by simp [isNameStart, h])

theorem isBlank_of_isDigit {c : Char} (h : isDigit c = true) : isBlank c = false :=
  inRanges_disjoint (by decide) (show inRanges digitRanges c.toNat = true from h)

theorem isNameChar_of_isNameStart {c : Char} (h : isNameStart c = true) :
    isNameChar c = true := by
  simp only [isNameStart, Bool.or_eq_true, beq_iff_eq] at h
  rcases h with (h | rfl) | rfl
  · simp [isNameChar, isWord_of_isAlpha h]
  · decide
  · decide

theorem isWord_of_isBlank {c : Char} (h : isBlank c = true) : isWord c = false := by
  have each : ∀ r ∈ blankRanges, ∀ k < r.2 - r.1 + 1, inRanges wordRanges (r.1 + k) = false := by
    decide +kernel
  obtain ⟨r, hr, hlow, hhigh⟩ := exists_of_inRanges h
  have := each r hr (c.toNat - r.1) (by omega)
  rwa [Nat.add_sub_cancel' hlow] at this

end DocComment.Text
