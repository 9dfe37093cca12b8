import DocComment.Body.Line
import DocComment.Proofs.Text.Classes
import DocComment.Proofs.Text.Lines
import DocComment.Text.Search

/-!
Lines of a body, and the texts of its tags. Whether a line opens something is seen behind the
white space in front of it, and a trim never makes it open what it did not open before. So the
lines of a tag, which are trimmed one by one, still open nothing after the first.
-/

namespace DocComment.Body

open Text

theorem isTagLine_iff {line : Line} :
    isTagLine line = true ↔
      ∃ c rest, trimStart line = '@' :: c :: rest ∧ c.isAlpha = true := by
  constructor
  · intro h
    unfold isTagLine at h
    split at h
    · next c rest hc => exact ⟨c, rest, hc, h⟩
    · cases h
  · rintro ⟨c, rest, hc, hletter⟩
    unfold isTagLine
    rw [hc]
    exact hletter

/-- The at sign and the letter that open a tag are still there after a trim. -/
theorem trim_of_isTagLine {line : Line} (h : isTagLine line = true) :
    ∃ c rest, trim line = '@' :: c :: rest ∧ c.isAlpha = true := by
  obtain ⟨c, rest, hc, hletter⟩ := isTagLine_iff.mp h
  obtain ⟨tail, hline, hblank⟩ := trimStart_eq_trim_append line
  have happ : trim line ++ tail = '@' :: c :: rest := hline.symm.trans hc
  cases ht : trim line with
  | nil =>
    rw [ht, List.nil_append] at happ
    have hat := hblank '@' (happ ▸ List.mem_cons_self)
    cases hat
  | cons a front =>
    rw [ht, List.cons_append] at happ
    injection happ with ha happ
    cases front with
    | nil =>
      have hc := hblank c (by rw [List.nil_append] at happ; simp [happ])
      rw [isBlank_of_isAlpha hletter] at hc
      cases hc
    | cons b front =>
      injection happ with hb happ
      exact ⟨b, front, by rw [ha], hb ▸ hletter⟩

theorem exampleTitle?_isSome_iff {line : Line} :
    (exampleTitle? line).isSome = true ↔
      ∃ rest, trimStart line = "@example".toList ++ rest ∧
        ∀ c ∈ rest.head?, isWord c = false := by
  constructor
  · intro h
    unfold exampleTitle? at h
    split at h
    · cases h
    · next rest hr =>
      refine ⟨rest, (isPrefixOf?_append hr).symm, ?_⟩
      split at h
      · intro c hc
        cases hc
      · next c rest' hr' =>
        split at h
        · cases h
        · next hword =>
          intro d hd
          cases hd
          exact Bool.eq_false_iff.mpr hword
  · rintro ⟨rest, hr, hword⟩
    unfold exampleTitle?
    rw [hr, isPrefixOf?_self]
    cases rest with
    | nil => rfl
    | cons c rest => simp [hword c rfl]

theorem fence?_isSome_iff {line : Line} :
    (fence? line).isSome = true ↔
      ∃ mark ∈ ['\x60', '~'], 3 ≤ ((trimStart line).takeWhile (· == mark)).length := by
  have hmark (mark : Char) (cs : List Char) :
      (fenceOf? mark cs).isSome = true ↔ 3 ≤ (cs.takeWhile (· == mark)).length := by
    unfold fenceOf?
    dsimp only
    split
    · next h => simp [h]
    · next h => simp [h]
  unfold fence?
  simp [hmark]

/-- What opens fenced code is the same mark three times or more. -/
theorem marker_of_fence? {line : Line} {fence : Fence} (h : fence? line = some fence) :
    ∃ mark ∈ ['\x60', '~'], fence.marker = (trimStart line).takeWhile (· == mark) ∧
      3 ≤ fence.marker.length := by
  have hmark {mark : Char} (h : fenceOf? mark (trimStart line) = some fence) :
      fence.marker = (trimStart line).takeWhile (· == mark) ∧ 3 ≤ fence.marker.length := by
    unfold fenceOf? at h
    dsimp only at h
    split at h
    · next hlong =>
      cases h
      exact ⟨rfl, hlong⟩
    · cases h
  rw [fence?, Option.orElse_eq_orElse, Option.orElse_eq_or, Option.or_eq_some_iff] at h
  rcases h with h | ⟨-, h⟩
  · exact ⟨_, List.mem_cons_self, hmark h⟩
  · exact ⟨_, List.mem_cons_of_mem _ List.mem_cons_self, hmark h⟩

/-- A marker is made of one mark. -/
theorem mem_marker {line : Line} {fence : Fence} (h : fence? line = some fence) :
    ∃ mark ∈ ['\x60', '~'], 3 ≤ fence.marker.length ∧ ∀ c ∈ fence.marker, c = mark := by
  obtain ⟨mark, hmark, hmarker, hlong⟩ := marker_of_fence? h
  refine ⟨mark, hmark, hlong, fun c hc => ?_⟩
  rw [hmarker] at hc
  have hsame := List.mem_takeWhile_imp hc
  exact eq_of_beq hsame

theorem isTagLine_of_trim {line : Line} (h : isTagLine (trim line) = true) :
    isTagLine line = true := by
  obtain ⟨tail, hline, -⟩ := trimStart_eq_trim_append line
  obtain ⟨c, rest, hc, hletter⟩ := isTagLine_iff.mp h
  rw [trimStart_trim] at hc
  exact isTagLine_iff.mpr ⟨c, rest ++ tail, by rw [hline, hc]; rfl, hletter⟩

theorem exampleTitle?_of_trim {line : Line} (h : (exampleTitle? (trim line)).isSome = true) :
    (exampleTitle? line).isSome = true := by
  obtain ⟨tail, hline, hblank⟩ := trimStart_eq_trim_append line
  obtain ⟨rest, hr, hword⟩ := exampleTitle?_isSome_iff.mp h
  rw [trimStart_trim] at hr
  refine exampleTitle?_isSome_iff.mpr ⟨rest ++ tail, ?_, ?_⟩
  · rw [hline, hr, List.append_assoc]
  · -- Only if the title was all there is does the blank tail come next.
    intro c hc
    cases rest with
    | nil => exact isWord_of_isBlank (hblank c (List.mem_of_mem_head? hc))
    | cons d rest => exact hword c hc

theorem fence?_of_trim {line : Line} (h : (fence? (trim line)).isSome = true) :
    (fence? line).isSome = true := by
  obtain ⟨tail, hline, -⟩ := trimStart_eq_trim_append line
  obtain ⟨mark, hmark, hlong⟩ := fence?_isSome_iff.mp h
  rw [trimStart_trim] at hlong
  refine fence?_isSome_iff.mpr ⟨mark, hmark, ?_⟩
  rw [hline, List.takeWhile_append]
  split
  · rw [List.length_append]
    omega
  · exact hlong

/-- A line that opens neither a tag, nor an example, nor fenced code. -/
structure IsPlain (line : Line) : Prop where
  tag : isTagLine line = false
  title : exampleTitle? line = none
  fence : fence? line = none

/-- A trimmed line opens only what the line itself opens. -/
theorem IsPlain.trim {line : Line} (h : IsPlain line) : IsPlain (trim line) := by
  constructor
  · refine Bool.eq_false_iff.mpr fun hopens => ?_
    have := isTagLine_of_trim hopens
    rw [h.tag] at this
    cases this
  · refine Option.not_isSome_iff_eq_none.mp fun hopens => ?_
    have := exampleTitle?_of_trim hopens
    rw [h.title] at this
    cases this
  · refine Option.not_isSome_iff_eq_none.mp fun hopens => ?_
    have := fence?_of_trim hopens
    rw [h.fence] at this
    cases this

theorem stripGutter_suffix (line : Line) : stripGutter line <:+ line := by
  have hstart : trimStart line <:+ line := List.dropWhile_suffix isBlank
  unfold stripGutter
  split
  · next rest h =>
    rw [h] at hstart
    exact (List.suffix_append ['*', ' '] rest).trans hstart
  · next rest _ h =>
    rw [h] at hstart
    exact (List.suffix_cons '*' rest).trans hstart
  · exact List.suffix_rfl

/-- The text of a tag. It is what splitting it into title, type and name relies on. -/
structure TagText (cs : List Char) : Prop where
  opens : ∃ c rest, cs = '@' :: c :: rest ∧ c.isAlpha = true
  trimmed : trim cs = cs
  plain : ∀ line ∈ (splitLines cs).tail, IsPlain line

/-- The lines collected for a tag. -/
structure TagLines (lines : List Line) : Prop where
  opens : ∃ c rest later, lines = ('@' :: c :: rest) :: later ∧ c.isAlpha = true
  trimmed : ∀ line ∈ lines, trim line = line ∧ line ≠ []
  single : ∀ line ∈ lines, '\n' ∉ line
  plain : ∀ line ∈ lines.tail, IsPlain line

namespace TagLines

variable {lines : List Line} {line : Line}

theorem opening (h : isTagLine line = true) (hn : '\n' ∉ line) : TagLines [trim line] := by
  obtain ⟨c, rest, htrim, hletter⟩ := trim_of_isTagLine h
  refine ⟨⟨c, rest, [], by rw [htrim], hletter⟩, ?_, ?_, ?_⟩
  · rw [List.forall_mem_singleton]
    exact ⟨trim_trim line, by simp [htrim]⟩
  · rw [List.forall_mem_singleton]
    exact fun hm => hn (trim_subset line hm)
  · intro l hl
    cases hl

theorem concat (h : TagLines lines) (hp : IsPlain line) (hb : isBlankLine line = false)
    (hn : '\n' ∉ line) : TagLines (lines ++ [trim line]) := by
  have hne : trim line ≠ [] := by
    intro he
    rw [isBlankLine, List.all_eq_true.mpr (trim_eq_nil_iff.mp he)] at hb
    cases hb
  obtain ⟨⟨c, rest, later, rfl, hletter⟩, htrimmed, hsingle, hplain⟩ := h
  refine ⟨⟨c, rest, later ++ [trim line], rfl, hletter⟩, ?_, ?_, ?_⟩
  · rw [List.forall_mem_append, List.forall_mem_singleton]
    exact ⟨htrimmed, trim_trim line, hne⟩
  · rw [List.forall_mem_append, List.forall_mem_singleton]
    exact ⟨hsingle, fun hm => hn (trim_subset line hm)⟩
  · rw [List.cons_append, List.tail_cons, List.forall_mem_append, List.forall_mem_singleton]
    exact ⟨hplain, hp.trim⟩

theorem splitLines_joinLines (h : TagLines lines) : splitLines (joinLines lines) = lines := by
  obtain ⟨c, rest, later, rfl, hletter⟩ := h.opens
  exact Text.splitLines_joinLines (by simp) h.single

theorem tagText (h : TagLines lines) : TagText (trim (joinLines lines)) := by
  rw [trim_joinLines h.trimmed]
  constructor
  · obtain ⟨c, rest, later, rfl, hletter⟩ := h.opens
    cases later with
    | nil => exact ⟨c, rest, List.intercalate_singleton, hletter⟩
    | cons next later =>
      exact ⟨c, rest ++ ['\n'] ++ joinLines (next :: later), joinLines_cons_cons _ _ _, hletter⟩
  · exact trim_joinLines h.trimmed
  · rw [h.splitLines_joinLines]
    exact h.plain

end TagLines

end DocComment.Body
