import DocComment.Proofs.Text.Trim
import DocComment.Text.Lines

/-!
Texts and their lines. Cutting at line feeds and joining with them are inverse to each other,
and what a text says line by line, white space around the lines aside, is not changed by
trimming it, nor by taking a common indentation off its lines.
-/

namespace DocComment.Text

theorem isBlank_newline : isBlank '\n' = true := by decide

theorem isBlank_of_isIndent {c : Char} (h : isIndent c = true) : isBlank c = true := by
  have hc : c = ' ' ∨ c = '\t' := by simpa [isIndent] using h
  rcases hc with rfl | rfl <;> decide

section

variable (p : Char → Bool)

theorem splitBy_ne_nil (cs : List Char) : splitBy p cs ≠ [] := by
  cases cs with
  | nil => simp [splitBy]
  | cons c rest =>
    rw [splitBy]
    split
    · simp
    · split <;> simp

theorem splitBy_cons_of_pos {c : Char} (h : p c = true) (cs : List Char) :
    splitBy p (c :: cs) = [] :: splitBy p cs := by
  rw [splitBy, if_pos h]

theorem splitBy_cons_of_neg {c : Char} (h : p c = false) {cs first : List Char}
    {others : List (List Char)} (hcs : splitBy p cs = first :: others) :
    splitBy p (c :: cs) = (c :: first) :: others := by
  rw [splitBy, if_neg (by simp [h]), hcs]

/-- A text up to a cut and the text behind it are cut separately. -/
theorem splitBy_append_cons {c : Char} (h : p c = true) (as bs : List Char) :
    splitBy p (as ++ c :: bs) = splitBy p as ++ splitBy p bs := by
  induction as with
  | nil => exact splitBy_cons_of_pos p h bs
  | cons a as ih =>
    cases ha : p a with
    | true => rw [List.cons_append, splitBy_cons_of_pos p ha, splitBy_cons_of_pos p ha, ih,
        List.cons_append]
    | false =>
      obtain ⟨first, others, hf⟩ := List.exists_cons_of_ne_nil (splitBy_ne_nil p as)
      have htail : splitBy p (as ++ c :: bs) = first :: (others ++ splitBy p bs) := by
        rw [ih, hf, List.cons_append]
      rw [List.cons_append, splitBy_cons_of_neg p ha hf, splitBy_cons_of_neg p ha htail,
        List.cons_append]

theorem splitBy_of_forall {cs : List Char} (h : ∀ c ∈ cs, p c = false) : splitBy p cs = [cs] := by
  induction cs with
  | nil => rfl
  | cons c cs ih =>
    obtain ⟨hc, hcs⟩ := List.forall_mem_cons.mp h
    exact splitBy_cons_of_neg p hc (ih hcs)

/-- A last character that cuts nothing off belongs to the last piece. -/
theorem splitBy_concat {c : Char} (h : p c = false) (cs : List Char) :
    ∃ front last, splitBy p cs = front ++ [last] ∧
      splitBy p (cs ++ [c]) = front ++ [last ++ [c]] := by
  induction cs with
  | nil => exact ⟨[], [], rfl, splitBy_cons_of_neg p h rfl⟩
  | cons a cs ih =>
    obtain ⟨front, last, hcs, hc⟩ := ih
    cases ha : p a with
    | true =>
      refine ⟨[] :: front, last, ?_, ?_⟩
      · rw [splitBy_cons_of_pos p ha, hcs, List.cons_append]
      · rw [List.cons_append, splitBy_cons_of_pos p ha, hc, List.cons_append]
    | false =>
      cases front with
      | nil => exact ⟨[], a :: last, splitBy_cons_of_neg p ha hcs, splitBy_cons_of_neg p ha hc⟩
      | cons first front =>
        exact ⟨(a :: first) :: front, last, splitBy_cons_of_neg p ha hcs,
          splitBy_cons_of_neg p ha hc⟩

theorem not_of_mem_splitBy {cs piece : List Char} (h : piece ∈ splitBy p cs) :
    ∀ c ∈ piece, p c = false := by
  induction cs generalizing piece with
  | nil =>
    rw [List.mem_singleton.mp h]
    simp
  | cons a cs ih =>
    cases ha : p a with
    | true =>
      rw [splitBy_cons_of_pos p ha] at h
      rcases List.mem_cons.mp h with rfl | h
      · simp
      · exact ih h
    | false =>
      obtain ⟨first, others, hf⟩ := List.exists_cons_of_ne_nil (splitBy_ne_nil p cs)
      rw [splitBy_cons_of_neg p ha hf] at h
      rcases List.mem_cons.mp h with rfl | h
      · exact List.forall_mem_cons.mpr ⟨ha, ih (hf ▸ List.mem_cons_self)⟩
      · exact ih (hf ▸ List.mem_cons_of_mem _ h)

end

theorem newline_notMem_of_mem_splitLines {cs line : List Char} (h : line ∈ splitLines cs) :
    '\n' ∉ line := fun hm => by
  have := not_of_mem_splitBy isNewline h '\n' hm
  cases this

theorem splitLines_of_notMem {line : List Char} (h : '\n' ∉ line) : splitLines line = [line] := by
  refine splitBy_of_forall isNewline fun c hc => ?_
  rw [isNewline, beq_eq_false_iff_ne]
  rintro rfl
  exact h hc

theorem splitLines_cons_newline (cs : List Char) :
    splitLines ('\n' :: cs) = [] :: splitLines cs :=
  splitBy_cons_of_pos isNewline rfl cs

/-- A character that is no line feed belongs to the first line. -/
theorem splitLines_cons {c : Char} (h : c ≠ '\n') (cs : List Char) :
    ∃ first others, splitLines cs = first :: others ∧
      splitLines (c :: cs) = (c :: first) :: others := by
  have hc : isNewline c = false := beq_eq_false_iff_ne.mpr h
  obtain ⟨first, others, hf⟩ := List.exists_cons_of_ne_nil (splitBy_ne_nil isNewline cs)
  exact ⟨first, others, hf, splitBy_cons_of_neg isNewline hc hf⟩

theorem splitLines_all_blank_iff {cs : List Char} :
    (∀ line ∈ splitLines cs, line.all isBlank = true) ↔ ∀ c ∈ cs, isBlank c = true := by
  induction cs with
  | nil => simp [splitLines, splitBy]
  | cons c cs ih =>
    by_cases hc : c = '\n'
    · subst hc
      rw [splitLines_cons_newline, List.forall_mem_cons, List.forall_mem_cons, ih]
      simp [isBlank_newline]
    · obtain ⟨first, others, hcs, hcons⟩ := splitLines_cons hc cs
      rw [hcs, List.forall_mem_cons] at ih
      rw [hcons, List.forall_mem_cons, List.forall_mem_cons, ← ih, List.all_cons,
        Bool.and_eq_true, and_assoc]

theorem joinLines_cons_cons (line next : List Char) (rest : List (List Char)) :
    joinLines (line :: next :: rest) = line ++ ['\n'] ++ joinLines (next :: rest) :=
  List.intercalate_cons_cons

theorem splitLines_joinLines {lines : List (List Char)} (hne : lines ≠ [])
    (h : ∀ line ∈ lines, '\n' ∉ line) : splitLines (joinLines lines) = lines := by
  induction lines with
  | nil => exact absurd rfl hne
  | cons line rest ih =>
    obtain ⟨hline, hrest⟩ := List.forall_mem_cons.mp h
    cases rest with
    | nil =>
      rw [joinLines, List.intercalate_singleton]
      exact splitLines_of_notMem hline
    | cons next rest =>
      have hcut : splitLines (joinLines (line :: next :: rest)) =
          splitLines line ++ splitLines (joinLines (next :: rest)) := by
        rw [joinLines_cons_cons, List.append_assoc]
        exact splitBy_append_cons isNewline rfl _ _
      rw [hcut, splitLines_of_notMem hline, ih (by simp) hrest, List.singleton_append]

theorem joinLines_splitLines (cs : List Char) : joinLines (splitLines cs) = cs := by
  induction cs with
  | nil => rfl
  | cons c cs ih =>
    by_cases hc : c = '\n'
    · subst hc
      obtain ⟨first, others, hcs⟩ := List.exists_cons_of_ne_nil (splitBy_ne_nil isNewline cs)
      rw [splitLines_cons_newline, splitLines, hcs, joinLines_cons_cons, ← hcs]
      exact congrArg ('\n' :: ·) ih
    · obtain ⟨first, others, hcs, hcons⟩ := splitLines_cons hc cs
      rw [hcs] at ih
      rw [hcons, ← ih]
      cases others with
      | nil => simp [joinLines]
      | cons next others => simp [joinLines_cons_cons]

theorem joinLines_concat {lines : List (List Char)} (hne : lines ≠ []) (line : List Char) :
    joinLines (lines ++ [line]) = joinLines lines ++ '\n' :: line := by
  induction lines with
  | nil => exact absurd rfl hne
  | cons first rest ih =>
    cases rest with
    | nil => simp [joinLines, List.intercalate_cons_cons]
    | cons next rest =>
      rw [List.cons_append, List.cons_append, joinLines_cons_cons, ← List.cons_append,
        ih (by simp), joinLines_cons_cons]
      simp

theorem joinLines_ne_nil {lines : List (List Char)} (hne : lines ≠ [])
    (h : ∀ line ∈ lines, line ≠ []) : joinLines lines ≠ [] := by
  cases lines with
  | nil => exact absurd rfl hne
  | cons line rest =>
    have hline := h line List.mem_cons_self
    cases rest with
    | nil => simpa [joinLines] using hline
    | cons next rest => simp [joinLines_cons_cons, hline]

/-- Lines that are trimmed and not empty make up a text that is trimmed. -/
theorem trim_joinLines {lines : List (List Char)}
    (h : ∀ line ∈ lines, trim line = line ∧ line ≠ []) :
    trim (joinLines lines) = joinLines lines := by
  induction lines with
  | nil => rfl
  | cons line rest ih =>
    obtain ⟨hline, hrest⟩ := List.forall_mem_cons.mp h
    cases rest with
    | nil => simpa [joinLines] using hline.1
    | cons next rest =>
      have hback : joinLines (next :: rest) ≠ [] :=
        joinLines_ne_nil (by simp) fun l hl => (hrest l hl).2
      rw [joinLines_cons_cons]
      exact trim_append_of_trimmed hline.1 hline.2 (ih hrest) hback

/-- What the lines say: each without the white space around it, and only those that say
anything. -/
def kept (lines : List (List Char)) : List (List Char) :=
  (lines.map trim).filter fun line => !line.isEmpty

/-- What a text says line by line. -/
def textLines (cs : List Char) : List (List Char) := kept (splitLines cs)

@[simp]
theorem kept_nil : kept [] = [] := rfl

@[simp]
theorem kept_append (as bs : List (List Char)) : kept (as ++ bs) = kept as ++ kept bs := by
  rw [kept, List.map_append, List.filter_append]
  rfl

theorem kept_cons (line : List Char) (lines : List (List Char)) :
    kept (line :: lines) = kept [line] ++ kept lines := kept_append [line] lines

theorem kept_singleton_congr {a b : List Char} (h : trim a = trim b) : kept [a] = kept [b] := by
  simp only [kept, List.map_cons, List.map_nil, h]

theorem kept_trim (line : List Char) : kept [trim line] = kept [line] :=
  kept_singleton_congr (trim_trim line)

theorem kept_of_forall_blank {line : List Char} (h : ∀ c ∈ line, isBlank c = true) :
    kept [line] = [] :=
  kept_singleton_congr (a := line) (b := []) (trim_eq_nil_iff.mpr h)

theorem textLines_cons_of_blank {c : Char} (h : isBlank c = true) (cs : List Char) :
    textLines (c :: cs) = textLines cs := by
  by_cases hc : c = '\n'
  · subst hc
    rw [textLines, splitLines_cons_newline]
    rfl
  · obtain ⟨first, others, hcs, hcons⟩ := splitLines_cons hc cs
    rw [textLines, textLines, hcons, hcs, kept_cons, kept_cons first,
      kept_singleton_congr (trim_cons_of_blank h first)]

theorem textLines_concat_of_blank {c : Char} (h : isBlank c = true) (cs : List Char) :
    textLines (cs ++ [c]) = textLines cs := by
  cases hc : isNewline c with
  | true =>
    rw [textLines, splitLines, splitBy_append_cons isNewline hc, kept_append]
    exact List.append_nil _
  | false =>
    obtain ⟨front, last, hcs, happ⟩ := splitBy_concat isNewline hc cs
    rw [textLines, textLines, splitLines, splitLines, happ, hcs, kept_append, kept_append,
      kept_singleton_congr (trim_concat_of_blank h last)]

section

variable {p : Char → Bool} (hp : ∀ c, p c = true → isBlank c = true)

include hp in
theorem textLines_dropWhile (cs : List Char) : textLines (cs.dropWhile p) = textLines cs := by
  induction cs with
  | nil => rfl
  | cons c cs ih =>
    cases hc : p c with
    | true => rw [List.dropWhile_cons_of_pos hc, textLines_cons_of_blank (hp c hc), ih]
    | false => rw [List.dropWhile_cons_of_neg (by simp [hc])]

include hp in
theorem textLines_trimEndBy (cs : List Char) : textLines (trimEndBy p cs) = textLines cs := by
  induction cs using List.reverseRecOn with
  | nil => rfl
  | append_singleton cs c ih =>
    cases hc : p c with
    | true =>
      rw [textLines_concat_of_blank (hp c hc), ← ih]
      exact congrArg textLines (List.rdropWhile_concat_pos p cs c hc)
    | false => exact congrArg textLines (List.rdropWhile_concat_neg p cs c (by simp [hc]))

include hp in
/-- A trim that takes nothing but blanks does not change what the lines say. -/
theorem textLines_trimBy (cs : List Char) : textLines (trimBy p cs) = textLines cs :=
  (textLines_trimEndBy hp _).trans (textLines_dropWhile hp cs)

end

theorem textLines_trimEnd (cs : List Char) : textLines (trimEnd cs) = textLines cs :=
  textLines_trimEndBy (fun _ h => h) cs

theorem textLines_trim (cs : List Char) : textLines (trim cs) = textLines cs :=
  textLines_trimBy (fun _ h => h) cs

theorem textLines_joinLines {lines : List (List Char)} (h : ∀ line ∈ lines, '\n' ∉ line) :
    textLines (joinLines lines) = kept lines := by
  cases lines with
  | nil => rfl
  | cons line rest => rw [textLines, splitLines_joinLines (by simp) h]

theorem commonPrefix_prefix (as bs : List Char) :
    commonPrefix as bs <+: as ∧ commonPrefix as bs <+: bs := by
  induction as generalizing bs with
  | nil => exact ⟨List.prefix_rfl, List.nil_prefix⟩
  | cons a as ih =>
    cases bs with
    | nil => exact ⟨List.nil_prefix, List.prefix_rfl⟩
    | cons b bs =>
      rw [commonPrefix]
      split
      · next h =>
        obtain ⟨has, hbs⟩ := ih bs
        exact ⟨List.cons_prefix_cons.mpr ⟨rfl, has⟩, List.cons_prefix_cons.mpr ⟨h, hbs⟩⟩
      · exact ⟨List.nil_prefix, List.nil_prefix⟩

theorem foldl_commonPrefix_prefix (first : List Char) (others : List (List Char)) :
    ∀ line ∈ first :: others, others.foldl commonPrefix first <+: line := by
  induction others generalizing first with
  | nil =>
    intro line h
    rw [List.mem_singleton.mp h]
    exact List.prefix_rfl
  | cons next others ih =>
    intro line h
    have hshared := ih (commonPrefix first next) _ List.mem_cons_self
    have hboth := commonPrefix_prefix first next
    rcases List.mem_cons.mp h with rfl | h
    · exact hshared.trans hboth.1
    · rcases List.mem_cons.mp h with rfl | h
      · exact hshared.trans hboth.2
      · exact ih _ line (List.mem_cons_of_mem _ h)

/-- The margin stands in front of every line that is not empty, and is indentation. -/
theorem margin_prefix {lines : List (List Char)} {line : List Char} (hm : line ∈ lines)
    (hne : line ≠ []) : margin lines <+: line.takeWhile isIndent := by
  have hmem : line.takeWhile isIndent ∈
      (lines.filter fun l => !l.isEmpty).map (·.takeWhile isIndent) :=
    List.mem_map_of_mem (List.mem_filter.mpr ⟨hm, by simpa using hne⟩)
  unfold margin
  split
  · next h =>
    rw [h] at hmem
    cases hmem
  · next first others h =>
    rw [h] at hmem
    exact foldl_commonPrefix_prefix first others _ hmem

theorem trim_drop_margin {lines : List (List Char)} {line : List Char} (hm : line ∈ lines) :
    trim (line.drop (margin lines).length) = trim line := by
  by_cases hne : line = []
  · rw [hne, List.drop_nil]
  · have hindent := margin_prefix hm hne
    obtain ⟨rest, hrest⟩ := hindent.trans (List.takeWhile_prefix isIndent)
    have hblank : ∀ c ∈ margin lines, isBlank c = true := fun c hc =>
      isBlank_of_isIndent (List.mem_takeWhile_imp (hindent.subset hc))
    rw [← hrest, List.drop_left, trim_append_of_blank hblank]

/-- A dedent takes nothing but indentation off its lines. -/
theorem map_trim_dedent (lines : List (List Char)) :
    (dedent lines).map trim = lines.map trim := by
  have hclear (line : List Char) : trim (if line.all isIndent then [] else line) = trim line := by
    split
    · next h =>
      symm
      refine trim_eq_nil_iff.mpr fun c hc => isBlank_of_isIndent ?_
      exact List.all_eq_true.mp h c hc
    · rfl
  simp only [dedent, List.map_map]
  refine List.map_congr_left fun line hm => ?_
  exact (trim_drop_margin (List.mem_map_of_mem hm)).trans (hclear line)

theorem kept_dedent (lines : List (List Char)) : kept (dedent lines) = kept lines := by
  rw [kept, map_trim_dedent, kept]

theorem newline_notMem_of_mem_dedent {lines : List (List Char)}
    (h : ∀ line ∈ lines, '\n' ∉ line) : ∀ line ∈ dedent lines, '\n' ∉ line := by
  intro line hm hn
  simp only [dedent, List.map_map] at hm
  obtain ⟨before, hb, rfl⟩ := List.mem_map.mp hm
  have hcleared := List.mem_of_mem_drop hn
  dsimp only at hcleared
  split at hcleared
  · cases hcleared
  · exact h before hb hcleared

/-- Neither the dedent nor the trim of a block changes what its lines say. -/
theorem textLines_textBlock {lines : List (List Char)} (h : ∀ line ∈ lines, '\n' ∉ line) :
    textLines (textBlock lines) = kept lines := by
  rw [textBlock, textLines_trim, textLines_joinLines (newline_notMem_of_mem_dedent h),
    kept_dedent]

theorem textLines_codeBlock {lines : List (List Char)} (h : ∀ line ∈ lines, '\n' ∉ line) :
    textLines (codeBlock lines) = kept lines := by
  have hnewline (c : Char) (hc : isNewline c = true) : isBlank c = true := by
    rw [eq_of_beq hc, isBlank_newline]
  rw [codeBlock, textLines_trimBy hnewline, textLines_joinLines (newline_notMem_of_mem_dedent h),
    kept_dedent]

theorem textLines_eq_nil_iff {cs : List Char} :
    textLines cs = [] ↔ ∀ c ∈ cs, isBlank c = true := by
  rw [← splitLines_all_blank_iff, textLines, kept, List.filter_eq_nil_iff, List.forall_mem_map]
  simp only [Bool.not_eq_true', Bool.not_eq_false, List.isEmpty_iff, trim_eq_nil_iff,
    List.all_eq_true]

/-- A trimmed text of which at most one line says anything has no other lines. -/
theorem eq_headD_textLines {cs : List Char} (h : trim cs = cs) (hone : (textLines cs).length ≤ 1) :
    cs = (textLines cs).headD [] := by
  have hnewline : '\n' ∉ cs := by
    intro hm
    obtain ⟨front, back, rfl⟩ := List.append_of_mem hm
    rw [textLines, splitLines, splitBy_append_cons isNewline rfl, kept_append] at hone
    obtain ⟨hhead, hlast⟩ := trim_eq_self_iff.mp h
    have hfront : textLines front ≠ [] := by
      rw [ne_eq, textLines_eq_nil_iff]
      intro hblank
      cases front with
      | nil => cases hhead '\n' rfl
      | cons c front =>
        have hc := hhead c rfl
        rw [hblank c List.mem_cons_self] at hc
        cases hc
    have hback : textLines back ≠ [] := by
      rw [ne_eq, textLines_eq_nil_iff]
      intro hblank
      rw [List.getLast?_append_of_ne_nil _ (by simp)] at hlast
      cases hb : back.getLast? with
      | none =>
        rw [List.getLast?_eq_none_iff.mp hb] at hlast
        cases hlast '\n' rfl
      | some c =>
        have hc := hlast c (by rw [List.getLast?_cons, hb]; rfl)
        rw [hblank c (List.mem_of_getLast? hb)] at hc
        cases hc
    have hf := List.length_pos_iff.mpr hfront
    have hb := List.length_pos_iff.mpr hback
    rw [List.length_append] at hone
    rw [textLines, splitLines] at hf hb
    omega
  rw [textLines, splitLines_of_notMem hnewline]
  by_cases hnil : cs = []
  · subst cs
    rfl
  · simp [kept, h, hnil]

section

variable {p : Char → Bool} (hp : p '\n' = true) (lines : List (List Char))

include hp in
theorem trimBy_joinLines_nil_cons :
    trimBy p (joinLines ([] :: lines)) = trimBy p (joinLines lines) := by
  cases lines with
  | nil => rfl
  | cons line rest =>
    rw [joinLines_cons_cons, trimBy, List.nil_append, List.singleton_append,
      List.dropWhile_cons_of_pos hp]
    rfl

include hp in
theorem trimBy_joinLines_concat_nil :
    trimBy p (joinLines (lines ++ [[]])) = trimBy p (joinLines lines) := by
  by_cases hne : lines = []
  · rw [hne]
    rfl
  · rw [joinLines_concat hne]
    exact trimBy_append_of_forall (by simpa using hp) _

end

theorem margin_concat_nil (lines : List (List Char)) : margin (lines ++ [[]]) = margin lines := by
  simp [margin]

/-- Empty lines have no part in the margin. -/
theorem dedent_nil_cons (lines : List (List Char)) : dedent ([] :: lines) = [] :: dedent lines := by
  simp [dedent, margin]

/-- A line of indentation only is cleared before the margin is taken. -/
theorem dedent_concat {pad : List Char} (h : pad.all isIndent = true)
    (lines : List (List Char)) : dedent (lines ++ [pad]) = dedent lines ++ [[]] := by
  simp only [dedent, List.map_append, List.map_cons, List.map_nil, h, if_true, margin_concat_nil,
    List.drop_nil]

theorem textBlock_nil_cons (lines : List (List Char)) :
    textBlock ([] :: lines) = textBlock lines := by
  rw [textBlock, dedent_nil_cons]
  exact trimBy_joinLines_nil_cons isBlank_newline _

theorem textBlock_concat {pad : List Char} (h : pad.all isIndent = true)
    (lines : List (List Char)) : textBlock (lines ++ [pad]) = textBlock lines := by
  rw [textBlock, dedent_concat h]
  exact trimBy_joinLines_concat_nil isBlank_newline _

theorem codeBlock_concat {pad : List Char} (h : pad.all isIndent = true)
    (lines : List (List Char)) : codeBlock (lines ++ [pad]) = codeBlock lines := by
  rw [codeBlock, dedent_concat h]
  exact trimBy_joinLines_concat_nil rfl _

end DocComment.Text
