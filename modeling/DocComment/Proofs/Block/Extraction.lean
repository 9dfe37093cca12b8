import DocComment.Proofs.Block.Spans
import DocComment.Proofs.Text.Lines
import Mathlib.Data.List.Forall2

/-!
What extraction says of a source is exactly what stands there. Every block is a comment of the
source, at its place and with its lines counted, its code is told from the first line behind it
that says something, and what is not cut out of the source is no comment.
-/

namespace DocComment

open Text

/-- The first line of a text with a character that is not blank. -/
def Text.firstLine? (cs : List Char) : Option (List Char) :=
  (splitLines cs).find? fun line => !line.all isBlank

/-- The number of the line on which an offset lies. Lines count from one. -/
def Text.lineAt (source : List Char) (offset : Nat) : Int :=
  1 + (source.take offset).count '\n'

namespace Text

theorem firstLine?_eq_none_iff {cs : List Char} :
    firstLine? cs = none ↔ ∀ c ∈ cs, isBlank c = true := by
  rw [← splitLines_all_blank_iff, firstLine?, List.find?_eq_none]
  simp

/-- The first line that says something comes after the line feeds among the leading blanks. -/
theorem findIdx_splitLines {cs : List Char} (h : ¬ ∀ c ∈ cs, isBlank c = true) :
    (splitLines cs).findIdx (fun line => !line.all isBlank) =
      (cs.takeWhile isBlank).count '\n' := by
  induction cs with
  | nil => exact absurd (by simp) h
  | cons c cs ih =>
    cases hb : isBlank c with
    | false =>
      have hc : c ≠ '\n' := by
        rintro rfl
        rw [isBlank_newline] at hb
        cases hb
      obtain ⟨first, others, -, hcons⟩ := splitLines_cons hc cs
      rw [hcons, List.takeWhile_cons_of_neg (by simp [hb])]
      simp [List.findIdx_cons, hb]
    | true =>
      have hcs : ¬ ∀ c ∈ cs, isBlank c = true := fun hall =>
        h (List.forall_mem_cons.mpr ⟨hb, hall⟩)
      rw [List.takeWhile_cons_of_pos hb]
      by_cases hc : c = '\n'
      · subst hc
        rw [splitLines_cons_newline, List.count_cons_self, ← ih hcs, List.findIdx_cons]
        rfl
      · obtain ⟨first, others, hf, hcons⟩ := splitLines_cons hc cs
        rw [List.count_cons_of_ne hc, ← ih hcs, hf, hcons, List.findIdx_cons, List.findIdx_cons,
          List.all_cons, hb, Bool.true_and]

end Text

namespace CodeContext

theorem firstCode_eq (line : Int) (lines : List (List Char)) :
    firstCode line lines = (lines.find? fun text => !text.all isBlank).map fun text =>
      (line + lines.findIdx fun text => !text.all isBlank, text) := by
  induction lines generalizing line with
  | nil => rfl
  | cons text rest ih =>
    rw [firstCode, List.find?_cons, List.findIdx_cons]
    cases htext : text.all isBlank with
    | true =>
      rw [if_pos rfl, ih]
      simp [Int.add_assoc, Int.add_comm 1]
    | false => simp

theorem opensComment_iff {cs : List Char} :
    opensComment cs = true ↔ "/*".toList <+: cs ∨ "//".toList <+: cs := by
  constructor
  · intro h
    unfold opensComment at h
    split at h
    · next c rest =>
      rcases Bool.or_eq_true_iff.mp h with h | h
      · exact .inl ⟨rest, by rw [eq_of_beq h]; rfl⟩
      · exact .inr ⟨rest, by rw [eq_of_beq h]; rfl⟩
    · cases h
  · rintro (⟨rest, rfl⟩ | ⟨rest, rfl⟩) <;> rfl

/-- There is no code if nothing more is said, or if a comment is what is said next. -/
theorem ofText?_eq_none_iff {line : Int} {after : List Char} :
    ofText? line after = none ↔
      (∀ c ∈ after, isBlank c = true) ∨
        ∃ text, firstLine? after = some text ∧
          ("/*".toList <+: trim text ∨ "//".toList <+: trim text) := by
  rw [← firstLine?_eq_none_iff, ofText?, firstCode_eq, ← firstLine?]
  cases hfirst : firstLine? after with
  | none => simp
  | some text =>
    simp only [Option.map_some, reduceCtorEq, false_or, Option.some.injEq, exists_eq_left',
      ← opensComment_iff]
    constructor
    · intro h
      by_contra hopens
      rw [if_neg hopens] at h
      split at h <;> cases h
    · intro hopens
      rw [if_pos hopens]

theorem ofText?_some {line : Int} {after : List Char} {context : CodeContext}
    (h : ofText? line after = some context) :
    context.line = some (line + (after.takeWhile isBlank).count '\n') ∧
      ∃ text, firstLine? after = some text ∧ context.value = String.ofList (trim text) := by
  rw [ofText?, firstCode_eq, ← firstLine?] at h
  cases hfirst : firstLine? after with
  | none =>
    rw [hfirst] at h
    cases h
  | some text =>
    have hsays : ¬ ∀ c ∈ after, isBlank c = true := by
      rw [← firstLine?_eq_none_iff, hfirst]
      simp
    rw [hfirst, findIdx_splitLines hsays] at h
    simp only [Option.map_some] at h
    split at h
    · cases h
    · split at h
      · cases h
        exact ⟨rfl, text, rfl, rfl⟩
      · cases h
        exact ⟨rfl, text, rfl, rfl⟩

end CodeContext

namespace Block

/-- What is said of a block cut out of a source between two offsets. -/
structure CutFrom (b : Block) (source : List Char) (start finish : Nat) : Prop where
  within : start ≤ finish ∧ finish ≤ source.length
  raw : (source.take finish).drop start = b.raw.toList
  comment : IsComment b.raw.toList
  location : b.location = some {
    startLine := lineAt source start
    endLine := lineAt source finish
    start
    finish }
  code_none : b.code = none ↔
    (∀ c ∈ source.drop finish, isBlank c = true) ∨
      ∃ line, firstLine? (source.drop finish) = some line ∧
        ("/*".toList <+: trim line ∨ "//".toList <+: trim line)
  code_some : ∀ context, b.code = some context →
    context.line = some
        (lineAt source (finish + ((source.drop finish).takeWhile isBlank).length)) ∧
      ∃ line, firstLine? (source.drop finish) = some line ∧
        context.value = String.ofList (trim line)

theorem newlinesIn_eq_count (cs : List Char) : newlinesIn cs = cs.count '\n' := rfl

theorem lineAt_add (source : List Char) (offset further : Nat) :
    lineAt source (offset + further) =
      lineAt source offset + ((source.drop offset).take further).count '\n' := by
  rw [lineAt, lineAt, List.take_add, List.count_append]
  omega

theorem Span.Fits.cutFrom {span : Span} {source : List Char} (h : span.Fits source) :
    CutFrom span.toBlock source span.start span.finish := by
  obtain ⟨before, hsource, hstart, hnewlines⟩ := h.around
  have htake : source.take span.start = before := by
    rw [← hsource, ← hstart, List.append_assoc, List.take_left]
  have hupto : source.take span.finish = before ++ span.raw := by
    rw [← hsource, Span.finish, ← hstart, ← List.length_append, List.take_left]
  have hafter : source.drop span.finish = span.after := by
    rw [← hsource, Span.finish, ← hstart, ← List.length_append, List.drop_left]
  have hline : lineAt source span.start = span.newlines + 1 := by
    rw [lineAt, htake, ← newlinesIn_eq_count, hnewlines, Int.add_comm]
  have hend : lineAt source span.finish = span.newlines + 1 + newlinesIn span.raw := by
    rw [lineAt, hupto, ← newlinesIn_eq_count, newlinesIn_append, hnewlines]
    omega
  refine ⟨⟨?_, ?_⟩, ?_, ?_, ?_, ?_, ?_⟩
  · exact Nat.le_add_right _ _
  · rw [← hsource, Span.finish, ← hstart, List.length_append, List.length_append]
    omega
  · rw [hupto, ← hstart, List.drop_left]
    simp [toBlock]
  · simpa [toBlock] using h.comment
  · rw [hline, hend]
    rfl
  · rw [hafter]
    exact CodeContext.ofText?_eq_none_iff
  · intro context hc
    obtain ⟨hcline, hcvalue⟩ := CodeContext.ofText?_some hc
    have hblanks : span.after.take (span.after.takeWhile isBlank).length =
        span.after.takeWhile isBlank :=
      (List.prefix_iff_eq_take.mp (List.takeWhile_prefix isBlank)).symm
    rw [lineAt_add, hafter, hend, hblanks]
    exact ⟨hcline, hcvalue⟩

/-- The blocks of a source are its comments: cut out one after the other, with everything said
of them true of the source, and with no opening left outside of them that is ever closed. -/
theorem extract_exact (source : String) :
    ∃ spans : List (Nat × Nat),
      List.Forall₂ (fun s b => CutFrom b source.toList s.1 s.2) spans (extract source) ∧
      spans.Pairwise (fun a b => a.2 ≤ b.1) ∧
      ∀ p, OpensAt source.toList p → (∀ s ∈ spans, ¬ (s.1 ≤ p ∧ p < s.2)) →
        ∀ q, p + 2 ≤ q → ¬ ClosesAt source.toList q := by
  refine ⟨(spans source.toList).map fun span => (span.start, span.finish), ?_, ?_, ?_⟩
  · rw [extract, List.forall₂_map_left_iff, List.forall₂_map_right_iff, List.forall₂_same]
    intro span hm
    exact (spansFrom_fits rfl rfl span hm : span.Fits ([] ++ source.toList)).cutFrom
  · rw [List.pairwise_map]
    exact spansFrom_pairwise 0 0 source.toList
  · intro p ho hout q hq
    have huncovered : ∀ span ∈ spansFrom 0 0 source.toList,
        ¬ (span.start ≤ 0 + p ∧ 0 + p < span.finish) := by
      intro span hm
      rw [Nat.zero_add]
      exact hout _ (List.mem_map_of_mem hm)
    exact not_closesAt_of_uncovered ho huncovered hq

/-- No star belongs to both ends of a comment, and an opening that stays open opens nothing. -/
example : (extract "/*/ a */ /**/ /* b").map (·.raw) = ["/**/"] := by cbv

end Block

end DocComment
