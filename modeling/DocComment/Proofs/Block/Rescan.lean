import DocComment.Proofs.Block.Spans

/-!
The text of a block, scanned by itself. A comment has nothing behind its first close, so the
scan of its text finds all of it again and no other comment. Only where the block stands, and
what code comes after it, depend on the source around it.
-/

namespace DocComment.Block

open Text

theorem ClosesAt.append {front : List Char} {p : Nat} (h : ClosesAt front p)
    (back : List Char) : ClosesAt (front ++ back) p := by
  obtain ⟨rest, hrest⟩ := h
  have hp : p ≤ front.length := by
    refine Nat.le_of_not_lt fun hlt => ?_
    rw [List.drop_eq_nil_of_le (Nat.le_of_lt hlt)] at hrest
    cases hrest
  rw [ClosesAt, List.drop_append_of_le_length hp, ← hrest, List.append_assoc]
  exact List.prefix_append _ _

theorem IsComment.atFront_eq {raw : List Char} (h : IsComment raw) :
    atFront raw = some (raw, []) := by
  have hlong := h.long
  cases hfront : atFront raw with
  | none => exact absurd h.closes (not_closesAt_of_atFront_none hfront h.opens (by omega))
  | some found =>
    obtain ⟨front, back⟩ := found
    obtain ⟨rfl, -⟩ := atFront_append hfront
    have hcomment := isComment_of_atFront hfront
    cases back with
    | nil => rw [List.append_nil]
    | cons c back =>
      -- What is found ends with a close, and in the comment only the last two characters do.
      have hfound := hcomment.long
      have hlength : (front ++ c :: back).length = front.length + back.length + 1 := by
        rw [List.length_append, List.length_cons, Nat.add_assoc]
      exact absurd (hcomment.closes.append (c :: back)) (h.first _ (by omega) (by omega))

theorem spans_of_isComment {raw : List Char} (h : IsComment raw) :
    spans raw = [⟨0, 0, raw, []⟩] := by
  rw [spans, spansFrom]
  split
  · next front back hfront =>
    rw [h.atFront_eq] at hfront
    cases hfront
    rw [spansFrom]
    rfl
  · next hnone =>
    rw [h.atFront_eq] at hnone
    cases hnone

/-- A block as it stands in a source that is its text and nothing else. -/
def alone (b : Block) : Block :=
  { b with
    location := some {
      startLine := 1
      endLine := 1 + newlinesIn b.raw.toList
      start := 0
      finish := b.raw.toList.length }
    code := none }

/-- The text of a block holds this block and no other. -/
theorem extract_raw {source : String} {b : Block} (h : b ∈ extract source) :
    extract b.raw = [b.alone] := by
  obtain ⟨span, hspan, rfl⟩ := List.mem_map.mp h
  have hfits : span.Fits ([] ++ source.toList) := spansFrom_fits rfl rfl span hspan
  have hraw : span.toBlock.raw.toList = span.raw := String.toList_ofList
  rw [extract, hraw, spans_of_isComment hfits.comment, alone, hraw]
  simp only [List.map_cons, List.map_nil, Span.toBlock, Nat.zero_add]
  rfl

end DocComment.Block
