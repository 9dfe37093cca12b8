import DocComment.Inline
import DocComment.Proofs.Text.Closing
import Mathlib.Data.List.TakeWhile

/-!
References in running text. The scan cuts a text into references and the text around them, and
loses nothing of it. A reference reaches from its opening to the brace that closes it, and an
opening that belongs to no reference is never closed.
-/

namespace DocComment.Inline

open Text

/-- A brace, an at sign and a letter stand at an offset. -/
def OpensAt (cs : List Char) (p : Nat) : Prop :=
  ∃ c rest, cs.drop p = '\x7b' :: '@' :: c :: rest ∧ c.isAlpha = true

/-- A reference and its parts. The tag is as long as it can be. -/
structure IsReference (r : InlineReference) : Prop where
  tag : ∃ c name, r.tag.toList = c :: name ∧ c.isAlpha = true ∧ ∀ d ∈ name, isTagChar d = true
  value : ∃ inside, r.raw.toList = '\x7b' :: '@' :: r.tag.toList ++ inside ++ ['\x7d'] ∧
    (∀ d ∈ inside.head?, isTagChar d = false) ∧ r.value = String.ofList (trim inside)
  enclosed : Enclosed '\x7b' '\x7d' r.raw.toList

/-- A text cut at its references: what comes before the first, and each with what follows it. -/
structure Cut where
  before : List Char
  parts : List (InlineReference × List Char)

/-- The text of a cut, with something in the place of each reference. -/
def Cut.fill (put : InlineReference → List Char) (cut : Cut) : List Char :=
  cut.before ++ cut.parts.flatMap fun (r, after) => put r ++ after

/-- Where references begin and end if the first of them begins at `start`. -/
def spansFrom (start : Nat) : List (InlineReference × List Char) → List (Nat × Nat)
  | [] => []
  | (r, after) :: rest =>
    (start, start + r.raw.toList.length) ::
      spansFrom (start + r.raw.toList.length + after.length) rest

def Cut.spans (cut : Cut) : List (Nat × Nat) := spansFrom cut.before.length cut.parts

/-- No reference reaches over an offset. -/
def Outside (spans : List (Nat × Nat)) (p : Nat) : Prop := ∀ s ∈ spans, ¬ (s.1 ≤ p ∧ p < s.2)

def cutOf : List Piece → Cut
  | [] => ⟨[], []⟩
  | .text chars :: rest => ⟨chars ++ (cutOf rest).before, (cutOf rest).parts⟩
  | .reference r :: rest => ⟨[], (r, (cutOf rest).before) :: (cutOf rest).parts⟩

theorem parts_cutOf (ps : List Piece) :
    (cutOf ps).parts.map (·.1) = ps.filterMap Piece.reference? := by
  induction ps with
  | nil => rfl
  | cons p ps ih =>
    cases p with
    | text chars => exact ih
    | reference r => exact congrArg (r :: ·) ih

theorem fill_cutOf (strip : Bool) (ps : List Piece) :
    (cutOf ps).fill (fun r => (Piece.reference r).shown strip) =
      ps.flatMap (Piece.shown strip) := by
  induction ps with
  | nil => rfl
  | cons p ps ih =>
    rw [List.flatMap_cons, ← ih]
    cases p with
    | text chars => exact List.append_assoc _ _ _
    | reference r =>
      simp only [Cut.fill, cutOf, List.flatMap_cons, List.nil_append, List.append_assoc]

theorem spansFrom_add (k start : Nat) (parts : List (InlineReference × List Char)) :
    spansFrom (k + start) parts = (spansFrom start parts).map fun s => (k + s.1, k + s.2) := by
  induction parts generalizing start with
  | nil => rfl
  | cons part parts ih =>
    simp only [spansFrom, List.map_cons, Nat.add_assoc, ih]

theorem outside_add {k start p : Nat} {parts : List (InlineReference × List Char)} :
    Outside (spansFrom (k + start) parts) (k + p) ↔ Outside (spansFrom start parts) p := by
  simp only [Outside, spansFrom_add, List.forall_mem_map, Nat.add_le_add_iff_left,
    Nat.add_lt_add_iff_left]

theorem outside_text {chars : List Char} {ps : List Piece} {p : Nat} :
    Outside (cutOf (.text chars :: ps)).spans (chars.length + p) ↔
      Outside (cutOf ps).spans p := by
  rw [Cut.spans, cutOf, List.length_append]
  exact outside_add

theorem outside_reference {r : InlineReference} {ps : List Piece} {p : Nat}
    (h : Outside (cutOf (.reference r :: ps)).spans p) :
    ∃ q, p = r.raw.toList.length + q ∧ Outside (cutOf ps).spans q := by
  have hspans : (cutOf (.reference r :: ps)).spans = (0, r.raw.toList.length) ::
      spansFrom (r.raw.toList.length + (cutOf ps).before.length) (cutOf ps).parts := by
    simp [Cut.spans, cutOf, spansFrom]
  rw [hspans, Outside, List.forall_mem_cons] at h
  obtain ⟨hfirst, hrest⟩ := h
  have hbehind : r.raw.toList.length ≤ p := by
    apply Nat.le_of_not_lt
    intro hlt
    exact hfirst ⟨Nat.zero_le p, hlt⟩
  obtain ⟨q, rfl⟩ := Nat.exists_eq_add_of_le hbehind
  exact ⟨q, rfl, outside_add.mp hrest⟩

theorem not_opensAt_of_ne {chars more : List Char} {p : Nat} (hp : p < chars.length)
    (hc : ∀ c, chars[p]? = some c → c ≠ '\x7b') : ¬ OpensAt (chars ++ more) p := by
  rintro ⟨c, rest, hdrop, -⟩
  have hhead := congrArg List.head? hdrop
  rw [List.head?_drop, List.getElem?_append_left hp] at hhead
  exact hc _ hhead rfl

/-- Only the first character of an opening is a brace. -/
theorem not_opensAt_opening {name more : List Char} (hname : ∀ d ∈ name, isTagChar d = true)
    {p : Nat} (h0 : p ≠ 0) (hp : p < name.length + 2) :
    ¬ OpensAt ('\x7b' :: '@' :: name ++ more) p := by
  have hinside : p < ('\x7b' :: '@' :: name).length := hp
  refine not_opensAt_of_ne hinside fun c hc => ?_
  obtain ⟨p, rfl⟩ := Nat.exists_eq_succ_of_ne_zero h0
  cases p with
  | zero =>
    obtain rfl := Option.some.inj hc
    decide
  | succ p =>
    rintro rfl
    have := hname _ (List.mem_of_getElem? hc)
    revert this
    decide

/-- Cutting loses nothing. -/
theorem flatMap_pieces (cs : List Char) : (pieces cs).flatMap (Piece.shown false) = cs := by
  fun_induction pieces cs with
  | case1 => rfl
  | case2 c rest hc tag hnone ih =>
    rw [List.flatMap_cons, ih]
    simp [Piece.shown, tag]
  | case3 c rest hc tag last hlast ih =>
    rw [List.flatMap_cons, ih]
    simp only [Piece.shown, referenceOf, Bool.false_eq_true, if_false, String.toList_ofList]
    exact List.take_append_drop _ _
  | case4 c rest hc ih =>
    rw [List.flatMap_cons, ih]
    rfl
  | case5 c rest hother ih =>
    rw [List.flatMap_cons, ih]
    rfl

theorem isTagChar_of_isAlpha {c : Char} (h : c.isAlpha = true) : isTagChar c = true := by
  rw [isTagChar, isWord_of_isAlpha h, Bool.true_or]

/-- The letter of an opening and what goes on with it make up its tag. -/
theorem isTagChar_of_mem_tag {c : Char} (hc : c.isAlpha = true) (rest : List Char) :
    ∀ d ∈ c :: rest.takeWhile isTagChar, isTagChar d = true := by
  rw [List.forall_mem_cons]
  exact ⟨isTagChar_of_isAlpha hc, fun d hd => List.mem_takeWhile_imp hd⟩

theorem isReference_referenceOf {c : Char} {rest : List Char} {last : Nat}
    (hc : c.isAlpha = true) (hlast : braceClosing ('\x7b' :: '@' :: c :: rest) = some last) :
    IsReference (referenceOf (('\x7b' :: '@' :: c :: rest).take (last + 1))
      (c :: rest.takeWhile isTagChar)) := by
  have htag := isTagChar_of_mem_tag hc rest
  generalize hname : c :: rest.takeWhile isTagChar = name at htag ⊢
  have hsplit : '\x7b' :: '@' :: c :: rest =
      '\x7b' :: '@' :: name ++ rest.dropWhile isTagChar := by
    rw [← hname]
    simp
  -- No brace of the opening closes, so the one that does comes after the tag.
  have hlong : name.length + 2 ≤ last := by
    have hat := closingFrom_some hlast
    apply Nat.le_of_not_lt
    intro hlt
    rw [hsplit, List.getElem?_append_left hlt] at hat
    have hmem := List.mem_of_getElem? hat
    simp only [List.mem_cons] at hmem
    rcases hmem with h | h | h
    · exact absurd h (by decide)
    · exact absurd h (by decide)
    · exact absurd (htag _ h) (by decide)
  obtain ⟨k, rfl⟩ := Nat.exists_eq_add_of_le hlong
  have hinside : ('\x7b' :: '@' :: c :: rest).take (name.length + 2 + k + 1) =
      '\x7b' :: '@' :: name ++ (rest.dropWhile isTagChar).take k ++ ['\x7d'] := by
    have hat := closingFrom_some hlast
    have hlength : ('\x7b' :: '@' :: name).length = name.length + 2 := rfl
    rw [hsplit, ← hlength, List.getElem?_append_right (Nat.le_add_right _ _),
      Nat.add_sub_cancel_left] at hat
    rw [hsplit, ← hlength, Nat.add_assoc, List.take_length_add_append, List.take_add_one, hat,
      ← List.append_assoc]
    rfl
  refine ⟨⟨c, rest.takeWhile isTagChar, ?_, hc, fun d hd => List.mem_takeWhile_imp hd⟩,
    ⟨(rest.dropWhile isTagChar).take k, ?_, ?_, ?_⟩, ?_⟩
  · rw [hname]
    exact String.toList_ofList
  · simpa [referenceOf] using hinside
  · intro d hd
    have hhead := List.head?_dropWhile_not isTagChar rest
    cases hrest : rest.dropWhile isTagChar with
    | nil =>
      rw [hrest, List.take_nil] at hd
      cases hd
    | cons e more =>
      rw [hrest] at hd hhead
      cases k with
      | zero => cases hd
      | succ k =>
        obtain rfl := Option.some.inj hd
        exact hhead
  · simp only [referenceOf, hinside]
    congr 2
    rw [List.append_assoc, List.cons_append, List.cons_append, Nat.add_comm]
    simp
  · have := ((closing_iff_enclosed (by decide)).mp hlast).2
    simpa [referenceOf] using this

theorem isReference_of_mem {cs : List Char} {r : InlineReference}
    (h : .reference r ∈ pieces cs) : IsReference r := by
  fun_induction pieces cs with
  | case1 => cases h
  | case2 c rest hc tag hnone ih =>
    rcases List.mem_cons.mp h with h | h
    · cases h
    · exact ih h
  | case3 c rest hc tag last hlast ih =>
    rcases List.mem_cons.mp h with h | h
    · cases h
      exact isReference_referenceOf hc hlast
    · exact ih h
  | case4 c rest hc ih =>
    rcases List.mem_cons.mp h with h | h
    · cases h
    · exact ih h
  | case5 c rest hother ih =>
    rcases List.mem_cons.mp h with h | h
    · cases h
    · exact ih h

/-- An opening outside of all references has been tried, and nothing closes it. -/
theorem braceClosing_of_outside (cs : List Char) : ∀ p, OpensAt cs p →
    Outside (cutOf (pieces cs)).spans p → braceClosing (cs.drop p) = none := by
  fun_induction pieces cs with
  | case1 =>
    intro p ho hp
    obtain ⟨c, rest, hdrop, -⟩ := ho
    rw [List.drop_nil] at hdrop
    cases hdrop
  | case2 c rest hc tag hnone ih =>
    intro p ho hp
    have hsplit : '\x7b' :: '@' :: c :: rest =
        '\x7b' :: '@' :: tag ++ rest.dropWhile isTagChar := by simp [tag]
    by_cases h0 : p = 0
    · subst h0
      exact hnone
    · by_cases hlt : p < tag.length + 2
      · rw [hsplit] at ho
        exact absurd ho (not_opensAt_opening (isTagChar_of_mem_tag hc rest) h0 hlt)
      · obtain ⟨q, rfl⟩ := Nat.exists_eq_add_of_le (Nat.le_of_not_lt hlt)
        have hlength : ('\x7b' :: '@' :: tag).length = tag.length + 2 := rfl
        rw [hsplit, ← hlength, List.drop_length_add_append]
        rw [hsplit, ← hlength, OpensAt, List.drop_length_add_append] at ho
        exact ih _ ho (outside_text.mp hp)
  | case3 c rest hc tag last hlast ih =>
    intro p ho hp
    have hinside := ((closing_iff_enclosed (by decide)).mp hlast).1
    have hlength :
        (referenceOf (('\x7b' :: '@' :: c :: rest).take (last + 1)) tag).raw.toList.length =
          last + 1 := by
      rw [referenceOf, String.toList_ofList, List.length_take_of_le hinside]
    obtain ⟨q, rfl, hq⟩ := outside_reference hp
    rw [hlength, ← List.drop_drop]
    rw [hlength, OpensAt, ← List.drop_drop] at ho
    exact ih q ho hq
  | case4 c rest hc ih =>
    intro p ho hp
    cases p with
    | zero =>
      obtain ⟨d, more, hdrop, hletter⟩ := ho
      cases hdrop
      exact absurd hletter hc
    | succ p =>
      rw [Nat.add_comm] at hp
      exact ih _ ho (outside_text.mp hp)
  | case5 c rest hother ih =>
    intro p ho hp
    cases p with
    | zero =>
      obtain ⟨d, more, hdrop, hletter⟩ := ho
      cases hdrop
      exact absurd rfl (hother d more rfl)
    | succ p =>
      rw [Nat.add_comm] at hp
      exact ih _ ho (outside_text.mp hp)

/-- Scanning is exact. Both ways of reading a text find the same references, which together with
the text around them are all of it; rendering changes them and nothing else. Wherever an opening
stands outside of them, more braces are open than closed from there on. -/
theorem parse_exact (text : String) :
    ∃ cut : Cut,
      (∀ strip, (parse strip text).2 = cut.parts.map (·.1)) ∧
      text.toList = cut.fill (·.raw.toList) ∧
      (parse false text).1 = text ∧
      (parse true text).1.toList = cut.fill (·.render.toList) ∧
      (∀ r ∈ cut.parts.map (·.1), IsReference r) ∧
      ∀ p, OpensAt text.toList p → Outside cut.spans p →
        ∀ front, front <+: text.toList.drop p → front ≠ [] →
          front.count '\x7d' < front.count '\x7b' := by
  have hfill (strip : Bool) := fill_cutOf strip (pieces text.toList)
  refine ⟨cutOf (pieces text.toList), ?_, ?_, ?_, ?_, ?_, ?_⟩
  · intro strip
    exact (parts_cutOf _).symm
  · exact (flatMap_pieces text.toList).symm.trans (hfill false).symm
  · rw [parse, shown, flatMap_pieces, String.ofList_toList]
  · rw [parse, shown, String.toList_ofList]
    exact (hfill true).symm
  · rw [parts_cutOf]
    intro r hr
    obtain ⟨piece, hmem, hpiece⟩ := List.mem_filterMap.mp hr
    cases piece with
    | text chars => cases hpiece
    | reference r' =>
      obtain rfl := Option.some.inj hpiece
      exact isReference_of_mem hmem
  · intro p ho hp
    have hnone := braceClosing_of_outside text.toList p ho hp
    obtain ⟨c, rest, hdrop, -⟩ := ho
    rw [hdrop] at hnone ⊢
    exact (closing_eq_none_iff (by decide)).mp hnone

/-- An opening that is never closed hides no reference behind it, and one that is closed takes
the openings inside it along. -/
example : (references "\x7b@a \x7b@b c\x7d").map (·.raw) = ["\x7b@b c\x7d"] ∧
    (references "\x7b@a \x7b@b c\x7d\x7d").map (·.raw) = ["\x7b@a \x7b@b c\x7d\x7d"] := by
  cbv

end DocComment.Inline
