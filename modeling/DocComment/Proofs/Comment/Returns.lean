import DocComment.Proofs.Block.Returns
import DocComment.Proofs.Body.Returns
import DocComment.Proofs.Inline
import DocComment.Proofs.Parser.Batch

/-!
Comments of a source with carriage returns before its line feeds. What a comment says is the
same line by line, and so are its tags and the code it belongs to. Its texts are the same but
for the carriage returns if these do no harm where text is dedented.
-/

namespace DocComment

open Text

/-- The same reference, with carriage returns in what it encloses. -/
structure InlineReference.Counterpart (r r' : InlineReference) : Prop where
  tag : r'.tag = r.tag
  raw : Returns r.raw.toList r'.raw.toList
  value : Returns r.value.toList r'.value.toList

namespace Inline

variable {cs cs' : List Char}

theorem braceClosing_eq_none_returns (h : Returns cs cs')
    (hnone : braceClosing ('\x7b' :: cs) = none) : braceClosing ('\x7b' :: cs') = none := by
  have hfilter := h.filter_eq (p := fun c => c == '\x7b' || c == '\x7d') (by decide)
  refine (closing_filter_eq_none_iff (by decide)).mp ?_
  rw [hfilter]
  exact (closing_filter_eq_none_iff (by decide)).mpr hnone

theorem matched_returns (h : Returns cs cs') (hm : Matched '\x7b' '\x7d' cs) :
    Matched '\x7b' '\x7d' cs' := by
  have hfilter := h.filter_eq (p := fun c => c == '\x7b' || c == '\x7d') (by decide)
  rw [← matched_filter_iff, hfilter, matched_filter_iff]
  exact hm

section

variable {c : Char} {rest : List Char}

theorem pieces_unclosed (hc : c.isAlpha = true)
    (hnone : braceClosing ('\x7b' :: '@' :: c :: rest) = none) :
    pieces ('\x7b' :: '@' :: c :: rest) =
      .text ('\x7b' :: '@' :: c :: rest.takeWhile isTagChar) ::
        pieces (rest.dropWhile isTagChar) := by
  rw [pieces, if_pos hc]
  dsimp only
  rw [hnone]

theorem pieces_closed (hc : c.isAlpha = true) {last : Nat}
    (hlast : braceClosing ('\x7b' :: '@' :: c :: rest) = some last) :
    pieces ('\x7b' :: '@' :: c :: rest) =
      .reference (referenceOf (('\x7b' :: '@' :: c :: rest).take (last + 1))
        (c :: rest.takeWhile isTagChar)) ::
        pieces (('\x7b' :: '@' :: c :: rest).drop (last + 1)) := by
  rw [pieces, if_pos hc]
  dsimp only
  rw [hlast]

theorem pieces_other (h : ¬ OpensAt (c :: rest) 0) :
    pieces (c :: rest) = .text [c] :: pieces rest := by
  conv_lhs => unfold pieces
  split
  · next heq => cases heq
  · next d more heq =>
    cases heq
    exact if_neg fun hd => h ⟨d, more, rfl, hd⟩
  · next heq =>
    cases heq
    rfl

end

/-- Where one text has an opening in front, so has the other. -/
theorem opensAt_of_returns (h : Returns cs cs') (ho : OpensAt cs' 0) : OpensAt cs 0 := by
  obtain ⟨c, rest, hcs, hc⟩ := ho
  rw [List.drop_zero] at hcs
  subst hcs
  cases h with
  | char _ h =>
    cases h with
    | char _ h =>
      cases h with
      | char _ h => exact ⟨c, _, rfl, hc⟩
      | newline => cases hc

theorem isTagChar_of_isBlank {c : Char} (h : isBlank c = true) : isTagChar c = false := by
  rw [isTagChar, isWord_of_isBlank h, Bool.false_or, beq_eq_false_iff_ne]
  rintro rfl
  cases h

/-- A reference from its opening to the brace that closes it. -/
theorem counterpart_of_raw {r r' : InlineReference} (hr : IsReference r) (hr' : IsReference r')
    (ht : r'.tag = r.tag) (h : Returns r.raw.toList r'.raw.toList) : r.Counterpart r' := by
  refine ⟨ht, h, ?_⟩
  obtain ⟨c, name, hname, hc, hletters⟩ := hr.tag
  obtain ⟨inside, hraw, -, hvalue⟩ := hr.value
  obtain ⟨inside', hraw', -, hvalue'⟩ := hr'.value
  have hplain : '\n' ∉ '\x7b' :: '@' :: r.tag.toList := by
    rw [hname]
    intro hm
    simp only [List.mem_cons] at hm
    rcases hm with hm | hm | rfl | hm
    · exact absurd hm (by decide)
    · exact absurd hm (by decide)
    · cases hc
    · have hletter := hletters _ hm
      rw [isTagChar_of_isBlank isBlank_newline] at hletter
      cases hletter
  rw [hraw, hraw', ht] at h
  obtain ⟨front, back, hcut, hfront, hback⟩ := h.of_append
  obtain ⟨opening, more, rfl, hopening, hmore⟩ := hfront.of_append
  obtain rfl := hopening.eq_of_notMem hplain
  obtain rfl := hback.eq_of_notMem (by decide)
  have hsame := List.append_cancel_left (List.append_cancel_right hcut)
  rw [hvalue, hvalue', String.toList_ofList, String.toList_ofList, hsame]
  exact hmore.trim

/-- A character that no opening begins with is passed over in both texts. -/
theorem references_other_returns {c : Char} {rest : List Char} (h : Returns (c :: rest) cs')
    (ho : ¬ OpensAt (c :: rest) 0) :
    ∃ rest', Returns rest rest' ∧
      (pieces cs').filterMap Piece.reference? = (pieces rest').filterMap Piece.reference? := by
  have ho' : ¬ OpensAt cs' 0 := mt (opensAt_of_returns h) ho
  cases h with
  | char _ hrest =>
    refine ⟨_, hrest, ?_⟩
    rw [pieces_other ho']
    rfl
  | @newline _ rest' hrest =>
    have hnext : ¬ OpensAt ('\n' :: rest') 0 := by
      rintro ⟨_, _, heq, -⟩
      cases heq
    refine ⟨rest', hrest, ?_⟩
    rw [pieces_other ho', pieces_other hnext]
    rfl

/-- The references of a text are those of the text without carriage returns. -/
theorem references_returns {text text' : String} (h : Returns text.toList text'.toList) :
    List.Forall₂ InlineReference.Counterpart (references text) (references text') := by
  suffices hpieces : ∀ cs', Returns text.toList cs' → List.Forall₂ InlineReference.Counterpart
      ((pieces text.toList).filterMap Piece.reference?)
      ((pieces cs').filterMap Piece.reference?) from hpieces _ h
  have hopening {c : Char} {rest cs' : List Char} (hc : c.isAlpha = true)
      (h : Returns ('\x7b' :: '@' :: c :: rest) cs') :
      ∃ rest', cs' = '\x7b' :: '@' :: c :: rest' ∧ Returns rest rest' := by
    have hcut : '\x7b' :: '@' :: c :: rest = ['\x7b', '@', c] ++ rest := rfl
    rw [hcut] at h
    obtain ⟨front, rest', rfl, hfront, hrest⟩ := h.of_append
    have hplain : '\n' ∉ ['\x7b', '@', c] := by
      simp only [List.mem_cons, List.not_mem_nil]
      rintro (hm | hm | rfl | hm)
      · exact absurd hm (by decide)
      · exact absurd hm (by decide)
      · cases hc
      · exact hm
    obtain rfl := hfront.eq_of_notMem hplain
    exact ⟨rest', rfl, hrest⟩
  have htag : isTagChar '\r' = isTagChar '\n' := by
    rw [isTagChar_of_isBlank isBlank_return, isTagChar_of_isBlank isBlank_newline]
  clear h
  fun_induction pieces text.toList with
  | case1 =>
    rintro _ ⟨⟩
    rw [pieces]
    exact .nil
  | case2 c rest hc tag hnone ih =>
    intro cs' h
    obtain ⟨rest', rfl, hrest⟩ := hopening hc h
    have hnext : Returns ('@' :: c :: rest) ('@' :: c :: rest') := by
      cases h
      assumption
    rw [pieces_unclosed hc (braceClosing_eq_none_returns hnext hnone)]
    exact ih _ (hrest.dropWhile htag)
  | case3 c rest hc tag last hlast ih =>
    intro cs' h
    obtain ⟨rest', rfl, hrest⟩ := hopening hc h
    have hnext : Returns ('@' :: c :: rest) ('@' :: c :: rest') := by
      cases h
      assumption
    obtain ⟨inner, more, hcut, rfl, hm⟩ := exists_matched_of_closing (by decide) hlast
    rw [hcut] at hnext
    obtain ⟨inner', back, hcut', hinner, hback⟩ := hnext.of_append
    cases hback with
    | @char _ _ more' _ hmore =>
      have hlast' : braceClosing ('\x7b' :: '@' :: c :: rest') = some (inner'.length + 1) := by
        rw [hcut']
        exact closing_of_matched (by decide) (matched_returns hinner hm) more'
      rw [pieces_closed hc hlast']
      refine .cons (counterpart_of_raw (isReference_referenceOf hc hlast)
        (isReference_referenceOf hc hlast') ?_ ?_) ?_
      · exact congrArg (fun name => String.ofList (c :: name)) (hrest.takeWhile_eq
          (isTagChar_of_isBlank isBlank_return) (isTagChar_of_isBlank isBlank_newline))
      · simp only [referenceOf, String.toList_ofList, hcut, hcut', List.take_succ_cons,
          List.take_length_add_append, List.take_zero]
        exact .char (by decide) (hinner.append (.char (by decide) .nil))
      · have hdrop (inner more : List Char) :
            ('\x7b' :: (inner ++ '\x7d' :: more)).drop (inner.length + 1 + 1) = more := by
          simp
        rw [hcut, hdrop] at ih ⊢
        rw [hcut', hdrop]
        exact ih _ hmore
  | case4 c rest hc ih =>
    intro cs' h
    have hletter : ¬ OpensAt ('\x7b' :: '@' :: c :: rest) 0 := by
      rintro ⟨d, more, heq, hd⟩
      cases heq
      exact hc hd
    obtain ⟨rest', hrest, hsame⟩ := references_other_returns h hletter
    rw [hsame]
    exact ih _ hrest
  | case5 c rest hother ih =>
    intro cs' h
    have hopen : ¬ OpensAt (c :: rest) 0 := by
      rintro ⟨d, more, heq, -⟩
      cases heq
      exact hother d more rfl rfl
    obtain ⟨rest', hrest, hsame⟩ := references_other_returns h hopen
    rw [hsame]
    exact ih _ hrest

end Inline

namespace Comment

/-- The same comment of a source with carriage returns. Its texts say the same line by line. -/
structure Counterpart (c c' : Comment) : Prop where
  raw : withoutReturns c'.raw.toList = c.raw.toList
  description : textLines c'.description.toList = textLines c.description.toList
  footer : textLines c'.footer.toList = textLines c.footer.toList
  tags : c'.tags = c.tags
  examples : List.Forall₂ Example.Counterpart c.examples c'.examples
  code : c'.code = c.code
  lines : c'.location.map (fun l => (l.startLine, l.endLine)) =
    c.location.map fun l => (l.startLine, l.endLine)

/-- The same comment but for carriage returns and offsets. -/
structure Same (c c' : Comment) : Prop extends c.Counterpart c' where
  wholeDescription : withoutReturns c'.description.toList = c.description.toList
  wholeFooter : withoutReturns c'.footer.toList = c.footer.toList
  inlineTags : List.Forall₂ InlineReference.Counterpart c.inlineTags c'.inlineTags
  values : c'.examples.map (fun e => withoutReturns e.value.toList) =
    c.examples.map fun e => e.value.toList

/-- The carriage returns of a comment do no harm where its text and its code are dedented. -/
def Steady (c : Comment) : Prop :=
  Body.SteadyLines (Body.linesOf none (String.ofList (Block.bodyOf c.raw.toList)))

instance (c : Comment) : Decidable c.Steady := inferInstanceAs (Decidable (Body.SteadyLines _))

/-- With no switch set a comment only gets the references of its description. -/
theorem finish_plain {c : Comment} (h : c.inlineTags = []) :
    c.finish {} = { c with inlineTags := Inline.references c.description } := by
  have hshown : Inline.shown false c.description = c.description := by
    rw [Inline.shown, Inline.flatMap_pieces, String.ofList_toList]
  change c.withReferences false = _
  unfold withReferences
  split
  · next hempty =>
    have hnone : Inline.references c.description = c.inlineTags := by
      rw [String.isEmpty_iff.mp hempty, h]
      simp [Inline.references, Inline.pieces]
    rw [hnone]
  · rw [hshown]

section

variable {b b' : Block} (h : b.Counterpart b')

theorem found_plain (b : Block) :
    found {} b =
      { ofParts b (Body.ofText none b.value) ((b.lines {}).filterMap (Tag.found? {})) with
        inlineTags := Inline.references (Body.ofText none b.value).description } :=
  finish_plain rfl

include h

theorem found_counterpart : (found {} b).Counterpart (found {} b') := by
  have hbody := Body.ofText_counterpart h.value none
  have htags : b'.lines {} = b.lines {} := hbody.tags
  rw [found_plain, found_plain, htags]
  exact ⟨h.raw.withoutReturns_eq, hbody.description, hbody.footer, rfl, hbody.examples, h.code,
    h.lines⟩

theorem found_same (hs : (found {} b').Steady) : (found {} b).Same (found {} b') := by
  have hcounterpart := found_counterpart h
  have hbody : String.ofList (Block.bodyOf (found {} b').raw.toList) = b'.value := by
    rw [found, finish_raw, ofParts, ← h.body, String.ofList_toList]
  rw [Steady, hbody] at hs
  have hdescription := Body.description_steady h.value none hs
  have hfooter := Body.footer_steady h.value none hs
  rw [found_plain, found_plain] at hcounterpart ⊢
  exact ⟨hcounterpart, hdescription.withoutReturns_eq, hfooter.withoutReturns_eq,
    Inline.references_returns hdescription, Body.values_steady h.value none hs⟩

end

end Comment

end DocComment
