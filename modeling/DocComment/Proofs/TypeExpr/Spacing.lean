import DocComment.Proofs.TypeExpr.Layout

/-!
White space that is added to a type literal makes no difference. It is added where there is some
and where there was none, but never inside a token, so each token is followed by what followed
it or by a blank, with which no token goes on.
-/

namespace DocComment.TypeExpr

open Text

/-- White space with more of it put in anywhere. -/
def Widened (gap gap' : List Char) : Prop := gap.Sublist gap' ∧ IsGap gap'

/-- White space is added before tokens and behind the last one. -/
def Spaced : List Char → List Char → Prop :=
  Edited (fun p p' => Widened p.gap p'.gap ∧ p'.token = p.token) Widened

instance (gap gap' : List Char) : Decidable (Widened gap gap') :=
  inferInstanceAs (Decidable (_ ∧ _))

theorem Widened.tamer {gap gap' s s' : List Char} (h : Widened gap gap') (ht : Tamer s s') :
    Tamer (gap ++ s) (gap' ++ s') := by
  obtain ⟨hsub, hgap⟩ := h
  cases gap' with
  | nil =>
    obtain rfl := List.sublist_nil.mp hsub
    exact ht
  | cons c gap' => exact .blank (hgap c List.mem_cons_self)

theorem milder_of_widened {p p' : Piece} (h : Widened p.gap p'.gap ∧ p'.token = p.token) :
    Milder p p' := by
  obtain ⟨gap, token⟩ := p
  obtain ⟨gap', token'⟩ := p'
  obtain ⟨hwide, rfl⟩ := h
  exact ⟨fun _ => hwide.2, fun ht hs => scan_tamer hs ht, fun ht => hwide.tamer (ht.append_left _)⟩

/-- A literal with more white space between its tokens is cut into the same tokens, and the same
type is read or the error is found at the same token. -/
theorem parse_spaced (limit : Limit) {literal literal' : String} {lexemes : List Lexeme}
    (hlex : lex literal.toList = .ok lexemes) (h : Spaced literal.toList literal'.toList) :
    (∃ lexemes', lex literal'.toList = .ok lexemes' ∧
        lexemes'.map (·.token) = lexemes.map (·.token)) ∧
      SameResult limit literal literal' := by
  obtain ⟨l, l', hl, hl', htail, hpieces⟩ := h.exists_layouts milder_of_widened
    fun tail _ hwide => ⟨hwide.2, hwide.tamer (.refl tail)⟩
  have htokens : l'.pieces.map (·.token) = l.pieces.map (·.token) := by
    refine List.forall₂_eq_eq_eq ▸ List.forall₂_map_left_iff.mpr (List.forall₂_map_right_iff.mpr ?_)
    exact hpieces.flip.imp fun _ _ hp => hp.2
  constructor
  · rw [← hl] at hlex
    obtain ⟨hend, rfl⟩ := Layout.lex_eq_ok.mp hlex
    refine ⟨placedFrom 0 l'.pieces, ?_, ?_⟩
    · rw [← hl']
      exact Layout.lex_eq_ok.mpr ⟨htail.trans hend, rfl⟩
    · rw [map_token_placedFrom, map_token_placedFrom, htokens]
  · refine sameResult_of_layouts hl hl' htail hpieces.length_eq ?_
    rw [htokens]
    cases ofTokens limit.levels (l.pieces.map (·.token)) with
    | ok t => exact .ok t
    | error f => exact .error rfl

/-- A word that would label a path keeps apart from the name behind the colon, and an error keeps
its token. -/
theorem parse_spaced_label :
    let literal := "function(module: a|...b)"
    let literal' := "\tfunction ( module\n:  a | ... b ) "
    (∃ lexemes, lex literal.toList = .ok lexemes) ∧ Spaced literal.toList literal'.toList ∧
      SameResult .standard literal literal' := by
  intro literal literal'
  let layout : Layout :=
    { pieces := [⟨[], .name "function"⟩, ⟨[], .openParen⟩, ⟨[], .name "module"⟩, ⟨[], .colon⟩,
        ⟨[' '], .name "a"⟩, ⟨[], .pipe⟩, ⟨[], .ellipsis⟩, ⟨[], .name "b"⟩, ⟨[], .closeParen⟩]
      last := []
      tail := []
      scans := by decide +kernel
      gap := by decide
      stuck := ⟨rfl, rfl⟩ }
  let pieces' : List Piece := [⟨['\t'], .name "function"⟩, ⟨[' '], .openParen⟩,
    ⟨[' '], .name "module"⟩, ⟨['\n'], .colon⟩, ⟨[' ', ' '], .name "a"⟩, ⟨[' '], .pipe⟩,
    ⟨[' '], .ellipsis⟩, ⟨[' '], .name "b"⟩, ⟨[' '], .closeParen⟩]
  have htext : layout.text = literal.toList := by decide +kernel
  have htext' : laid pieces' ([' '] ++ []) = literal'.toList := by decide +kernel
  have spaced : Spaced literal.toList literal'.toList := by
    rw [← htext, ← htext']
    exact .layout layout (by decide +kernel) (by decide +kernel)
  have hlex : lex literal.toList = .ok (placedFrom 0 layout.pieces) :=
    htext ▸ Layout.lex_eq_ok.mpr ⟨rfl, rfl⟩
  exact ⟨⟨_, hlex⟩, spaced, (parse_spaced .standard hlex spaced).2⟩

end DocComment.TypeExpr
