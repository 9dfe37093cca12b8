import DocComment.Proofs.TypeExpr.Layout
import DocComment.Proofs.TypeExpr.Patterns

/-!
The tokens of a text and white space cover it, up to its end or up to the first character at
which no token starts.
-/

namespace DocComment.TypeExpr

open Text

def Lexeme.stop (l : Lexeme) : Nat := l.position + l.token.text.length

/-- A token that is not empty, of the pattern of its kind, with its own text where it stands. -/
structure Stands (cs : List Char) (l : Lexeme) : Prop where
  nonempty : l.token.text ≠ ""
  pattern : l.token.text.toList ∈ l.token.pattern
  text : cs.extract l.position l.stop = l.token.text.toList

/-- The first place is not behind the second, and white space stands from the one to the other. -/
def Apart (cs : List Char) (stop start : Nat) : Prop :=
  stop ≤ start ∧ IsGap (cs.extract stop start)

/-- Where each token starts, and last the end. -/
def starts (lexemes : List Lexeme) (size : Nat) : List Nat := lexemes.map (·.position) ++ [size]

/-- Tokens stand in a text up to a place, with white space before them, between them and behind
them. -/
structure Covered (cs : List Char) (lexemes : List Lexeme) (size : Nat) : Prop where
  tokens : ∀ l ∈ lexemes, Stands cs l
  gaps : List.Forall₂ (Apart cs) (0 :: lexemes.map Lexeme.stop) (starts lexemes size)

theorem extract_append (front mid back : List Char) :
    (front ++ (mid ++ back)).extract front.length (front.length + mid.length) = mid := by
  simp [List.extract_eq_take_drop]

theorem apart_append {gap : List Char} (h : IsGap gap) (front back : List Char) :
    Apart (front ++ (gap ++ back)) front.length (front.length + gap.length) :=
  ⟨Nat.le_add_right .., by rwa [extract_append]⟩

theorem stands_append {front cs rest : List Char} {t : Token} (h : scan cs = some (t, rest)) :
    Stands (front ++ cs) ⟨t, front.length⟩ := by
  obtain ⟨rfl, hne⟩ := scan_cuts h
  refine ⟨fun e => hne ?_, scan_mem h, ?_⟩
  · rw [e]
    rfl
  · rw [Lexeme.stop, ← String.length_toList, extract_append]

/-- Pieces stand where they are placed, also behind another text. -/
theorem placedFrom_covered {ps : List Piece} {last tail : List Char}
    (h : Scans ps (last ++ tail)) (hlast : IsGap last) (front : List Char) :
    (∀ l ∈ placedFrom front.length ps, Stands (front ++ laid ps (last ++ tail)) l) ∧
      List.Forall₂ (Apart (front ++ laid ps (last ++ tail)))
        (front.length :: (placedFrom front.length ps).map Lexeme.stop)
        (starts (placedFrom front.length ps) (front.length + (laid ps last).length)) := by
  induction ps generalizing front with
  | nil => exact ⟨nofun, .cons (apart_append hlast front tail) .nil⟩
  | cons p ps ih =>
    obtain _ | ⟨hgap, hscan, h⟩ := h
    have htext : front ++ laid (p :: ps) (last ++ tail) =
        (front ++ p.gap ++ p.token.text.toList) ++ laid ps (last ++ tail) := by
      simp [laid]
    have hgapped : front ++ laid (p :: ps) (last ++ tail) =
        (front ++ p.gap) ++ (p.token.text.toList ++ laid ps (last ++ tail)) := by
      simp [laid]
    obtain ⟨htokens, hgaps⟩ := ih h (front ++ p.gap ++ p.token.text.toList)
    have hstands : Stands (front ++ p.gap ++ (p.token.text.toList ++ laid ps (last ++ tail)))
        ⟨p.token, (front ++ p.gap).length⟩ := stands_append hscan
    rw [← hgapped] at hstands
    rw [← htext] at htokens hgaps
    simp only [List.length_append, String.length_toList] at htokens hgaps hstands
    refine ⟨List.forall_mem_cons.mpr ⟨hstands, htokens⟩, .cons (apart_append hgap front _) ?_⟩
    rw [length_laid_cons, ← Nat.add_assoc, ← Nat.add_assoc]
    exact hgaps

theorem Layout.covered (l : Layout) :
    Covered l.text (placedFrom 0 l.pieces) (laid l.pieces l.last).length := by
  obtain ⟨htokens, hgaps⟩ := placedFrom_covered l.scans l.gap []
  refine ⟨htokens, ?_⟩
  rw [Layout.text]
  simpa using hgaps

/-- The place of the first token that is left is the one listed, which for none left is the
end. -/
theorem positionOf_starts (lexemes : List Lexeme) (size : Nat) {i : Nat} (hi : i ≤ lexemes.length) :
    (starts lexemes size)[i]? =
      some (positionOf lexemes size ((lexemes.map (·.token)).drop i)) := by
  have hleft : lexemes.length - ((lexemes.map (·.token)).drop i).length = i := by
    simp only [List.length_drop, List.length_map]
    omega
  rw [positionOf_eq_getD, hleft, starts, List.getElem?_append]
  split
  · next h =>
    rw [List.length_map] at h
    simp [h]
  · next h =>
    rw [List.length_map] at h
    obtain rfl : i = lexemes.length := by omega
    simp

/-- A text that is cut into tokens is covered by them and by white space. One that is not is
covered up to the stray character, at which there is no white space and no text of any token. -/
theorem lex_covered (literal : String) :
    match lex literal.toList with
    | .ok lexemes => Covered literal.toList lexemes literal.length ∧
        ∀ i ≤ lexemes.length, (starts lexemes literal.length)[i]? =
          some (positionOf lexemes literal.length ((lexemes.map (·.token)).drop i))
    | .error stray => literal.toList[stray.position]? = some stray.char ∧
        (∃ lexemes, lex (literal.toList.take stray.position) = .ok lexemes ∧
          Covered literal.toList lexemes stray.position) ∧
        isBlank stray.char = false ∧
          ∀ t : Token, ∀ w ∈ t.pattern, ¬ w <+: literal.toList.drop stray.position := by
  obtain ⟨l, hl⟩ := exists_layout literal.toList
  have hcovered := l.covered
  rw [hl] at hcovered
  have htext := hl ▸ l.text_eq
  rw [← hl, l.lex_text, hl]
  cases htail : l.tail with
  | nil =>
    rw [htail, List.append_nil] at htext
    rw [← htext, String.length_toList] at hcovered
    exact ⟨hcovered, fun i hi => positionOf_starts _ _ hi⟩
  | cons c rest =>
    have hstuck := htail ▸ l.stuck
    rw [htail] at htext
    refine ⟨by simp [htext], ⟨placedFrom 0 l.pieces, ?_, hcovered⟩, hstuck.1, ?_⟩
    · rw [htext, List.take_left' rfl]
      exact lex_laid l.scans l.gap
    · rw [htext, List.drop_left' rfl]
      exact scan_eq_none_iff.mp hstuck.2

end DocComment.TypeExpr
