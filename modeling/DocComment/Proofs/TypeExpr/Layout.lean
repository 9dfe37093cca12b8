import DocComment.Proofs.TypeExpr.Adjacency
import DocComment.Proofs.TypeExpr.ErrorPosition
import Mathlib.Data.List.Forall2

/-!
Every text is laid out in one way: tokens with white space before each, white space behind the
last, and then nothing, or a character at which no token starts. What a text is cut into is
read off its layout, and so is what an edited text is cut into, if the edits keep every token
from going on.
-/

namespace DocComment.TypeExpr

open Text

/-- A token and the white space before it. -/
structure Piece where
  gap : List Char
  token : Token
  deriving DecidableEq, Repr

/-- The text of pieces, with another text behind them. -/
def laid : List Piece → List Char → List Char
  | [], tail => tail
  | p :: ps, tail => p.gap ++ (p.token.text.toList ++ laid ps tail)

/-- The tokens of pieces and where they stand, if the first gap starts at this place. -/
def placedFrom (position : Nat) : List Piece → List Lexeme
  | [] => []
  | p :: ps => ⟨p.token, position + p.gap.length⟩ ::
      placedFrom (position + p.gap.length + p.token.text.length) ps

def IsGap (cs : List Char) : Prop := ∀ c ∈ cs, isBlank c = true

instance (cs : List Char) : Decidable (IsGap cs) :=
  List.decidableBAll _ cs

theorem IsGap.nil : IsGap [] := List.forall_mem_nil _

/-- Each token is cut off where the text goes on with the pieces behind it. -/
inductive Scans : List Piece → List Char → Prop where
  | nil {tail} : Scans [] tail
  | cons {p ps tail} : IsGap p.gap →
      scan (p.token.text.toList ++ laid ps tail) = some (p.token, laid ps tail) →
      Scans ps tail → Scans (p :: ps) tail

instance decidableScans : (ps : List Piece) → (tail : List Char) → Decidable (Scans ps tail)
  | [], _ => .isTrue .nil
  | p :: ps, tail =>
    have := decidableScans ps tail
    decidable_of_iff
      (IsGap p.gap ∧ scan (p.token.text.toList ++ laid ps tail) = some (p.token, laid ps tail) ∧
        Scans ps tail)
      ⟨fun ⟨hgap, hscan, h⟩ => .cons hgap hscan h, fun | .cons hgap hscan h => ⟨hgap, hscan, h⟩⟩

/-- Nothing, or a text that starts with a stray character. -/
def Stuck (tail : List Char) : Prop := startsWith isBlank tail = false ∧ scan tail = none

structure Layout where
  pieces : List Piece
  last : List Char
  tail : List Char
  scans : Scans pieces (last ++ tail)
  gap : IsGap last
  stuck : Stuck tail

def Layout.text (l : Layout) : List Char := laid l.pieces (l.last ++ l.tail)

/-! ### Pieces -/

theorem laid_append_tail (ps : List Piece) (cs tail : List Char) :
    laid ps (cs ++ tail) = laid ps cs ++ tail := by
  induction ps with
  | nil => rfl
  | cons p ps ih => simp [laid, ih]

theorem laid_append (ps qs : List Piece) (tail : List Char) :
    laid (ps ++ qs) tail = laid ps (laid qs tail) := by
  induction ps with
  | nil => rfl
  | cons p ps ih => simp [laid, ih]

theorem length_laid (ps : List Piece) (tail : List Char) :
    (laid ps tail).length = (laid ps []).length + tail.length := by
  rw [← List.nil_append tail, laid_append_tail, List.length_append, List.nil_append]

theorem length_laid_cons (p : Piece) (ps : List Piece) (tail : List Char) :
    (laid (p :: ps) tail).length =
      p.gap.length + p.token.text.length + (laid ps tail).length := by
  rw [laid, List.length_append, List.length_append, String.length_toList, Nat.add_assoc]

theorem map_token_placedFrom (position : Nat) (ps : List Piece) :
    (placedFrom position ps).map (·.token) = ps.map (·.token) := by
  induction ps generalizing position with
  | nil => rfl
  | cons p ps ih => simp [placedFrom, ih]

theorem length_placedFrom (position : Nat) (ps : List Piece) :
    (placedFrom position ps).length = ps.length := by
  simpa using congrArg List.length (map_token_placedFrom position ps)

/-- A token stands behind the pieces before it and its own gap. -/
theorem position_placedFrom (position : Nat) (ps : List Piece) (i : Nat) :
    (placedFrom position ps)[i]?.map (·.position) =
      ps[i]?.map fun p => position + (laid (ps.take i) p.gap).length := by
  induction ps generalizing position i with
  | nil => rfl
  | cons p ps ih =>
    cases i with
    | zero => simp [placedFrom, laid]
    | succ i =>
      simp only [placedFrom, List.getElem?_cons_succ, ih, List.take_succ_cons, length_laid_cons,
        Nat.add_assoc]

theorem Scans.append_iff {ps qs : List Piece} {tail : List Char} :
    Scans (ps ++ qs) tail ↔ Scans ps (laid qs tail) ∧ Scans qs tail := by
  induction ps with
  | nil => exact ⟨fun h => ⟨.nil, h⟩, fun h => h.2⟩
  | cons p ps ih =>
    constructor
    · rintro (_ | ⟨hgap, hscan, h⟩)
      rw [List.append_eq, laid_append] at hscan
      obtain ⟨hps, hqs⟩ := ih.mp h
      exact ⟨.cons hgap hscan hps, hqs⟩
    · rintro ⟨_ | ⟨hgap, hscan, hps⟩, hqs⟩
      refine .cons hgap ?_ (ih.mpr ⟨hps, hqs⟩)
      rwa [List.append_eq, laid_append]

/-- What stands behind pieces may be exchanged for a tamer text. -/
theorem Scans.tamer {ps : List Piece} {tail tail' : List Char} (h : Scans ps tail)
    (ht : Tamer tail tail') : Scans ps tail' := by
  induction ps with
  | nil => exact .nil
  | cons p ps ih =>
    obtain _ | ⟨hgap, hscan, h⟩ := h
    refine .cons hgap (scan_tamer hscan ?_) (ih h)
    have hleft := ht.append_left (laid ps [])
    rwa [← laid_append_tail, ← laid_append_tail] at hleft

/-! ### Cutting a text that is laid out -/

theorem scan_of_isBlank {c : Char} (h : isBlank c = true) (cs : List Char) :
    scan (c :: cs) = none := by
  have differs {d : Char} (hd : isBlank d = false) : c ≠ d := by
    rintro rfl
    rw [h] at hd
    cases hd
  have hname : isNameStart c = false := by
    refine Bool.eq_false_iff.mpr fun hn => ?_
    rw [isBlank_of_isNameStart hn] at h
    cases h
  have hdigit : isDigit c = false := by
    refine Bool.eq_false_iff.mpr fun hd => ?_
    rw [isBlank_of_isDigit hd] at h
    cases h
  have hmark : scanMark (c :: cs) = none := by
    unfold scanMark
    split <;> first | rfl | (next e => exact absurd (List.cons.inj e).1 (differs (by decide)))
  rw [scan_of_head (by exact hname)]
  simp [scanString, scanNumber, hmark, hdigit, differs (show isBlank '"' = false by decide),
    differs (show isBlank '\'' = false by decide), differs (show isBlank '-' = false by decide)]

theorem lexFrom_gap {gap : List Char} (h : IsGap gap) (position : Nat) (cs : List Char) :
    lexFrom position (gap ++ cs) = lexFrom (position + gap.length) cs := by
  induction gap generalizing position with
  | nil => rfl
  | cons c gap ih =>
    obtain ⟨hc, hgap⟩ := List.forall_mem_cons.mp h
    rw [List.cons_append, lexFrom, if_pos hc, ih hgap, List.length_cons]
    congr 1
    omega

theorem lexFrom_scan {cs rest : List Char} {t : Token} (h : scan cs = some (t, rest))
    (position : Nat) :
    lexFrom position cs = (lexFrom (position + t.text.length) rest).map (⟨t, position⟩ :: ·) := by
  cases cs with
  | nil => cases h
  | cons c cs =>
    have hc : ¬ isBlank c = true := fun hc => by
      rw [scan_of_isBlank hc] at h
      cases h
    rw [lexFrom, if_neg hc]
    split
    · next e => rw [h] at e; cases e
    · next e =>
      rw [h] at e
      obtain ⟨rfl, rfl⟩ := Prod.mk.inj (Option.some.inj e)
      rfl

theorem lexFrom_stuck {tail : List Char} (h : Stuck tail) (position : Nat) :
    lexFrom position tail = tail.head?.elim (.ok []) fun c => .error ⟨c, position⟩ := by
  cases tail with
  | nil => rw [lexFrom]; rfl
  | cons c rest =>
    have hc : ¬ isBlank c = true := Bool.eq_false_iff.mp h.1
    rw [lexFrom, if_neg hc]
    split
    · rfl
    · next e => rw [h.2] at e; cases e

theorem lexFrom_laid {ps : List Piece} {tail : List Char} (h : Scans ps tail) (position : Nat) :
    lexFrom position (laid ps tail) =
      (lexFrom (position + (laid ps []).length) tail).map (placedFrom position ps ++ ·) := by
  induction h generalizing position with
  | nil =>
    simp only [laid, List.length_nil, Nat.add_zero, placedFrom, List.nil_append]
    cases lexFrom position _ <;> rfl
  | @cons p ps tail hgap hscan _ ih =>
    rw [laid, lexFrom_gap hgap, lexFrom_scan hscan, ih, length_laid_cons]
    simp only [placedFrom, Nat.add_assoc]
    cases lexFrom _ tail <;> rfl

namespace Layout

/-- A text is cut into the tokens of its layout, unless a stray character stops that. -/
theorem lex_text (l : Layout) :
    lex l.text = l.tail.head?.elim (.ok (placedFrom 0 l.pieces))
      fun c => .error ⟨c, (laid l.pieces l.last).length⟩ := by
  rw [lex, text, lexFrom_laid l.scans, lexFrom_gap l.gap, lexFrom_stuck l.stuck,
    length_laid l.pieces l.last, Nat.zero_add]
  cases l.tail.head? with
  | none => simp [Except.map]
  | some c => rfl

theorem lex_eq_ok {l : Layout} {lexemes : List Lexeme} :
    lex l.text = .ok lexemes ↔ l.tail = [] ∧ lexemes = placedFrom 0 l.pieces := by
  rw [lex_text]
  cases l.tail <;> simp [eq_comm]

/-- The text before the character that is stuck. -/
theorem text_eq (l : Layout) : l.text = laid l.pieces l.last ++ l.tail :=
  laid_append_tail ..

/-- White space before a text goes before what its layout starts with. -/
theorem exists_cons {c : Char} (hc : isBlank c = true) (l : Layout) :
    ∃ l' : Layout, l'.text = c :: l.text := by
  obtain ⟨pieces, last, tail, scans, gap, stuck⟩ := l
  cases pieces with
  | nil => exact ⟨⟨[], c :: last, tail, .nil, List.forall_mem_cons.mpr ⟨hc, gap⟩, stuck⟩, rfl⟩
  | cons p ps =>
    obtain _ | ⟨hgap, hscan, scans⟩ := scans
    have hgap' : IsGap (c :: p.gap) := List.forall_mem_cons.mpr ⟨hc, hgap⟩
    exact ⟨⟨⟨c :: p.gap, p.token⟩ :: ps, last, tail, .cons hgap' hscan scans, gap, stuck⟩, rfl⟩

end Layout

/-- Every text has a layout. -/
theorem exists_layout (cs : List Char) : ∃ l : Layout, l.text = cs := by
  fun_induction lexFrom 0 cs with
  | case1 => exact ⟨⟨[], [], [], .nil, .nil, rfl, rfl⟩, rfl⟩
  | case2 position c rest hc ih =>
    obtain ⟨l, rfl⟩ := ih
    exact l.exists_cons hc
  | case3 position c rest hc hscan =>
    have hstuck : Stuck (c :: rest) := ⟨Bool.eq_false_iff.mpr hc, hscan⟩
    exact ⟨⟨[], [], c :: rest, .nil, .nil, hstuck⟩, rfl⟩
  | case4 position c rest hc token rest' hscan ih =>
    obtain ⟨⟨pieces, last, tail, scans, gap, stuck⟩, rfl⟩ := ih
    obtain ⟨hcut, -⟩ := scan_cuts hscan
    rw [← hcut] at hscan ⊢
    have scans' := Scans.cons (p := ⟨[], token⟩) .nil hscan scans
    exact ⟨⟨⟨[], token⟩ :: pieces, last, tail, scans', gap, stuck⟩, rfl⟩

/-! ### Counting tokens -/

/-- How many tokens stand before this place, if it is not inside one. -/
def tokensBefore (cs : List Char) (position : Nat) : Option Nat :=
  match lex (cs.take position) with
  | .ok lexemes => some lexemes.length
  | .error _ => none

/-- Pieces are cut alike if what stands behind them is taken away. -/
theorem lex_laid {qs : List Piece} {gap more : List Char} (h : Scans qs (gap ++ more))
    (hg : IsGap gap) : lex (laid qs gap) = .ok (placedFrom 0 qs) := by
  have h' : Scans qs gap := h.tamer (.of_opening (List.prefix_append gap more))
  simpa [Layout.text] using
    (Layout.lex_eq_ok (l := ⟨qs, gap, [], by simpa using h', hg, rfl, rfl⟩)).mpr ⟨rfl, rfl⟩

theorem tokensBefore_laid {qs : List Piece} {gap more : List Char} (h : Scans qs (gap ++ more))
    (hg : IsGap gap) :
    tokensBefore (laid qs (gap ++ more)) (laid qs gap).length = some qs.length := by
  simp only [tokensBefore, laid_append_tail, List.take_left' rfl, lex_laid h hg,
    length_placedFrom]

/-- Before each token of a layout stand as many tokens as its number says, and before the place
where its tokens end, all of them. -/
theorem Layout.tokensBefore_text (l : Layout) {i : Nat} (hi : i ≤ l.pieces.length) :
    tokensBefore l.text (((placedFrom 0 l.pieces)[i]?.map (·.position)).getD
      (laid l.pieces l.last).length) = some i := by
  rw [position_placedFrom]
  cases hp : l.pieces[i]? with
  | none =>
    obtain rfl : i = l.pieces.length := Nat.le_antisymm hi (List.getElem?_eq_none_iff.mp hp)
    exact tokensBefore_laid l.scans l.gap
  | some p =>
    obtain ⟨hlt, hget⟩ := List.getElem?_eq_some_iff.mp hp
    have hsplit : l.pieces = l.pieces.take i ++ p :: l.pieces.drop (i + 1) := by
      rw [← hget, List.cons_getElem_drop_succ, List.take_append_drop]
    have htext : l.text = laid (l.pieces.take i)
        (p.gap ++ (p.token.text.toList ++ laid (l.pieces.drop (i + 1)) (l.last ++ l.tail))) := by
      conv_lhs => rw [Layout.text, hsplit, laid_append]
      rfl
    have hscans := l.scans
    rw [hsplit] at hscans
    obtain ⟨hfront, _ | ⟨hgap, -, -⟩⟩ := Scans.append_iff.mp hscans
    simp only [Option.map_some, Option.getD_some, Nat.zero_add, htext]
    rw [tokensBefore_laid hfront hgap, List.length_take_of_le hi]

/-! ### Results on two literals -/

/-- The same type is read, or errors name the same token, counted from the front. -/
def SameResult (limit : Limit) (literal literal' : String) : Prop :=
  match parse limit literal, parse limit literal' with
  | .ok t, .ok t' => t' = t
  | .error e, .error e' => ∃ i, tokensBefore literal.toList e.position = some i ∧
      tokensBefore literal'.toList e'.position = some i
  | _, _ => False

/-- The same type, or failures with as many tokens left. -/
inductive SameReading : Except Failure TypeExpr → Except Failure TypeExpr → Prop where
  | ok (t : TypeExpr) : SameReading (.ok t) (.ok t)
  | error {f f' : Failure} : f.rest.length = f'.rest.length → SameReading (.error f) (.error f')

theorem positionOf_eq_getD (lexemes : List Lexeme) (size : Nat) (rest : List Token) :
    positionOf lexemes size rest =
      (lexemes[lexemes.length - rest.length]?.map (·.position)).getD size := by
  rw [positionOf]
  cases lexemes[lexemes.length - rest.length]? <;> rfl

/-- An error in reading a literal stands at the token with which the failure begins. -/
theorem tokensBefore_positionOf {l : Layout} (hl : l.tail = []) (rest : List Token) :
    tokensBefore l.text (positionOf (placedFrom 0 l.pieces) l.text.length rest) =
      some (l.pieces.length - rest.length) := by
  rw [positionOf_eq_getD, length_placedFrom, l.text_eq, hl, List.append_nil]
  have h := l.tokensBefore_text (Nat.sub_le l.pieces.length rest.length)
  rwa [l.text_eq, hl, List.append_nil] at h

/-- Layouts that end alike, with as many pieces that are read alike, have the same result. -/
theorem sameResult_of_layouts {limit : Limit} {literal literal' : String} {l l' : Layout}
    (hl : l.text = literal.toList) (hl' : l'.text = literal'.toList) (htail : l'.tail = l.tail)
    (hlength : l.pieces.length = l'.pieces.length)
    (hread : SameReading (ofTokens limit.levels (l.pieces.map (·.token)))
      (ofTokens limit.levels (l'.pieces.map (·.token)))) :
    SameResult limit literal literal' := by
  unfold SameResult parse
  rw [← hl, ← hl', l.lex_text, l'.lex_text, htail]
  cases hstuck : l.tail with
  | cons c rest =>
    refine ⟨l.pieces.length, tokensBefore_laid l.scans l.gap, ?_⟩
    rw [hlength]
    exact tokensBefore_laid l'.scans l'.gap
  | nil =>
    simp only [List.head?_nil, Option.elim_none, map_token_placedFrom]
    generalize ofTokens limit.levels (l.pieces.map (·.token)) = x at hread
    generalize ofTokens limit.levels (l'.pieces.map (·.token)) = y at hread
    cases hread with
    | ok t => rfl
    | error hrest =>
      refine ⟨_, tokensBefore_positionOf hstuck _, ?_⟩
      rw [hrest, hlength]
      exact tokensBefore_positionOf (htail.trans hstuck) _

/-! ### Edited layouts -/

/-- An exchange of pieces that gives no token before it more to go on with. -/
structure Milder (p p' : Piece) : Prop where
  gap : IsGap p.gap → IsGap p'.gap
  scans {s s'} : Tamer s s' → scan (p.token.text.toList ++ s) = some (p.token, s) →
    scan (p'.token.text.toList ++ s') = some (p'.token, s')
  tamer {s s'} : Tamer s s' → Tamer (p.gap ++ (p.token.text.toList ++ s))
    (p'.gap ++ (p'.token.text.toList ++ s'))

/-- Pieces may be exchanged for milder ones, one by one. -/
theorem Scans.milder {ps ps' : List Piece} {tail tail' : List Char} (h : Scans ps tail)
    (hps : List.Forall₂ Milder ps ps') (ht : Tamer tail tail') :
    Scans ps' tail' ∧ Tamer (laid ps tail) (laid ps' tail') := by
  induction hps with
  | nil => exact ⟨.nil, ht⟩
  | cons hp _ ih =>
    obtain _ | ⟨hgap, hscan, h⟩ := h
    obtain ⟨hscans, htamer⟩ := ih h
    exact ⟨.cons (hp.gap hgap) (hp.scans htamer hscan) hscans, hp.tamer htamer⟩

/-- Two texts whose layouts differ in the pieces and in the white space at the end. -/
inductive Edited (pieces : Piece → Piece → Prop) (gaps : List Char → List Char → Prop) :
    List Char → List Char → Prop where
  | layout (l : Layout) {ps : List Piece} {last : List Char} :
      List.Forall₂ pieces l.pieces ps → gaps l.last last →
      Edited pieces gaps l.text (laid ps (last ++ l.tail))

/-- An edited text has the edited layout, if the edits make it milder. -/
theorem Edited.exists_layouts {pieces : Piece → Piece → Prop} {gaps : List Char → List Char → Prop}
    (hpieces : ∀ {p p'}, pieces p p' → Milder p p')
    (hgaps : ∀ {gap gap'} tail, IsGap gap → gaps gap gap' →
      IsGap gap' ∧ Tamer (gap ++ tail) (gap' ++ tail))
    {cs cs' : List Char} (h : Edited pieces gaps cs cs') :
    ∃ l l' : Layout, l.text = cs ∧ l'.text = cs' ∧ l'.tail = l.tail ∧
      List.Forall₂ pieces l.pieces l'.pieces := by
  obtain ⟨l, hps, hlast⟩ := h
  obtain ⟨hgap, htamer⟩ := hgaps l.tail l.gap hlast
  obtain ⟨hscans, -⟩ := l.scans.milder (hps.imp fun _ _ => hpieces) htamer
  exact ⟨l, ⟨_, _, l.tail, hscans, hgap, l.stuck⟩, rfl, rfl, rfl, hps⟩

end DocComment.TypeExpr
