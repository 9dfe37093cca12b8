import DocComment.Proofs.TypeExpr.RoundTrip
import Mathlib.Data.List.Forall2

/-!
The words of a type expression and the words of its text. A text shows names, literals and keys
in the order in which it is written, and nothing else that is cut into words of its own. So
nothing is joined by printing and nothing comes apart, where labels make no paths and double
quotes in keys are escaped.
-/

namespace DocComment.TypeExpr

open Text

/-- What a type expression says by a word. Heads, labels and the words that a function is
written with are names. -/
inductive Word
  | name (text : String)
  | literal (text : String)
  | key (text : String)
  deriving DecidableEq, Repr

/-- The token that shows a word. A key may be shown in quotes and without. -/
def Word.ShownBy : Word → Token → Prop
  | .name s, token => token = .name s
  | .literal s, token => token = .string s ∨ token = .number s
  | .key s, token => token.key? = some s

def Token.isWord : Token → Bool
  | .name _ | .string _ | .number _ => true
  | _ => false

mutual

/-- The words of a type in the order of its text. -/
def words : TypeExpr → List Word
  | .name s => [.name s]
  | .all | .unknown => []
  | .literal s => [.literal s]
  | .union elements => wordsEach elements
  | .group inner | .optional inner | .nullable inner _ | .nonNullable inner _
  | .variadic inner => words inner
  | .generic head params => .name head :: wordsEach params
  | .field key value => .key key :: wordsAfter value
  | .record fields => wordsEach fields
  | .parameter label inner => .name label :: words inner
  | .function params result receiver built =>
    .name "function" :: (wordsBinding "this" receiver ++ wordsBinding "new" built ++
      wordsEach params ++ wordsAfter result)

def wordsEach : List TypeExpr → List Word
  | [] => []
  | t :: ts => words t ++ wordsEach ts

def wordsAfter : Option TypeExpr → List Word
  | none => []
  | some t => words t

def wordsBinding (label : String) : Option TypeExpr → List Word
  | none => []
  | some t => .name label :: words t

end

/-- The tokens that are words. -/
def shown (ts : List Token) : List Token := ts.filter Token.isWord

theorem shown_append (ts us : List Token) : shown (ts ++ us) = shown ts ++ shown us :=
  List.filter_append ..

theorem shown_word {t : Token} (h : t.isWord = true) (ts : List Token) :
    shown (t :: ts) = t :: shown ts := List.filter_cons_of_pos h

theorem shown_mark {t : Token} (h : t.isWord = false) (ts : List Token) :
    shown (t :: ts) = shown ts := List.filter_cons_of_neg (Bool.eq_false_iff.mp h)

theorem shown_marked {t : Token} (h : t.isWord = false) (ts : List Token) :
    shown (ts ++ [t]) = shown ts := by
  rw [shown_append, shown_mark h]
  exact List.append_nil _

/-- Marks between items show nothing. -/
theorem shown_intercalate {mark : Token} (h : mark.isWord = false) (lists : List (List Token)) :
    shown ([mark].intercalate lists) = lists.flatMap shown := by
  match lists with
  | [] => rfl
  | [ts] => simp
  | ts :: us :: lists =>
    rw [List.intercalate_cons_cons, shown_append, shown_marked h,
      shown_intercalate h (us :: lists)]
    rfl

theorem shownBy_literalToken (s : String) : (Word.literal s).ShownBy (literalToken s) := by
  unfold literalToken
  split
  · exact .inl rfl
  · exact .inr rfl

theorem isWord_literalToken (s : String) : (literalToken s).isWord = true := by
  unfold literalToken
  split <;> rfl

theorem isWord_keyToken (key : String) : (keyToken key).isWord = true := by
  unfold keyToken
  split
  · split <;> rfl
  · rfl

mutual

/-- The canonical tokens of a type show its words. -/
theorem words_tokens : (t : TypeExpr) → List.Forall₂ Word.ShownBy t.words (shown t.tokens)
  | .name s => by
    rw [words, tokens]
    exact .cons rfl .nil
  | .all | .unknown => by
    rw [words, tokens]
    exact .nil
  | .literal s => by
    rw [words, tokens, shown_word (isWord_literalToken s)]
    exact .cons (shownBy_literalToken s) .nil
  | .union elements => by
    rw [words, tokens, shown_intercalate rfl]
    exact wordsEach_tokens elements
  | .group inner => by
    rw [words, tokens, shown_marked rfl, shown_mark rfl]
    exact words_tokens inner
  | .optional inner | .nullable inner .after | .nonNullable inner .after => by
    rw [words, tokens, shown_marked rfl]
    exact words_tokens inner
  | .nullable inner .before | .nonNullable inner .before | .variadic inner => by
    rw [words, tokens, shown_mark rfl]
    exact words_tokens inner
  | .generic head params => by
    rw [words, tokens, shown_marked rfl, shown_word rfl, shown_mark rfl, shown_intercalate rfl]
    exact .cons rfl (wordsEach_tokens params)
  | .field key value => by
    rw [words, tokens, shown_word (isWord_keyToken key)]
    exact .cons (keyToken_key? key) (wordsAfter_tokens value)
  | .record fields => by
    rw [words, tokens, shown_marked rfl, shown_mark rfl, shown_intercalate rfl]
    exact wordsEach_tokens fields
  | .parameter label inner => by
    rw [words, tokens, shown_word rfl, shown_mark rfl]
    exact .cons rfl (words_tokens inner)
  | .function params result receiver built => by
    rw [words, tokens, shown_append, shown_word rfl, shown_mark rfl, shown_mark rfl,
      shown_intercalate rfl, List.flatMap_append, List.flatMap_append]
    refine .cons rfl (List.rel_append (List.rel_append (List.rel_append ?_ ?_) ?_) ?_)
    · exact wordsBinding_tokens "this" receiver
    · exact wordsBinding_tokens "new" built
    · exact wordsEach_tokens params
    · exact wordsAfter_tokens result

theorem wordsEach_tokens : (ts : List TypeExpr) →
    List.Forall₂ Word.ShownBy (wordsEach ts) ((tokensEach ts).flatMap shown)
  | [] => .nil
  | t :: ts => by
    rw [wordsEach, tokensEach, List.flatMap_cons]
    exact List.rel_append (words_tokens t) (wordsEach_tokens ts)

theorem wordsAfter_tokens : (o : Option TypeExpr) →
    List.Forall₂ Word.ShownBy (wordsAfter o) (shown (tokensAfter o))
  | none => .nil
  | some t => by
    rw [wordsAfter, tokensAfter, shown_mark rfl]
    exact words_tokens t

theorem wordsBinding_tokens (label : String) : (o : Option TypeExpr) →
    List.Forall₂ Word.ShownBy (wordsBinding label o) ((tokensBinding label o).flatMap shown)
  | none => .nil
  | some t => by
    rw [wordsBinding, tokensBinding, List.flatMap_singleton, shown_word rfl, shown_mark rfl]
    exact .cons rfl (words_tokens t)

end

/-- The text of a type that was read is cut into tokens whose words are those of the type, if
double quotes in keys are escaped and no label makes a path with the type after it. -/
theorem lex_print {limit : Limit} {literal : String} {t : TypeExpr}
    (h : parse limit literal = .ok t)
    (hkeys : ∀ key value, .field key value ∈ t.subtrees → looseQuote key.toList = false)
    (hlabels : ∀ label inner, .parameter label inner ∈ t.subtrees →
      label = "module" ∨ label = "external" ∨ label = "event" →
        startsWith isPathChar inner.print.toList = false) :
    ∃ lexemes, lex t.print.toList = .ok lexemes ∧
      List.Forall₂ Word.ShownBy t.words (shown (lexemes.map (·.token))) := by
  obtain ⟨lexemes, hlex, htokens⟩ := lex_eq_tokens h ⟨hkeys, hlabels⟩
  refine ⟨lexemes, hlex, ?_⟩
  rw [htokens]
  exact words_tokens t

/-- The label of a path stands before a group here, and a key is shown in quotes. -/
theorem lex_print_kept :
    let t : TypeExpr := .record [.field "b c" (some (.function
      [.parameter "module" (.group (.name "d"))] (some (.generic "Array" [.literal "1.5"]))
      (some (.name "e")) none))]
    parse .standard "\x7b'b c': function(module: (d), this: e): 1.5[]\x7d" = .ok t ∧
      ∃ lexemes, lex t.print.toList = .ok lexemes ∧
        List.Forall₂ Word.ShownBy t.words (shown (lexemes.map (·.token))) := by
  intro t
  have h : parse .standard "\x7b'b c': function(module: (d), this: e): 1.5[]\x7d" = .ok t := by
    decide +kernel
  refine ⟨h, lex_print h ?_ ?_⟩
  · intro key value hm
    simp [t, subtrees, subtreesEach, subtreesAfter] at hm
    rw [hm.1]
    decide
  · intro label inner hm _
    simp [t, subtrees, subtreesEach, subtreesAfter] at hm
    rw [hm.2]
    decide

/-- A label and the name after it become one path, and a double quote ends a key early. -/
theorem lex_print_breaks :
    let labelled : TypeExpr := .function [.parameter "module" (.name "String")] none none none
    let quoted : TypeExpr := .record [.field "\"" (some (.name "x"))]
    (parse .standard "function(module: String)" = .ok labelled ∧
        ∀ lexemes, lex labelled.print.toList = .ok lexemes →
          ¬ List.Forall₂ Word.ShownBy labelled.words (shown (lexemes.map (·.token)))) ∧
      parse .standard "\x7b'\"': x\x7d" = .ok quoted ∧
        ∀ lexemes, lex quoted.print.toList ≠ .ok lexemes := by
  intro labelled quoted
  refine ⟨⟨by decide +kernel, fun lexemes hlex hw => ?_⟩, by decide +kernel, fun lexemes hlex => ?_⟩
  · have htext : lex "function(module:String)".toList = .ok [⟨.name "function", 0⟩, ⟨.openParen, 8⟩,
        ⟨.name "module:String", 9⟩, ⟨.closeParen, 22⟩] := by decide +kernel
    obtain rfl := Except.ok.inj (hlex.symm.trans htext)
    exact absurd hw.length_eq (by decide)
  · have htext : lex "\x7b\"\"\": x\x7d".toList = .error ⟨'"', 3⟩ := by decide +kernel
    cases hlex.symm.trans htext

end DocComment.TypeExpr
