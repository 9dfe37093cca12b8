import DocComment.Text.Blank
import DocComment.Text.Digit
import DocComment.Text.Search
import DocComment.Text.Word

/-!
The words and marks of a type literal. Scanning takes one token off the front of a text and
tries the longer readings first: a namespaced name before a plain one, three points before
anything else that starts with a point. White space only separates tokens.
-/

namespace DocComment.TypeExpr

open Text

inductive Token
  | name (text : String)
  | string (text : String)
  | number (text : String)
  | ellipsis
  | dotLess
  | less
  | greater
  | openParen
  | closeParen
  | openBrace
  | closeBrace
  | openBracket
  | closeBracket
  | pipe
  | comma
  | colon
  | equals
  | question
  | bang
  | star
  deriving DecidableEq, Repr

/-- A token and the number of characters before it. -/
structure Lexeme where
  token : Token
  position : Nat
  deriving DecidableEq, Repr

/-- A character at which no token starts. -/
structure Stray where
  char : Char
  position : Nat
  deriving DecidableEq, Repr

def Token.text : Token → String
  | .name t | .string t | .number t => t
  | .ellipsis => "..."
  | .dotLess => ".<"
  | .less => "<"
  | .greater => ">"
  | .openParen => "("
  | .closeParen => ")"
  | .openBrace => "\x7b"
  | .closeBrace => "\x7d"
  | .openBracket => "["
  | .closeBracket => "]"
  | .pipe => "|"
  | .comma => ","
  | .colon => ":"
  | .equals => "="
  | .question => "?"
  | .bang => "!"
  | .star => "*"

def isPathChar (c : Char) : Bool := isNameChar c || c == '/' || c == '-' || c == '#' || c == '~'
def isSeparator (c : Char) : Bool := c == '#' || c == '~' || c == '.'

def startsWith (p : Char → Bool) : List Char → Bool
  | [] => false
  | c :: _ => p c

/-- Name characters, and separators that lead on to another identifier. -/
def spanName : List Char → List Char × List Char
  | [] => ([], [])
  | c :: rest =>
    if isNameChar c || (isSeparator c && startsWith isNameStart rest) then
      (c :: (spanName rest).1, (spanName rest).2)
    else ([], c :: rest)

/-- Path characters, and points that lead on to another path character. -/
def spanPath : List Char → List Char × List Char
  | [] => ([], [])
  | c :: rest =>
    if isPathChar c || (c == '.' && startsWith isPathChar rest) then
      (c :: (spanPath rest).1, (spanPath rest).2)
    else ([], c :: rest)

/-- What follows an opening quote, up to and including the closing one. A backslash takes
the next character with it, which may not be a line feed. -/
def closeQuote (quote : Char) : List Char → Option (List Char × List Char)
  | [] => none
  | '\\' :: c :: rest =>
    if c = '\n' then none
    else (closeQuote quote rest).map fun (front, back) => ('\\' :: c :: front, back)
  | c :: rest =>
    if c = quote then some ([c], rest)
    else if c = '\\' then none
    else (closeQuote quote rest).map fun (front, back) => (c :: front, back)

/-- Digits, with a fraction if a digit follows the point. -/
def spanNumber (cs : List Char) : List Char × List Char :=
  match cs.dropWhile isDigit with
  | '.' :: rest =>
    if startsWith isDigit rest then
      (cs.takeWhile isDigit ++ '.' :: rest.takeWhile isDigit, rest.dropWhile isDigit)
    else (cs.takeWhile isDigit, '.' :: rest)
  | rest => (cs.takeWhile isDigit, rest)

def namespaces : List (List Char) :=
  ["module:".toList, "external:".toList, "event:".toList]

def scanPath (label cs : List Char) : Option (Token × List Char) :=
  match label.isPrefixOf? cs with
  | none => none
  | some rest =>
    if startsWith isPathChar rest then
      some (.name (String.ofList (label ++ (spanPath rest).1)), (spanPath rest).2)
    else none

def scanName (cs : List Char) : Option (Token × List Char) :=
  if startsWith isNameStart cs then
    some (.name (String.ofList (spanName cs).1), (spanName cs).2)
  else none

def scanString : List Char → Option (Token × List Char)
  | [] => none
  | c :: rest =>
    if c = '"' || c = '\'' then
      (closeQuote c rest).map fun (front, back) => (.string (String.ofList (c :: front)), back)
    else none

def scanNumber : List Char → Option (Token × List Char)
  | [] => none
  | c :: rest =>
    if c = '-' then
      if startsWith isDigit rest then
        some (.number (String.ofList ('-' :: (spanNumber rest).1)), (spanNumber rest).2)
      else none
    else if isDigit c then
      some (.number (String.ofList (spanNumber (c :: rest)).1), (spanNumber (c :: rest)).2)
    else none

def scanMark : List Char → Option (Token × List Char)
  | '.' :: '.' :: '.' :: rest => some (.ellipsis, rest)
  | '.' :: '<' :: rest => some (.dotLess, rest)
  | '<' :: rest => some (.less, rest)
  | '>' :: rest => some (.greater, rest)
  | '(' :: rest => some (.openParen, rest)
  | ')' :: rest => some (.closeParen, rest)
  | '\x7b' :: rest => some (.openBrace, rest)
  | '\x7d' :: rest => some (.closeBrace, rest)
  | '[' :: rest => some (.openBracket, rest)
  | ']' :: rest => some (.closeBracket, rest)
  | '|' :: rest => some (.pipe, rest)
  | ',' :: rest => some (.comma, rest)
  | ':' :: rest => some (.colon, rest)
  | '=' :: rest => some (.equals, rest)
  | '?' :: rest => some (.question, rest)
  | '!' :: rest => some (.bang, rest)
  | '*' :: rest => some (.star, rest)
  | _ => none

/-- The token at the front of a text that does not start with a blank. -/
def scan (cs : List Char) : Option (Token × List Char) :=
  namespaces.findSome? (scanPath · cs) <|> scanName cs <|> scanString cs <|> scanNumber cs
    <|> scanMark cs

theorem spanName_append (cs : List Char) : (spanName cs).1 ++ (spanName cs).2 = cs := by
  fun_induction spanName cs <;> simp_all

theorem spanPath_append (cs : List Char) : (spanPath cs).1 ++ (spanPath cs).2 = cs := by
  fun_induction spanPath cs <;> simp_all

theorem closeQuote_append {quote : Char} {cs front back : List Char}
    (h : closeQuote quote cs = some (front, back)) : front ++ back = cs := by
  fun_induction closeQuote quote cs generalizing front with
  | case1 => simp at h
  | case2 => simp at h
  | case3 c rest hc ih =>
    obtain ⟨⟨f, b⟩, hfb, he⟩ := Option.map_eq_some_iff.1 h
    simp only [Prod.mk.injEq] at he
    obtain ⟨rfl, rfl⟩ := he
    simp [ih hfb]
  | case4 c rest => simp at h; simp [← h.1, ← h.2]
  | case5 => simp at h
  | case6 c rest _ _ _ ih =>
    obtain ⟨⟨f, b⟩, hfb, he⟩ := Option.map_eq_some_iff.1 h
    simp only [Prod.mk.injEq] at he
    obtain ⟨rfl, rfl⟩ := he
    simp [ih hfb]

theorem spanNumber_append (cs : List Char) : (spanNumber cs).1 ++ (spanNumber cs).2 = cs := by
  have h := List.takeWhile_append_dropWhile (p := isDigit) (l := cs)
  unfold spanNumber
  split
  · next rest e =>
    rw [e] at h
    split <;> simp [h]
  · simp [h]

/-- The token's text and the rest make up the scanned text, and the token is not empty. -/
def Cuts (cs : List Char) (t : Token) (rest : List Char) : Prop :=
  t.text.toList ++ rest = cs ∧ t.text.toList ≠ []

theorem spanName_ne_nil {cs : List Char} (h : startsWith isNameStart cs = true) :
    (spanName cs).1 ≠ [] := by
  cases cs with
  | nil => simp [startsWith] at h
  | cons c rest =>
    have : isNameChar c = true := by
      simp only [startsWith, isNameStart, Bool.or_eq_true, beq_iff_eq] at h
      simp only [isNameChar, Bool.or_eq_true, beq_iff_eq]
      rcases h with (h | rfl) | rfl
      · exact .inl (isWord_of_isAlpha h)
      · exact .inl (by decide)
      · exact .inr rfl
    simp [spanName, this]

theorem scanPath_cuts {label cs rest : List Char} {t : Token} (hl : label ≠ [])
    (h : scanPath label cs = some (t, rest)) : Cuts cs t rest := by
  unfold scanPath at h
  split at h
  · simp at h
  · next tail e =>
    split at h
    · simp only [Option.some.injEq, Prod.mk.injEq] at h
      obtain ⟨rfl, rfl⟩ := h
      simp [Cuts, Token.text, spanPath_append, isPrefixOf?_append e, hl]
    · simp at h

theorem scanName_cuts {cs rest : List Char} {t : Token}
    (h : scanName cs = some (t, rest)) : Cuts cs t rest := by
  unfold scanName at h
  split at h
  · next hs =>
    simp only [Option.some.injEq, Prod.mk.injEq] at h
    obtain ⟨rfl, rfl⟩ := h
    simp [Cuts, Token.text, spanName_append, spanName_ne_nil hs]
  · simp at h

theorem scanString_cuts {cs rest : List Char} {t : Token}
    (h : scanString cs = some (t, rest)) : Cuts cs t rest := by
  unfold scanString at h
  split at h
  · simp at h
  · split at h
    · obtain ⟨⟨f, b⟩, hfb, he⟩ := Option.map_eq_some_iff.1 h
      simp only [Prod.mk.injEq] at he
      obtain ⟨rfl, rfl⟩ := he
      simp [Cuts, Token.text, closeQuote_append hfb]
    · simp at h

theorem scanNumber_cuts {cs rest : List Char} {t : Token}
    (h : scanNumber cs = some (t, rest)) : Cuts cs t rest := by
  unfold scanNumber at h
  split at h
  · simp at h
  · split at h
    · split at h
      · simp only [Option.some.injEq, Prod.mk.injEq] at h
        obtain ⟨rfl, rfl⟩ := h
        simp_all [Cuts, Token.text, spanNumber_append]
      · simp at h
    · next c tail _ =>
      split at h
      · next hd =>
        simp only [Option.some.injEq, Prod.mk.injEq] at h
        obtain ⟨rfl, rfl⟩ := h
        refine ⟨by simp [Token.text, spanNumber_append], ?_⟩
        unfold spanNumber
        split
        · split <;> simp [Token.text, hd]
        · simp [Token.text, hd]
      · simp at h

theorem scanMark_cuts {cs rest : List Char} {t : Token}
    (h : scanMark cs = some (t, rest)) : Cuts cs t rest := by
  unfold scanMark at h
  split at h <;> simp only [Option.some.injEq, Prod.mk.injEq, reduceCtorEq] at h <;>
    obtain ⟨rfl, rfl⟩ := h <;> simp [Cuts, Token.text]

theorem scan_cuts {cs rest : List Char} {t : Token} (h : scan cs = some (t, rest)) :
    Cuts cs t rest := by
  unfold scan at h
  simp only [Option.orElse_eq_orElse, Option.orElse_eq_or, Option.or_eq_some_iff] at h
  rcases h with h | ⟨_, h⟩
  · obtain ⟨label, hl, h⟩ := List.exists_of_findSome?_eq_some h
    refine scanPath_cuts ?_ h
    rintro rfl
    simp [namespaces] at hl
  · rcases h with h | ⟨_, h⟩
    · exact scanName_cuts h
    · rcases h with h | ⟨_, h⟩
      · exact scanString_cuts h
      · rcases h with h | ⟨_, h⟩
        · exact scanNumber_cuts h
        · exact scanMark_cuts h

theorem scan_length {cs rest : List Char} {t : Token} (h : scan cs = some (t, rest)) :
    rest.length < cs.length := by
  obtain ⟨rfl, hne⟩ := scan_cuts h
  have := List.length_pos_iff.2 hne
  simp only [List.length_append]
  omega

/-- The tokens of a text that starts `position` characters into the literal. -/
def lexFrom (position : Nat) (cs : List Char) : Except Stray (List Lexeme) :=
  match cs with
  | [] => .ok []
  | c :: rest =>
    if isBlank c then lexFrom (position + 1) rest
    else
      match _h : scan (c :: rest) with
      | none => .error ⟨c, position⟩
      | some (token, rest') =>
        (lexFrom (position + token.text.length) rest').map (⟨token, position⟩ :: ·)
termination_by cs.length
decreasing_by
  · simp
  · exact scan_length (by assumption)

def lex (cs : List Char) : Except Stray (List Lexeme) := lexFrom 0 cs

end DocComment.TypeExpr
