import DocComment.Proofs.TypeExpr.Canonical
import DocComment.TypeExpr.Limit

/-!
Printing a type that was read and reading the text again. The text is cut into the canonical
tokens, part by part: what may follow a type never extends its last word. A parameter whose
label is also the label of a path is the one place where that fails.
-/

namespace DocComment.TypeExpr

open Text

mutual

/-- The type itself and all types that stand in it, fields and parameters included. -/
def subtrees : TypeExpr → List TypeExpr
  | .union elements => .union elements :: subtreesEach elements
  | .group inner => .group inner :: subtrees inner
  | .optional inner => .optional inner :: subtrees inner
  | .nullable inner side => .nullable inner side :: subtrees inner
  | .nonNullable inner side => .nonNullable inner side :: subtrees inner
  | .variadic inner => .variadic inner :: subtrees inner
  | .generic head params => .generic head params :: subtreesEach params
  | .field key value => .field key value :: subtreesAfter value
  | .record fields => .record fields :: subtreesEach fields
  | .parameter label inner => .parameter label inner :: subtrees inner
  | .function params result receiver built =>
    .function params result receiver built ::
      (subtreesEach params ++ subtreesAfter result ++ subtreesAfter receiver ++ subtreesAfter built)
  | t => [t]

def subtreesEach : List TypeExpr → List TypeExpr
  | [] => []
  | t :: ts => subtrees t ++ subtreesEach ts

def subtreesAfter : Option TypeExpr → List TypeExpr
  | none => []
  | some t => subtrees t

end

theorem self_mem_subtrees (t : TypeExpr) : t ∈ t.subtrees := by
  cases t <;> simp [subtrees]

theorem mem_subtreesEach {ts : List TypeExpr} {t u : TypeExpr} (ht : t ∈ ts)
    (hu : u ∈ t.subtrees) : u ∈ subtreesEach ts := by
  induction ts with
  | nil => cases ht
  | cons t' ts ih =>
    rw [subtreesEach]
    rcases List.mem_cons.mp ht with rfl | ht
    · exact List.mem_append_left _ hu
    · exact List.mem_append_right _ (ih ht)

theorem mem_subtreesAfter {o : Option TypeExpr} {t u : TypeExpr} (ht : t ∈ o)
    (hu : u ∈ t.subtrees) : u ∈ subtreesAfter o := by
  obtain rfl := Option.mem_def.mp ht
  exact hu

/-- Keys whose double quotes are all escaped, and labels that make no path with the type after
them. -/
structure Separable (t : TypeExpr) : Prop where
  keys : ∀ key value, .field key value ∈ t.subtrees → looseQuote key.toList = false
  labels : ∀ label inner, .parameter label inner ∈ t.subtrees →
    label = "module" ∨ label = "external" ∨ label = "event" →
      startsWith isPathChar inner.print.toList = false

theorem Separable.of_subset {t u : TypeExpr} (h : Separable t)
    (hsub : ∀ v ∈ u.subtrees, v ∈ t.subtrees) : Separable u :=
  ⟨fun key value hm => h.keys key value (hsub _ hm), fun label inner hm =>
    h.labels label inner (hsub _ hm)⟩

/-- What may stand right after a type. -/
def Ends (suffix : List Char) : Prop := ∀ c ∈ suffix.head?, c ∈ enders

theorem Ends.cons {c : Char} {suffix : List Char} (hc : c ∈ enders) : Ends (c :: suffix) := by
  simpa [Ends] using hc

theorem Ends.stop {word suffix : List Char} (h : Ends suffix) : Stop word suffix := by
  cases suffix with
  | nil => exact .nil
  | cons c suffix => exact .ender (h c rfl)

/-- No path goes on with what may stand after a type. -/
theorem Ends.not_path {suffix : List Char} (h : Ends suffix) :
    startsWith isPathChar suffix = false := by
  cases suffix with
  | nil => rfl
  | cons c suffix => exact (Bool.or_eq_false_iff.mp (outside_of_mem_enders (h c rfl)).2.1).1

theorem stop_label {label : String} {text suffix : List Char} (hs : Ends suffix)
    (h : label = "module" ∨ label = "external" ∨ label = "event" →
      startsWith isPathChar text = false) :
    Stop label.toList (':' :: (text ++ suffix)) := by
  refine .colon (or_iff_not_imp_left.mpr fun hm => ?_)
  have same {word : String} (e : label.toList ++ [':'] = (word ++ ":").toList) : label = word := by
    rw [String.toList_append] at e
    exact String.toList_inj.mp (List.append_cancel_right e)
  simp only [namespaces, List.mem_cons, List.not_mem_nil, or_false, not_not] at hm
  have hlabel : label = "module" ∨ label = "external" ∨ label = "event" := by
    rcases hm with e | e | e
    · exact .inl (same e)
    · exact .inr (.inl (same e))
    · exact .inr (.inr (same e))
  cases text with
  | nil => exact hs.not_path
  | cons c text => exact h hlabel

/-- A text that is cut into the tokens wherever a type may end after it. -/
def Spells (text : List Char) (ts : List Token) : Prop :=
  ∀ suffix rest, Ends suffix → Lexes suffix rest → Lexes (text ++ suffix) (ts ++ rest)

theorem Spells.nil : Spells [] [] := fun _ _ _ hl => hl

theorem Spells.token {t : Token} (h : Scanned t) : Spells t.text.toList [t] :=
  fun _ _ he hl => .token h he.stop hl

theorem Spells.append {text text' : List Char} {ts ts' : List Token} (h : Spells text ts)
    (he : ∀ suffix, Ends (text' ++ suffix)) (h' : Spells text' ts') :
    Spells (text ++ text') (ts ++ ts') := by
  intro suffix rest hs hl
  rw [List.append_assoc, List.append_assoc]
  exact h _ _ (he suffix) (h' suffix rest hs hl)

/-- A mark before a text, which is cut off wherever it stands. -/
theorem Spells.mark {t : Token} {text : List Char} {ts : List Token} (front : List Char)
    (hb : ∀ suffix, startsWith isBlank (front ++ suffix) = false)
    (hs : ∀ suffix, scan (front ++ suffix) = some (t, suffix)) (h : Spells text ts) :
    Spells (front ++ text) (t :: ts) := by
  intro suffix rest he hl
  rw [List.append_assoc]
  exact .scan (hb _) (hs _) (h suffix rest he hl)

/-- A word before a text that keeps it from going on. -/
theorem Spells.word {t : Token} {text : List Char} {ts : List Token} (hscan : Scanned t)
    (hw : ∀ suffix, Ends suffix → Stop t.text.toList (text ++ suffix)) (h : Spells text ts) :
    Spells (t.text.toList ++ text) (t :: ts) := by
  intro suffix rest he hl
  rw [List.append_assoc]
  exact .token hscan (hw suffix he) (h suffix rest he hl)

theorem Spells.colon {text : List Char} {ts : List Token} (h : Spells text ts) :
    Spells (':' :: ' ' :: text) (.colon :: ts) :=
  fun suffix rest he hl => .scan rfl rfl (.blank rfl (h suffix rest he hl))

theorem Spells.label {s : String} {text : List Char} {ts : List Token} (hscan : Scanned (.name s))
    (hs : s = "module" ∨ s = "external" ∨ s = "event" → startsWith isPathChar text = false)
    (h : Spells text ts) : Spells (s.toList ++ ':' :: text) (.name s :: .colon :: ts) := by
  have hcolon : Spells ([':'] ++ text) (.colon :: ts) := h.mark [':'] (fun _ => rfl) fun _ => rfl
  have hstop (suffix : List Char) (he : Ends suffix) : Stop s.toList ([':'] ++ text ++ suffix) :=
    stop_label he hs
  have hword := hcolon.word hscan hstop
  exact hword

/-- One mark right after a type. -/
theorem Spells.ended {c : Char} {t : Token} {text : List Char} {ts : List Token}
    (h : Spells text ts) (hc : c ∈ enders) (hb : isBlank c = false)
    (hs : ∀ suffix, scan (c :: suffix) = some (t, suffix)) :
    Spells (text ++ [c]) (ts ++ [t]) :=
  h.append (fun _ => .cons hc) (.mark [c] (fun _ => hb) hs .nil)

theorem Spells.intercalate {α : Type} {ts : α → List Token} {xs : List α}
    {separator : List Char} {mark : Token} (text : α → List Char)
    (hsep : ∀ suffix rest, Lexes suffix rest →
      Ends (separator ++ suffix) ∧ Lexes (separator ++ suffix) (mark :: rest))
    (h : ∀ x ∈ xs, Spells (text x) (ts x)) :
    Spells (separator.intercalate (xs.map text)) ([mark].intercalate (xs.map ts)) := by
  induction xs with
  | nil => exact fun _ _ _ hl => hl
  | cons x xs ih =>
    obtain ⟨hx, hxs⟩ := List.forall_mem_cons.mp h
    cases xs with
    | nil => simpa using hx
    | cons y ys =>
      intro suffix rest he hl
      obtain ⟨he', hl'⟩ := hsep _ _ (ih hxs suffix rest he hl)
      simpa [List.intercalate_cons_cons] using hx _ _ he' hl'

theorem lexes_comma {suffix : List Char} {rest : List Token} (h : Lexes suffix rest) :
    Ends (", ".toList ++ suffix) ∧ Lexes (", ".toList ++ suffix) (.comma :: rest) :=
  ⟨.cons (by decide), .scan rfl rfl (.blank rfl h)⟩

theorem lexes_pipe {suffix : List Char} {rest : List Token} (h : Lexes suffix rest) :
    Ends ("|".toList ++ suffix) ∧ Lexes ("|".toList ++ suffix) (.pipe :: rest) :=
  ⟨.cons (by decide), .scan rfl rfl h⟩

theorem printList_eq_map (ts : List TypeExpr) : printList ts = ts.map print := by
  induction ts with
  | nil => rfl
  | cons t ts ih => rw [printList, ih, List.map_cons]

def Argument.text : Argument → String
  | .receiver t => "this:" ++ t.print
  | .built t => "new:" ++ t.print
  | .param t => t.print

theorem print_function (params : List TypeExpr) (result receiver built : Option TypeExpr) :
    print (.function params result receiver built) =
      "function(" ++ ", ".intercalate ((argumentsOf params receiver built).map Argument.text) ++
        ")" ++ printAfter ": " result := by
  cases receiver <;> cases built <;>
    simp [print, printBinding, printList_eq_map, argumentsOf, Argument.text, Function.comp_def]

theorem Separable.child {t u : TypeExpr} {more : List TypeExpr}
    (h : Separable t) (e : t.subtrees = t :: more) (hu : ∀ v ∈ u.subtrees, v ∈ more) :
    Separable u :=
  h.of_subset fun v hv => by
    rw [e]
    exact List.mem_cons_of_mem _ (hu v hv)

theorem spells_list {ts : List TypeExpr} {separator : String} {mark : Token}
    (hsep : ∀ suffix rest, Lexes suffix rest →
      Ends (separator.toList ++ suffix) ∧ Lexes (separator.toList ++ suffix) (mark :: rest))
    (h : ∀ t ∈ ts, Spells t.print.toList t.tokens) :
    Spells (separator.intercalate (printList ts)).toList
      ([mark].intercalate (tokensEach ts)) := by
  rw [String.toList_intercalate, printList_eq_map, tokensEach_eq_map, List.map_map]
  exact .intercalate _ hsep h

theorem spells_function {params : List TypeExpr} {result receiver built : Option TypeExpr}
    (hp : ∀ p ∈ params, Spells p.print.toList p.tokens)
    (hr : ∀ t ∈ receiver, Spells t.print.toList t.tokens)
    (hb : ∀ t ∈ built, Spells t.print.toList t.tokens)
    (hres : Spells (printAfter ": " result).toList (tokensAfter result)) :
    Spells (print (.function params result receiver built)).toList
      (tokens (.function params result receiver built)) := by
  have hargs : ∀ a ∈ argumentsOf params receiver built, Spells a.text.toList a.tokens := by
    intro a ha
    simp only [argumentsOf, List.mem_append, List.mem_map, Option.mem_toList] at ha
    rcases ha with (⟨t, ht, rfl⟩ | ⟨t, ht, rfl⟩) | ⟨p, hmem, rfl⟩
    · simpa [Argument.text, Argument.tokens] using
        (hr t ht).label (s := "this") ⟨"this".toList, [], rfl, rfl⟩ (fun h => absurd h (by decide))
    · simpa [Argument.text, Argument.tokens] using
        (hb t ht).label (s := "new") ⟨"new".toList, [], rfl, rfl⟩ (fun h => absurd h (by decide))
    · exact hp p hmem
  have hinner := Spells.intercalate (fun a : Argument => a.text.toList) (fun _ _ => lexes_comma)
    hargs
  have hclosed := hinner.append (fun _ => .cons (by decide))
    (.mark [')'] (fun _ => rfl) (fun _ => rfl) hres)
  have hopen := hclosed.mark ['('] (t := .openParen) (fun _ => rfl) fun _ => rfl
  have hword := hopen.word (t := .name "function") ⟨"function".toList, [], rfl, rfl⟩
    fun _ _ => .ender (by decide)
  rw [print_function, tokens_function]
  simpa [String.toList_intercalate, Function.comp_def, Token.text] using hword

/-- The text of a type that was read is cut into its canonical tokens. -/
theorem Shape.spells_separable {place : Place} {t : TypeExpr} (h : Shape Scanned place t)
    (hr : Separable t) : Spells t.print.toList (tokens t) := by
  induction h with
  | name h =>
    have hword := Spells.token h
    rw [print, tokens]
    exact hword
  | all =>
    rw [print, tokens]
    exact .token (t := .star) ⟨['*'], [], rfl, rfl⟩
  | unknown =>
    rw [print, tokens]
    exact .token (t := .question) ⟨['?'], [], rfl, rfl⟩
  | literal h =>
    rw [print, tokens]
    rcases h with h | h
    · have hword := Spells.token h
      rw [literalToken_string h]
      exact hword
    · have hword := Spells.token h
      rw [literalToken_number h]
      exact hword
  | group _ ih =>
    have hi := ih (hr.child rfl fun _ hv => hv)
    have hended := hi.ended (c := ')') (by decide) rfl fun _ => rfl
    simpa [print, tokens] using hended.mark ['('] (fun _ => rfl) fun _ => rfl
  | @generic head params hhead hne _ ih =>
    have hscan : Scanned (.name head) := by
      rcases hhead with hhead | rfl
      · exact hhead
      · exact ⟨"Array".toList, [], rfl, rfl⟩
    have hi := spells_list (fun _ _ => lexes_comma) fun p hp =>
      ih p hp (hr.child rfl fun _ hv => mem_subtreesEach hp hv)
    have hended := hi.ended (c := '>') (by decide) rfl fun _ => rfl
    have hopen := hended.mark ['.', '<'] (fun _ => rfl) fun _ => rfl
    simpa [print, tokens, Token.text] using hopen.word hscan fun _ _ => .less
  | record hk _ ih =>
    have hi := spells_list (fun _ _ => lexes_comma) fun f hf =>
      ih f hf (hr.child rfl fun _ hv => mem_subtreesEach hf hv)
    have hended := hi.ended (c := '\x7d') (by decide) rfl fun _ => rfl
    simpa [print, tokens] using hended.mark ['\x7b'] (fun _ => rfl) fun _ => rfl
  | procedure _ _ _ ihp ihr ihb =>
    refine spells_function ?_ ?_ ?_ .nil
    · exact fun p h => ihp p h (hr.child rfl fun _ hv => by simp [mem_subtreesEach h hv])
    · exact fun t h => ihr t h (hr.child rfl fun _ hv => by simp [mem_subtreesAfter h hv])
    · exact fun t h => ihb t h (hr.child rfl fun _ hv => by simp [mem_subtreesAfter h hv])
  | nullableAfter _ ih =>
    have hi := ih (hr.child rfl fun _ hv => hv)
    simpa [print, tokens] using hi.ended (c := '?') (by decide) rfl fun _ => rfl
  | nonNullableAfter _ ih =>
    have hi := ih (hr.child rfl fun _ hv => hv)
    simpa [print, tokens] using hi.ended (c := '!') (by decide) rfl fun _ => rfl
  | function _ _ _ _ ihp ihr ihb ih =>
    refine spells_function ?_ ?_ ?_ ?_
    · exact fun p h => ihp p h (hr.child rfl fun _ hv => by simp [mem_subtreesEach h hv])
    · exact fun t h => ihr t h (hr.child rfl fun _ hv => by simp [mem_subtreesAfter h hv])
    · exact fun t h => ihb t h (hr.child rfl fun _ hv => by simp [mem_subtreesAfter h hv])
    · have hi := ih (hr.child rfl fun _ hv => by simp [subtreesAfter, hv])
      simpa [printAfter, tokensAfter] using hi.colon
  | suffixed _ ih | modified _ ih | alternative _ ih | single _ ih | parameter _ _ ih => exact ih hr
  | nullableBefore _ ih =>
    have hi := ih (hr.child rfl fun _ hv => hv)
    simpa [print, tokens] using hi.mark ['?'] (fun _ => rfl) fun _ => rfl
  | nonNullableBefore _ ih =>
    have hi := ih (hr.child rfl fun _ hv => hv)
    simpa [print, tokens] using hi.mark ['!'] (fun _ => rfl) fun _ => rfl
  | variadic _ ih | rest _ ih =>
    have hi := ih (hr.child rfl fun _ hv => hv)
    simpa [print, tokens] using hi.mark ['.', '.', '.'] (fun _ => rfl) fun _ => rfl
  | optional _ ih =>
    have hi := ih (hr.child rfl fun _ hv => hv)
    simpa [print, tokens] using hi.ended (c := '=') (by decide) rfl fun _ => rfl
  | union hl _ ih =>
    rw [print, tokens]
    exact spells_list (fun _ _ => lexes_pipe) fun e he =>
      ih e he (hr.child rfl fun _ hv => mem_subtreesEach he hv)
  | key h hk =>
    have hscan := keyToken_scanned h hk (hr.keys _ _ (self_mem_subtrees _))
    simpa [print, tokens, printAfter, tokensAfter, keyToken_text] using Spells.token hscan
  | field h hk _ ih =>
    have hscan := keyToken_scanned h hk (hr.keys _ _ (self_mem_subtrees _))
    have hi := ih (hr.child rfl fun _ hv => hv)
    simpa [print, tokens, printAfter, tokensAfter, keyToken_text] using
      hi.colon.word hscan fun _ _ => .colon (.inr rfl)
  | labelled h _ _ ih =>
    have hi := ih (hr.child rfl fun _ hv => hv)
    simpa [print, tokens] using hi.label h (hr.labels _ _ (self_mem_subtrees _))
  | labelledRest h _ ih =>
    have hr := hr.child rfl fun _ hv => hv
    have hi := ih (hr.child rfl fun _ hv => hv)
    have hlabelled := hi.label h (hr.labels _ _ (self_mem_subtrees _))
    simpa [print, tokens] using hlabelled.mark ['.', '.', '.'] (fun _ => rfl) fun _ => rfl

theorem parse_shape {limit : Limit} {literal : String} {t : TypeExpr}
    (h : parse limit literal = .ok t) : Shape Scanned .union t := by
  obtain ⟨lexemes, hlex, ht⟩ := parse_eq_ok.mp h
  refine ofTokens_shape (fun u hu => ?_) ht
  obtain ⟨l, hl, rfl⟩ := List.mem_map.mp hu
  exact lexFrom_scanned hlex l hl

/-- The text of a type that was read is cut into its canonical tokens. -/
theorem lex_eq_tokens {limit : Limit} {literal : String} {t : TypeExpr}
    (h : parse limit literal = .ok t) (hr : Separable t) :
    ∃ lexemes, lex t.print.toList = .ok lexemes ∧ lexemes.map (·.token) = tokens t := by
  have hspells := (parse_shape h).spells_separable hr [] [] (by simp [Ends]) .nil
  rw [List.append_nil, List.append_nil] at hspells
  exact hspells 0

end DocComment.TypeExpr
